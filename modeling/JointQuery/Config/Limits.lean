import JointQuery.Error

/-! How many bytes may be outstanding toward each party. -/
namespace JointQuery

/-- `OutputBufferLimits`: the byte budget of each party. -/
structure OutputLimits where
  bytes : PerParty Nat
  deriving DecidableEq, Repr

namespace OutputLimits

/-- `DEFAULT_OUTPUT_BUFFER_LIMIT_KIB`: the budget in KiB of a party for which none is given. -/
def defaultKib : Nat := 64

/-- `MAX_OUTPUT_BUFFER_LIMIT_KIB`: the largest budget in KiB, whose bytes still fit 31 bits. -/
def maxKib : Int := 2097151

/-- The budgets when none is given. -/
def standard : OutputLimits := ⟨.all (defaultKib * 1024)⟩

/-- The key under which the budget of a party is configured. -/
def key (name : String) : String := "channel_output_buffer_limit." ++ name

/-- Why a budget is refused. -/
def refusal (party : Party) (kib : Int) : ConfigError :=
  .invalid (key party.name)
    ("value must be an integer between 1 and " ++ toString maxKib ++ " (got " ++
      toString kib ++ ")")

/-- Sets the budget of one party, if one is given for it. -/
def withKib (limits : OutputLimits) (party : Party) : Option Int → Except ConfigError OutputLimits
  | none => .ok limits
  | some kib =>
    if 1 ≤ kib ∧ kib ≤ maxKib then .ok ⟨limits.bytes.set party (kib.toNat * 1024)⟩
    else .error (refusal party kib)

/-- `OutputBufferLimits::from_kib`: budgets given in KiB for some of the parties, which are checked
in their order. -/
def ofKib (given : PerParty (Option Int)) : Except ConfigError OutputLimits :=
  Party.all.foldlM (fun limits party => limits.withKib party (given.get party)) standard

/-- `OutputBufferLimits::uniform_kib`: one budget in KiB for every party. -/
def uniform (kib : Int) : Except ConfigError OutputLimits :=
  ofKib (.all (some kib))

/-- `OutputBufferLimits::get`: the budget of a party in bytes. -/
def get (limits : OutputLimits) (party : Party) : Nat := limits.bytes.get party

end OutputLimits

end JointQuery
