import JointQuery.Decimal.Magnitude
import JointQuery.Proofs.Decimal.Nearest

/-! Doubles and the parts that arithmetic works on. A double is taken apart into its sign and its
magnitude, unless its exponent field is all ones; and what arithmetic puts together has the sign and
the magnitude that are put into it, unless that is beyond every double. -/
namespace JointQuery.Decimal

open Float.Model (Format UnpackedFloat)
open Float.Model.UnpackedFloat (Sign packComponents unpackExponent unpackMantissa unpackSign)

section

variable (x : Float)

/-- The bits of a double. -/
def bits (x : Float) : BitVec Format.binary64.numBits := x.toModel.toBits.toBitVec

/-- The sign of a double. -/
def sign (x : Float) : Sign := if isNegative x then .negative else .positive

private theorem toNat_unpackExponent : (unpackExponent (bits x)).toNat = exponentField x := by
  have field : exponentField x = x.toModel.toBits.toNat / 2 ^ 52 % 2 ^ 11 := rfl
  simp [unpackExponent, Nat.shiftRight_eq_div_pow, bits, field]

private theorem toNat_unpackMantissa : (unpackMantissa (bits x)).toNat = fractionField x := by
  have field : fractionField x = x.toModel.toBits.toNat % 2 ^ 52 := rfl
  simp [unpackMantissa, bits, field]

private theorem toNat_unpackSign (word : BitVec Format.binary64.numBits) :
    (unpackSign word).toNat = word.toNat / 2 ^ 63 := by
  have bound : word.toNat < 2 ^ 64 := word.isLt
  have split : (unpackSign word).toNat = word.toNat >>> 63 % 2 := rfl
  rw [split, Nat.shiftRight_eq_div_pow]
  omega

private theorem ofBitVec_unpackSign : Sign.ofBitVec (unpackSign (bits x)) = sign x := by
  have bound := x.toModel.toBits.toNat_lt
  have first : (unpackSign (bits x)).toNat = x.toModel.toBits.toNat / 2 ^ 63 :=
    toNat_unpackSign (bits x)
  have positive : unpackSign (bits x) = 0#1 ↔ x.toModel.toBits.toNat / 2 ^ 63 = 0 := by
    rw [← BitVec.toNat_inj, first]
    rfl
  by_cases large : 2 ^ 63 ≤ x.toModel.toBits.toNat
  · have negative : isNegative x = true := decide_eq_true large
    rw [sign, negative, Sign.ofBitVec, if_neg (by rw [positive]; omega)]
    rfl
  · have negative : isNegative x = false := decide_eq_false large
    rw [sign, negative, Sign.ofBitVec, if_pos (by rw [positive]; omega)]
    rfl

theorem fractionField_lt : fractionField x < 2 ^ 52 := Nat.mod_lt _ (by decide)

theorem exponentField_lt : exponentField x < 2 ^ 11 := Nat.mod_lt _ (by decide)

theorem isFinite_iff : isFinite x = true ↔ exponentField x ≠ 2047 := by
  simp [isFinite]

end

/-- What a double is taken apart into. -/
inductive Unpacks (x : Float) : UnpackedFloat → Prop where
  | beyond {unpacked : UnpackedFloat} (field : isFinite x = false)
      (special : (∃ s, unpacked = .infinity s) ∨ unpacked = .notANumber) : Unpacks x unpacked
  | zero (field : isFinite x = true) (empty : (magnitude x).mantissa = 0) :
      Unpacks x (.zero (sign x))
  | finite (field : isFinite x = true) (positive : 0 < (magnitude x).mantissa) :
      Unpacks x (.finite (sign x) (magnitude x).mantissa (magnitude x).exponent positive)

private theorem Unpacks.of_parts {x : Float} (field : isFinite x = true) {s : Sign} {m : ℕ} {e : ℤ}
    (signs : s = sign x) (parts : magnitude x = ⟨m, e⟩) (positive : 0 < m) :
    Unpacks x (.finite s m e positive) := by
  obtain rfl : (magnitude x).mantissa = m := congrArg Magnitude.mantissa parts
  obtain rfl : (magnitude x).exponent = e := congrArg Magnitude.exponent parts
  subst signs
  exact .finite field positive

theorem unpacks (x : Float) : Unpacks x x.toModel.unpack := by
  have exponent := toNat_unpackExponent x
  have fraction := toNat_unpackMantissa x
  have signs := ofBitVec_unpackSign x
  change Unpacks x (if unpackExponent (bits x) = _ then
      if unpackMantissa (bits x) = _ then _ else _
    else if unpackExponent (bits x) = _ then
      if _ : unpackMantissa (bits x) = _ then _ else _
    else _)
  by_cases top : unpackExponent (bits x) = -1#11
  · have beyond : isFinite x = false := by
      rw [isFinite, ← exponent, top]
      rfl
    rw [if_pos top]
    by_cases none : unpackMantissa (bits x) = 0#52
    · rw [if_pos none]
      exact .beyond beyond (.inl ⟨_, rfl⟩)
    · rw [if_neg none]
      exact .beyond beyond (.inr rfl)
  have finite : isFinite x = true := by
    rw [isFinite_iff, ← exponent]
    exact fun same => top (BitVec.toNat_inj.mp same)
  rw [if_neg top]
  by_cases low : unpackExponent (bits x) = 0#11
  · have field : exponentField x = 0 := by
      rw [← exponent]
      exact congrArg BitVec.toNat low
    have parts : magnitude x = ⟨fractionField x, -1074⟩ := by simp [magnitude, field]
    rw [if_pos low]
    by_cases none : unpackMantissa (bits x) = 0#52
    · have empty : (magnitude x).mantissa = 0 := by
        rw [parts, ← fraction]
        exact congrArg BitVec.toNat none
      rw [dif_pos none]
      exact signs ▸ .zero finite empty
    · rw [dif_neg none]
      refine .of_parts finite signs ?_ _
      rw [parts, ← fraction]
      refine congrArg _ ?_
      change _ = ((unpackExponent (bits x)).toNat : ℤ) - (1023 + 52) + 1
      rw [exponent, field]
      rfl
  · have field : exponentField x ≠ 0 := by
      rw [← exponent]
      exact fun same => low (BitVec.toNat_inj.mp same)
    have parts : magnitude x = ⟨fractionField x + 2 ^ 52, exponentField x - 1075⟩ := by
      simp [magnitude, field]
    have mantissa : (1#1 ++ unpackMantissa (bits x)).toNat = fractionField x + 2 ^ 52 := by
      rw [BitVec.toNat_append, ← Nat.shiftLeft_add_eq_or_of_lt (BitVec.isLt _), fraction,
        Nat.shiftLeft_eq]
      exact Nat.add_comm _ _
    rw [if_neg low]
    refine .of_parts finite signs ?_ _
    rw [parts, ← mantissa, ← exponent]
    rfl

/-- The double that parts are put together to. -/
def packed (unpacked : UnpackedFloat) : Float := .ofModel (.pack unpacked)

private theorem bits_packed (unpacked : UnpackedFloat) :
    bits (packed unpacked) = UnpackedFloat.pack Format.binary64 unpacked := rfl

private theorem toNat_packComponents (s : Sign) (e : BitVec 11) (m : BitVec 52) :
    (packComponents Format.binary64 s e m).toNat =
      (s.toBitVec.toNat * 2 ^ 11 + e.toNat) * 2 ^ 52 + m.toNat := by
  change (s.toBitVec ++ e ++ m).toNat = _
  rw [BitVec.toNat_append, ← Nat.shiftLeft_add_eq_or_of_lt m.isLt, BitVec.toNat_append,
    ← Nat.shiftLeft_add_eq_or_of_lt e.isLt, Nat.shiftLeft_eq, Nat.shiftLeft_eq]

/-- What is put together is taken apart into the same components. -/
theorem unpack_packComponents (s : Sign) (e : BitVec 11) (m : BitVec 52) :
    Sign.ofBitVec (unpackSign (packComponents Format.binary64 s e m)) = s ∧
      (unpackExponent (packComponents Format.binary64 s e m)).toNat = e.toNat ∧
      (unpackMantissa (packComponents Format.binary64 s e m)).toNat = m.toNat := by
  have whole := toNat_packComponents s e m
  have sign : s.toBitVec.toNat < 2 := s.toBitVec.isLt
  have exponent := e.isLt
  have mantissa := m.isLt
  have first : unpackSign (packComponents Format.binary64 s e m) = s.toBitVec := by
    rw [← BitVec.toNat_inj, toNat_unpackSign, whole]
    omega
  refine ⟨?_, ?_, ?_⟩
  · rw [first]
    cases s <;> rfl
  · simp [unpackExponent, Nat.shiftRight_eq_div_pow, whole]
    omega
  · simp [unpackMantissa, whole]
    omega

/-- The fields of what is put together. -/
theorem fields_packed {unpacked : UnpackedFloat} {s : Sign} {e : BitVec 11} {m : BitVec 52}
    (made : UnpackedFloat.pack Format.binary64 unpacked = packComponents Format.binary64 s e m) :
    sign (packed unpacked) = s ∧ exponentField (packed unpacked) = e.toNat ∧
      fractionField (packed unpacked) = m.toNat := by
  rw [← ofBitVec_unpackSign, ← toNat_unpackExponent, ← toNat_unpackMantissa, bits_packed, made]
  exact unpack_packComponents s e m

theorem fields_zero (s : Sign) : sign (packed (.zero s)) = s ∧
    exponentField (packed (.zero s)) = 0 ∧ fractionField (packed (.zero s)) = 0 :=
  fields_packed (e := 0) (m := 0) rfl

theorem packed_zero (s : Sign) : isFinite (packed (.zero s)) = true ∧
    magnitude (packed (.zero s)) = ⟨0, -1074⟩ := by
  obtain ⟨-, exponent, fraction⟩ := fields_zero s
  constructor
  · rw [isFinite, exponent]
    rfl
  · simp [magnitude, exponent, fraction]

theorem packed_infinity (s : Sign) : isFinite (packed (.infinity s)) = false := by
  have made : UnpackedFloat.pack Format.binary64 (.infinity s) =
      packComponents Format.binary64 s (BitVec.ofNat 11 2047) 0 := rfl
  rw [isFinite, (fields_packed made).2.1]
  rfl

theorem packed_notANumber : isFinite (packed .notANumber) = false := by
  have made : UnpackedFloat.pack Format.binary64 .notANumber =
      packComponents Format.binary64 .positive (BitVec.ofNat 11 2047) (BitVec.ofNat 52 (2 ^ 51)) :=
    rfl
  rw [isFinite, (fields_packed made).2.1]
  rfl

private theorem pack_finite {s : Sign} {m : ℕ} {e : ℤ} (positive : 0 < m) :
    UnpackedFloat.pack Format.binary64 (.finite s m e positive) =
      if 2 ^ 11 ≤ (e + Format.binary64.exponentBias + (52 : ℕ)).toNat + 1 then
        UnpackedFloat.pack Format.binary64 (.infinity s)
      else if m.log2 + 1 = 53 then
        packComponents Format.binary64 s
          (BitVec.ofNat 11 (e + Format.binary64.exponentBias + (52 : ℕ)).toNat) (BitVec.ofNat 52 m)
      else packComponents Format.binary64 s 0#11 (BitVec.ofNat 52 m) :=
  rfl

/-- The sign of what is put together. -/
theorem sign_packed {s : Sign} {m : ℕ} {e : ℤ} (positive : 0 < m) :
    sign (packed (.finite s m e positive)) = s := by
  have made : ∃ f n, UnpackedFloat.pack Format.binary64 (.finite s m e positive) =
      packComponents Format.binary64 s f n := by
    rw [pack_finite]
    split
    · exact ⟨_, _, rfl⟩
    · split <;> exact ⟨_, _, rfl⟩
  obtain ⟨f, n, made⟩ := made
  exact (fields_packed made).1

/-- A mantissa of 53 bits, or of fewer at the smallest exponent. -/
structure Canonical (m : ℕ) (e : ℤ) : Prop where
  least : -1074 ≤ e
  below : m < 2 ^ 53
  full : 2 ^ 52 ≤ m ∨ e = -1074

private theorem log2_eq {m : ℕ} (full : 2 ^ 52 ≤ m) (below : m < 2 ^ 53) : m.log2 = 52 :=
  (Nat.log2_eq_iff (by omega)).mpr ⟨full, below⟩

section

variable {s : Sign} {m : ℕ} {e : ℤ}

/-- The exponent field of what is put together, unless the mantissa is too short. -/
theorem biased_eq (e : ℤ) :
    (e + Format.binary64.exponentBias + (52 : ℕ)).toNat = (e + 1075).toNat := by
  have bias : (Format.binary64.exponentBias : ℤ) = 1023 := rfl
  rw [bias]
  omega

private theorem packed_normal (positive : 0 < m) (least : -1074 ≤ e) (most : e ≤ 971)
    (full : 2 ^ 52 ≤ m) (below : m < 2 ^ 53) :
    isFinite (packed (.finite s m e positive)) = true ∧
      magnitude (packed (.finite s m e positive)) = ⟨m, e⟩ := by
  have within : ¬ 2 ^ 11 ≤ (e + 1075).toNat + 1 := by omega
  have made : UnpackedFloat.pack Format.binary64 (.finite s m e positive) =
      packComponents Format.binary64 s (BitVec.ofNat 11 (e + 1075).toNat) (BitVec.ofNat 52 m) := by
    rw [pack_finite, biased_eq, if_neg within, log2_eq full below, if_pos rfl]
  obtain ⟨-, exponent, fraction⟩ := fields_packed made
  have field : (e + 1075).toNat % 2 ^ 11 = (e + 1075).toNat := Nat.mod_eq_of_lt (by omega)
  have rest : m % 2 ^ 52 = m - 2 ^ 52 := by omega
  rw [BitVec.toNat_ofNat, field] at exponent
  rw [BitVec.toNat_ofNat, rest] at fraction
  constructor
  · rw [isFinite_iff, exponent]
    omega
  · rw [magnitude, exponent, if_neg (by omega), fraction]
    simp only [Nat.pow_eq, Magnitude.mk.injEq]
    omega

private theorem packed_subnormal (positive : 0 < m) (few : m < 2 ^ 52) :
    isFinite (packed (.finite s m (-1074) positive)) = true ∧
      magnitude (packed (.finite s m (-1074) positive)) = ⟨m, -1074⟩ := by
  have short : ¬ m.log2 + 1 = 53 := by
    have less : m.log2 < 52 := (Nat.log2_lt (by omega)).mpr few
    omega
  have within : ¬ 2 ^ 11 ≤ ((-1074 : ℤ) + 1075).toNat + 1 := by decide
  have made : UnpackedFloat.pack Format.binary64 (.finite s m (-1074) positive) =
      packComponents Format.binary64 s 0#11 (BitVec.ofNat 52 m) := by
    rw [pack_finite, biased_eq, if_neg within, if_neg short]
  obtain ⟨-, exponent, fraction⟩ := fields_packed made
  rw [BitVec.toNat_ofNat, Nat.mod_eq_of_lt few] at fraction
  constructor
  · rw [isFinite, exponent]
    rfl
  · rw [magnitude, if_pos (show _ = 0 from exponent), fraction]

private theorem packed_beyond (positive : 0 < m) (large : 971 < e) :
    isFinite (packed (.finite s m e positive)) = false := by
  have beyond : 2 ^ 11 ≤ (e + 1075).toNat + 1 := by omega
  have made : UnpackedFloat.pack Format.binary64 (.finite s m e positive) =
      UnpackedFloat.pack Format.binary64 (.infinity s) := by
    rw [pack_finite, biased_eq, if_pos beyond]
  obtain ⟨-, exponent, -⟩ := fields_packed made
  rw [isFinite, exponent]
  rfl

/-- A magnitude in its canonical form is that of a double unless its exponent is too large. -/
theorem packed_finite (positive : 0 < m) (canonical : Canonical m e) :
    if e ≤ 971 then isFinite (packed (.finite s m e positive)) = true ∧
      magnitude (packed (.finite s m e positive)) = ⟨m, e⟩
    else isFinite (packed (.finite s m e positive)) = false := by
  obtain ⟨least, below, full⟩ := canonical
  by_cases small : e ≤ 971
  · rw [if_pos small]
    by_cases normal : 2 ^ 52 ≤ m
    · exact packed_normal positive least small normal below
    · obtain rfl : e = -1074 := full.resolve_left normal
      exact packed_subnormal positive (by omega)
  · rw [if_neg small]
    exact packed_beyond positive (by omega)

end

end JointQuery.Decimal
