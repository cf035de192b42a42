import JointQuery.Proofs.Config.Loading

/-! What every configuration has that a node is started with. Its ports are not zero, its budgets are
whole KiB that fit 31 bits, and it passes its checks, whatever stood in the document and whatever
was overridden. -/
namespace JointQuery

namespace OutputLimits

variable {limits next : OutputLimits} {party : Party}

/-- Every budget is a positive number of KiB, of which the bytes fit 31 bits. -/
def Sized (limits : OutputLimits) : Prop :=
  ∀ party, ∃ kib : Nat, 1 ≤ kib ∧ (kib : Int) ≤ maxKib ∧ limits.get party = kib * 1024

private theorem sized_standard : standard.Sized := by
  intro party
  refine ⟨defaultKib, by decide, by decide, ?_⟩
  cases party <;> rfl

private theorem Sized.withKib (sized : limits.Sized) {kib : Option Int}
    (set : limits.withKib party kib = .ok next) : next.Sized := by
  unfold OutputLimits.withKib at set
  split at set
  · obtain rfl := Except.ok.inj set
    exact sized
  · rename_i kib
    split at set
    · rename_i bounds
      obtain rfl := Except.ok.inj set
      intro other
      unfold get
      by_cases same : other = party
      · subst same
        refine ⟨kib.toNat, by omega, by omega, ?_⟩
        rw [PerParty.get_set_self]
      · obtain ⟨before, least, most, bytes⟩ := sized other
        refine ⟨before, least, most, ?_⟩
        rw [PerParty.get_set_ne _ _ same]
        exact bytes
    · cases set

/-- Whatever budgets are given, those that are accepted are sized. -/
theorem sized_ofKib {given : PerParty (Option Int)} (built : ofKib given = .ok limits) :
    limits.Sized := by
  simp only [ofKib, Party.all, List.foldlM_cons, List.foldlM_nil, Config.bind_ok_iff] at built
  obtain ⟨ph, phSet, db1, db1Set, db2, db2Set, same⟩ := built
  obtain rfl := Except.ok.inj same
  exact ((sized_standard.withKib phSet).withKib db1Set).withKib db2Set

theorem Sized.bytes (sized : limits.Sized) (party : Party) :
    1024 ∣ limits.get party ∧ 1024 ≤ limits.get party ∧ limits.get party ≤ 2147483647 := by
  obtain ⟨kib, least, most, bytes⟩ := sized party
  rw [bytes]
  simp only [maxKib] at most
  exact ⟨Nat.dvd_mul_left 1024 kib, by omega, by omega⟩

end OutputLimits

namespace Config

variable {document : ConfigDocument} {config changed : Config}
  {fetch : String → Except String String} {lookup : String → Option String} {text : String}

private theorem sized_resolveLimits {limit : Option BufferLimit} {limits : OutputLimits}
    (resolved : resolveLimits limit = .ok limits) : limits.Sized := by
  unfold resolveLimits at resolved
  split at resolved
  · obtain rfl := Except.ok.inj resolved
    exact OutputLimits.sized_standard
  · exact OutputLimits.sized_ofKib resolved
  · obtain ⟨given, -, built⟩ := bind_ok_iff.mp resolved
    exact OutputLimits.sized_ofKib built

/-- What a node needs of its configuration. -/
structure Sound (config : Config) : Prop extends Checked config where
  limits : config.outputLimits.Sized

private theorem sound_ofText (loaded : ofText text = .ok config) : config.Sound := by
  unfold ofText at loaded
  split at loaded
  · obtain ⟨_, party, limits, _, -, resolved, rfl, checked⟩ := ofDocument_ok_iff.mp loaded
    exact ⟨checked, sized_resolveLimits resolved⟩
  · cases loaded

private theorem overrideParty_ok (taken : overrideParty lookup config = .ok changed) :
    changed = config ∨ ∃ party, changed = config.withLocalParty party := by
  unfold overrideParty at taken
  split at taken
  · exact .inl (Except.ok.inj taken).symm
  · rename_i name _
    cases known : parseParty partyVariable name with
    | error fault => simp [known, Except.map] at taken
    | ok party =>
      rw [known] at taken
      exact .inr ⟨party, (Except.ok.inj taken).symm⟩

private theorem overrideLifetime_ok (taken : overrideLifetime lookup config = .ok changed) :
    ∃ secs, changed = { config with maxSessionLifetimeSecs := secs } := by
  unfold overrideLifetime at taken
  split at taken
  · exact ⟨config.maxSessionLifetimeSecs, (Except.ok.inj taken).symm⟩
  · split at taken
    · rename_i secs _
      exact ⟨secs, (Except.ok.inj taken).symm⟩
    · cases taken

/-- A configuration stays sound when another party becomes the local one. -/
theorem Sound.withLocalParty (sound : config.Sound) (party : Party) :
    (config.withLocalParty party).Sound := by
  refine ⟨⟨sound.connections, ?_, sound.valid⟩, sound.limits⟩
  simp only [Config.withLocalParty]
  split
  · cases party <;> decide
  · exact sound.listen

/-- A configuration stays sound under overrides that succeed. -/
theorem Sound.applyOverrides (sound : config.Sound)
    (overridden : config.applyOverrides lookup = (changed, .ok ())) : changed.Sound := by
  unfold Config.applyOverrides at overridden
  split at overridden
  · simp at overridden
  · rename_i moved partyTaken
    have kept : moved.Sound := by
      rcases overrideParty_ok partyTaken with rfl | ⟨party, rfl⟩
      · exact sound
      · exact sound.withLocalParty party
    split at overridden
    · simp at overridden
    · rename_i timed lifetimeTaken
      obtain ⟨rfl, valid⟩ := Prod.mk.inj overridden
      obtain ⟨secs, rfl⟩ := overrideLifetime_ok lifetimeTaken
      exact ⟨⟨kept.connections, kept.listen, valid⟩, kept.limits⟩

/-- The configurations that a node is started with: one that is read from a text and overridden
without a fault, and one that an environment gives. -/
inductive Accepted : Config → Prop
  | ofText {text : String} {lookup : String → Option String} {config changed : Config}
      (loaded : Config.ofText text = .ok config)
      (overridden : config.applyOverrides lookup = (changed, .ok ())) : Accepted changed
  | ofEnvironment {fetch : String → Except String String} {lookup : String → Option String}
      {config : Config} (started : Config.ofEnvironment fetch lookup = .ok config) : Accepted config

/-- An accepted configuration is sound. -/
theorem Accepted.sound (accepted : config.Accepted) : config.Sound := by
  cases accepted with
  | ofText loaded overridden => exact (sound_ofText loaded).applyOverrides overridden
  | ofEnvironment started =>
    rename_i fetch lookup
    unfold Config.ofEnvironment at started
    split at started
    · cases started
    · obtain ⟨before, loaded, rest⟩ := bind_ok_iff.mp started
      obtain ⟨_, overridden, same⟩ := bind_ok_iff.mp rest
      obtain rfl := Except.ok.inj same
      exact (sound_ofText loaded).applyOverrides (Prod.ext rfl overridden)

end Config

end JointQuery
