import JointQuery.Proofs.Json.Tokens

/-! A written value is read back, as long as it nests no deeper than a text may. What is read from a
text never nests deeper than that, so a value that nests no deeper than one that was read can always
be read from its written form. -/
namespace JointQuery.Json

open Decimal (Number)

variable {value item : Json} {items : List Json} {members : List (String × Json)}
  {fuel depth : Nat} {text rest : List Char}

mutual
/-- How many containers lie inside each other at the deepest place of a value. -/
def nesting : Json → Nat
  | .array items => 1 + itemsNesting items
  | .object members => 1 + membersNesting members
  | _ => 0

/-- The deepest nesting of any item. -/
def itemsNesting : List Json → Nat
  | [] => 0
  | item :: rest => max (nesting item) (itemsNesting rest)

/-- The deepest nesting of any member's value. -/
def membersNesting : List (String × Json) → Nat
  | [] => 0
  | (_, value) :: rest => max (nesting value) (membersNesting rest)
end

mutual
/-- Every part of a value can be written and every number in it is read back. -/
def Faithful : Json → Prop
  | .number n => n.ReadsBack
  | .array items => FaithfulItems items
  | .object members => FaithfulMembers members
  | .unreadable => False
  | _ => True

/-- Every item is faithful. -/
def FaithfulItems : List Json → Prop
  | [] => True
  | item :: rest => Faithful item ∧ FaithfulItems rest

/-- Every member's value is faithful. -/
def FaithfulMembers : List (String × Json) → Prop
  | [] => True
  | (_, value) :: rest => Faithful value ∧ FaithfulMembers rest
end

theorem itemsNesting_le_iff {n : Nat} :
    itemsNesting items ≤ n ↔ ∀ item ∈ items, item.nesting ≤ n := by
  induction items with
  | nil => simp [itemsNesting]
  | cons item rest ih => rw [itemsNesting, Nat.max_le, ih, List.forall_mem_cons]

theorem membersNesting_le_iff {n : Nat} :
    membersNesting members ≤ n ↔ ∀ member ∈ members, member.2.nesting ≤ n := by
  induction members with
  | nil => simp [membersNesting]
  | cons member rest ih => rw [membersNesting, Nat.max_le, ih, List.forall_mem_cons]

theorem nesting_le_items (member : item ∈ items) : item.nesting ≤ itemsNesting items :=
  itemsNesting_le_iff.mp (Nat.le_refl _) item member

theorem nesting_le_members {member : String × Json} (present : member ∈ members) :
    member.2.nesting ≤ membersNesting members :=
  membersNesting_le_iff.mp (Nat.le_refl _) member present

theorem faithfulItems_iff : FaithfulItems items ↔ ∀ item ∈ items, item.Faithful := by
  induction items with
  | nil => simp [FaithfulItems]
  | cons item rest ih => simp [FaithfulItems, ih]

theorem faithfulMembers_iff : FaithfulMembers members ↔ ∀ member ∈ members, member.2.Faithful := by
  induction members with
  | nil => simp [FaithfulMembers]
  | cons member rest ih => simp [FaithfulMembers, ih]

mutual
/-- Every part of a faithful value can be read. -/
theorem isReadable_of_faithful : (value : Json) → value.Faithful → value.isReadable = true
  | .null, _ | .bool _, _ | .number _, _ | .string _, _ => rfl
  | .array items, faithful => allReadable_of_faithful items faithful
  | .object members, faithful => membersReadable_of_faithful members faithful

/-- Every part of faithful items can be read. -/
theorem allReadable_of_faithful :
    (items : List Json) → FaithfulItems items → allReadable items = true
  | [], _ => rfl
  | item :: rest, ⟨first, others⟩ => by
    rw [allReadable, isReadable_of_faithful item first, allReadable_of_faithful rest others]
    rfl

/-- Every part of faithful members can be read. -/
theorem membersReadable_of_faithful :
    (members : List (String × Json)) → FaithfulMembers members → membersReadable members = true
  | [], _ => rfl
  | (key, value) :: rest, ⟨first, others⟩ => by
    rw [membersReadable, isReadable_of_faithful value first,
      membersReadable_of_faithful rest others]
    rfl
end

/-! ## Reading what was written -/

private theorem skipSpace_cons {c : Char} (visible : isSpace c = false) (rest : List Char) :
    skipSpace (c :: rest) = c :: rest := by
  simp [skipSpace, visible]

/-- A character at which a value can start. -/
def Starts (c : Char) : Prop :=
  c = 'n' ∨ c = 't' ∨ c = 'f' ∨ c = '"' ∨ c = '[' ∨ c = '\x7b' ∨ c = '-' ∨ c.isDigit = true

private theorem Starts.visible {c : Char} (starts : Starts c) : isSpace c = false ∧ c ≠ ']' := by
  rcases starts with rfl | rfl | rfl | rfl | rfl | rfl | rfl | digit
  · decide
  · decide
  · decide
  · decide
  · decide
  · decide
  · decide
  · constructor
    · cases space : isSpace c with
      | false => rfl
      | true =>
        simp only [isSpace, Bool.or_eq_true, beq_iff_eq] at space
        rcases space with ((rfl | rfl) | rfl) | rfl <;> exact absurd digit (by decide)
    · rintro rfl
      exact absurd digit (by decide)

/-- A faithful number starts with a sign or a digit. -/
theorem head_numberText {number : Number} (reads : number.ReadsBack) :
    ∃ c others, numberText number = c :: others ∧ (c = '-' ∨ c.isDigit = true) := by
  obtain ⟨literal, scanned, -⟩ := scanNumber_numberText reads stops_nil
  rw [List.append_nil] at scanned
  exact head_of_scanNumber scanned

private theorem head_write (faithful : value.Faithful) :
    ∃ c others, write value = c :: others ∧ Starts c := by
  cases value with
  | null => exact ⟨_, _, rfl, .inl rfl⟩
  | bool b =>
    cases b with
    | true => exact ⟨_, _, rfl, .inr (.inl rfl)⟩
    | false => exact ⟨_, _, rfl, .inr (.inr (.inl rfl))⟩
  | number n =>
    obtain ⟨c, others, written, first⟩ := head_numberText faithful
    exact ⟨c, others, written, .inr (.inr (.inr (.inr (.inr (.inr first)))))⟩
  | string s => exact ⟨_, _, rfl, .inr (.inr (.inr (.inl rfl)))⟩
  | array items => cases items <;> exact ⟨_, _, rfl, .inr (.inr (.inr (.inr (.inl rfl))))⟩
  | object members =>
    cases members <;> exact ⟨_, _, rfl, .inr (.inr (.inr (.inr (.inr (.inl rfl)))))⟩
  | unreadable => exact absurd faithful (by simp [Faithful])

private theorem scanValue_number {number : Number} (reads : number.ReadsBack) (stops : Stops rest) :
    scanValue (fuel + 1) depth (numberText number ++ rest) = some (.number number, rest) := by
  obtain ⟨literal, scanned, value⟩ := scanNumber_numberText reads stops
  obtain ⟨c, others, written, first⟩ := head_numberText reads
  have starts : Starts c := .inr (.inr (.inr (.inr (.inr (.inr first)))))
  have letter (d : Char) (signless : d ≠ '-') (digitless : d.isDigit = false) : c ≠ d := by
    rintro rfl
    rcases first with same | digit
    · exact signless same
    · simp [digitless] at digit
  rw [written, List.cons_append] at scanned ⊢
  unfold scanValue
  rw [skipSpace_cons starts.visible.1]
  split
  · rename_i same
    exact absurd (List.cons.inj same).1 (letter 'n' (by decide) (by decide))
  · rename_i same
    exact absurd (List.cons.inj same).1 (letter 't' (by decide) (by decide))
  · rename_i same
    exact absurd (List.cons.inj same).1 (letter 'f' (by decide) (by decide))
  · rename_i same
    exact absurd (List.cons.inj same).1 (letter '"' (by decide) (by decide))
  · rename_i same
    exact absurd (List.cons.inj same).1 (letter '[' (by decide) (by decide))
  · rename_i same
    exact absurd (List.cons.inj same).1 (letter '\x7b' (by decide) (by decide))
  · simp [scanned, ofLiteral, value]

private theorem scanValue_array {c : Char} (visible : isSpace c = false) (more : c ≠ ']')
    (text : List Char) : scanValue (fuel + 1) depth ('[' :: c :: text) =
      (scanItems fuel (depth + 1) (c :: text)).map fun scanned =>
        (bounded (depth + 1) (.array scanned.1), scanned.2) := by
  simp only [scanValue]
  rw [skipSpace_cons (by decide)]
  simp only [skipSpace_cons visible]
  split
  · rename_i same
    exact absurd (List.cons.inj same).1 more
  · rfl

private theorem scanValue_object (text : List Char) :
    scanValue (fuel + 1) depth ('\x7b' :: '"' :: text) =
      (scanMembers fuel (depth + 1) ('"' :: text)).map fun scanned =>
        (bounded (depth + 1) (ofMembers scanned.1), scanned.2) := by
  simp only [scanValue]
  rw [skipSpace_cons (by decide)]
  simp only [skipSpace_cons (by decide : isSpace '"' = false)]
  rfl

/-- What it takes to read the written form of a value: fuel for its length and levels to spare. -/
structure Fits (value : Json) (text : List Char) (fuel depth : Nat) : Prop where
  faithful : value.Faithful
  depth : depth + value.nesting ≤ maxDepth
  fuel : text.length ≤ fuel

/-- With so much fuel the written form of a value is read, and what follows it is left. -/
def ReadsValues (fuel : Nat) : Prop :=
  ∀ value depth rest, Fits value (write value) fuel depth → Stops rest →
    scanValue fuel depth (write value ++ rest) = some (value, rest)

/-- With so much fuel the written items of an array are read to its end. -/
def ReadsItems (fuel : Nat) : Prop :=
  ∀ item others depth rest, FaithfulItems (item :: others) →
    depth + itemsNesting (item :: others) ≤ maxDepth →
    (write item ++ writeItems others).length ≤ fuel →
    scanItems fuel depth (write item ++ writeItems others ++ rest) = some (item :: others, rest)

/-- With so much fuel the written members of an object are read to its end. -/
def ReadsMembers (fuel : Nat) : Prop :=
  ∀ key value others depth rest, FaithfulMembers ((key, value) :: others) →
    depth + membersNesting ((key, value) :: others) ≤ maxDepth →
    (quotedText key ++ ':' :: write value ++ writeMembers others).length ≤ fuel →
    scanMembers fuel depth (quotedText key ++ ':' :: write value ++ writeMembers others ++ rest) =
      some ((some key, value) :: others.map fun member => (some member.1, member.2), rest)

private theorem readsValues_succ (arrays : ReadsItems fuel) (objects : ReadsMembers fuel) :
    ReadsValues (fuel + 1) := by
  intro value depth rest fits stops
  obtain ⟨faithful, deep, short⟩ := fits
  cases value with
  | null => rfl
  | bool b => cases b <;> rfl
  | number n => exact scanValue_number faithful stops
  | string s =>
    obtain ⟨pieces, written, scanned, spelled⟩ := scanString_quotedText s rest
    rw [write, written]
    simp only [scanValue, skipSpace_cons (by decide : isSpace '"' = false), scanned,
      Option.map_some, ofPieces, spelled]
  | array items =>
    have within : depth + 1 ≤ maxDepth := by
      rw [nesting] at deep
      omega
    cases items with
    | nil => simp [write, scanValue, skipSpace_cons, isSpace, bounded, within]
    | cons item others =>
      obtain ⟨c, text, written, starts⟩ := head_write faithful.1
      have scanned := arrays item others (depth + 1) rest faithful
        (by rw [nesting] at deep; omega) (by simpa [write] using short)
      have shape : write (.array (item :: others)) ++ rest =
          '[' :: (write item ++ writeItems others ++ rest) := by simp [write]
      rw [written, List.cons_append, List.cons_append] at shape scanned
      rw [shape, scanValue_array starts.visible.1 starts.visible.2, scanned, Option.map_some,
        bounded, if_pos within]
  | object members =>
    have within : depth + 1 ≤ maxDepth := by
      rw [nesting] at deep
      omega
    cases members with
    | nil => simp [write, scanValue, skipSpace_cons, isSpace, bounded, within]
    | cons member others =>
      obtain ⟨key, value⟩ := member
      have scanned := objects key value others (depth + 1) rest faithful
        (by rw [nesting] at deep; omega) (by simpa [write] using short)
      have shape : write (.object ((key, value) :: others)) ++ rest =
          '\x7b' :: (quotedText key ++ ':' :: write value ++ writeMembers others ++ rest) := by
        simp [write]
      obtain ⟨text, quoted⟩ : ∃ text, quotedText key ++ ':' :: write value ++
          writeMembers others ++ rest = '"' :: text := ⟨_, rfl⟩
      rw [shape, quoted, scanValue_object, ← quoted, scanned]
      simp [bounded, within, ofMembers, Function.comp_def]
  | unreadable => exact absurd faithful (by simp [Faithful])

private theorem readsItems_succ (values : ReadsValues fuel) (arrays : ReadsItems fuel) :
    ReadsItems (fuel + 1) := by
  intro item others depth rest faithful deep short
  rw [itemsNesting] at deep
  have longer : (write item).length < (write item ++ writeItems others).length := by
    cases others <;> simp [writeItems]
  have first := values item depth (writeItems others ++ rest)
    ⟨faithful.1, by omega, by omega⟩ (stops_writeItems others rest)
  simp only [scanItems, List.append_assoc, first, Option.bind_eq_bind, Option.bind_some]
  cases others with
  | nil => simp [writeItems, skipSpace_cons, isSpace]
  | cons next others =>
    have more := arrays next others depth rest faithful.2 (by omega)
      (by simp [writeItems] at short ⊢; omega)
    simp only [writeItems, List.cons_append, skipSpace_cons (by decide : isSpace ',' = false),
      more, Option.bind_some, Option.pure_def]

private theorem readsMembers_succ (values : ReadsValues fuel) (objects : ReadsMembers fuel) :
    ReadsMembers (fuel + 1) := by
  intro key value others depth rest faithful deep short
  rw [membersNesting] at deep
  have longer : (write value).length <
      (quotedText key ++ ':' :: write value ++ writeMembers others).length := by
    simp [quotedText]
    omega
  obtain ⟨pieces, written, scanned, spelled⟩ :=
    scanString_quotedText key (':' :: (write value ++ (writeMembers others ++ rest)))
  have first := values value depth (writeMembers others ++ rest)
    ⟨faithful.1, by omega, by omega⟩ (stops_writeMembers others rest)
  simp only [List.append_assoc, List.cons_append]
  rw [written]
  simp only [scanMembers, skipSpace_cons (by decide : isSpace '"' = false), scanned,
    skipSpace_cons (by decide : isSpace ':' = false), first, spelled, Option.bind_eq_bind,
    Option.bind_some]
  cases others with
  | nil => simp [writeMembers, skipSpace_cons, isSpace]
  | cons member others =>
    obtain ⟨next, following⟩ := member
    have more := objects next following others depth rest faithful.2 (by omega)
      (by simp [writeMembers] at short ⊢; omega)
    simp only [writeMembers, List.cons_append,
      skipSpace_cons (by decide : isSpace ',' = false), more, Option.bind_some, Option.pure_def,
      List.map_cons]

/-- Everything that is written is read. The induction is on the fuel, as the reading is, and goes
over values, the items of arrays and the members of objects at once. -/
theorem reads_written (fuel : Nat) : ReadsValues fuel ∧ ReadsItems fuel ∧ ReadsMembers fuel := by
  induction fuel with
  | zero =>
    refine ⟨fun value depth rest fits _ => ?_, fun item others depth rest faithful _ short => ?_,
      fun key value others depth rest _ _ short => ?_⟩
    · obtain ⟨c, text, written, -⟩ := head_write fits.faithful
      have short := fits.fuel
      simp [written] at short
    · obtain ⟨c, text, written, -⟩ := head_write faithful.1
      simp [written] at short
    · simp [quotedText] at short
  | succ fuel ih =>
    obtain ⟨values, arrays, objects⟩ := ih
    exact ⟨readsValues_succ arrays objects, readsItems_succ values arrays,
      readsMembers_succ values objects⟩

private theorem readChars_write (faithful : value.Faithful) (shallow : value.nesting ≤ maxDepth) :
    readChars (write value) = some value := by
  have scanned := (reads_written (2 * (write value).length + 1)).1 value 0 []
    ⟨faithful, by omega, by omega⟩ stops_nil
  rw [List.append_nil] at scanned
  rw [readChars, scanned]
  rfl

/-- The text of a value that nests no deeper than a text may is read as that value. -/
theorem read_render (faithful : value.Faithful) (shallow : value.nesting ≤ maxDepth) :
    read value.render = some value := by
  rw [read, render, String.toList_ofList, readChars_write faithful shallow]

/-! ## How deep a read value nests -/

private theorem nesting_bounded (fits : depth + 1 ≤ maxDepth → depth + value.nesting ≤ maxDepth) :
    (bounded (depth + 1) value).nesting = 0 ∨
      depth + (bounded (depth + 1) value).nesting ≤ maxDepth := by
  unfold bounded
  split
  · rename_i within
    exact .inr (fits within)
  · exact .inl rfl

private theorem nesting_ofMembers (members : List (Option String × Json)) (n : Nat)
    (each : ∀ member ∈ members, member.2.nesting ≤ n) : (ofMembers members).nesting ≤ n + 1 := by
  unfold ofMembers
  split
  · have inner : membersNesting (members.map fun m => (m.1.getD "", m.2)) ≤ n := by
      refine membersNesting_le_iff.mpr fun member present => ?_
      obtain ⟨source, among, rfl⟩ := List.mem_map.mp present
      exact each source among
    rw [nesting]
    omega
  · exact Nat.zero_le _

/-- With so much fuel a value that is read inside `depth` containers nests no deeper than what is
left of the levels that a text may have. -/
def NestsValues (fuel : Nat) : Prop :=
  ∀ depth text value rest, scanValue fuel depth text = some (value, rest) →
    value.nesting = 0 ∨ depth + value.nesting ≤ maxDepth

/-- The same for the items of an array. -/
def NestsItems (fuel : Nat) : Prop :=
  ∀ depth text items rest, scanItems fuel depth text = some (items, rest) →
    ∀ item ∈ items, item.nesting = 0 ∨ depth + item.nesting ≤ maxDepth

/-- The same for the members of an object. -/
def NestsMembers (fuel : Nat) : Prop :=
  ∀ depth text members rest, scanMembers fuel depth text = some (members, rest) →
    ∀ member ∈ members, member.2.nesting = 0 ∨ depth + member.2.nesting ≤ maxDepth

private theorem nestsValues_succ (arrays : NestsItems fuel) (objects : NestsMembers fuel) :
    NestsValues (fuel + 1) := by
  intro depth text value rest scanned
  unfold scanValue at scanned
  split at scanned
  · cases scanned
    exact .inl rfl
  · cases scanned
    exact .inl rfl
  · cases scanned
    exact .inl rfl
  · obtain ⟨⟨pieces, after⟩, -, same⟩ := Option.map_eq_some_iff.mp scanned
    cases same
    dsimp only [ofPieces]
    split <;> exact .inl rfl
  · split at scanned
    · cases scanned
      exact nesting_bounded (by simp [nesting, itemsNesting])
    · obtain ⟨⟨items, after⟩, inner, same⟩ := Option.map_eq_some_iff.mp scanned
      cases same
      refine nesting_bounded fun within => ?_
      have each : itemsNesting items ≤ maxDepth - (depth + 1) := by
        refine itemsNesting_le_iff.mpr fun item present => ?_
        have item := arrays (depth + 1) _ _ _ inner item present
        omega
      rw [nesting]
      omega
  · split at scanned
    · cases scanned
      exact nesting_bounded (by simp [nesting, membersNesting])
    · obtain ⟨⟨members, after⟩, inner, same⟩ := Option.map_eq_some_iff.mp scanned
      cases same
      refine nesting_bounded fun within => ?_
      have each := nesting_ofMembers members (maxDepth - (depth + 1)) fun member present => by
        have member := objects (depth + 1) _ _ _ inner member present
        omega
      omega
  · obtain ⟨⟨literal, after⟩, -, same⟩ := Option.map_eq_some_iff.mp scanned
    cases same
    dsimp only [ofLiteral]
    split <;> exact .inl rfl

private theorem nestsItems_succ (values : NestsValues fuel) (arrays : NestsItems fuel) :
    NestsItems (fuel + 1) := by
  intro depth text items rest scanned
  simp only [scanItems, Option.bind_eq_bind, Option.bind_eq_some_iff] at scanned
  obtain ⟨⟨item, more⟩, first, scanned⟩ := scanned
  have head := values depth text item more first
  simp only at scanned
  split at scanned
  · cases scanned
    simpa using head
  · simp only [Option.bind_eq_some_iff] at scanned
    obtain ⟨⟨others, after⟩, rest, same⟩ := scanned
    cases same
    exact List.forall_mem_cons.mpr ⟨head, arrays depth _ others after rest⟩
  · cases scanned

private theorem nestsMembers_succ (values : NestsValues fuel) (objects : NestsMembers fuel) :
    NestsMembers (fuel + 1) := by
  intro depth text members rest scanned
  simp only [scanMembers] at scanned
  split at scanned
  · simp only [Option.bind_eq_bind, Option.bind_eq_some_iff] at scanned
    obtain ⟨⟨key, colon⟩, -, scanned⟩ := scanned
    simp only at scanned
    split at scanned
    · simp only [Option.bind_eq_some_iff] at scanned
      obtain ⟨⟨value, more⟩, first, scanned⟩ := scanned
      have head := values depth _ value more first
      simp only at scanned
      split at scanned
      · cases scanned
        simpa using head
      · simp only [Option.bind_eq_some_iff] at scanned
        obtain ⟨⟨others, after⟩, rest, same⟩ := scanned
        cases same
        exact List.forall_mem_cons.mpr ⟨head, objects depth _ others after rest⟩
      · cases scanned
    · cases scanned
  · cases scanned

/-- Nothing that is read nests too deep. -/
theorem nests_read (fuel : Nat) : NestsValues fuel ∧ NestsItems fuel ∧ NestsMembers fuel := by
  induction fuel with
  | zero => simp [NestsValues, NestsItems, NestsMembers, scanValue, scanItems, scanMembers]
  | succ fuel ih =>
    obtain ⟨values, arrays, objects⟩ := ih
    exact ⟨nestsValues_succ arrays objects, nestsItems_succ values arrays,
      nestsMembers_succ values objects⟩

theorem nesting_readChars {chars : List Char} (scanned : readChars chars = some value) :
    value.nesting ≤ maxDepth := by
  simp only [readChars, Option.bind_eq_bind, Option.bind_eq_some_iff] at scanned
  obtain ⟨⟨found, rest⟩, first, ended⟩ := scanned
  simp only at ended
  split at ended
  · cases ended
    have inside := (nests_read _).1 0 chars value rest first
    omega
  · cases ended

/-- What is read from a text nests no deeper than a text may. -/
theorem nesting_read {text : String} (scanned : read text = some value) :
    value.nesting ≤ maxDepth := nesting_readChars scanned

end JointQuery.Json
