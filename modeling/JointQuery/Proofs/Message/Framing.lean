import JointQuery.Message.Wire
import JointQuery.Node.Intake
import JointQuery.Proofs.Json.RoundTrip

/-! Lines on a connection. No control character stands in the text of a value, so the newline at the
end of a line is the only one in it, and what arrives can be cut into the lines that were sent. -/
namespace JointQuery

/-! ## Bytes of a text -/

namespace Text

/-- The bytes in which a text is sent. -/
def bytes (text : String) : List UInt8 := text.toUTF8.toList

private theorem toList_loop (bytes : ByteArray) (start : Nat) (before : List UInt8) :
    ByteArray.toList.loop bytes start before =
      before.reverse ++ bytes.data.toList.drop start := by
  fun_induction ByteArray.toList.loop bytes start before with
  | case1 start before inside ih =>
    have listed : start < bytes.data.toList.length := by simpa using inside
    rw [ih, List.drop_eq_getElem_cons listed]
    simp [ByteArray.get!, inside]
  | case2 start before outside =>
    rw [List.drop_eq_nil_of_le (by simpa using Nat.le_of_not_lt outside)]
    simp

private theorem toList_eq (bytes : ByteArray) : bytes.toList = bytes.data.toList := by
  simp [ByteArray.toList, toList_loop]

theorem bytes_ofList (chars : List Char) :
    bytes (String.ofList chars) = chars.flatMap String.utf8EncodeChar := by
  rw [bytes, String.toUTF8, String.toByteArray_ofList, toList_eq, List.utf8Encode,
    List.toList_data_toByteArray]

/-- A text is read back from its bytes. -/
theorem fromUTF8?_bytes (text : String) :
    String.fromUTF8? ⟨(bytes text).toArray⟩ = some text := by
  have whole : (⟨(bytes text).toArray⟩ : ByteArray) = text.toUTF8 := by
    rw [bytes, toList_eq]
  rw [whole, String.fromUTF8?, String.toUTF8, dif_pos text.isValidUTF8]
  rfl

theorem utf8EncodeChar_ascii {c : Char} (ascii : c.toNat < 0x80) :
    String.utf8EncodeChar c = [UInt8.ofNat c.toNat] := by
  have small : c.val.toNat ≤ 127 := Nat.lt_succ_iff.mp ascii
  simp only [String.utf8EncodeChar, small, if_true, Char.toNat]

/-- Only a control character is encoded with a byte below the space. -/
theorem le_of_mem_utf8EncodeChar {c : Char} {byte : UInt8} (visible : 0x20 ≤ c.toNat)
    (member : byte ∈ String.utf8EncodeChar c) : 0x20 ≤ byte.toNat := by
  have code : 0x20 ≤ c.val.toNat := visible
  simp only [String.utf8EncodeChar] at member
  split at member
  · cases List.mem_singleton.mp member
    rw [UInt8.toNat_ofNat']
    omega
  · split at member
    · simp only [List.mem_cons, List.not_mem_nil, or_false] at member
      rcases member with rfl | rfl <;> rw [UInt8.toNat_ofNat'] <;> omega
    · split at member
      · simp only [List.mem_cons, List.not_mem_nil, or_false] at member
        rcases member with rfl | rfl | rfl <;> rw [UInt8.toNat_ofNat'] <;> omega
      · simp only [List.mem_cons, List.not_mem_nil, or_false] at member
        rcases member with rfl | rfl | rfl | rfl <;> rw [UInt8.toNat_ofNat'] <;> omega

end Text

/-! ## No newline in a value -/

namespace Decimal

/-- A character of a number. -/
def IsNumeric (c : Char) : Prop :=
  c.isDigit = true ∨ c = '-' ∨ c = '+' ∨ c = '.' ∨ c = 'e'

private theorem IsNumeric.visible {c : Char} (numeric : IsNumeric c) : 0x20 ≤ c.toNat := by
  rcases numeric with digit | rfl | rfl | rfl | rfl
  · have least := (Char.isDigit_iff_toNat.mp digit).1
    have zero : '0'.toNat = 48 := rfl
    omega
  · decide
  · decide
  · decide
  · decide

private theorem isNumeric_of_mem_toDigits {n : Nat} {c : Char} (member : c ∈ Nat.toDigits 10 n) :
    IsNumeric c :=
  .inl (Nat.isDigit_of_mem_toDigits (by decide) (by decide) member)

private theorem isNumeric_of_mem_replicate {n : Nat} {c : Char}
    (member : c ∈ List.replicate n '0') : IsNumeric c := by
  cases (List.mem_replicate.mp member).2
  exact .inl rfl

private theorem isNumeric_of_mem_plain {digits : List Char} {exponent : Int}
    (numeric : ∀ c ∈ digits, IsNumeric c) : ∀ c ∈ plain digits exponent, IsNumeric c := by
  intro c member
  unfold plain at member
  split at member
  · simp only [List.cons_append, List.mem_cons, List.mem_append] at member
    rcases member with rfl | rfl | zeros | member
    · exact .inl rfl
    · exact .inr (.inr (.inr (.inl rfl)))
    · exact isNumeric_of_mem_replicate zeros
    · exact numeric c member
  · simp only [List.mem_append, List.mem_cons] at member
    rcases member with (whole | zeros) | rfl | fraction
    · exact numeric c (List.mem_of_mem_take whole)
    · exact isNumeric_of_mem_replicate zeros
    · exact .inr (.inr (.inr (.inl rfl)))
    · split at fraction
      · cases List.mem_singleton.mp fraction
        exact .inl rfl
      · exact numeric c (List.mem_of_mem_drop fraction)

private theorem isNumeric_of_mem_scientific {digits : List Char} {exponent : Int}
    (numeric : ∀ c ∈ digits, IsNumeric c) : ∀ c ∈ scientific digits exponent, IsNumeric c := by
  intro c member
  unfold scientific at member
  simp only [List.mem_append, List.mem_cons] at member
  rcases member with (first | others) | rfl | rfl | exponent
  · exact numeric c (List.mem_of_mem_take first)
  · split at others
    · cases others
    · rcases List.mem_cons.mp others with rfl | others
      · exact .inr (.inr (.inr (.inl rfl)))
      · exact numeric c (List.mem_of_mem_drop others)
  · exact .inr (.inr (.inr (.inr rfl)))
  · split
    · exact .inr (.inl rfl)
    · exact .inr (.inr (.inl rfl))
  · exact isNumeric_of_mem_toDigits exponent

/-- The text of a double has only characters of numbers. -/
theorem isNumeric_of_mem_finiteText (x : Float) : ∀ c ∈ finiteText x, IsNumeric c := by
  have sign : ∀ c ∈ if isNegative x then ['-'] else [], IsNumeric c := by
    intro c member
    split at member
    · cases List.mem_singleton.mp member
      exact .inr (.inl rfl)
    · cases member
  have digits : ∀ c ∈ (leading (shortest (magnitude x))).1, IsNumeric c := by
    intro c member
    have kept := List.mem_reverse.mp member
    exact isNumeric_of_mem_toDigits
      (List.mem_reverse.mp ((List.dropWhile_sublist _).mem kept))
  intro c member
  simp only [finiteText] at member
  split at member
  · rcases List.mem_append.mp member with member | member
    · exact sign c member
    · simp only [List.mem_cons, List.not_mem_nil, or_false] at member
      rcases member with rfl | rfl | rfl
      · exact .inl rfl
      · exact .inr (.inr (.inr (.inl rfl)))
      · exact .inl rfl
  · rcases List.mem_append.mp member with member | member
    · exact sign c member
    · split at member
      · exact isNumeric_of_mem_plain digits c member
      · exact isNumeric_of_mem_scientific digits c member

end Decimal

namespace Json

/-- A text without control characters, which can stand in a line. -/
def Visible (text : List Char) : Prop :=
  ∀ c ∈ text, 0x20 ≤ c.toNat

instance (text : List Char) : Decidable (Visible text) :=
  List.decidableBAll (fun c : Char => 0x20 ≤ c.toNat) text

private theorem visible_cons {c : Char} {text : List Char} :
    Visible (c :: text) ↔ 0x20 ≤ c.toNat ∧ Visible text :=
  List.forall_mem_cons

private theorem visible_append {first second : List Char} :
    Visible (first ++ second) ↔ Visible first ∧ Visible second :=
  List.forall_mem_append

private theorem visible_numberText (number : Decimal.Number) : Visible (numberText number) := by
  cases number with
  | int n =>
    refine visible_append.mpr ⟨?_, fun c digits =>
      (Decimal.isNumeric_of_mem_toDigits digits).visible⟩
    split <;> decide
  | real x =>
    simp only [numberText, Decimal.text?]
    split
    · exact fun c member => (Decimal.isNumeric_of_mem_finiteText x c member).visible
    · exact by decide

private theorem visible_hexDigit (n : Nat) : 0x20 ≤ (Text.hexDigit n).toNat := by
  rw [hexDigit_mod]
  have small : n % 16 < 16 := Nat.mod_lt _ (by decide)
  revert small
  generalize n % 16 = k
  revert k
  decide

/-- No escape is named by a control character. -/
theorem visible_of_escapedChar {e c : Char} (named : escapedChar e = some c) :
    0x20 ≤ e.toNat := by
  have unnamed : ∀ n < 0x20, escapedChar (Char.ofNat n) = none := by decide
  by_cases control : e.toNat < 0x20
  · have nothing := unnamed e.toNat control
    rw [Char.ofNat_toNat, named] at nothing
    cases nothing
  · exact Nat.not_lt.mp control

private theorem visible_escaped (c : Char) : Visible (escaped c) := by
  rcases escaped_cases c with ⟨e, -, named, written⟩ | ⟨-, written⟩ | ⟨-, -, large, written⟩
  · rw [written]
    exact visible_cons.mpr ⟨by decide, visible_cons.mpr ⟨visible_of_escapedChar named, by decide⟩⟩
  · have digits : Visible [Text.hexDigit (c.toNat / 16), Text.hexDigit c.toNat] :=
      visible_cons.mpr ⟨visible_hexDigit _, visible_cons.mpr ⟨visible_hexDigit _, by decide⟩⟩
    rw [written]
    exact visible_append.mpr ⟨show Visible ['\\', 'u', '0', '0'] by decide, digits⟩
  · rw [written]
    exact visible_cons.mpr ⟨large, by decide⟩

private theorem visible_quotedText (text : String) : Visible (quotedText text) := by
  refine visible_append.mpr ⟨visible_cons.mpr ⟨by decide, fun c member => ?_⟩, by decide⟩
  obtain ⟨source, -, member⟩ := List.mem_flatMap.mp member
  exact visible_escaped source c member

mutual
/-- No control character stands in the text of a value. -/
theorem visible_write : (value : Json) → Visible (write value)
  | .null | .bool true | .bool false | .array [] | .object [] | .unreadable => by
    simp only [write]
    decide
  | .number n => visible_numberText n
  | .string s => visible_quotedText s
  | .array (item :: rest) => by
    simp only [write, visible_cons, visible_append, and_assoc]
    exact ⟨by decide, visible_write item, visible_writeItems rest⟩
  | .object ((key, value) :: rest) => by
    simp only [write, visible_cons, visible_append, and_assoc]
    exact ⟨by decide, visible_quotedText key, by decide, visible_write value,
      visible_writeMembers rest⟩

theorem visible_writeItems : (items : List Json) → Visible (writeItems items)
  | [] => by
    simp only [writeItems]
    decide
  | item :: rest => by
    simp only [writeItems, visible_cons, visible_append, and_assoc]
    exact ⟨by decide, visible_write item, visible_writeItems rest⟩

theorem visible_writeMembers : (members : List (String × Json)) → Visible (writeMembers members)
  | [] => by
    simp only [writeMembers]
    decide
  | (key, value) :: rest => by
    simp only [writeMembers, visible_cons, visible_append, and_assoc]
    exact ⟨by decide, visible_quotedText key, by decide, visible_write value,
      visible_writeMembers rest⟩
end

/-- The members of an object end with its brace. -/
theorem exists_writeMembers (members : List (String × Json)) :
    ∃ chars, writeMembers members = chars ++ ['\x7d'] := by
  induction members with
  | nil => exact ⟨[], rfl⟩
  | cons member rest ih =>
    obtain ⟨chars, written⟩ := ih
    refine ⟨',' :: quotedText member.1 ++ ':' :: write member.2 ++ chars, ?_⟩
    simp only [writeMembers, written, List.append_assoc]

/-- An object is written between its braces. -/
theorem exists_write_object (members : List (String × Json)) :
    ∃ chars, write (.object members) = '\x7b' :: chars ++ ['\x7d'] := by
  cases members with
  | nil => exact ⟨[], rfl⟩
  | cons member rest =>
    obtain ⟨chars, written⟩ := exists_writeMembers rest
    refine ⟨quotedText member.1 ++ ':' :: write member.2 ++ chars, ?_⟩
    simp only [write, written, List.append_assoc, List.cons_append]

/-- Without its end the line of an object is the text of the object. -/
theorem readLine_render (members : List (String × Json)) :
    readLine (object members).render = read (object members).render := by
  obtain ⟨chars, written⟩ := exists_write_object members
  have ended : Text.trimEnd (write (.object members)) = write (.object members) := by
    rw [Text.trimEnd, written, List.reverse_append, List.reverse_singleton, List.singleton_append,
      List.dropWhile_cons_of_neg (by decide), List.reverse_cons, List.reverse_reverse]
  rw [readLine, read, render, String.toList_ofList, ended]

end Json

/-! ## Lines -/

open Text (bytes)

namespace Intake

private theorem cutLines_line {body : List UInt8} (whole : 0x0A ∉ body) (rest : List UInt8) :
    cutLines (body ++ 0x0A :: rest) = (body :: (cutLines rest).1, (cutLines rest).2) := by
  induction body with
  | nil => simp [cutLines]
  | cons byte body ih =>
    rw [List.mem_cons, not_or] at whole
    rw [List.cons_append, cutLines, ih whole.2]
    simp only [if_neg (Ne.symm whole.1)]

private theorem lineText?_bytes {text : String} (last : (bytes text).getLast? ≠ some 0x0D) :
    lineText? (bytes text) = some text := by
  rw [lineText?]
  simp only [if_neg last, Text.fromUTF8?_bytes]

end Intake

/-- Items that are sent as lines come back as they were sent. -/
structure Lossless {α : Type} (line : α → String) (read : String → Option α) (items : List α) :
    Prop where
  /-- A line has one newline, which is its last byte. -/
  ends : ∀ item ∈ items, ∃ body, bytes (line item) = body ++ [0x0A] ∧ 0x0A ∉ body
  /-- All lines together are cut into one line for each item, which is read as that item. No line
  is blank, and nothing is left. -/
  returns : ∃ lines, Intake.cutLines (items.flatMap fun item => bytes (line item)) = (lines, []) ∧
    lines.map (fun line => (Intake.lineText? line).bind read) = items.map some ∧
    ∀ line ∈ lines, ∃ text, Intake.lineText? line = some text ∧ Text.isBlankText text = false

namespace Json

/-- The bytes of the text of an object: no newline, and a brace at the end. -/
theorem bytes_render (members : List (String × Json)) :
    0x0A ∉ bytes (object members).render ∧
      (bytes (object members).render).getLast? = some 0x7D := by
  obtain ⟨chars, written⟩ := exists_write_object members
  rw [render, Text.bytes_ofList]
  constructor
  · intro newline
    obtain ⟨c, member, byte⟩ := List.mem_flatMap.mp newline
    exact absurd (Text.le_of_mem_utf8EncodeChar (visible_write _ c member) byte) (by decide)
  · rw [written, List.flatMap_append, List.flatMap_singleton,
      Text.utf8EncodeChar_ascii (by decide), List.getLast?_append]
    rfl

/-- The text of an object comes back from its bytes. -/
theorem lineText?_render (members : List (String × Json)) :
    Intake.lineText? (bytes (object members).render) = some (object members).render := by
  refine Intake.lineText?_bytes ?_
  rw [(bytes_render members).2]
  decide

private theorem isBlankText_render (members : List (String × Json)) :
    Text.isBlankText (object members).render = false := by
  obtain ⟨chars, written⟩ := exists_write_object members
  rw [Text.isBlankText, render, String.toList_ofList, written, List.cons_append, List.all_cons]
  rfl

private theorem bytes_line (value : Json) : bytes value.line = bytes value.render ++ [0x0A] := by
  have whole : value.line = String.ofList (write value ++ ['\n']) := by
    rw [line, render, String.ofList_append]
  rw [whole, Text.bytes_ofList, List.flatMap_append, render, Text.bytes_ofList]
  rfl

end Json

/-- Items come back when each is sent as the line of an object that is read as the item. -/
theorem lossless_of_objects {α : Type} {value : α → Json} {read : String → Option α}
    {items : List α} (objects : ∀ item, ∃ members, value item = .object members)
    (reads : ∀ item ∈ items, read (value item).render = some item) :
    Lossless (fun item => (value item).line) read items := by
  have whole (item : α) : 0x0A ∉ bytes (value item).render := by
    obtain ⟨members, same⟩ := objects item
    exact same ▸ (Json.bytes_render members).1
  have texts (item : α) :
      Intake.lineText? (bytes (value item).render) = some (value item).render := by
    obtain ⟨members, same⟩ := objects item
    exact same ▸ Json.lineText?_render members
  refine ⟨fun item _ => ⟨_, Json.bytes_line _, whole item⟩,
    items.map fun item => bytes (value item).render, ?_, ?_, ?_⟩
  · clear reads
    induction items with
    | nil => rfl
    | cons item rest ih =>
      rw [List.flatMap_cons, Json.bytes_line, List.append_assoc, List.singleton_append,
        Intake.cutLines_line (whole item), ih]
      rfl
  · rw [List.map_map]
    refine List.map_congr_left fun item member => ?_
    rw [Function.comp_apply, texts, Option.bind_some, reads item member]
  · intro line member
    obtain ⟨item, -, rfl⟩ := List.mem_map.mp member
    obtain ⟨members, same⟩ := objects item
    exact ⟨_, texts item, same ▸ Json.isBlankText_render members⟩

end JointQuery
