import JointQuery.Json.Reader
import JointQuery.Json.Writer
import Mathlib.Algebra.Ring.Nat

/-! Strings and numbers are read back from their written form, whatever follows it inside a value.
A string is read character by character. A number ends where no character of a number follows, so
that it is read in a text as it is read alone. -/
namespace JointQuery

namespace Decimal

/-- The written form of a double is one literal, and that stands for the same double. -/
def ReadsBack (x : Float) : Prop :=
  ∃ literal, Json.scanNumber (finiteText x) = some (literal, []) ∧
    literal.number? = some (.real x)

/-- A number that its written form stands for: an integer of 64 bits, or a finite double that is
read back. -/
def Number.ReadsBack : Number → Prop
  | .int n => -(2 ^ 63 : Nat) ≤ n ∧ n ≤ maxSignificand
  | .real x => isFinite x = true ∧ Decimal.ReadsBack x

end Decimal

namespace Json

open Decimal (Literal Number)

variable {text rest after : List Char} {literal : Literal}

/-- What can follow a value inside another one, or at the end of a text. -/
def Stops (rest : List Char) : Prop :=
  ∀ c ∈ rest.head?, c = ',' ∨ c = ']' ∨ c = '\x7d'

theorem stops_nil : Stops [] := by simp [Stops]

theorem stops_writeItems (items : List Json) (rest : List Char) :
    Stops (writeItems items ++ rest) := by
  cases items <;> simp [Stops, writeItems]

theorem stops_writeMembers (members : List (String × Json)) (rest : List Char) :
    Stops (writeMembers members ++ rest) := by
  cases members with
  | nil => simp [Stops, writeMembers]
  | cons member others => simp [Stops, writeMembers]

/-! ## Strings -/

/-- A piece stands for a character: the character itself, or the number of a control. -/
inductive Piece.Spells : Piece → Char → Prop where
  | char (c : Char) : Spells (.char c) c
  | unit {c : Char} (control : c.toNat < 0x20) : Spells (.unit c.toNat) c

private theorem hexValue_hexDigit {n : Nat} (small : n < 16) :
    hexValue (Text.hexDigit n) = some n := by
  revert n
  decide

/-- The last sixteenth of a number is what its last digit says. -/
theorem hexDigit_mod (n : Nat) : Text.hexDigit n = Text.hexDigit (n % 16) := by
  simp [Text.hexDigit]

private theorem unitOf_control {c : Char} (control : c.toNat < 0x20) :
    unitOf '0' '0' (Text.hexDigit (c.toNat / 16)) (Text.hexDigit c.toNat) = some c.toNat := by
  have zero : hexValue '0' = some 0 := by decide
  have high := hexValue_hexDigit (n := c.toNat / 16) (by omega)
  have low := hexValue_hexDigit (n := c.toNat % 16) (by omega)
  rw [hexDigit_mod c.toNat]
  simp only [unitOf, zero, high, low, Option.bind_eq_bind, Option.bind_some, Option.pure_def,
    Option.some.injEq]
  omega

/-- How a character is written: with a letter of its own, with its number, or as it is. -/
theorem escaped_cases (c : Char) :
    (∃ e, e ≠ 'u' ∧ escapedChar e = some c ∧ escaped c = ['\\', e]) ∨
    (c.toNat < 0x20 ∧ escaped c =
      ['\\', 'u', '0', '0', Text.hexDigit (c.toNat / 16), Text.hexDigit c.toNat]) ∨
    (c ≠ '"' ∧ c ≠ '\\' ∧ 0x20 ≤ c.toNat ∧ escaped c = [c]) := by
  unfold escaped
  split
  · rename_i same
    exact .inl ⟨'"', by decide, by rw [same]; rfl, rfl⟩
  · rename_i quote
    split
    · rename_i same
      exact .inl ⟨'\\', by decide, by rw [same]; rfl, rfl⟩
    · rename_i slash
      split
      · rename_i same
        exact .inl ⟨'b', by decide, by rw [same]; rfl, rfl⟩
      · split
        · rename_i same
          exact .inl ⟨'f', by decide, by rw [same]; rfl, rfl⟩
        · split
          · rename_i same
            exact .inl ⟨'n', by decide, by rw [same]; rfl, rfl⟩
          · split
            · rename_i same
              exact .inl ⟨'r', by decide, by rw [same]; rfl, rfl⟩
            · split
              · rename_i same
                exact .inl ⟨'t', by decide, by rw [same]; rfl, rfl⟩
              · split
                · rename_i control
                  exact .inr (.inl ⟨control, rfl⟩)
                · rename_i large
                  exact .inr (.inr ⟨quote, slash, Nat.not_lt.mp large, rfl⟩)

private theorem scanString_escape {e c : Char} (letter : e ≠ 'u') (named : escapedChar e = some c)
    (rest : List Char) : scanString ('\\' :: e :: rest) =
      (scanString rest).map fun scanned => (.char c :: scanned.1, scanned.2) := by
  rw [scanString, named]
  · cases scanString rest <;> rfl
  · simp [letter]

private theorem scanString_plain {c : Char} (quote : c ≠ '"') (slash : c ≠ '\\')
    (large : 0x20 ≤ c.toNat) (rest : List Char) : scanString (c :: rest) =
      (scanString rest).map fun scanned => (.char c :: scanned.1, scanned.2) := by
  rw [scanString]
  · rw [if_neg (Nat.not_lt.mpr large)]
    cases scanString rest <;> rfl
  · exact quote
  · intro _ _ _ _ _ same
    exact absurd same slash
  · intro _ _ same
    exact absurd same slash

/-- A written character is scanned as one piece that stands for it. -/
theorem scanString_escaped (c : Char) : ∃ piece : Piece, piece.Spells c ∧
    ∀ rest, scanString (escaped c ++ rest) =
      (scanString rest).map fun scanned => (piece :: scanned.1, scanned.2) := by
  rcases escaped_cases c with ⟨e, letter, named, written⟩ | ⟨control, written⟩ |
    ⟨quote, slash, large, written⟩
  · exact ⟨.char c, .char c, fun rest => written ▸ scanString_escape letter named rest⟩
  · refine ⟨.unit c.toNat, .unit control, fun rest => ?_⟩
    rw [written]
    simp only [List.cons_append, List.nil_append, scanString, unitOf_control control,
      Option.bind_eq_bind, Option.bind_some, Option.pure_def]
    cases scanString rest <;> rfl
  · exact ⟨.char c, .char c, fun rest => written ▸ scanString_plain quote slash large rest⟩

private theorem joinPieces_cons {piece : Piece} {c : Char} (spells : piece.Spells c)
    (pieces : List Piece) : joinPieces (piece :: pieces) = (joinPieces pieces).map (c :: ·) := by
  cases spells with
  | char => rfl
  | unit control =>
    have high : isHighSurrogate c.toNat = false := by
      simp only [isHighSurrogate, Bool.and_eq_false_iff, decide_eq_false_iff_not]
      omega
    have low : isLowSurrogate c.toNat = false := by
      simp only [isLowSurrogate, Bool.and_eq_false_iff, decide_eq_false_iff_not]
      omega
    cases pieces with
    | nil => simp [joinPieces, high, low]
    | cons next others =>
      cases next with
      | char d => simp [joinPieces, high, low]
      | unit n => simp [joinPieces, high, low]

private theorem scanString_quoted (chars rest : List Char) : ∃ pieces,
    scanString (chars.flatMap escaped ++ '"' :: rest) = some (pieces, rest) ∧
      joinPieces pieces = some chars := by
  induction chars with
  | nil => exact ⟨[], rfl, rfl⟩
  | cons c chars ih =>
    obtain ⟨pieces, scanned, joined⟩ := ih
    obtain ⟨piece, spells, scans⟩ := scanString_escaped c
    refine ⟨piece :: pieces, ?_, ?_⟩
    · rw [List.flatMap_cons, List.append_assoc, scans, scanned]
      rfl
    · rw [joinPieces_cons spells, joined]
      rfl

/-- A written string is read back, up to its closing quote. -/
theorem scanString_quotedText (s : String) (rest : List Char) : ∃ pieces,
    quotedText s ++ rest = '"' :: (s.toList.flatMap escaped ++ '"' :: rest) ∧
    scanString (s.toList.flatMap escaped ++ '"' :: rest) = some (pieces, rest) ∧
      stringOf pieces = some s := by
  obtain ⟨pieces, scanned, joined⟩ := scanString_quoted s.toList rest
  refine ⟨pieces, by simp [quotedText], scanned, ?_⟩
  rw [stringOf, joined, Option.map_some, String.ofList_toList]

/-! ## Numbers -/

private theorem Stops.not_digit (stops : Stops rest) : ∀ c ∈ rest.head?, c.isDigit = false := by
  intro c first
  rcases stops c first with rfl | rfl | rfl <;> decide

private theorem scanDigits_append (stops : Stops rest) (text : List Char) :
    scanDigits (text ++ rest) = ((scanDigits text).1, (scanDigits text).2 ++ rest) := by
  induction text with
  | nil =>
    cases rest with
    | nil => rfl
    | cons c others =>
      have digit := stops.not_digit c rfl
      simp [scanDigits, digit]
  | cons c text ih =>
    cases digit : c.isDigit with
    | false => simp [scanDigits, digit]
    | true => simpa [scanDigits, digit] using ih

private theorem scanFraction_append (stops : Stops rest) {fraction : Option (List Nat)}
    (scanned : scanFraction text = some (fraction, after)) :
    scanFraction (text ++ rest) = some (fraction, after ++ rest) := by
  cases text with
  | nil =>
    cases scanned
    cases rest with
    | nil => rfl
    | cons c others =>
      rcases stops c rfl with rfl | rfl | rfl <;> rfl
  | cons c text =>
    by_cases point : c = '.'
    · subst point
      simp only [scanFraction, List.cons_append] at scanned ⊢
      rw [scanDigits_append stops]
      split at scanned
      · cases scanned
      · rename_i some
        cases scanned
        simp [some]
    · have plain (others : List Char) : scanFraction (c :: others) = some (none, c :: others) := by
        unfold scanFraction
        split
        · rename_i same
          exact absurd (List.cons.inj same).1 point
        · rfl
      rw [plain] at scanned
      cases scanned
      exact plain _

private theorem scanExponentDigits_append (stops : Stops rest) {negative : Bool}
    {exponent : Option (Bool × List Nat)}
    (scanned : scanExponentDigits negative text = some (exponent, after)) :
    scanExponentDigits negative (text ++ rest) = some (exponent, after ++ rest) := by
  simp only [scanExponentDigits] at scanned ⊢
  rw [scanDigits_append stops]
  split at scanned
  · cases scanned
  · rename_i some
    cases scanned
    simp [some]

private theorem scanExponent_append (stops : Stops rest) {exponent : Option (Bool × List Nat)}
    (scanned : scanExponent text = some (exponent, after)) :
    scanExponent (text ++ rest) = some (exponent, after ++ rest) := by
  cases text with
  | nil =>
    cases scanned
    cases rest with
    | nil => rfl
    | cons c others =>
      rcases stops c rfl with rfl | rfl | rfl <;> rfl
  | cons c text =>
    by_cases marked : c = 'e' ∨ c = 'E'
    · simp only [scanExponent, List.cons_append, if_pos marked] at scanned ⊢
      cases text with
      | nil => simp [scanExponentDigits, scanDigits] at scanned
      | cons sign digits =>
        simp only [List.cons_append]
        split at scanned
        · rename_i same
          obtain ⟨rfl, rfl⟩ := List.cons.inj same
          exact scanExponentDigits_append stops scanned
        · rename_i same
          obtain ⟨rfl, rfl⟩ := List.cons.inj same
          exact scanExponentDigits_append stops scanned
        · rename_i plus minus
          split
          · rename_i same
            obtain ⟨rfl, -⟩ := List.cons.inj same
            exact absurd rfl (plus _)
          · rename_i same
            obtain ⟨rfl, -⟩ := List.cons.inj same
            exact absurd rfl (minus _)
          · exact scanExponentDigits_append stops scanned
    · simp only [scanExponent, List.cons_append, if_neg marked] at scanned ⊢
      cases scanned
      rfl

private theorem scanUnsigned_append (stops : Stops rest) {negative : Bool}
    (scanned : scanUnsigned negative text = some (literal, after)) :
    scanUnsigned negative (text ++ rest) = some (literal, after ++ rest) := by
  simp only [scanUnsigned] at scanned ⊢
  rw [scanDigits_append stops]
  split at scanned
  · cases scanned
  · rename_i whole
    simp only [Option.bind_eq_bind, Option.bind_eq_some_iff, Option.pure_def,
      Option.some.injEq] at scanned
    obtain ⟨⟨fraction, more⟩, fractioned, ⟨exponent, last⟩, exponented, same⟩ := scanned
    cases same
    rw [if_neg whole]
    simp only [scanFraction_append stops fractioned, scanExponent_append stops exponented,
      Option.bind_eq_bind, Option.bind_some, Option.pure_def]

/-- A literal is scanned in a text as it is scanned alone. -/
theorem scanNumber_append (stops : Stops rest)
    (scanned : scanNumber text = some (literal, after)) :
    scanNumber (text ++ rest) = some (literal, after ++ rest) := by
  cases text with
  | nil => simp [scanNumber, scanUnsigned, scanDigits] at scanned
  | cons c text =>
    by_cases minus : c = '-'
    · subst minus
      exact scanUnsigned_append stops scanned
    · have unsigned (others : List Char) :
          scanNumber (c :: others) = scanUnsigned false (c :: others) := by
        unfold scanNumber
        split
        · rename_i same
          exact absurd (List.cons.inj same).1 minus
        · rfl
      rw [unsigned] at scanned
      rw [List.cons_append, unsigned]
      exact scanUnsigned_append stops scanned

/-- A literal starts with a sign or a digit. -/
theorem head_of_scanNumber (scanned : scanNumber text = some (literal, after)) :
    ∃ c others, text = c :: others ∧ (c = '-' ∨ c.isDigit = true) := by
  cases text with
  | nil => simp [scanNumber, scanUnsigned, scanDigits] at scanned
  | cons c others =>
    refine ⟨c, others, rfl, ?_⟩
    unfold scanNumber at scanned
    split at scanned
    · rename_i same
      exact .inl (List.cons.inj same).1
    · cases digit : c.isDigit with
      | true => exact .inr rfl
      | false => simp [scanUnsigned, scanDigits, digit] at scanned

/-! ## Written numbers -/

theorem toDigits_head (n : Nat) :
    (Nat.toDigits 10 n).head? = some '0' → (Nat.toDigits 10 n).length = 1 := by
  induction n using Nat.strongRecOn with
  | _ n ih =>
    rw [Nat.toDigits_eq_if (by decide)]
    split
    · simp
    · rename_i large
      have shorter : n / 10 < n := Nat.div_lt_self (by omega) (by decide)
      intro zero
      have inner : (Nat.toDigits 10 (n / 10)).head? = some '0' := by
        rw [List.head?_append] at zero
        cases first : (Nat.toDigits 10 (n / 10)).head? with
        | none => exact absurd (List.head?_eq_none_iff.mp first) Nat.toDigits_ne_nil
        | some c => rwa [first, Option.some_or] at zero
      have single := ih _ shorter inner
      obtain ⟨c, only⟩ := List.length_eq_one_iff.mp single
      have value := Nat.ofDigitChars_toDigits (b := 10) (n := n / 10) (by decide) (by decide)
      rw [only] at inner value
      obtain rfl : c = '0' := by simpa using inner
      simp [Nat.ofDigitChars] at value
      omega

/-- The digits of a number are scanned to the end, and give its value. -/
theorem scanUnsigned_toDigits (negative : Bool) (n : Nat) : ∃ digits,
    scanUnsigned negative (Nat.toDigits 10 n) = some (⟨negative, digits, none, none⟩, []) ∧
      Decimal.digitsValue digits = n := by
  have digit (c : Char) (member : c ∈ Nat.toDigits 10 n) : c.isDigit = true :=
    Nat.isDigit_of_mem_toDigits (by decide) (by decide) member
  have taken : (Nat.toDigits 10 n).takeWhile Char.isDigit = Nat.toDigits 10 n := by
    have all : (Nat.toDigits 10 n ++ []).takeWhile Char.isDigit = Nat.toDigits 10 n ++ [] :=
      List.takeWhile_append_of_pos digit
    rwa [List.append_nil] at all
  have dropped : (Nat.toDigits 10 n).dropWhile Char.isDigit = [] := by
    have all : (Nat.toDigits 10 n ++ []).dropWhile Char.isDigit = [] :=
      List.dropWhile_append_of_pos digit
    rwa [List.append_nil] at all
  refine ⟨(Nat.toDigits 10 n).map fun c => c.toNat - '0'.toNat, ?_, ?_⟩
  · have plain : ¬ (((Nat.toDigits 10 n).map fun c => c.toNat - '0'.toNat).isEmpty ||
        (((Nat.toDigits 10 n).map fun c => c.toNat - '0'.toNat).head? == some 0 &&
          ((Nat.toDigits 10 n).map fun c => c.toNat - '0'.toNat).length != 1)) = true := by
      intro bad
      rw [Bool.or_eq_true, List.isEmpty_iff, List.map_eq_nil_iff] at bad
      rcases bad with none | leading
      · exact Nat.toDigits_ne_nil none
      · simp only [Bool.and_eq_true, beq_iff_eq, List.head?_map, Option.map_eq_some_iff,
          bne_iff_ne, List.length_map] at leading
        obtain ⟨⟨c, first, zero⟩, long⟩ := leading
        have member : c ∈ Nat.toDigits 10 n := List.mem_of_head? first
        have bounds := digit c member
        simp only [Char.isDigit, Bool.and_eq_true, decide_eq_true_eq] at bounds
        have same : c = '0' := by
          apply Char.toNat_inj.mp
          have lower : '0'.toNat ≤ c.toNat := bounds.1
          omega
        exact long (toDigits_head n (same ▸ first))
    simp only [scanUnsigned, scanDigits, taken, dropped, if_neg plain]
    rfl
  · have value := Nat.ofDigitChars_toDigits (b := 10) (n := n) (by decide) (by decide)
    rw [Nat.ofDigitChars] at value
    rw [Decimal.digitsValue, List.foldl_map]
    simpa only [Nat.mul_comm] using value

/-- A written number is read back, up to what stops it. -/
theorem scanNumber_numberText {number : Number} (reads : number.ReadsBack) (stops : Stops rest) :
    ∃ literal, scanNumber (numberText number ++ rest) = some (literal, rest) ∧
      literal.number? = some number := by
  suffices alone : ∃ literal, scanNumber (numberText number) = some (literal, []) ∧
      literal.number? = some number by
    obtain ⟨literal, scanned, value⟩ := alone
    exact ⟨literal, scanNumber_append stops scanned, value⟩
  cases number with
  | real x =>
    obtain ⟨finite, literal, scanned, value⟩ := reads
    refine ⟨literal, ?_, value⟩
    simpa [numberText, Decimal.text?, finite] using scanned
  | int n =>
    obtain ⟨lower, upper⟩ := reads
    by_cases negative : n < 0
    · obtain ⟨digits, scanned, value⟩ := scanUnsigned_toDigits true n.natAbs
      refine ⟨⟨true, digits, none, none⟩, ?_, ?_⟩
      · simpa [numberText, negative, scanNumber] using scanned
      · have within : 1 ≤ n.natAbs ∧ n.natAbs ≤ Nat.pow 2 63 := by
          constructor
          · omega
          · simp only [Nat.pow_eq] at *
            omega
        simp only [Decimal.Literal.number?, value, if_true, if_pos within, Option.some.injEq,
          Number.int.injEq]
        omega
    · obtain ⟨digits, scanned, value⟩ := scanUnsigned_toDigits false n.natAbs
      refine ⟨⟨false, digits, none, none⟩, ?_, ?_⟩
      · have unsigned : scanNumber (Nat.toDigits 10 n.natAbs) =
            scanUnsigned false (Nat.toDigits 10 n.natAbs) := by
          unfold scanNumber
          split
          · rename_i signed
            have member : '-' ∈ Nat.toDigits 10 n.natAbs := signed ▸ List.mem_cons_self
            have digit := Nat.isDigit_of_mem_toDigits (by decide) (by decide) member
            exact absurd digit (by decide)
          · rfl
        simpa [numberText, negative, unsigned] using scanned
      · have within : n.natAbs ≤ Decimal.maxSignificand := by omega
        simp only [Decimal.Literal.number?, value, Bool.false_eq_true, if_false, if_pos within,
          Option.some.injEq, Number.int.injEq]
        omega

end Json

end JointQuery
