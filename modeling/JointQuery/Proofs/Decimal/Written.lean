import JointQuery.Proofs.Json.Tokens
import Mathlib.Algebra.Order.Ring.Nat
import Mathlib.Data.List.DropRight
import Mathlib.Tactic.Positivity

/-! The written form of a double is one number literal of the JSON grammar. The decimal that is found
for a magnitude other than zero is not zero, so that its digits begin with one that is not zero and
are not all stripped; and from such digits both notations make a literal. -/
namespace JointQuery.Decimal

open Json (scanUnsigned scanNumber)

variable {m : Magnitude} {d : Scientific}

/-! ## The digits -/

/-- Zero names no double but zero: it lies below all that reads back as another one. -/
theorem pos_of_names (positive : 0 < m.mantissa) (named : names m d = true) : 0 < d.digits := by
  rcases Nat.eq_zero_or_pos d.digits with zero | nonzero
  · have low : 0 < (bounds m).1 := by
      simp only [bounds]
      split <;> omega
    have above : 0 < (sides d.digits d.exponent (bounds m).1 (m.exponent - 2)).2 := by
      simp only [sides, Nat.pow_eq]
      positivity
    have below : (sides d.digits d.exponent (bounds m).1 (m.exponent - 2)).1 = 0 := by
      simp [sides, zero]
    simp only [names, below] at named
    split at named
    · simp only [Bool.and_eq_true, decide_eq_true_eq] at named
      omega
    · simp at named
  · exact nonzero

private theorem names_of_onGrid {exponent : ℤ} (found : onGrid m exponent = some d) :
    names m d = true := by
  simp only [onGrid] at found
  split at found
  · cases found
  · rename_i low _
    exact Option.some.inj found ▸ low
  · rename_i _ high
    exact Option.some.inj found ▸ high
  · rename_i low high
    split at found
    · exact Option.some.inj found ▸ low
    · exact Option.some.inj found ▸ high
    · split at found
      · exact Option.some.inj found ▸ low
      · exact Option.some.inj found ▸ high

/-- The number of digits of a number that is not zero. -/
theorem pow_length_toDigits {n : ℕ} (positive : 0 < n) :
    10 ^ ((Nat.toDigits 10 n).length - 1) ≤ n ∧ n < 10 ^ (Nat.toDigits 10 n).length := by
  have some : 0 < (Nat.toDigits 10 n).length := Nat.length_toDigits_pos
  refine ⟨?_, (Nat.length_toDigits_le_iff (by decide) some).mp (Nat.le_refl _)⟩
  by_contra less
  have fewer : (Nat.toDigits 10 n).length - 1 ≠ 0 := by
    intro none
    rw [none] at less
    omega
  have short := (Nat.length_toDigits_le_iff (by decide) (Nat.pos_of_ne_zero fewer)).mpr
    (Nat.lt_of_not_le less)
  omega

/-- Seventeen digits from the leading one on do not all lie behind the number. -/
theorem floorAt_pos (positive : 0 < m.mantissa) : 0 < floorAt m (leadingExponent m - 16) := by
  obtain ⟨num, isNum⟩ : ∃ num, num = m.mantissa * 2 ^ m.exponent.toNat := ⟨_, rfl⟩
  obtain ⟨den, isDen⟩ : ∃ den, den = 2 ^ (-m.exponent).toNat := ⟨_, rfl⟩
  have numPos : 0 < num := isNum ▸ Nat.mul_pos positive (Nat.two_pow_pos _)
  have denPos : 0 < den := isDen ▸ Nat.two_pow_pos _
  obtain ⟨top, isTop⟩ : ∃ top, top = leadingExponent m := ⟨_, rfl⟩
  have enough : 10 ^ (top - 16).toNat * den ≤ num * 10 ^ (-(top - 16)).toNat := by
    simp only [leadingExponent, Nat.pow_eq, ← isNum, ← isDen] at isTop
    split at isTop
    · rename_i large
      have digits := (pow_length_toDigits (Nat.div_pos large denPos)).1
      have some : 0 < (Nat.toDigits 10 (num / den)).length := Nat.length_toDigits_pos
      calc 10 ^ (top - 16).toNat * den
          ≤ 10 ^ ((Nat.toDigits 10 (num / den)).length - 1) * den :=
            Nat.mul_le_mul_right _ (Nat.pow_le_pow_right (by decide) (by omega))
        _ ≤ num / den * den := Nat.mul_le_mul_right _ digits
        _ ≤ num := Nat.div_mul_le_self ..
        _ ≤ num * 10 ^ (-(top - 16)).toNat := Nat.le_mul_of_pos_right _ (by positivity)
    · rename_i small
      have digits := (pow_length_toDigits (Nat.div_pos (Nat.le_of_not_le small) numPos)).2
      have some : 0 < (Nat.toDigits 10 (den / num)).length := Nat.length_toDigits_pos
      have places : (top - 16).toNat = 0 ∧
          (Nat.toDigits 10 (den / num)).length ≤ (-(top - 16)).toNat := by
        split at isTop <;> omega
      rw [places.1, Nat.pow_zero, Nat.one_mul]
      calc den ≤ num * 10 ^ (Nat.toDigits 10 (den / num)).length :=
            (Nat.mul_comm .. ▸ (Nat.div_lt_iff_lt_mul numPos).mp digits).le
        _ ≤ num * 10 ^ (-(top - 16)).toNat :=
            Nat.mul_le_mul_left _ (Nat.pow_le_pow_right (by decide) places.2)
  rw [← isTop]
  refine Nat.div_pos ?_ (by simp only [sides, Nat.pow_eq]; positivity)
  simpa only [sides, Nat.pow_eq, Nat.one_mul, ← isNum, ← isDen] using enough

/-- The decimal that is found for a magnitude other than zero is not zero. -/
theorem shortest_pos (positive : 0 < m.mantissa) : 0 < (shortest m).digits := by
  simp only [shortest]
  cases found : (List.range 17).findSome? fun (k : ℕ) => onGrid m (leadingExponent m - k) with
  | none => exact floorAt_pos positive
  | some d =>
    obtain ⟨k, -, onGrid⟩ := List.exists_of_findSome?_eq_some found
    exact pos_of_names positive (names_of_onGrid onGrid)

/-- A run of digits: at least one. -/
structure Run (text : List Char) : Prop where
  nonempty : text ≠ []
  digit : ∀ c ∈ text, c.isDigit = true

private theorem run_toDigits (n : ℕ) : Run (Nat.toDigits 10 n) :=
  ⟨Nat.toDigits_ne_nil, fun _ => Nat.isDigit_of_mem_toDigits (by decide) (by decide)⟩

variable {text more rest : List Char}

private theorem Run.append (run : Run text) (digit : ∀ c ∈ more, c.isDigit = true) :
    Run (text ++ more) :=
  ⟨by simp [run.nonempty], fun c member => (List.mem_append.mp member).elim (run.digit c) (digit c)⟩

/-- The digits of a decimal that is not zero, without its trailing zeros: the first is not zero. -/
theorem run_leading (nonzero : 0 < d.digits) :
    Run (leading d).1 ∧ (leading d).1.head? ≠ some '0' := by
  have run := run_toDigits d.digits
  have head : (Nat.toDigits 10 d.digits).head? ≠ some '0' := by
    intro zero
    obtain ⟨c, only⟩ := List.length_eq_one_iff.mp (Json.toDigits_head d.digits zero)
    have value := Nat.ofDigitChars_toDigits (b := 10) (n := d.digits) (by decide) (by decide)
    rw [only] at zero value
    obtain rfl : c = '0' := by simpa using zero
    simp [Nat.ofDigitChars] at value
    omega
  have stripped : (leading d).1 = (Nat.toDigits 10 d.digits).rdropWhile (· == '0') := rfl
  have nonempty : (leading d).1 ≠ [] := by
    rw [stripped, ne_eq, List.rdropWhile_eq_nil_iff]
    intro zeros
    obtain ⟨c, others, same⟩ := List.exists_cons_of_ne_nil run.nonempty
    rw [same, List.head?_cons, eq_of_beq (zeros c (same ▸ List.mem_cons_self))] at head
    exact head rfl
  have kept : (leading d).1 <+: Nat.toDigits 10 d.digits := List.rdropWhile_prefix _ _
  refine ⟨⟨nonempty, fun c member => run.digit c (kept.subset member)⟩, ?_⟩
  obtain ⟨rest, same⟩ := kept
  rw [← same, List.head?_append_of_ne_nil _ nonempty] at head
  exact head

/-! ## The literal -/

private theorem scanDigits_run (digit : ∀ c ∈ text, c.isDigit = true)
    (ends : ∀ c ∈ rest.head?, c.isDigit = false) : ∃ digits,
    Json.scanDigits (text ++ rest) = (digits, rest) ∧
      digits = text.map fun c => c.toNat - '0'.toNat := by
  have none : rest.takeWhile Char.isDigit = [] ∧ rest.dropWhile Char.isDigit = rest := by
    cases rest with
    | nil => exact ⟨rfl, rfl⟩
    | cons c others => simp [ends c rfl]
  refine ⟨_, ?_, rfl⟩
  rw [Json.scanDigits, List.takeWhile_append_of_pos digit, List.dropWhile_append_of_pos digit,
    none.1, none.2, List.append_nil]

private theorem Run.scanDigits (run : Run text) (rest : List Char)
    (ends : ∀ c ∈ rest.head?, c.isDigit = false) :
    ∃ digits, Json.scanDigits (text ++ rest) = (digits, rest) ∧ digits.isEmpty = false := by
  obtain ⟨digits, scanned, rfl⟩ := scanDigits_run run.digit ends
  exact ⟨_, scanned, by simpa using run.nonempty⟩

private theorem Run.scanFraction (run : Run text) (rest : List Char)
    (ends : ∀ c ∈ rest.head?, c.isDigit = false) :
    ∃ digits, Json.scanFraction ('.' :: (text ++ rest)) = some (digits, rest) := by
  obtain ⟨digits, scanned, some⟩ := run.scanDigits rest ends
  exact ⟨_, by simp only [Json.scanFraction, scanned, some]; rfl⟩

private theorem Run.scanExponent (run : Run text) (negative : Bool) : ∃ digits,
    Json.scanExponent ('e' :: (if negative then '-' else '+') :: text) = some (digits, []) := by
  obtain ⟨digits, scanned, some⟩ := run.scanDigits [] (by simp)
  rw [List.append_nil] at scanned
  cases negative <;>
    exact ⟨_, by simp [Json.scanExponent, Json.scanExponentDigits, scanned, some]; rfl⟩

/-- Digits that do not begin with a zero, unless they are just that, and what follows them. -/
theorem Run.scanUnsigned (run : Run text) (head : text.head? = some '0' → text.length = 1)
    (ends : ∀ c ∈ rest.head?, c.isDigit = false) {tail : List Char} {fraction : Option (List ℕ)}
    {exponent : Option (Bool × List ℕ)} (fractioned : Json.scanFraction rest = some (fraction, tail))
    (exponented : Json.scanExponent tail = some (exponent, [])) (negative : Bool) :
    ∃ literal, Json.scanUnsigned negative (text ++ rest) = some (literal, []) := by
  obtain ⟨digits, scanned, same⟩ := scanDigits_run run.digit ends
  have proper : ¬ (digits.isEmpty || (digits.head? == some 0 && digits.length != 1)) = true := by
    rw [same]
    obtain ⟨c, others, rfl⟩ := List.exists_cons_of_ne_nil run.nonempty
    simp only [List.map_cons, List.isEmpty_cons, Bool.false_or, List.head?_cons, List.length_cons,
      Bool.and_eq_true, beq_iff_eq, Option.some.injEq, bne_iff_ne, List.length_map, not_and,
      not_not]
    intro zero
    have digit := run.digit c List.mem_cons_self
    simp only [Char.isDigit, Bool.and_eq_true, decide_eq_true_eq] at digit
    have lower : '0'.toNat ≤ c.toNat := digit.1
    refine head (congrArg some (Char.toNat_inj.mp ?_))
    omega
  simp only [Json.scanUnsigned, scanned, if_neg proper, fractioned, exponented,
    Option.bind_eq_bind, Option.bind_some]
  exact ⟨_, rfl⟩

private theorem run_zeros (n : ℕ) : ∀ c ∈ List.replicate n '0', c.isDigit = true := by
  intro c member
  rw [List.eq_of_mem_replicate member]
  rfl

/-- Plain notation: digits, the point, and digits. -/
theorem scanUnsigned_plain (run : Run text) (head : text.head? ≠ some '0') (exponent : ℤ)
    (negative : Bool) :
    ∃ literal, Json.scanUnsigned negative (plain text exponent) = some (literal, []) := by
  obtain ⟨c, others, rfl⟩ := List.exists_cons_of_ne_nil run.nonempty
  have zero : Run ['0'] := ⟨by simp, by simp⟩
  unfold plain
  split
  · have fraction : Run (List.replicate (-exponent - 1).toNat '0' ++ c :: others) :=
      ⟨by simp, fun d member => (List.mem_append.mp member).elim (run_zeros _ d) (run.digit d)⟩
    obtain ⟨digits, scanned⟩ := fraction.scanFraction [] (by simp)
    rw [List.append_nil] at scanned
    exact zero.scanUnsigned (fun _ => rfl) (by simp) scanned rfl negative
  · simp only [List.take_succ_cons, List.drop_succ_cons, List.append_assoc]
    have lead : Run [c] := ⟨by simp, by simpa using run.digit c List.mem_cons_self⟩
    have whole : Run ([c] ++ (others.take exponent.toNat ++
        List.replicate (exponent.toNat + 1 - (c :: others).length) '0')) :=
      lead.append fun d member => (List.mem_append.mp member).elim
        (fun taken => run.digit d (List.mem_cons_of_mem _ (List.mem_of_mem_take taken)))
        (run_zeros _ d)
    have fraction : Run (if (others.drop exponent.toNat).isEmpty then ['0']
        else others.drop exponent.toNat) := by
      split
      · exact zero
      · rename_i some
        exact ⟨by simpa using some, fun d member =>
          run.digit d (List.mem_cons_of_mem _ (List.mem_of_mem_drop member))⟩
    obtain ⟨digits, scanned⟩ := fraction.scanFraction [] (by simp)
    rw [List.append_nil] at scanned
    have first : (c :: others).head? = some c := rfl
    simpa using whole.scanUnsigned (fun zero => absurd (first.trans zero) head) (by simp) scanned
      rfl negative

/-- Scientific notation: a digit, the point and digits if there are more, and the exponent. -/
theorem scanUnsigned_scientific (run : Run text) (head : text.head? ≠ some '0') (exponent : ℤ)
    (negative : Bool) :
    ∃ literal, Json.scanUnsigned negative (scientific text exponent) = some (literal, []) := by
  obtain ⟨c, others, rfl⟩ := List.exists_cons_of_ne_nil run.nonempty
  have lead : Run [c] := ⟨by simp, by simpa using run.digit c List.mem_cons_self⟩
  obtain ⟨digits, exponented⟩ :=
    (run_toDigits exponent.natAbs).scanExponent (decide (exponent < 0))
  simp only [decide_eq_true_eq] at exponented
  have alone : [c].head? = some '0' → [c].length = 1 := fun _ => rfl
  cases others with
  | nil =>
    simpa [scientific] using lead.scanUnsigned alone (by simp) rfl exponented negative
  | cons d rest =>
    have more : Run (d :: rest) :=
      ⟨by simp, fun e member => run.digit e (List.mem_cons_of_mem _ member)⟩
    obtain ⟨fraction, scanned⟩ := more.scanFraction ('e' ::
      (if exponent < 0 then '-' else '+') :: Nat.toDigits 10 exponent.natAbs) (by simp)
    simpa [scientific] using lead.scanUnsigned alone (by simp) scanned exponented negative

private theorem scanNumber_of_unsigned {scanned : Literal × List Char}
    (unsigned : scanUnsigned false text = some scanned) : scanNumber text = some scanned := by
  unfold Json.scanNumber
  split
  · simp [Json.scanUnsigned, Json.scanDigits] at unsigned
  · exact unsigned

/-- The text of a magnitude. -/
def magnitudeText (m : Magnitude) : List Char :=
  if m.mantissa = 0 then ['0', '.', '0']
  else if writtenPlainly (leading (shortest m)).2 then
    plain (leading (shortest m)).1 (leading (shortest m)).2
  else scientific (leading (shortest m)).1 (leading (shortest m)).2

private theorem finiteText_eq (x : Float) :
    finiteText x = (if isNegative x then ['-'] else []) ++ magnitudeText (magnitude x) := by
  unfold finiteText magnitudeText
  simp only
  split <;> rfl

private theorem scanUnsigned_magnitudeText (m : Magnitude) (negative : Bool) :
    ∃ literal, scanUnsigned negative (magnitudeText m) = some (literal, []) := by
  unfold magnitudeText
  split
  · exact ⟨_, rfl⟩
  · rename_i some
    obtain ⟨run, head⟩ := run_leading (shortest_pos (Nat.pos_of_ne_zero some))
    split
    · exact scanUnsigned_plain run head _ negative
    · exact scanUnsigned_scientific run head _ negative

/-- The written form of a double is one literal. -/
theorem scanNumber_finiteText (x : Float) :
    ∃ literal, scanNumber (finiteText x) = some (literal, []) := by
  rw [finiteText_eq]
  split
  · exact scanUnsigned_magnitudeText _ true
  · obtain ⟨literal, scanned⟩ := scanUnsigned_magnitudeText (magnitude x) false
    exact ⟨literal, scanNumber_of_unsigned scanned⟩

end JointQuery.Decimal
