import JointQuery.Proofs.Domain
import Mathlib.Algebra.Ring.Nat
import Mathlib.Data.List.Forall2

/-! The order of the tuples. An index written to mixed radices says for each column which of its
values the tuple has. Below the number of tuples, which is the exact product of the numbers of
values, index and places determine each other, and the smaller index has the lexicographically
smaller places: the last column turns fastest. -/
namespace JointQuery

/-- How many values a column declares. -/
def Column.cardinality (column : Column) : Nat := (column.domain.getD []).length

/-- A column that declares at least one value. -/
def Column.Declares (column : Column) : Prop :=
  ∃ values, column.domain = some values ∧ values ≠ []

/-- A column with the values that it declares. -/
def Column.dimension (column : Column) : Dimension := ⟨column, column.domain.getD []⟩

/-- How many values each column declares that the query groups by. -/
def Query.cardinalities (query : Query) : List Nat := query.groupBys.map Column.cardinality

private theorem Column.Declares.cardinality_pos {column : Column} (declares : column.Declares) :
    0 < column.cardinality := by
  obtain ⟨values, declared, nonempty⟩ := declares
  simpa [cardinality, declared] using List.length_pos_iff.mpr nonempty

namespace Domain

/-- The values that columns declare at these places. -/
inductive Picks : List Column → List Nat → List GroupValue → Prop where
  | nil : Picks [] [] []
  | cons (declared : column.domain = some values) (found : values[place]? = some value)
      (rest : Picks columns places group) :
      Picks (column :: columns) (place :: places) (value :: group)

variable {domain : Domain} {query : Query} {radices places others : List Nat}

/-! ## Places -/

/-- One place for each radix, and below it. -/
def Within (radices places : List Nat) : Prop := List.Forall₂ (· < ·) places radices

/-- The number that has these places as its digits. -/
def indexOf : List Nat → List Nat → Nat
  | _ :: radices, place :: places => place * radices.prod + indexOf radices places
  | _, _ => 0

private theorem indexOf_lt (within : Within radices places) :
    indexOf radices places < radices.prod := by
  induction within with
  | nil => simp [indexOf]
  | @cons place radix places radices below _ ih =>
    have room := Nat.mul_le_mul_right radices.prod (Nat.succ_le_of_lt below)
    rw [Nat.succ_mul] at room
    simp only [indexOf, List.prod_cons]
    omega

/-- The digits of a number are its places; what does not fit them is carried. -/
theorem digits_indexOf (within : Within radices places) (carried : Nat) :
    digits radices (indexOf radices places + carried * radices.prod) = (places, carried) := by
  induction within generalizing carried with
  | nil => simp [digits, indexOf]
  | @cons place radix places radices below _ ih =>
    have regroup : indexOf (radix :: radices) (place :: places) +
        carried * (radix :: radices).prod =
          indexOf radices places + (place + carried * radix) * radices.prod := by
      simp only [indexOf, List.prod_cons, Nat.add_mul, Nat.mul_assoc]
      omega
    have positive : 0 < radix := Nat.zero_lt_of_lt below
    simp only [regroup, digits, ih, Prod.mk.injEq, List.cons.injEq, and_true]
    constructor
    · rw [Nat.add_mul_mod_self_right, Nat.mod_eq_of_lt below]
    · rw [Nat.add_mul_div_right _ _ positive, Nat.div_eq_of_lt below, Nat.zero_add]

private theorem indexOf_digits (radices : List Nat) (n : Nat) :
    indexOf radices (digits radices n).1 + (digits radices n).2 * radices.prod = n := by
  induction radices with
  | nil => simp [digits, indexOf]
  | cons radix radices ih =>
    simp only [digits, indexOf, List.prod_cons]
    generalize (digits radices n).2 = carried at ih ⊢
    have split : carried % radix * radices.prod + carried / radix * (radix * radices.prod) =
        carried * radices.prod := by
      rw [← Nat.mul_assoc, ← Nat.add_mul, Nat.mul_comm _ radix, Nat.mod_add_div]
    omega

private theorem within_digits (positive : ∀ radix ∈ radices, 0 < radix) (n : Nat) :
    Within radices (digits radices n).1 := by
  induction radices with
  | nil => exact .nil
  | cons radix radices ih =>
    refine .cons (Nat.mod_lt _ (positive radix List.mem_cons_self)) (ih ?_)
    exact fun other member => positive other (List.mem_cons_of_mem _ member)

/-- Numbers are ordered as their places are, the first place before all others. -/
theorem indexOf_lt_indexOf (within : Within radices places) (within' : Within radices others) :
    indexOf radices places < indexOf radices others ↔ places < others := by
  induction within generalizing others with
  | nil =>
    cases within'
    simp [indexOf]
  | @cons place radix places radices below rest ih =>
    cases within' with
    | @cons other _ others _ below' rest' =>
      have small := indexOf_lt rest
      have small' := indexOf_lt rest'
      rw [List.cons_lt_cons_iff, ← ih rest']
      simp only [indexOf]
      rcases Nat.lt_trichotomy place other with less | rfl | more
      · have apart := Nat.mul_le_mul_right radices.prod (Nat.succ_le_of_lt less)
        rw [Nat.succ_mul] at apart
        omega
      · omega
      · have apart := Nat.mul_le_mul_right radices.prod (Nat.succ_le_of_lt more)
        rw [Nat.succ_mul] at apart
        omega

/-! ## The domain of a query -/

private theorem prod_cardinalities_pos {columns : List Column}
    (declares : ∀ column ∈ columns, column.Declares) :
    0 < (columns.map Column.cardinality).prod := by
  induction columns with
  | nil => simp
  | cons column rest ih =>
    rw [List.map_cons, List.prod_cons]
    exact Nat.mul_pos (declares column List.mem_cons_self).cardinality_pos
      (ih fun other member => declares other (List.mem_cons_of_mem _ member))

/-- Adding columns succeeds when each of them declares values and the exact product stays small.
Stopping at the first product that is too large is not too early: the columns that follow do not
make it smaller. -/
theorem extend_eq_ok_iff {dimensions : List Dimension} {columns : List Column} {count : Nat}
    (small : count ≤ maxCount) :
    extend total dimensions count columns = .ok domain ↔
      (∀ column ∈ columns, column.Declares) ∧
        count * (columns.map Column.cardinality).prod ≤ maxCount ∧
        domain = ⟨dimensions ++ columns.map Column.dimension,
          count * (columns.map Column.cardinality).prod⟩ := by
  induction columns generalizing dimensions count with
  | nil => simp [extend, small, eq_comm]
  | cons column rest ih =>
    constructor
    · intro built
      obtain ⟨values, declared, nonempty, within, later⟩ := extend_cons built
      obtain ⟨declares, bounded, rfl⟩ := (ih within).mp later
      have size : column.cardinality = values.length := by simp [Column.cardinality, declared]
      have dimension : column.dimension = ⟨column, values⟩ := by
        simp [Column.dimension, declared]
      refine ⟨?_, ?_, ?_⟩
      · intro other member
        rcases List.mem_cons.mp member with rfl | member
        · exact ⟨values, declared, List.length_pos_iff.mp nonempty⟩
        · exact declares other member
      · rwa [List.map_cons, List.prod_cons, size, ← Nat.mul_assoc]
      · simp [dimension, size, Nat.mul_assoc]
    · rintro ⟨declares, bounded, rfl⟩
      obtain ⟨values, declared, nonempty⟩ := declares column List.mem_cons_self
      have others : ∀ other ∈ rest, other.Declares := fun other member =>
        declares other (List.mem_cons_of_mem _ member)
      have size : column.cardinality = values.length := by simp [Column.cardinality, declared]
      have dimension : column.dimension = ⟨column, values⟩ := by
        simp [Column.dimension, declared]
      rw [List.map_cons, List.prod_cons, size, ← Nat.mul_assoc] at bounded
      have within : count * values.length ≤ maxCount :=
        Nat.le_trans (Nat.le_mul_of_pos_right _ (prod_cardinalities_pos others)) bounded
      simp only [extend, declared, Nat.not_lt.mpr within, if_false]
      refine (ih within).mpr ⟨others, bounded, ?_⟩
      simp [dimension, size, Nat.mul_assoc]

theorem ofQuery_eq_ok_iff :
    ofQuery query = .ok domain ↔
      (∀ column ∈ query.groupBys, column.Declares) ∧ query.cardinalities.prod ≤ maxCount ∧
        domain = ⟨query.groupBys.map Column.dimension, query.cardinalities.prod⟩ := by
  rw [ofQuery, extend_eq_ok_iff (by decide)]
  simp [Query.cardinalities]

private theorem radices_eq (built : ofQuery query = .ok domain) :
    domain.radices = query.cardinalities := by
  obtain ⟨-, -, rfl⟩ := ofQuery_eq_ok_iff.mp built
  simp [radices, Query.cardinalities, Column.dimension, Column.cardinality, Function.comp_def]

theorem count_eq_prod (built : ofQuery query = .ok domain) :
    domain.count = query.cardinalities.prod := by
  obtain ⟨-, -, rfl⟩ := ofQuery_eq_ok_iff.mp built
  rfl

theorem radices_pos (built : ofQuery query = .ok domain) : ∀ radix ∈ domain.radices, 0 < radix := by
  rw [radices_eq built]
  intro radix member
  obtain ⟨column, among, rfl⟩ := List.mem_map.mp member
  exact ((ofQuery_eq_ok_iff.mp built).1 column among).cardinality_pos

private theorem count_eq_prod_radices (built : ofQuery query = .ok domain) :
    domain.count = domain.radices.prod := by
  rw [radices_eq built, count_eq_prod built]

/-- The tuple at an index has these places exactly when they exist and number the index. -/
theorem positions_eq_some_iff (built : ofQuery query = .ok domain) {index : Nat} :
    domain.positions index = some places ↔
      Within domain.radices places ∧ indexOf domain.radices places = index := by
  have count := count_eq_prod_radices built
  simp only [positions, Option.ite_none_right_eq_some, Option.some.injEq]
  constructor
  · rintro ⟨inside, rfl⟩
    have within := within_digits (radices_pos built) index
    have below := indexOf_lt within
    have whole := indexOf_digits domain.radices index
    refine ⟨within, ?_⟩
    rcases Nat.eq_zero_or_pos (digits domain.radices index).2 with none | some
    · simpa [none] using whole
    · have excess := Nat.le_mul_of_pos_left domain.radices.prod some
      omega
  · rintro ⟨within, rfl⟩
    have places := digits_indexOf within 0
    rw [Nat.zero_mul, Nat.add_zero] at places
    exact ⟨count ▸ indexOf_lt within, by rw [places]⟩

/-! ## Values -/

private theorem picks_valuesAt {columns : List Column}
    (declares : ∀ column ∈ columns, column.Declares)
    (within : Within (columns.map Column.cardinality) places) :
    Picks columns places (valuesAt (columns.map Column.dimension) places) := by
  induction columns generalizing places with
  | nil =>
    cases within
    exact .nil
  | cons column rest ih =>
    cases within with
    | @cons place _ places _ below within =>
      obtain ⟨values, declared, -⟩ := declares column List.mem_cons_self
      have inside : place < values.length := by simpa [Column.cardinality, declared] using below
      have later := ih (fun other member => declares other (List.mem_cons_of_mem _ member)) within
      have value : (values[place]?).join = values[place] := by
        rw [List.getElem?_eq_getElem inside, Option.join_some]
      simp only [List.map_cons, valuesAt, List.zipWith_cons_cons, Column.dimension, declared,
        Option.getD_some, value]
      exact .cons declared (List.getElem?_eq_getElem inside) later

private theorem picks_tuple (built : ofQuery query = .ok domain) {index : Nat}
    (found : domain.positions index = some places) :
    ∃ group, domain.tuple index = some group ∧ Picks query.groupBys places group := by
  refine ⟨valuesAt domain.dimensions places, by rw [tuple, found, Option.map_some], ?_⟩
  obtain ⟨within, -⟩ := (positions_eq_some_iff built).mp found
  rw [radices_eq built] at within
  obtain ⟨declares, -, rfl⟩ := ofQuery_eq_ok_iff.mp built
  exact picks_valuesAt declares within

/-! ## Counting in words -/

/-- The product of two words, unless it does not fit one. -/
def checkedMul (a b : UInt64) : Option UInt64 :=
  if a.toNat * b.toNat < UInt64.size then some (a * b) else none

/-- The number of tuples as it is counted in words, column by column. A product that does not fit a
word is refused as one that passes `maxCount` is. -/
def countWords (total : Nat) (count : UInt64) : List Column → Except QueryError UInt64
  | [] => .ok count
  | column :: rest =>
    match column.domain with
    | none => .error (Query.undeclared column)
    | some [] => .error (empty column)
    | some values =>
      match (checkedMul count (UInt64.ofNat values.length)).filter (·.toNat ≤ maxCount) with
      | some product => countWords total product rest
      | none => .error (overflow total)

/-- A word holds every product that is not refused. -/
private theorem checkedMul_filter {count size : Nat} (small : count ≤ maxCount)
    (fits : size < UInt64.size) :
    (checkedMul (UInt64.ofNat count) (UInt64.ofNat size)).filter (·.toNat ≤ maxCount) =
      if maxCount < count * size then none else some (UInt64.ofNat (count * size)) := by
  have word : maxCount < UInt64.size := by decide
  have first : (UInt64.ofNat count).toNat = count :=
    UInt64.toNat_ofNat_of_lt' (Nat.lt_of_le_of_lt small word)
  have second : (UInt64.ofNat size).toNat = size := UInt64.toNat_ofNat_of_lt' fits
  rw [checkedMul, first, second, ← UInt64.ofNat_mul]
  by_cases held : count * size < UInt64.size
  · have product : (UInt64.ofNat (count * size)).toNat = count * size :=
      UInt64.toNat_ofNat_of_lt' held
    by_cases within : maxCount < count * size
    · simp only [held, if_true, Option.filter, product, within, Nat.not_le.mpr within, decide_false]
      rfl
    · simp only [held, if_true, Option.filter, product, within, Nat.not_lt.mp within, decide_true,
        if_false]
  · have above : maxCount < count * size := by omega
    simp [held, above]

private theorem countWords_extend {dimensions : List Dimension} {columns : List Column}
    {count : Nat} (small : count ≤ maxCount)
    (fits : ∀ column ∈ columns, column.cardinality < UInt64.size) :
    countWords total (UInt64.ofNat count) columns =
      (extend total dimensions count columns).map (UInt64.ofNat ·.count) := by
  induction columns generalizing dimensions count with
  | nil => rfl
  | cons column rest ih =>
    simp only [countWords, extend]
    cases declared : column.domain with
    | none => rfl
    | some values =>
      have size : values.length < UInt64.size := by
        simpa [Column.cardinality, declared] using fits column List.mem_cons_self
      cases values with
      | nil => rfl
      | cons value values =>
        simp only [checkedMul_filter small size]
        by_cases within : maxCount < count * (value :: values).length
        · simp only [within, if_true]
          rfl
        · simp only [within, if_false]
          exact ih (Nat.not_lt.mp within) fun other member =>
            fits other (List.mem_cons_of_mem _ member)

/-- Counting in words is exact, whatever the sizes that lists can have. -/
theorem countWords_eq (fits : ∀ column ∈ query.groupBys, column.cardinality < UInt64.size) :
    countWords query.groupBys.length 1 query.groupBys =
      (ofQuery query).map (UInt64.ofNat ·.count) :=
  countWords_extend (show 1 ≤ maxCount by decide) fits

/-! ## The enumeration -/

/-- A domain numbers the tuples of a query. -/
structure Enumerates (domain : Domain) (query : Query) : Prop where
  count : domain.count = query.cardinalities.prod
  /-- The indices below the count are those that have places. -/
  inside : ∀ index, (∃ places, domain.positions index = some places) ↔ index < domain.count
  within : ∀ index places, domain.positions index = some places →
    Within query.cardinalities places
  /-- All places below the cardinalities are those of one index. -/
  onto : ∀ places, Within query.cardinalities places →
    ∃! index, domain.positions index = some places
  /-- Indices and places are in the same order. -/
  ordered : ∀ first second places others, domain.positions first = some places →
    domain.positions second = some others → (first < second ↔ places < others)
  outside : ∀ index, domain.count ≤ index → domain.tuple index = none
  /-- A tuple has the values that the columns declare at its places. -/
  picks : ∀ index places, domain.positions index = some places →
    ∃ group, domain.tuple index = some group ∧ Picks query.groupBys places group

private theorem enumerates_of_built (built : ofQuery query = .ok domain) :
    domain.Enumerates query where
  count := count_eq_prod built
  inside index := by simp [positions]
  within index places found := by
    rw [← radices_eq built]
    exact ((positions_eq_some_iff built).mp found).1
  onto places within := by
    rw [← radices_eq built] at within
    refine ⟨_, (positions_eq_some_iff built).mpr ⟨within, rfl⟩, ?_⟩
    intro index found
    exact ((positions_eq_some_iff built).mp found).2.symm
  ordered first second places others one two := by
    obtain ⟨within, rfl⟩ := (positions_eq_some_iff built).mp one
    obtain ⟨within', rfl⟩ := (positions_eq_some_iff built).mp two
    exact indexOf_lt_indexOf within within'
  outside index outside := by simp [tuple, positions, Nat.not_lt.mpr outside]
  picks index places found := picks_tuple built found

/-- Which queries have a domain, and how its tuples are numbered. There is one when each column
declares values and their exact product is small enough, and counting in words comes to the same.
The tuples are then as many as the product, and numbered in the order of their places. -/
theorem enumerates (query : Query) :
    ((∃ domain, ofQuery query = .ok domain) ↔
      (∀ column ∈ query.groupBys, column.Declares) ∧ query.cardinalities.prod ≤ maxCount) ∧
    ((∀ column ∈ query.groupBys, column.cardinality < UInt64.size) →
      countWords query.groupBys.length 1 query.groupBys =
        (ofQuery query).map (UInt64.ofNat ·.count)) ∧
    ∀ domain, ofQuery query = .ok domain → domain.Enumerates query := by
  refine ⟨⟨?_, ?_⟩, countWords_eq, fun domain built => enumerates_of_built built⟩
  · rintro ⟨domain, built⟩
    obtain ⟨declares, bounded, -⟩ := ofQuery_eq_ok_iff.mp built
    exact ⟨declares, bounded⟩
  · rintro ⟨declares, bounded⟩
    exact ⟨_, ofQuery_eq_ok_iff.mpr ⟨declares, bounded, rfl⟩⟩

/-- A query that groups by two columns of different parties, one of which may lack its value. -/
def twoByThree : Query where
  table := "visits"
  aggregates := []
  prefilters := ⟨none, none, none⟩
  groupBys := [⟨"visits", "year", .db1, .string, some [some "2023", some "2024"]⟩,
    ⟨"visits", "region", .db2, .string, some [some "north", some "south", none]⟩]

/-- The last of its six tuples, and the only one with these places. -/
theorem enumerates_twoByThree :
    countWords 2 1 twoByThree.groupBys = .ok 6 ∧
      ofQuery twoByThree = .ok ⟨twoByThree.groupBys.map Column.dimension, 6⟩ ∧
      Within twoByThree.cardinalities [1, 2] ∧
      (∃! index, Domain.positions ⟨twoByThree.groupBys.map Column.dimension, 6⟩ index =
        some [1, 2]) := by
  have fits : ∀ column ∈ twoByThree.groupBys, column.cardinality < UInt64.size := by decide
  have built : ofQuery twoByThree = .ok ⟨twoByThree.groupBys.map Column.dimension, 6⟩ := by rfl
  have within : Within twoByThree.cardinalities [1, 2] :=
    .cons (by decide) (.cons (by decide) .nil)
  obtain ⟨-, words, listed⟩ := enumerates twoByThree
  exact ⟨words fits, built, within, (listed _ built).onto [1, 2] within⟩

end Domain

end JointQuery
