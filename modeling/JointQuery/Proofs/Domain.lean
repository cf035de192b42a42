import JointQuery.Domain.Basic

/-! What the domain of a query is made of: its columns, in order, and a tuple for every index below
the number of tuples, of which there are some but not too many. -/
namespace JointQuery.Domain

variable {domain : Domain} {query : Query}

theorem maxCount_eq : maxCount = 2147483647 := rfl

/-- A column can be added when it declares values and leaves the number of tuples small. -/
theorem extend_cons {dimensions : List Dimension} {count : Nat}
    (built : extend total dimensions count (column :: rest) = .ok domain) :
    ∃ values, column.domain = some values ∧ 0 < values.length ∧
      count * values.length ≤ maxCount ∧
      extend total (dimensions ++ [⟨column, values⟩]) (count * values.length) rest =
        .ok domain := by
  simp only [extend] at built
  split at built
  · simp at built
  · simp at built
  · rename_i values nonempty declared
    split at built
    · simp at built
    · rename_i within
      refine ⟨values, declared, List.length_pos_iff.mpr ?_, Nat.not_lt.mp within, built⟩
      rintro rfl
      simp_all

private theorem count_pos_of_extend {dimensions : List Dimension} {count : Nat}
    (built : extend total dimensions count columns = .ok domain) (positive : 0 < count) :
    0 < domain.count := by
  induction columns generalizing dimensions count with
  | nil =>
    simp only [extend, Except.ok.injEq] at built
    exact built ▸ positive
  | cons column rest ih =>
    obtain ⟨values, -, nonempty, -, later⟩ := extend_cons built
    exact ih later (Nat.mul_pos positive nonempty)

private theorem count_le_of_extend {dimensions : List Dimension} {count : Nat}
    (built : extend total dimensions count columns = .ok domain) (small : count ≤ maxCount) :
    domain.count ≤ maxCount := by
  induction columns generalizing dimensions count with
  | nil =>
    simp only [extend, Except.ok.injEq] at built
    exact built ▸ small
  | cons column rest ih =>
    obtain ⟨values, -, -, within, later⟩ := extend_cons built
    exact ih later within

private theorem columns_of_extend {dimensions : List Dimension} {count : Nat}
    (built : extend total dimensions count columns = .ok domain) :
    domain.dimensions.map (·.column) = dimensions.map (·.column) ++ columns := by
  induction columns generalizing dimensions count with
  | nil =>
    simp only [extend, Except.ok.injEq] at built
    simp [← built]
  | cons column rest ih =>
    obtain ⟨values, -, -, -, later⟩ := extend_cons built
    rw [ih later]
    simp

/-- A query has at least one tuple. -/
theorem count_pos (built : ofQuery query = .ok domain) : 0 < domain.count :=
  count_pos_of_extend built Nat.one_pos

/-- A query has no more tuples than a party can address. -/
theorem count_le (built : ofQuery query = .ok domain) : domain.count ≤ maxCount :=
  count_le_of_extend built (by decide)

/-- The dimensions are the columns that the query groups by. -/
theorem columns_eq (built : ofQuery query = .ok domain) :
    domain.dimensions.map (·.column) = query.groupBys := by
  have columns := columns_of_extend built
  rwa [List.map_nil, List.nil_append] at columns

/-- The columns are those that the query groups by. -/
theorem columnNames_eq (built : ofQuery query = .ok domain) :
    domain.columnNames = query.groupBys.map Column.label := by
  rw [← columns_eq built, columnNames, List.map_map]
  rfl

/-- There is a tuple at every index below the number of tuples. -/
theorem exists_tuple {index : Nat} (inside : index < domain.count) :
    ∃ group, domain.tuple index = some group := by
  simp [tuple, positions, inside]

/-! ## Local values

The parties hold a tuple's values between them: its owners, asked in the order of the columns, give
them back. -/

/-- Puts together what each party holds, taking the next value of each owner in turn. -/
def merge {α : Type} : (owners : List Party) → (held : PerParty (List α)) → List α
  | [], _ => []
  | owner :: owners, held =>
    (held.get owner).take 1 ++ merge owners (held.set owner ((held.get owner).drop 1))

/-- The values among these that a party owns. -/
def owned {α : Type} (entries : List (Party × α)) (party : Party) : List α :=
  (entries.filter (·.1 == party)).map (·.2)

/-- Once its value is taken, the owner holds what it owns of the rest, as the others do. -/
theorem merge_owned {α : Type} (entries : List (Party × α)) :
    merge (entries.map (·.1)) (.ofFn (owned entries)) = entries.map (·.2) := by
  induction entries with
  | nil => rfl
  | cons entry rest ih =>
    obtain ⟨owner, value⟩ := entry
    have next : owned ((owner, value) :: rest) owner = value :: owned rest owner := by
      simp [owned]
    have others : (PerParty.ofFn (owned ((owner, value) :: rest))).set owner (owned rest owner) =
        .ofFn (owned rest) := by
      cases owner <;> simp [PerParty.set, PerParty.ofFn, owned]
    simp only [List.map_cons, merge, PerParty.get_ofFn, next, List.take_succ_cons, List.take_zero,
      List.drop_succ_cons, List.drop_zero, List.singleton_append, others, ih]

private theorem length_digits (radices : List Nat) (n : Nat) :
    (digits radices n).1.length = radices.length := by
  induction radices with
  | nil => rfl
  | cons radix rest ih => simp [digits, ih]

/-- A tuple has a value for each column. -/
theorem length_tuple {index : Nat} {values : List GroupValue}
    (found : domain.tuple index = some values) :
    values.length = domain.dimensions.length := by
  simp only [tuple, positions, Option.map_eq_some_iff, Option.ite_none_right_eq_some,
    Option.some.injEq] at found
  obtain ⟨_, ⟨-, rfl⟩, rfl⟩ := found
  simp [valuesAt, length_digits, radices]

/-- The values of a tuple with the parties that own them. -/
def owners (domain : Domain) (values : List GroupValue) : List (Party × GroupValue) :=
  (domain.dimensions.zip values).map fun entry => (entry.1.column.db, entry.2)

theorem localValues_eq {index : Nat} {values : List GroupValue}
    (found : domain.tuple index = some values) (party : Party) :
    domain.localValues index party = some (owned (domain.owners values) party) := by
  simp [localValues, found, owned, owners, List.filter_map, Function.comp_def]

/-- What the parties hold of a tuple is, put together by the owners of the columns, the tuple. -/
theorem merge_localValues (built : ofQuery query = .ok domain) {index : Nat}
    {values : List GroupValue} (found : domain.tuple index = some values) :
    merge (query.groupBys.map (·.db)) (.ofFn (owned (domain.owners values))) = values := by
  have length := length_tuple found
  have columns : (domain.owners values).map (·.1) = query.groupBys.map (·.db) := by
    have dimensions := List.map_fst_zip (Nat.le_of_eq length.symm)
    calc (domain.owners values).map (·.1)
        = ((domain.dimensions.zip values).map Prod.fst).map (·.column.db) := by
          rw [owners, List.map_map, List.map_map]
          rfl
      _ = query.groupBys.map (·.db) := by
          rw [dimensions, ← columns_eq built, List.map_map]
          rfl
  have given : (domain.owners values).map (·.2) = values := by
    rw [owners, List.map_map]
    exact List.map_snd_zip (Nat.le_of_eq length)
  rw [← columns, merge_owned, given]

/-- A party that owns no column holds no value. -/
theorem owned_eq_nil (built : ofQuery query = .ok domain) {party : Party}
    (foreign : ∀ column ∈ query.groupBys, column.db ≠ party) (values : List GroupValue) :
    owned (domain.owners values) party = [] := by
  rw [owned, List.map_eq_nil_iff, List.filter_eq_nil_iff]
  intro entry member
  obtain ⟨⟨dimension, value⟩, among, rfl⟩ := List.mem_map.mp member
  have column : dimension.column ∈ query.groupBys := by
    rw [← columns_eq built]
    exact List.mem_map_of_mem (List.of_mem_zip among).1
  simpa using foreign _ column

end JointQuery.Domain
