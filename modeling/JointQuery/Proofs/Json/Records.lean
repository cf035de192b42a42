import JointQuery.Json.Decoder
import JointQuery.Proofs.Json.RoundTrip

/-! What readers of typed values make of the values that writers give them, and how much deeper a
value nests than the parts that a reader takes out of it. -/
namespace JointQuery.Json

variable {α : Type} {decode : Decoder α} {write : α → Json} {stage : Stage} {value body field : Json}
  {members : List (String × Json)} {keys tags : List String} {key tag : String} {strict : Bool}
  {record : Record} {place : Nat}

/-! ## Reading what was written -/

theorem asList_map {items : List α} (each : ∀ item ∈ items, decode stage (write item) = some item) :
    asList decode stage (.array (items.map write)) = some items := by
  simp only [asList]
  induction items with
  | nil => rfl
  | cons item rest ih =>
    have first := each item List.mem_cons_self
    have others := ih fun other member => each other (List.mem_cons_of_mem _ member)
    simp only [List.map_cons, List.mapM_cons, first, others, Option.bind_eq_bind, Option.bind_some,
      Option.pure_def]

theorem asOption_some {item : α} (present : value ≠ .null) (read : decode stage value = some item) :
    asOption decode stage value = some (some item) := by
  unfold asOption
  split
  · exact absurd rfl present
  · rw [read, Option.map_some]

theorem asOption_nullable (value : Option α) (present : ∀ item, write item ≠ .null)
    (each : ∀ item, decode stage (write item) = some item) :
    asOption decode stage (nullable write value) = some value := by
  cases value with
  | none => rfl
  | some item => exact asOption_some (present item) (each item)

/-- A tagged record that starts with its tag is read as the tag and the rest. -/
theorem asTagged_object (key : String) (tags : List String) (tag : String) (stage : Stage)
    (members : List (String × Json)) (known : tags.contains tag = true)
    (fresh : ∀ member ∈ members, member.1 ≠ key) (readable : membersReadable members = true) :
    asTagged key tags stage (.object ((key, .string tag) :: members)) =
      some (tag, .object members) := by
  have others : members.filter (·.1 == key) = [] :=
    List.filter_eq_nil_iff.mpr fun member present => by simpa using fresh member present
  have rest : members.filter (·.1 != key) = members :=
    List.filter_eq_self.mpr fun member present => by simpa using fresh member present
  have tagged : asTag tags stage (.string tag) = some tag := by
    simp only [asTag, if_pos known]
  simp [asTagged, isReadable, membersReadable, readable, uniqueMember, others, rest, tagged]

/-! ## Parts nest less deeply -/

private theorem exists_of_mapM {β : Type} {f : α → Option β} {items : List α} {results : List β}
    (mapped : items.mapM f = some results) : ∀ result ∈ results, ∃ item ∈ items, f item = some result := by
  induction items generalizing results with
  | nil =>
    cases mapped
    simp
  | cons item rest ih =>
    simp only [List.mapM_cons, Option.bind_eq_bind, Option.bind_eq_some_iff, Option.pure_def,
      Option.some.injEq] at mapped
    obtain ⟨first, found, others, more, rfl⟩ := mapped
    refine List.forall_mem_cons.mpr ⟨⟨item, List.mem_cons_self, found⟩, fun result member => ?_⟩
    obtain ⟨source, among, gives⟩ := ih more result member
    exact ⟨source, List.mem_cons_of_mem _ among, gives⟩

/-- Whatever is in a list was read from an item of an array. -/
theorem exists_of_asList {items : List α} (read : asList decode stage value = some items) :
    1 ≤ value.nesting ∧ ∀ item ∈ items, ∃ source, decode stage source = some item ∧
      source.nesting + 1 ≤ value.nesting := by
  unfold asList at read
  split at read
  · rename_i sources
    refine ⟨by rw [nesting]; omega, fun item member => ?_⟩
    obtain ⟨source, among, gives⟩ := exists_of_mapM read item member
    have inside := nesting_le_items among
    exact ⟨source, gives, by rw [nesting]; omega⟩
  · cases read

private theorem mem_of_uniqueMember (unique : uniqueMember members key = some (some field)) :
    ∃ member ∈ members, member.2 = field := by
  unfold uniqueMember at unique
  split at unique
  · cases unique
  · rename_i member only
    cases unique
    have among : member ∈ members.filter (·.1 == key) := by simp [only]
    exact ⟨member, (List.mem_filter.mp among).1, rfl⟩
  · cases unique

/-- A record is a container, and each of its fields nests less deeply. -/
theorem nesting_given (read : asRecord strict keys value = some record) :
    1 ≤ value.nesting ∧
      ∀ place field, record.given place = some field → field.nesting + 1 ≤ value.nesting := by
  unfold asRecord at read
  split at read
  · rename_i members
    refine ⟨by rw [nesting]; omega, fun place field given => ?_⟩
    split at read
    · cases read
    · obtain ⟨fields, mapped, rfl⟩ := Option.map_eq_some_iff.mp read
      have present : some field ∈ fields := by
        obtain ⟨found, here, same⟩ := Option.bind_eq_some_iff.mp given
        exact (show found = some field from same) ▸ List.mem_of_getElem? here
      obtain ⟨key, -, unique⟩ := exists_of_mapM mapped _ present
      obtain ⟨member, among, rfl⟩ := mem_of_uniqueMember unique
      have inside := nesting_le_members among
      rw [nesting]
      omega
  · rename_i items
    refine ⟨by rw [nesting]; omega, fun place field given => ?_⟩
    split at read
    · cases read
      have present : some field ∈ items.map some ++ List.replicate (keys.length - items.length) none := by
        obtain ⟨found, here, same⟩ := Option.bind_eq_some_iff.mp given
        exact (show found = some field from same) ▸ List.mem_of_getElem? here
      have among : field ∈ items := by simpa [List.mem_replicate] using present
      have inside := nesting_le_items among
      rw [nesting]
      omega
    · cases read
  · cases read

/-- Without its tag a tagged record nests no more deeply. -/
theorem nesting_asTagged (read : asTagged key tags stage value = some (tag, body)) :
    body.nesting ≤ value.nesting := by
  unfold asTagged at read
  split at read
  · cases read
  · split at read
    · rename_i members _
      simp only [Option.bind_eq_bind, Option.bind_eq_some_iff, Option.pure_def,
        Option.some.injEq, Prod.mk.injEq] at read
      obtain ⟨found, -, given, -, name, -, -, rfl⟩ := read
      have fewer : membersNesting (members.filter (·.1 != key)) ≤ membersNesting members :=
        membersNesting_le_iff.mpr fun member among =>
          nesting_le_members (List.mem_filter.mp among).1
      rw [nesting, nesting]
      omega
    · rename_i first rest
      simp only [Option.bind_eq_bind, Option.bind_eq_some_iff, Option.pure_def,
        Option.some.injEq, Prod.mk.injEq] at read
      obtain ⟨name, -, -, rfl⟩ := read
      rw [nesting, nesting, itemsNesting]
      omega
    · cases read

theorem given_of_required {item : α} (read : record.required place decode stage = some item) :
    ∃ field, record.given place = some field ∧ decode stage field = some item := by
  unfold Record.required at read
  split at read
  · rename_i field given
    exact ⟨field, given, read⟩
  · cases read

/-- A field with a default was given, or has its default. -/
theorem given_of_defaulted {item fallback : α}
    (read : record.defaulted place decode fallback stage = some item) :
    (∃ field, record.given place = some field ∧ decode stage field = some item) ∨
      item = fallback := by
  unfold Record.defaulted at read
  split at read
  · rename_i field given
    exact .inl ⟨field, given, read⟩
  · exact .inr (Option.some.inj read).symm

end JointQuery.Json
