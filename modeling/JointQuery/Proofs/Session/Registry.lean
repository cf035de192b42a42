import JointQuery.Session.Registry
import Mathlib.Data.List.Nodup

/-! The registry as a partial function: as long as no identifier is repeated, an identifier stands
for the entry that is held under it. -/
namespace JointQuery

namespace Registry

variable {α : Type} {registry : Registry α} {id other : QueryId} {entry : α}

/-- No identifier is repeated. -/
def Distinct (registry : Registry α) : Prop := registry.ids.Nodup

theorem contains_iff : registry.contains id = true ↔ id ∈ registry.ids := by
  simp [contains, get?, ids]

theorem mem_of_get? (found : registry.get? id = some entry) : (id, entry) ∈ registry.entries := by
  simp only [get?, Option.map_eq_some_iff] at found
  obtain ⟨⟨key, value⟩, present, rfl⟩ := found
  have same := List.find?_some present
  simp only [beq_iff_eq] at same
  exact same ▸ List.mem_of_find?_eq_some present

/-- Entries with the same identifier are the same. -/
theorem Distinct.eq_of_mem (distinct : registry.Distinct) {second : α}
    (one : (id, entry) ∈ registry.entries) (two : (id, second) ∈ registry.entries) :
    entry = second :=
  (Prod.mk.inj (List.inj_on_of_nodup_map distinct one two rfl)).2

theorem Distinct.get?_eq_some_iff (distinct : registry.Distinct) :
    registry.get? id = some entry ↔ (id, entry) ∈ registry.entries := by
  refine ⟨mem_of_get?, fun member => ?_⟩
  have known : registry.contains id = true :=
    contains_iff.mpr (List.mem_map.mpr ⟨_, member, rfl⟩)
  obtain ⟨found, same⟩ := Option.isSome_iff_exists.mp known
  rw [same, distinct.eq_of_mem member (mem_of_get? same)]

theorem insert_eq (unknown : registry.contains id = false) :
    (registry.insert id entry).1.entries = registry.entries ++ [(id, entry)] := by
  simp [insert, unknown]

theorem Distinct.insert (distinct : registry.Distinct) (unknown : registry.contains id = false) :
    (registry.insert id entry).1.Distinct := by
  have absent : id ∉ registry.ids := fun present => by
    simp [contains_iff.mpr present] at unknown
  simp only [Distinct, ids, insert_eq unknown, List.map_append, List.map_cons, List.map_nil]
  refine List.nodup_append.mpr ⟨distinct, by simp, fun held present last only => ?_⟩
  rintro rfl
  rw [List.mem_singleton] at only
  exact absent (only ▸ present)

theorem mem_remove : (other, entry) ∈ (registry.remove id).entries ↔
    (other, entry) ∈ registry.entries ∧ other ≠ id := by
  simp [remove]

theorem Distinct.remove (distinct : registry.Distinct) : (registry.remove id).Distinct :=
  List.Nodup.sublist (List.Sublist.map _ List.filter_sublist) distinct

end Registry

end JointQuery
