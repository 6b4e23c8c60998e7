import Mathlib.Data.List.Forall2
import Manifest.Proofs.Dispatch.Resolution
import Manifest.Proofs.Table

/-!
# Repeated identifiers

The data of an object are the data of its records, bound one after another
(`Value.projectEntries_eq_ok`). An identifier therefore stands where it comes first among the
records, and is bound to the data of the value that comes last for it, which is the one that is
found by looking it up (`Value.project_object`).
-/

namespace Manifest.Value

/-- A binding of plain data is that of a record. -/
def Projects (record : String × Value) (member : String × Json) : Prop :=
  member.1 = record.1 ∧ record.2.project = .ok member.2

variable {records : Table Value} {members : Table Json}

/-- What entries add to some members are the data of their records, one after another. -/
theorem projectEntries_eq_ok {before : Table Json} {entries : List Entry}
    (projected : projectEntries before entries = .ok members) :
    ∃ data : Table Json, List.Forall₂ Projects (Entry.records entries) data ∧
      members = before.update data := by
  induction entries generalizing before with
  | nil =>
    cases projected
    exact ⟨[], .nil, rfl⟩
  | cons entry rest ih =>
    cases entry with
    | call f x => cases projected
    | record id x =>
      rw [projectEntries] at projected
      cases first : x.project with
      | error fault =>
        rw [first] at projected
        cases projected
      | ok d =>
        rw [first] at projected
        obtain ⟨data, related, rfl⟩ := ih projected
        exact ⟨(id, d) :: data, .cons ⟨rfl, first⟩ related, rfl⟩

private theorem names_of_projects (related : List.Forall₂ Projects records members) :
    members.names = records.names := by
  induction related with
  | nil => rfl
  | cons first _ ih => exact congrArg₂ List.cons first.1 ih

private theorem get?_of_projects (related : List.Forall₂ Projects records members) (key : String) :
    records.get? key = none ∧ members.get? key = none ∨
      ∃ v data, records.get? key = some v ∧ members.get? key = some data ∧
        v.project = .ok data := by
  induction related with
  | nil => exact .inl ⟨rfl, rfl⟩
  | @cons record member records members first _ ih =>
    obtain ⟨name, projected⟩ := first
    rw [Table.get?_cons, Table.get?_cons, name]
    by_cases here : record.1 = key
    · rw [if_pos here, if_pos here]
      exact .inr ⟨record.2, member.2, rfl, rfl, projected⟩
    · rw [if_neg here, if_neg here]
      exact ih

/-- The data of an object without calls have the identifiers of its records, each once, in the
order in which they first come. An identifier is looked up in vain exactly when the data lack it,
and otherwise they bind it to the data of the value that is found. -/
theorem project_object {entries : List Entry} (resolved : (object entries).isResolved = true) :
    ∃ members : Table Json, (object entries).project = .ok (.object members) ∧
      members.names = ((Entry.records entries).map Prod.fst).eraseDups ∧
      (∀ key, Entry.lookup? key entries = none ↔ key ∉ members.names) ∧
      ∀ key v, Entry.lookup? key entries = some v →
        ∃ data, v.project = .ok data ∧ members.get? key = some data := by
  obtain ⟨members, projected⟩ := exists_projectEntries [] entries resolved
  obtain ⟨data, related, rfl⟩ := projectEntries_eq_ok projected
  have named :
      (Table.update [] data).names = ((Entry.records entries).map Prod.fst).eraseDups := by
    rw [Table.names_update, names_of_projects related]
    simp [Table.names]
  -- The last binding of a name is the first among the bindings in reverse.
  have bound (key : String) :
      Table.get? (Table.update [] data) key = Table.get? data.reverse key := by
    rw [Table.get?_update]
    exact Option.or_none
  have found (key : String) := get?_of_projects (List.rel_reverse related) key
  refine ⟨Table.update [] data, by rw [project, projected]; rfl, named, ?_, ?_⟩
  · intro key
    rw [← Table.get?_isSome_iff, bound, Option.not_isSome_iff_eq_none]
    obtain ⟨absent, absent'⟩ | ⟨v, d, present, present', -⟩ := found key
    · exact iff_of_true absent absent'
    · change (Table.get? (Entry.records entries).reverse key) = none ↔ _
      rw [present, present']
      simp
  · intro key v looked
    obtain ⟨absent, -⟩ | ⟨w, d, present, present', projected⟩ := found key
    · cases looked.symm.trans absent
    · cases looked.symm.trans present
      exact ⟨d, projected, (bound key).trans present'⟩

private def repeated : List Entry :=
  [.record "a" (.number 1),
    .record "b" (.object [.record "c" (.number 2), .record "c" (.text "d")]),
    .record "a" (.typed "k" (.number 3)), .record "b" (.array []), .record "a" (.number 4)]

/-- Of repeated identifiers the last bindings count, at the places of the first. -/
theorem project_object_repeated :
    (object repeated).isResolved = true ∧
      ∃ members : Table Json, (object repeated).project = .ok (.object members) ∧
        members.names = ["a", "b"] ∧
        (∀ key, Entry.lookup? key repeated = none ↔ key ∉ members.names) ∧
        ∀ key v, Entry.lookup? key repeated = some v →
          ∃ data, v.project = .ok data ∧ members.get? key = some data :=
  ⟨by decide, project_object (by decide)⟩

end Manifest.Value
