import Manifest.Table

/-!
# Many bindings

Binding the names of a second table in a first keeps the names that are there and adds the others,
each once, in the order in which they first come (`Table.names_update`). A name is then bound to
what came last for it (`Table.get?_update`).
-/

namespace Manifest.Table

variable {α : Type}

/-- Once a name is bound, it is no longer among those that are still to be added. -/
theorem names_set_append (table : Table α) (name : String) (x : α) (rest : List String) :
    (table.set name x).names ++ (rest.filter (· ∉ (table.set name x).names)).eraseDups =
      table.names ++ ((name :: rest).filter (· ∉ table.names)).eraseDups := by
  rw [names_set]
  by_cases old : name ∈ table.names
  · simp [old]
  · have fresh : (rest.filter (· ∉ table.names ++ [name])) =
        (rest.filter (· ∉ table.names)).filter (!· == name) := by
      rw [List.filter_filter]
      apply List.filter_congr
      intro other _
      rw [Bool.eq_iff_iff]
      simp [and_comm]
    rw [if_neg old, fresh, List.filter_cons_of_pos (by simpa using old), List.eraseDups_cons,
      List.append_assoc, List.singleton_append]

/-- New names come after those that are there, each once, in the order in which they first come. -/
theorem names_update (table more : Table α) :
    (table.update more).names =
      table.names ++ (more.names.filter (· ∉ table.names)).eraseDups := by
  induction more generalizing table with
  | nil => simp [update, names]
  | cons entry rest ih => exact (ih _).trans (names_set_append table entry.1 entry.2 (names rest))

/-- A name is bound by the first entry that has it. -/
theorem get?_cons (entry : String × α) (rest : Table α) (name : String) :
    get? (entry :: rest) name = if entry.1 = name then some entry.2 else rest.get? name := by
  by_cases same : entry.1 = name
  · rw [if_pos same, get?, List.find?_cons_of_pos (by simpa using same)]
    rfl
  · rw [if_neg same, get?, List.find?_cons_of_neg (by simpa using same)]
    rfl

/-- A name that is bound in two tables has the binding of the first. -/
theorem get?_append (first second : Table α) (name : String) :
    get? (first ++ second) name = (first.get? name).or (second.get? name) := by
  rw [get?, get?, get?, List.find?_append, Option.map_or]

/-- A name is bound to what came last for it, or else to what it was bound to. -/
theorem get?_update (table more : Table α) (name : String) :
    (table.update more).get? name = (get? more.reverse name).or (table.get? name) := by
  induction more generalizing table with
  | nil => rfl
  | cons entry rest ih =>
    have bound : (table.set entry.1 entry.2).get? name =
        (get? [entry] name).or (table.get? name) := by
      rw [get?_cons]
      by_cases same : entry.1 = name
      · subst same
        rw [if_pos rfl, get?_set_self, Option.some_or]
      · rw [if_neg same, get?_set_of_ne table (Ne.symm same)]
        rfl
    rw [List.reverse_cons, get?_append, Option.or_assoc, ← bound]
    exact ih _

/-- Binding other names leaves what a name is bound to. -/
theorem get?_update_of_not_mem (table : Table α) {more : Table α} {name : String}
    (fresh : name ∉ more.names) : (table.update more).get? name = table.get? name := by
  have absent : get? more.reverse name = none := by
    rw [← Option.not_isSome_iff_eq_none, get?_isSome_iff]
    simpa [names] using fresh
  rw [get?_update, absent, Option.none_or]

/-- Names stay distinct when others are bound as well. -/
theorem nodup_names_update (table more : Table α) (distinct : table.names.Nodup) :
    (table.update more).names.Nodup := by
  induction more generalizing table with
  | nil => exact distinct
  | cons entry rest ih => exact ih _ (nodup_names_set table entry.1 entry.2 distinct)

end Manifest.Table
