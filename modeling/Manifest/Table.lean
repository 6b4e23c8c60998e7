/-!
# Tables

A table binds names in the order in which they were first bound. Binding a name that is there
replaces what it is bound to and leaves its place; a new name goes to the end.
-/

namespace Manifest

/-- Names bound to things, in the order of their first binding. -/
abbrev Table (α : Type) := List (String × α)

namespace Table

variable {α : Type}

/-- Bind a name. -/
def set (table : Table α) (name : String) (x : α) : Table α :=
  match table with
  | [] => [(name, x)]
  | (n, old) :: rest => if n = name then (n, x) :: rest else (n, old) :: set rest name x

/-- What a name is bound to. -/
def get? (table : Table α) (name : String) : Option α :=
  (table.find? fun (n, _) ↦ n == name).map Prod.snd

/-- The bound names, in table order. -/
def names (table : Table α) : List String := table.map Prod.fst

/-- Bind every name of a second table in a first. -/
def update (table more : Table α) : Table α := more.foldl (fun t (name, x) ↦ t.set name x) table

/-- A name just bound is bound to what was given. -/
theorem get?_set_self (table : Table α) (name : String) (x : α) :
    (table.set name x).get? name = some x := by
  induction table with
  | nil => simp [set, get?]
  | cons entry rest ih =>
    unfold set
    split
    · next h => simp [get?, h]
    · next h =>
      have : (entry.1 == name) = false := by simpa using h
      simpa [get?, this] using ih

/-- Binding a name leaves the others as they are. -/
theorem get?_set_of_ne (table : Table α) {name other : String} (h : other ≠ name) (x : α) :
    (table.set name x).get? other = table.get? other := by
  induction table with
  | nil => simp [set, get?, Ne.symm h]
  | cons entry rest ih =>
    unfold set
    split
    · next same =>
      have : (entry.1 == other) = false := by simpa [same] using Ne.symm h
      simp [get?, this]
    · cases found : entry.1 == other with
      | true => simp [get?, found]
      | false => simpa [get?, found] using ih

/-- The names after binding one: as before, with a new name at the end. -/
theorem names_set (table : Table α) (name : String) (x : α) :
    (table.set name x).names =
      if name ∈ table.names then table.names else table.names ++ [name] := by
  unfold names
  induction table with
  | nil => simp [set]
  | cons entry rest ih =>
    unfold set
    split
    · next h => simp [h]
    · next h =>
      simp only [List.map_cons, ih, List.mem_cons, Ne.symm h, false_or]
      split <;> simp

/-- A new name is bound at the end. -/
theorem set_of_not_mem {table : Table α} {name : String} (x : α) (fresh : name ∉ table.names) :
    table.set name x = table ++ [(name, x)] := by
  induction table with
  | nil => rfl
  | cons entry table ih =>
    obtain ⟨other, fresh⟩ := not_or.mp (fun inside ↦ fresh (List.mem_cons.mpr inside))
    rw [set, if_neg (Ne.symm other), ih fresh]
    rfl

/-- Binding keeps names distinct. -/
theorem nodup_names_set (table : Table α) (name : String) (x : α) (h : table.names.Nodup) :
    (table.set name x).names.Nodup := by
  rw [names_set]
  split
  · exact h
  · next fresh =>
    rw [List.nodup_append]
    refine ⟨h, by simp, ?_⟩
    intro a ha b hb
    rw [List.mem_singleton] at hb
    subst hb
    exact fun same ↦ fresh (same ▸ ha)

/-- A name is bound exactly when it is among the names. -/
theorem get?_isSome_iff (table : Table α) (name : String) :
    (table.get? name).isSome = true ↔ name ∈ table.names := by
  simp [get?, names, List.find?_isSome]

end Table
end Manifest
