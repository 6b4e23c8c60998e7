import Manifest.Dispatch.Standard
import Manifest.Proofs.Table

/-!
# Tables changed by selections

A state changes by selections when nothing else touches its tables; its version and its memory may
change in any way (`DispatchState.Reselects`). Selections stay within the library: every active
name is bound as in the library, and once (`DispatchState.Within`). The tables of a state are
within its library from the start (`DispatchState.within_build`) and whatever is selected later
(`DispatchState.Within.reselects`).

The standard functions change the tables by selections only (`Standard.call_reselects`).
-/

namespace Manifest

variable {F M : Type}

namespace Table

/-- Every name bound in the table is bound in the other to the same. -/
def SubTable (table other : Table F) : Prop :=
  ∀ name f, table.get? name = some f → other.get? name = some f

/-- Binding a name as in another table leaves a part of it. -/
theorem SubTable.set {table other : Table F} (sub : table.SubTable other) {name : String} {f : F}
    (bound : other.get? name = some f) : (table.set name f).SubTable other := by
  intro asked g found
  by_cases same : asked = name
  · subst same
    rw [get?_set_self, Option.some.injEq] at found
    rw [bound, found]
  · rw [get?_set_of_ne table same] at found
    exact sub asked g found

end Table

/-- A library has each name once: the standard functions and those of the host in their places. -/
theorem Callee.nodup_names_library {H : Type} (values records : Table H) (kind : CallKind) :
    ((Callee.library values records).of kind).names.Nodup := by
  cases kind with
  | value => exact Table.nodup_names_update _ _ (by simp [standardTables, Table.names])
  | record => exact Table.nodup_names_update _ _ (by simp [standardTables, Table.names])

namespace DispatchState

/-- What is chosen from a library binds each name once and as the library does. -/
theorem choose_eq_ok {library chosen table : Table F} {kind : CallKind} {names : List String}
    (distinct : chosen.names.Nodup) (sub : chosen.SubTable library)
    (ended : choose library kind names chosen = .ok table) :
    table.names.Nodup ∧ table.SubTable library := by
  induction names generalizing chosen with
  | nil =>
    cases ended
    exact ⟨distinct, sub⟩
  | cons name rest ih =>
    rw [choose] at ended
    cases found : library.get? name with
    | none =>
      rw [found] at ended
      cases ended
    | some f =>
      rw [found] at ended
      exact ih (Table.nodup_names_set chosen name f distinct) (sub.set found) ended

/-- The state is reached from another by selections; besides the tables anything may change. -/
inductive Reselects (s : DispatchState F M) : DispatchState F M → Prop
  | none : Reselects s s
  | select {t u : DispatchState F M} {kind : CallKind} {names : List String} :
    Reselects s t → t.select kind names = .ok u → Reselects s u
  | other {t u : DispatchState F M} :
    Reselects s t → u.library = t.library → u.active = t.active → Reselects s u

/-- The state has a library, and every active name is bound once and as in the library. -/
structure Within (s : DispatchState F M) (library : FunctionTables F) : Prop where
  library_eq : s.library = library
  distinct : ∀ kind, (s.active.of kind).names.Nodup
  subTable : ∀ kind, (s.active.of kind).SubTable (library.of kind)

variable {library : FunctionTables F} {s t : DispatchState F M}

/-- A state in which the whole library is active is within it. -/
theorem within_ofLibrary (distinct : ∀ kind, (library.of kind).names.Nodup) (version : Double)
    (memory : M) : (ofLibrary library version memory).Within library :=
  ⟨rfl, distinct, fun _ _ _ found ↦ found⟩

/-- A selection stays within the library. -/
theorem Within.select {kind : CallKind} {names : List String} (within : s.Within library)
    (selected : s.select kind names = .ok t) : t.Within library := by
  unfold DispatchState.select at selected
  cases chosen : choose (s.library.of kind) kind names [] with
  | error fault =>
    rw [chosen] at selected
    cases selected
  | ok table =>
    rw [chosen] at selected
    cases selected
    have empty : Table.names ([] : Table F) = [] := rfl
    obtain ⟨distinct, sub⟩ := choose_eq_ok (by rw [empty]; exact .nil)
      (fun _ _ found ↦ by cases found) chosen
    rw [within.library_eq] at sub
    refine ⟨within.library_eq, fun other ↦ ?_, fun other ↦ ?_⟩
    · by_cases same : other = kind
      · rw [same, FunctionTables.of_replace_self]
        exact distinct
      · rw [FunctionTables.of_replace_of_ne _ same]
        exact within.distinct other
    · by_cases same : other = kind
      · rw [same, FunctionTables.of_replace_self]
        exact sub
      · rw [FunctionTables.of_replace_of_ne _ same]
        exact within.subTable other

/-- Selections stay within the library. -/
theorem Within.reselects (within : s.Within library) (changed : s.Reselects t) :
    t.Within library := by
  induction changed with
  | none => exact within
  | select _ selected ih => exact ih.select selected
  | other _ sameLibrary sameActive ih =>
    refine ⟨sameLibrary.trans ih.library_eq, ?_, ?_⟩
    · rw [sameActive]
      exact ih.distinct
    · rw [sameActive]
      exact ih.subTable

/-- The settings make a selection from the library, or none. -/
theorem Within.configure {settings : Settings} {kind : CallKind} (within : s.Within library)
    (configured : s.configure settings kind = .ok t) : t.Within library := by
  unfold DispatchState.configure at configured
  split at configured
  · cases configured
    exact within
  · split at configured
    · cases configured
    · exact within.select configured

/-- The tables of a state are within its library from the start. -/
theorem within_build {H : Type} {settings : Settings} {values records : Table H} {memory : M}
    {s : DispatchState (Callee H) M} (built : build settings values records memory = .ok s) :
    s.Within (Callee.library values records) := by
  have start :=
    within_ofLibrary (Callee.nodup_names_library values records) settings.version memory
  unfold build at built
  cases configured : (ofLibrary (Callee.library values records) settings.version memory).configure
      settings .value with
  | error fault =>
    simp only [configured] at built
    cases built
  | ok between =>
    simp only [configured] at built
    exact (start.configure configured).configure built

end DispatchState

namespace Standard

/-- Selections taken one after the other, up to one that fails. -/
theorem selectAll_reselects (selections : List (String × Value)) {s t : DispatchState F M}
    (changed : s.Reselects t) : s.Reselects (selectAll selections t).2 := by
  induction selections generalizing t with
  | nil => exact changed
  | cons selection rest ih =>
    obtain ⟨id, v⟩ := selection
    rw [selectAll]
    split
    · exact changed
    · next kind _ =>
      split
      · exact changed
      · next u taken =>
        cases names : functionNames v with
        | error fault =>
          rw [names] at taken
          cases taken
        | ok listed =>
          rw [names] at taken
          exact ih (changed.select taken)

/-- The standard functions change the tables by selections only. -/
theorem call_reselects (function : Standard) (v : Value) (s : DispatchState F M) :
    s.Reselects (function.call v s).2 := by
  cases function with
  | selection =>
    cases v with
    | object entries => exact selectAll_reselects (Entry.records entries) .none
    | _ => exact .none
  | _ => exact .none

end Standard
end Manifest
