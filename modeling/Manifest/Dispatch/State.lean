import Manifest.Fault
import Manifest.Table

/-!
# Dispatch state

Calls are made through tables of functions, one for each kind of call. The library holds every
function there is; the active tables hold those that calls may use. Selecting names makes exactly
these the active ones of a kind, each once, bound as in the library, in the order of their first
mention; it fails, and changes nothing, when a name is not in the library.

The functions themselves are of any type `F`: a state only holds them. `M` is whatever the
functions keep in the state for themselves.
-/

namespace Manifest

/-- A table of functions for each kind of call. -/
structure FunctionTables (F : Type) where
  value : Table F
  record : Table F
deriving Inhabited

namespace FunctionTables

variable {F : Type}

/-- The table of a kind of call. -/
def of (tables : FunctionTables F) : CallKind → Table F
  | .value => tables.value
  | .record => tables.record

/-- Replace the table of a kind of call. -/
def replace (tables : FunctionTables F) (kind : CallKind) (table : Table F) : FunctionTables F :=
  match kind with
  | .value => { tables with value := table }
  | .record => { tables with record := table }

/-- The replaced table is the new one. -/
theorem of_replace_self (tables : FunctionTables F) (kind : CallKind) (table : Table F) :
    (tables.replace kind table).of kind = table := by
  cases kind <;> rfl

/-- The table of the other kind stays. -/
theorem of_replace_of_ne (tables : FunctionTables F) {kind other : CallKind} (h : other ≠ kind)
    (table : Table F) : (tables.replace kind table).of other = tables.of other := by
  cases kind <;> cases other <;> first | rfl | exact absurd rfl h

end FunctionTables

/-- What calls are dispatched through, and what functions may change. -/
structure DispatchState (F M : Type) where
  library : FunctionTables F
  active : FunctionTables F
  version : Double
  memory : M

namespace DispatchState

variable {F M : Type}

/-- The state in which the whole library is active. -/
def ofLibrary (library : FunctionTables F) (version : Double) (memory : M) : DispatchState F M :=
  ⟨library, library, version, memory⟩

/-- The active function of a name. -/
def resolve (s : DispatchState F M) (kind : CallKind) (name : String) : Option F :=
  (s.active.of kind).get? name

/-- The bindings of the named functions, added to those chosen already. -/
def choose (library : Table F) (kind : CallKind) : (names : List String) → (chosen : Table F) →
    Except Fault (Table F)
  | [], chosen => .ok chosen
  | name :: rest, chosen =>
    match library.get? name with
    | none => .error (.unknownFunction (some kind) name)
    | some f => choose library kind rest (chosen.set name f)

/-- Make exactly the named functions of the library active for a kind of call. -/
def select (s : DispatchState F M) (kind : CallKind) (names : List String) :
    Except Fault (DispatchState F M) :=
  (choose (s.library.of kind) kind names []).map fun table ↦
    { s with active := s.active.replace kind table }

/-- Bind a name in the active table of a kind of call. -/
def bind (s : DispatchState F M) (kind : CallKind) (name : String) (f : F) :
    DispatchState F M :=
  { s with active := s.active.replace kind ((s.active.of kind).set name f) }

/-- The calls of a tree that no active function answers. -/
def missing (s : DispatchState F M) (v : Value) : List CallSite :=
  v.sites.filter fun site ↦ (s.resolve site.kind site.name).isNone

end DispatchState
end Manifest
