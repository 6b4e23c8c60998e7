import Manifest.Value.Basic

/-!
# Call sites

A call stands either for a value or for a record of an object. `Value.sites` lists the calls of a
tree in the order in which they are written, each with the path of the binding that holds it:
identifiers joined by points, and the index of an item in brackets. A call that stands for a record
has the path of its object. `Value.dispatches` lists the same calls in the order in which they are
made, every call after the calls of its argument.
-/

namespace Manifest

/-- What a call stands for. -/
inductive CallKind
  | value
  | record
deriving DecidableEq, Repr

/-- The mark written before the name of a called function. -/
def CallKind.sigil : CallKind → String
  | value => "@"
  | record => "#"

/-- The name of a kind of call in a listing. -/
def CallKind.name : CallKind → String
  | value => "value"
  | record => "record"

/-- A call in a tree. -/
structure CallSite where
  kind : CallKind
  name : String
  path : String
deriving DecidableEq, Repr

/-- The making of a call. -/
structure Dispatch where
  kind : CallKind
  name : String
deriving DecidableEq, Repr

/-- What a trace says of a call. -/
def Dispatch.message (d : Dispatch) : String := "dispatch " ++ d.kind.sigil ++ d.name

/-- The call of a site. -/
def CallSite.dispatch (site : CallSite) : Dispatch := ⟨site.kind, site.name⟩

/-- The path of a binding in the object at a path. -/
def joinPath (path id : String) : String := if path.isEmpty then id else path ++ "." ++ id

/-- The path of an item of the array at a path. -/
def itemPath (path : String) (index : Nat) : String := s!"{path}[{index}]"

namespace Value

mutual

/-- The calls of a tree at a path, a call before those of its argument. -/
def sitesAt (path : String) : Value → List CallSite
  | number _ | float _ | text _ => []
  | array items => itemSites path 0 items
  | object entries => entrySites path entries
  | call f x => ⟨.value, f, path⟩ :: sitesAt path x
  | typed _ x => sitesAt path x

/-- The calls of the items of an array, from an index on. -/
def itemSites (path : String) (index : Nat) : List Value → List CallSite
  | [] => []
  | item :: rest => sitesAt (itemPath path index) item ++ itemSites path (index + 1) rest

/-- The calls of the entries of an object. -/
def entrySites (path : String) : List Entry → List CallSite
  | [] => []
  | .record id x :: rest => sitesAt (joinPath path id) x ++ entrySites path rest
  | .call f x :: rest => ⟨.record, f, path⟩ :: (sitesAt path x ++ entrySites path rest)

end

/-- The calls of a tree. -/
def sites (v : Value) : List CallSite := v.sitesAt ""

mutual

/-- The calls of a tree in the order in which they are made. -/
def dispatches : Value → List Dispatch
  | number _ | float _ | text _ => []
  | array items => itemDispatches items
  | object entries => entryDispatches entries
  | call f x => dispatches x ++ [⟨.value, f⟩]
  | typed _ x => dispatches x

/-- The calls of items, from left to right. -/
def itemDispatches : List Value → List Dispatch
  | [] => []
  | item :: rest => dispatches item ++ itemDispatches rest

/-- The calls of entries, from left to right. -/
def entryDispatches : List Entry → List Dispatch
  | [] => []
  | .record _ x :: rest => dispatches x ++ entryDispatches rest
  | .call f x :: rest => dispatches x ++ ⟨.record, f⟩ :: entryDispatches rest

end

end Value
end Manifest
