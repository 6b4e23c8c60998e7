import Manifest.Call.Search

/-!
# The search for a call is complete

A datum is resolved when no call stands in it, at any depth. What is no call itself is resolved
when its parts are (`isResolved_iff_parts`), so that a search through a list of pending data finds
nothing exactly when all of them are resolved (`findCall?_eq_none_iff`).
-/

namespace Manifest.Datum

/-- No call stands anywhere in the datum. -/
def isResolved : Datum → Bool
  | value v | record _ v => v.isResolved
  | plain _ => true

private theorem itemsResolved_iff (items : List Value) :
    Value.itemsResolved items = true ↔ ∀ part ∈ items.map value, part.isResolved = true := by
  induction items with
  | nil => simp [Value.itemsResolved]
  | cons item rest ih =>
    rw [List.map_cons, List.forall_mem_cons, ← ih, Value.itemsResolved, Bool.and_eq_true]
    rfl

private theorem entriesResolved_iff (entries : List Entry) :
    Value.entriesResolved entries = true ↔
      ∀ part ∈ entries.map ofEntry, part.isResolved = true := by
  induction entries with
  | nil => simp [Value.entriesResolved]
  | cons entry rest ih =>
    rw [List.map_cons, List.forall_mem_cons, ← ih]
    cases entry <;> simp [Value.entriesResolved, ofEntry, isResolved, Value.isResolved]

/-- What is no call is resolved when all its parts are. -/
theorem isResolved_iff_parts {datum : Datum} (noCall : ∀ f x, datum ≠ value (.call f x)) :
    datum.isResolved = true ↔ ∀ part ∈ datum.parts, part.isResolved = true := by
  cases datum with
  | record id v => simp [parts, isResolved]
  | plain data => simp [parts, isResolved]
  | value v =>
    cases v with
    | array items => exact itemsResolved_iff items
    | object entries => exact entriesResolved_iff entries
    | call f x => exact absurd rfl (noCall f x)
    | typed kind x => simp [parts, isResolved, Value.isResolved]
    | _ => simp [parts, isResolved, Value.isResolved]

/-- Nothing is found in pending data exactly when all of them are resolved. -/
theorem findCall?_eq_none_iff (pending : List Datum) :
    findCall? pending = none ↔ ∀ datum ∈ pending, datum.isResolved = true := by
  fun_induction findCall? pending with
  | case1 => simp
  | case2 f x pending => simp [isResolved, Value.isResolved]
  | case3 datum pending noCall ih =>
    rw [ih, List.forall_mem_cons, isResolved_iff_parts noCall]
    simp only [List.mem_append, List.mem_reverse]
    constructor
    · exact fun resolved ↦ ⟨fun part inside ↦ resolved part (.inl inside),
        fun other later ↦ resolved other (.inr later)⟩
    · exact fun ⟨inside, later⟩ other place ↦ place.elim (inside other) (later other)

/-- A datum is free of calls when it is resolved. -/
theorem isCallFree_iff (datum : Datum) : datum.isCallFree = true ↔ datum.isResolved = true := by
  rw [isCallFree, Option.isNone_iff_eq_none, findCall?_eq_none_iff]
  simp

end Manifest.Datum
