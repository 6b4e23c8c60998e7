import Manifest.Proofs.Dispatch.Resolution

/-!
# What an evaluation is put together from

An evaluation consists of results, of calls with the check of their answers, and of parts that
follow one another. A property of the parts and the calls that they make is `Compositional` if it
holds of the first two, and of two parts with the calls of both. Such a property holds of the
evaluation of every tree with the calls of the tree (`Compositional.evaluate`).

A call is only ever made with a resolved argument, so that nothing need be known of any other.
-/

namespace Manifest

variable {F M α β : Type} {host : Host F M}

namespace Evaluation

/-- A property of a part of an evaluation and the calls that it makes holds of every part if it
holds of the smallest ones. -/
structure Compositional (host : Host F M)
    (P : {α : Type} → List Dispatch → Evaluation F M α → Prop) : Prop where
  /-- A result alone makes no calls. -/
  unit {α : Type} (x : α) : P [] (pure x : Evaluation F M α)
  /-- What follows a part has the property for every result that the part can yield. -/
  chain {α β : Type} {calls others : List Dispatch} {m : Evaluation F M α}
    {f : α → Evaluation F M β} {Q : α → Prop} :
    P calls m → m.Yields Q → (∀ x, Q x → P others (f x)) → P (calls ++ others) (m >>= f)
  /-- A call for a value, with the check of its answer. -/
  valueCall (name : String) {argument : Value} : argument.isResolved = true →
    P [⟨.value, name⟩]
      (dispatch host .value name argument >>= fun answer ↦ lift (answer.acceptValue name))
  /-- A call for a record, with the check of its answer. -/
  recordCall (name : String) {argument : Value} : argument.isResolved = true →
    P [⟨.record, name⟩]
      (dispatch host .record name argument >>= fun answer ↦ lift (answer.acceptRecord name))

namespace Compositional

open Value

variable {P : {α : Type} → List Dispatch → Evaluation F M α → Prop} {calls others : List Dispatch}
  {m : Evaluation F M α}

private theorem andThen (composed : Compositional host P) {f : α → Evaluation F M β}
    (first : P calls m) (next : ∀ x, P others (f x)) : P (calls ++ others) (m >>= f) :=
  composed.chain first (yields_any m) fun x _ ↦ next x

private theorem map (composed : Compositional host P) (first : P calls m) (f : α → β) :
    P calls (m >>= fun x ↦ pure (f x)) := by
  have both := composed.andThen first fun x ↦ composed.unit (f x)
  rwa [List.append_nil] at both

mutual

/-- The evaluation of a tree has the property with the calls of the tree. -/
theorem evaluate (composed : Compositional host P) : (v : Value) → P v.dispatches (v.evaluate host)
  | number n => composed.unit (number n)
  | float x => composed.unit (float x)
  | text s => composed.unit (text s)
  | array items => composed.map (composed.items items) array
  | object entries => composed.map (composed.entries entries) object
  | call f x => composed.chain (composed.evaluate x) (yields_evaluate host x) fun _ resolved ↦
    composed.valueCall f resolved
  | typed kind x => composed.map (composed.evaluate x) (typed kind)

/-- The evaluation of items has the property with their calls. -/
theorem items (composed : Compositional host P) :
    (items : List Value) → P (itemDispatches items) (evaluateItems host items)
  | [] => composed.unit []
  | item :: rest => composed.andThen (composed.evaluate item) fun first ↦
    composed.map (composed.items rest) (first :: ·)

/-- The evaluation of entries has the property with their calls. -/
theorem entries (composed : Compositional host P) :
    (entries : List Entry) → P (entryDispatches entries) (evaluateEntries host entries)
  | [] => composed.unit []
  | .record id x :: rest => composed.andThen (composed.evaluate x) fun first ↦
    composed.map (composed.entries rest) (.record id first :: ·)
  | .call f x :: rest => by
    -- The call and the check of its answer are one part here, which the evaluator runs as two.
    have others := composed.entries rest
    have entries := composed.chain (composed.evaluate x) (yields_evaluate host x) fun _ resolved ↦
      composed.andThen (composed.recordCall f resolved) fun record ↦
        composed.map others (record.toList ++ ·)
    simpa only [evaluateEntries, entryDispatches, bind_assoc, List.singleton_append] using entries

end

end Compositional
end Evaluation
end Manifest
