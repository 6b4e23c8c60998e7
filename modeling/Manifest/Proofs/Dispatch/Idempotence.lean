import Manifest.Proofs.Dispatch.Resolution

/-!
# Resolved trees evaluate to themselves

Where no call stands there is nothing to do: evaluating a resolved tree gives it back, and that is
all (`Value.evaluate_of_isResolved`). No function is looked up, so that neither the functions nor
the tables matter. What an evaluation gives is resolved, and evaluating it again, with whatever
functions from whatever state, gives the same tree (`DispatchState.evaluate_idempotent`).
-/

namespace Manifest

variable {F M : Type}

namespace Value

mutual

/-- A resolved tree is given back. -/
theorem evaluate_of_isResolved (host : Host F M) :
    (v : Value) → v.isResolved = true → v.evaluate host = pure v
  | number _, _ | float _, _ | text _, _ => rfl
  | array items, resolved => by
    rw [evaluate, evaluateItems_of_resolved host items resolved, pure_bind]
  | object entries, resolved => by
    rw [evaluate, evaluateEntries_of_resolved host entries resolved, pure_bind]
  | call _ _, resolved => by cases resolved
  | typed _ x, resolved => by
    rw [evaluate, evaluate_of_isResolved host x resolved, pure_bind]

/-- Resolved items are given back, each in its place. -/
theorem evaluateItems_of_resolved (host : Host F M) :
    (items : List Value) → itemsResolved items = true → evaluateItems host items = pure items
  | [], _ => rfl
  | item :: rest, resolved => by
    obtain ⟨first, others⟩ := Bool.and_eq_true_iff.mp resolved
    rw [evaluateItems, evaluate_of_isResolved host item first, pure_bind,
      evaluateItems_of_resolved host rest others, pure_bind]

/-- Records of resolved values are given back, each in its place. -/
theorem evaluateEntries_of_resolved (host : Host F M) :
    (entries : List Entry) → entriesResolved entries = true →
      evaluateEntries host entries = pure entries
  | [], _ => rfl
  | .record _ x :: rest, resolved => by
    obtain ⟨first, others⟩ := Bool.and_eq_true_iff.mp resolved
    rw [evaluateEntries, evaluate_of_isResolved host x first, pure_bind,
      evaluateEntries_of_resolved host rest others, pure_bind]
  | .call _ _ :: _, resolved => by cases resolved

end

end Value

namespace DispatchState

private theorem evaluate_of_isResolved (state : DispatchState F M) (host : Host F M) {v : Value}
    (resolved : v.isResolved = true) :
    state.evaluate host (.value v) = ⟨.ok v, state, []⟩ := by
  rw [evaluate, Datum.evaluate, v.evaluate_of_isResolved host resolved]
  rfl

/-- A resolved tree evaluates to itself: the state stays as it is, and no call is made. Whatever an
evaluation gives therefore evaluates to itself, with any functions and from any state. -/
theorem evaluate_idempotent (state : DispatchState F M) (host : Host F M) :
    (∀ v : Value, v.isResolved = true →
      state.evaluate host (.value v) = ⟨.ok v, state, []⟩) ∧
    ∀ u r : Value, (state.evaluate host (.value u)).outcome = .ok r →
      ∀ {G N : Type} (other : DispatchState G N) (otherHost : Host G N),
        other.evaluate otherHost (.value r) = ⟨.ok r, other, []⟩ := by
  constructor
  · intro v resolved
    exact state.evaluate_of_isResolved host resolved
  · intro u r evaluated G N other otherHost
    have resolved : r.isResolved = true :=
      u.yields_evaluate host ⟨state, []⟩ r _ (Prod.ext evaluated rfl)
    exact other.evaluate_of_isResolved otherHost resolved

private def refusing : Host Unit Nat := fun _ _ state ↦ (.error (.general "refused"), state)

/-- A tagged array is left alone by a function of its name, and what an echo leaves is left alone
by functions that fail. -/
theorem evaluate_idempotent_echo :
    echoing.evaluate .echo
      (.value (.typed "echo" (.array [.object [.record "echo" (.number 1)]]))) =
        ⟨.ok (.typed "echo" (.array [.object [.record "echo" (.number 1)]])), echoing, []⟩ ∧
      (echoing.evaluate .echo (.value (.array [.call "echo" (.text "a"), .float .nan]))).outcome =
        .ok (.array [.text "a", .float .nan]) ∧
      ∀ other : DispatchState Unit Nat,
        other.evaluate refusing (.value (.array [.text "a", .float .nan])) =
          ⟨.ok (.array [.text "a", .float .nan]), other, []⟩ := by
  obtain ⟨same, again⟩ := echoing.evaluate_idempotent .echo
  have evaluated : (echoing.evaluate .echo
      (.value (.array [.call "echo" (.text "a"), .float .nan]))).outcome =
        .ok (.array [.text "a", .float .nan]) := by decide +kernel
  exact ⟨same _ rfl, evaluated, fun other ↦ again _ _ evaluated other refusing⟩

end DispatchState
end Manifest
