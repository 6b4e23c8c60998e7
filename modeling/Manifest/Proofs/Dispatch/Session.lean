import Manifest.Dispatch.Evaluation

/-!
# Evaluations as functions of the session

`Evaluation.result` is the end of a part of an evaluation that starts in a session; the lemmas give
it for each way to build such a part.

The calls made so far have no effect on what is done: an evaluation adds its calls to them and is
the same otherwise (`Adds`). What is evaluated after something else is therefore evaluated as from
the start, in the state that was left (`evaluate_append`).
-/

namespace Manifest

variable {F M α β : Type} {host : Host F M}

namespace Evaluation

/-- The end of a part of an evaluation from a session: its outcome, and the session it leaves. -/
def result (m : Evaluation F M α) (session : Session F M) : Except Fault α × Session F M :=
  m.run.run session

/-- A result alone leaves the session as it is. -/
@[simp] theorem result_pure (x : α) (session : Session F M) :
    (pure x : Evaluation F M α).result session = (.ok x, session) := rfl

/-- What follows a part starts from the session that the part leaves, unless the part fails. -/
theorem result_bind (m : Evaluation F M α) (f : α → Evaluation F M β) (session : Session F M) :
    (m >>= f).result session =
      match m.result session with
      | (.ok x, after) => (f x).result after
      | (.error fault, after) => (.error fault, after) := by
  change (match m.result session with
    | (outcome, after) => (ExceptT.bindCont f outcome).run after) = _
  rcases m.result session with ⟨_ | _, after⟩ <;> rfl

/-- A fault or a result leaves the session as it is. -/
@[simp] theorem result_lift (outcome : Except Fault α) (session : Session F M) :
    (lift outcome : Evaluation F M α).result session = (outcome, session) := by
  cases outcome <;> rfl

/-- A call of an unknown function fails and is not noted; any other is noted, and ends as the
function does. -/
theorem result_dispatch (kind : CallKind) (name : String) (argument : Value)
    (session : Session F M) :
    (dispatch host kind name argument).result session =
      match session.state.resolve kind name with
      | none => (.error (.unknownFunction (some kind) name), session)
      | some f =>
        let (answer, state) := host f argument session.state
        (answer.mapError (Fault.through name), ⟨state, session.trace ++ [⟨kind, name⟩]⟩) := by
  have looked : (get : Evaluation F M (Session F M)).result session = (.ok session, session) := rfl
  rw [dispatch, result_bind, looked]
  dsimp only
  cases session.state.resolve kind name with
  | none => rfl
  | some f =>
    dsimp only
    rcases host f argument session.state with ⟨_ | _, state⟩ <;> rfl

/-- A call of a known function and the check of its answer end as the function does, and then as
the check does. -/
theorem result_dispatch_lift {kind : CallKind} {name : String} {session : Session F M} {f : F}
    (found : session.state.resolve kind name = some f) (argument : Value)
    (accept : Datum → Except Fault α) :
    (dispatch host kind name argument >>= fun answer ↦ lift (accept answer)).result session =
      let (answer, state) := host f argument session.state
      ((answer.mapError (Fault.through name)).bind accept,
        ⟨state, session.trace ++ [⟨kind, name⟩]⟩) := by
  rw [result_bind, result_dispatch, found]
  dsimp only
  rcases host f argument session.state with ⟨fault | answer, state⟩
  · rfl
  · exact result_lift ..

/-! ### The calls made so far -/

/-- A part of an evaluation adds its calls to those made so far, and does the same otherwise. -/
def Adds (m : Evaluation F M α) : Prop :=
  ∀ state trace, m.result ⟨state, trace⟩ =
    ((m.result ⟨state, []⟩).1,
      ⟨(m.result ⟨state, []⟩).2.state, trace ++ (m.result ⟨state, []⟩).2.trace⟩)

private theorem adds_pure (x : α) : (pure x : Evaluation F M α).Adds := by
  intro state trace
  simp

private theorem adds_lift (outcome : Except Fault α) : (lift outcome : Evaluation F M α).Adds := by
  intro state trace
  simp

private theorem Adds.bind {m : Evaluation F M α} {f : α → Evaluation F M β} (first : m.Adds)
    (next : ∀ x, (f x).Adds) : (m >>= f).Adds := by
  intro state trace
  simp only [result_bind]
  rw [first state trace]
  rcases m.result ⟨state, []⟩ with ⟨_ | x, after⟩
  · rfl
  · dsimp only
    rw [next x after.state (trace ++ after.trace), next x after.state after.trace,
      List.append_assoc]

private theorem adds_dispatch (kind : CallKind) (name : String) (argument : Value) :
    (dispatch host kind name argument).Adds := by
  intro state trace
  simp only [result_dispatch]
  split <;> simp

end Evaluation

namespace Value

open Evaluation

mutual

/-- Evaluating a tree adds its calls to those made so far. -/
theorem adds_evaluate (host : Host F M) : (v : Value) → (v.evaluate host).Adds
  | number n => adds_pure (number n)
  | float x => adds_pure (float x)
  | text s => adds_pure (text s)
  | array items => (adds_evaluateItems host items).bind fun _ ↦ adds_pure _
  | object entries => (adds_evaluateEntries host entries).bind fun _ ↦ adds_pure _
  | call f x => (adds_evaluate host x).bind fun argument ↦
    (adds_dispatch .value f argument).bind fun _ ↦ adds_lift _
  | typed _ x => (adds_evaluate host x).bind fun _ ↦ adds_pure _

/-- Evaluating items adds their calls to those made so far. -/
theorem adds_evaluateItems (host : Host F M) :
    (items : List Value) → (evaluateItems host items).Adds
  | [] => adds_pure []
  | item :: rest => (adds_evaluate host item).bind fun _ ↦
    (adds_evaluateItems host rest).bind fun _ ↦ adds_pure _

/-- Evaluating entries adds their calls to those made so far. -/
theorem adds_evaluateEntries (host : Host F M) :
    (entries : List Entry) → (evaluateEntries host entries).Adds
  | [] => adds_pure []
  | .record _ x :: rest => (adds_evaluate host x).bind fun _ ↦
    (adds_evaluateEntries host rest).bind fun _ ↦ adds_pure _
  | .call f x :: rest => (adds_evaluate host x).bind fun argument ↦
    (adds_dispatch .record f argument).bind fun _ ↦
      (adds_lift _).bind fun _ ↦ (adds_evaluateEntries host rest).bind fun _ ↦ adds_pure _

end

/-- Entries are evaluated one list after the other. -/
theorem evaluateEntries_append (host : Host F M) (first second : List Entry) :
    evaluateEntries host (first ++ second) = (do
      let xs ← evaluateEntries host first
      let ys ← evaluateEntries host second
      pure (xs ++ ys)) := by
  induction first with
  | nil => simp only [List.nil_append, evaluateEntries, pure_bind, bind_pure]
  | cons entry rest ih =>
    cases entry <;>
      simp only [List.cons_append, evaluateEntries, ih, bind_assoc, pure_bind, List.append_assoc]

/-- Entries are evaluated after others in the session that those leave. -/
theorem result_evaluateEntries_append (host : Host F M) (first second : List Entry)
    (session : Session F M) :
    (evaluateEntries host (first ++ second)).result session =
      match (evaluateEntries host first).result session with
      | (.error fault, after) => (.error fault, after)
      | (.ok xs, after) =>
        let (outcome, last) := (evaluateEntries host second).result after
        (outcome.map (xs ++ ·), last) := by
  rw [evaluateEntries_append, result_bind]
  rcases (evaluateEntries host first).result session with ⟨_ | xs, after⟩
  · rfl
  · simp only [result_bind, result_pure]
    rcases (evaluateEntries host second).result after with ⟨_ | ys, last⟩ <;> rfl

end Value

/-- The evaluation of a tree is the result from a session in which no call was made yet. -/
theorem DispatchState.evaluate_value (state : DispatchState F M) (v : Value) :
    state.evaluate host (.value v) =
      let (outcome, session) := (v.evaluate host).result ⟨state, []⟩
      ⟨outcome, session.state, session.trace⟩ := rfl

/-- The evaluation of a document is that of its entries. -/
theorem DispatchState.evaluate_object (state : DispatchState F M) (entries : List Entry) :
    state.evaluate host (.value (.object entries)) =
      let (outcome, session) := (Value.evaluateEntries host entries).result ⟨state, []⟩
      ⟨outcome.map Value.object, session.state, session.trace⟩ := by
  change (match ((Datum.value (.object entries)).evaluate host).result ⟨state, []⟩ with
    | (outcome, session) => (⟨outcome, session.state, session.trace⟩ : Evaluated F M)) = _
  simp only [Datum.evaluate, Value.evaluate, Evaluation.result_bind, Evaluation.result_pure]
  rcases (Value.evaluateEntries host entries).result ⟨state, []⟩ with ⟨_ | xs, session⟩ <;> rfl

/-- A document in which nothing is to be evaluated but one call of a known function ends as the
function does, and then as the check of its answer does. -/
theorem DispatchState.evaluate_oneCall {state : DispatchState F M} {kind : CallKind}
    {name : String} {f : F} (bound : state.resolve kind name = some f) {argument : Value}
    {entries : List Entry} {accept : Datum → Except Fault α} {made : α → List Entry}
    (one : Value.evaluateEntries host entries =
      (Evaluation.dispatch host kind name argument >>= fun answer ↦
        Evaluation.lift (accept answer)) >>= fun x ↦ pure (made x)) :
    state.evaluate host (.value (.object entries)) =
      let (answer, after) := host f argument state
      ⟨((answer.mapError (Fault.through name)).bind accept).map fun x ↦ .object (made x), after,
        [⟨kind, name⟩]⟩ := by
  rw [evaluate_object, one, Evaluation.result_bind, Evaluation.result_dispatch_lift bound]
  dsimp only
  rcases host f argument state with ⟨answer, after⟩
  cases (answer.mapError (Fault.through name)).bind accept <;> rfl

/-- A document is evaluated to an object. -/
theorem DispatchState.exists_object_of_evaluate (state : DispatchState F M) {entries : List Entry}
    {v : Value} (evaluated : (state.evaluate host (.value (.object entries))).outcome = .ok v) :
    ∃ results, v = .object results := by
  rw [evaluate_object] at evaluated
  rcases ended : (Value.evaluateEntries host entries).result ⟨state, []⟩ with
    ⟨fault | results, session⟩ <;> rw [ended] at evaluated <;> cases evaluated
  exact ⟨results, rfl⟩

/-- Evaluating a document after another: the first goes on as it does alone, and unless it fails
the second is evaluated as it is alone, in the state that the first left. -/
theorem DispatchState.evaluate_append (state : DispatchState F M) (first second : List Entry) :
    state.evaluate host (.value (.object (first ++ second))) =
      let one := state.evaluate host (.value (.object first))
      match one.outcome with
      | .error fault => ⟨.error fault, one.state, one.trace⟩
      | .ok x =>
        let other := one.state.evaluate host (.value (.object second))
        ⟨other.outcome.map fun y ↦ .object (x.entries ++ y.entries), other.state,
          one.trace ++ other.trace⟩ := by
  simp only [evaluate_object, Value.result_evaluateEntries_append]
  rcases (Value.evaluateEntries host first).result ⟨state, []⟩ with ⟨_ | xs, after⟩
  · rfl
  · simp only [Except.map]
    rw [Value.adds_evaluateEntries host second after.state after.trace]
    rcases (Value.evaluateEntries host second).result ⟨after.state, []⟩ with ⟨_ | ys, last⟩ <;> rfl

end Manifest
