import Manifest.Proofs.Call.Search
import Manifest.Proofs.Dispatch.Session
import Manifest.Value.Projection

/-!
# What is evaluated has no calls

Whatever the functions answer and whatever they do to the tables, a result of an evaluation is
resolved: an answer is taken only if the search finds no call in it, and everything else is built
from results. `Yields` states a property of the results of a part of an evaluation, from every
session, so that nothing need be said of the tables.

A resolved tree projects to plain data and to JSON.
-/

namespace Manifest

variable {F M α β : Type} {host : Host F M}

/-! ### Answers -/

namespace Datum

/-- A value that is accepted is resolved. -/
theorem isResolved_of_acceptValue {name : String} {answer : Datum} {v : Value}
    (accepted : answer.acceptValue name = .ok v) : v.isResolved = true := by
  cases answer with
  | value w =>
    rw [acceptValue] at accepted
    split at accepted
    · next free =>
      cases accepted
      exact (isCallFree_iff _).mp free
    · cases accepted
  | _ => cases accepted

/-- A record that is accepted, if any, is a record with a resolved value. -/
theorem entriesResolved_of_acceptRecord {name : String} {answer : Datum} {record : Option Entry}
    (accepted : answer.acceptRecord name = .ok record) :
    Value.entriesResolved record.toList = true := by
  cases answer with
  | record id v =>
    rw [acceptRecord] at accepted
    split at accepted
    · next free =>
      cases accepted
      have resolved : v.isResolved = true := (isCallFree_iff _).mp free
      simp [Value.entriesResolved, resolved]
    · cases accepted
  | plain data =>
    cases data with
    | null =>
      cases accepted
      rfl
    | _ => cases accepted
  | value v => cases accepted

end Datum

/-! ### Results -/

namespace Evaluation

/-- Every result of a part of an evaluation has a property. -/
def Yields (m : Evaluation F M α) (P : α → Prop) : Prop :=
  ∀ session x after, m.result session = (.ok x, after) → P x

variable {P : α → Prop} {Q : β → Prop}

/-- A result alone has the properties that it has. -/
theorem yields_pure {x : α} (holds : P x) : (pure x : Evaluation F M α).Yields P := by
  intro session y after ended
  cases ended
  exact holds

/-- A fault or a result has the properties of the result. -/
theorem yields_lift {outcome : Except Fault α} (holds : ∀ x, outcome = .ok x → P x) :
    (lift outcome : Evaluation F M α).Yields P := by
  intro session x after ended
  rw [result_lift] at ended
  exact holds x (congrArg Prod.fst ended)

/-- What follows a part may rely on what the part yields. -/
theorem Yields.bind {m : Evaluation F M α} {f : α → Evaluation F M β} (first : m.Yields P)
    (next : ∀ x, P x → (f x).Yields Q) : (m >>= f).Yields Q := by
  intro session y after ended
  rw [result_bind] at ended
  split at ended
  · next x between found => exact next x (first _ _ _ found) _ _ _ ended
  · cases ended

/-- Any part yields what it yields. -/
theorem yields_any (m : Evaluation F M α) : m.Yields fun _ ↦ True :=
  fun _ _ _ _ ↦ trivial

end Evaluation

namespace Value

open Evaluation

/-- Resolved entries after resolved entries are resolved. -/
theorem entriesResolved_append (first second : List Entry) :
    entriesResolved (first ++ second) = (entriesResolved first && entriesResolved second) := by
  induction first with
  | nil => rfl
  | cons entry rest ih => cases entry <;> simp [entriesResolved, ih, Bool.and_assoc]

mutual

/-- Evaluating a tree yields a resolved tree. -/
theorem yields_evaluate (host : Host F M) :
    (v : Value) → (v.evaluate host).Yields (isResolved · = true)
  | number _ | float _ | text _ => yields_pure rfl
  | array items => (yields_evaluateItems host items).bind fun _ resolved ↦ yields_pure resolved
  | object entries =>
    (yields_evaluateEntries host entries).bind fun _ resolved ↦ yields_pure resolved
  | call _ x => (yields_evaluate host x).bind fun _ _ ↦
    (yields_any _).bind fun _ _ ↦ yields_lift fun _ ↦ Datum.isResolved_of_acceptValue
  | typed _ x => (yields_evaluate host x).bind fun _ resolved ↦ yields_pure resolved

/-- Evaluating items yields resolved items. -/
theorem yields_evaluateItems (host : Host F M) :
    (items : List Value) → (evaluateItems host items).Yields (itemsResolved · = true)
  | [] => yields_pure rfl
  | item :: rest => (yields_evaluate host item).bind fun _ first ↦
    (yields_evaluateItems host rest).bind fun _ others ↦
      yields_pure (by simp [itemsResolved, first, others])

/-- Evaluating entries yields records of resolved values. -/
theorem yields_evaluateEntries (host : Host F M) :
    (entries : List Entry) → (evaluateEntries host entries).Yields (entriesResolved · = true)
  | [] => yields_pure rfl
  | .record _ x :: rest => (yields_evaluate host x).bind fun _ first ↦
    (yields_evaluateEntries host rest).bind fun _ others ↦
      yields_pure (by simp [entriesResolved, first, others])
  | .call _ x :: rest => (yields_evaluate host x).bind fun _ _ ↦
    (yields_any _).bind fun _ _ ↦
      (yields_lift fun _ ↦ Datum.entriesResolved_of_acceptRecord).bind fun _ record ↦
        (yields_evaluateEntries host rest).bind fun _ others ↦
          yields_pure (by simp [entriesResolved_append, record, others])

end

/-! ### Projection -/

mutual

/-- A resolved tree has plain data. -/
theorem exists_project : (v : Value) → v.isResolved = true → ∃ data, v.project = .ok data
  | number _, _ | float _, _ | text _, _ => ⟨_, rfl⟩
  | array items, resolved => by
    obtain ⟨data, projected⟩ := exists_projectItems items resolved
    exact ⟨.array data, by rw [project, projected]; rfl⟩
  | object entries, resolved => by
    obtain ⟨data, projected⟩ := exists_projectEntries [] entries resolved
    exact ⟨.object data, by rw [project, projected]; rfl⟩
  | call _ _, resolved => by cases resolved
  | typed _ x, resolved => exists_project x resolved

/-- Resolved items have plain data. -/
theorem exists_projectItems : (items : List Value) → itemsResolved items = true →
    ∃ data, projectItems items = .ok data
  | [], _ => ⟨[], rfl⟩
  | item :: rest, resolved => by
    obtain ⟨first, others⟩ := Bool.and_eq_true_iff.mp resolved
    obtain ⟨x, projected⟩ := exists_project item first
    obtain ⟨xs, projectedRest⟩ := exists_projectItems rest others
    exact ⟨x :: xs, by rw [projectItems, projected, projectedRest]; rfl⟩

/-- Resolved entries add members to any others. -/
theorem exists_projectEntries (before : Table Json) : (entries : List Entry) →
    entriesResolved entries = true → ∃ data, projectEntries before entries = .ok data
  | [], _ => ⟨before, rfl⟩
  | .record id x :: rest, resolved => by
    obtain ⟨first, others⟩ := Bool.and_eq_true_iff.mp resolved
    obtain ⟨data, projected⟩ := exists_project x first
    obtain ⟨members, projectedRest⟩ := exists_projectEntries (before.set id data) rest others
    exact ⟨members, by rw [projectEntries, projected]; exact projectedRest⟩
  | .call _ _ :: _, resolved => by cases resolved

end

end Value

/-- Whatever the functions do, an evaluation that succeeds gives a tree without calls. It projects
to plain data, and only an indentation that does not fit keeps these from being written. -/
theorem DispatchState.evaluate_isResolved (state : DispatchState F M) (host : Host F M)
    (input : Datum) {r : Value} (evaluated : (state.evaluate host input).outcome = .ok r) :
    r.isResolved = true ∧ ∃ data, r.project = .ok data ∧
      ∀ indent, Datum.toJson indent (.value r) =
        if data.admits indent then .ok (data.text indent) else .error .indentation := by
  have resolved : r.isResolved = true := by
    cases input with
    | value v => exact v.yields_evaluate host ⟨state, []⟩ r _ (Prod.ext evaluated rfl)
    | _ => cases evaluated
  obtain ⟨data, projected⟩ := r.exists_project resolved
  exact ⟨resolved, data, projected, Datum.toJson_of_project projected⟩

/-- A function that answers its argument. -/
def Host.echo : Host Unit Unit := fun _ argument state ↦ (.ok (.value argument), state)

/-- The state in which an echo can be called for a value, and nothing else. -/
def DispatchState.echoing : DispatchState Unit Unit := .ofLibrary ⟨[("echo", ())], []⟩ .nan ()

/-- An echo of an array leaves the array, which has data. -/
theorem DispatchState.evaluate_isResolved_echo :
    (echoing.evaluate .echo (.value (.object
        [.record "a" (.call "echo" (.array [.number 1]))]))).outcome =
          .ok (.object [.record "a" (.array [.number 1])]) ∧
      (Value.object [.record "a" (.array [.number 1])]).isResolved = true ∧
      ∃ data, (Value.object [.record "a" (.array [.number 1])]).project = .ok data ∧
        ∀ indent, Datum.toJson indent (.value (.object [.record "a" (.array [.number 1])])) =
          if data.admits indent then .ok (data.text indent) else .error .indentation := by
  have evaluated : (echoing.evaluate .echo (.value (.object
      [.record "a" (.call "echo" (.array [.number 1]))]))).outcome =
        .ok (.object [.record "a" (.array [.number 1])]) := by decide +kernel
  exact ⟨evaluated, evaluate_isResolved echoing .echo _ evaluated⟩

end Manifest
