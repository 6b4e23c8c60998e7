import Manifest.Call.Search
import Manifest.Dispatch.State

/-!
# Evaluation

Evaluating a tree resolves its calls from left to right, the argument of a call before the call.
A call is looked up in the active table of its kind at the moment it is made, so a function that
changes the tables changes them for every later call. The walk stops at the first fault and keeps
what the functions did to the state up to there.

A function of any kind answers with a datum or a fault. What it answers is accepted only if it has
no calls in it: a value where the call stands for a value, and a record, or nothing at all, where
it stands for a record. A fault of evaluation passes through the call as it is; any other becomes
the cause of the failure of the function.
-/

namespace Manifest

/-- How functions of a type act: on an argument, in a state, giving an answer and a new state. An
action always ends, with a datum or with a fault that has a message. A function that loops,
exhausts a resource or leaves the program is left out, and so is one that raises what is of two
categories at once or cannot be shown as text. -/
abbrev Host (F M : Type) :=
  F → Value → DispatchState F M → Except Fault Datum × DispatchState F M

/-- The state of an evaluation: the dispatch state and the calls made so far. -/
structure Session (F M : Type) where
  state : DispatchState F M
  trace : List Dispatch

/-- A part of an evaluation. Its effects on the session stay when it fails. -/
abbrev Evaluation (F M α : Type) := ExceptT Fault (StateM (Session F M)) α

/-- A fault that a function raised, as its caller sees it. -/
def Fault.through (name : String) (fault : Fault) : Fault :=
  if fault.isEvaluation then fault else .hostFailed name fault

/-- The value that a function answered. -/
def Datum.acceptValue (name : String) (answer : Datum) : Except Fault Value :=
  match answer with
  | .value v =>
    if answer.isCallFree then .ok v else .error (.hostFailed name (.notResolved answer))
  | _ => .error (.hostFailed name (.notResolved answer))

/-- The record that a function answered, if it answered one. -/
def Datum.acceptRecord (name : String) (answer : Datum) : Except Fault (Option Entry) :=
  match answer with
  | .plain .null => .ok none
  | .record id v =>
    if answer.isCallFree then .ok (some (.record id v))
    else .error (.hostFailed name (.notRecord answer))
  | _ => .error (.hostFailed name (.notRecord answer))

namespace Evaluation

variable {F M : Type}

/-- Make a call: look the function up, note the call, and let the function act. -/
def dispatch (host : Host F M) (kind : CallKind) (name : String) (argument : Value) :
    Evaluation F M Datum := do
  let session ← get
  match session.state.resolve kind name with
  | none => throw (.unknownFunction (some kind) name)
  | some f =>
    let (answer, state) := host f argument session.state
    set (Session.mk state (session.trace ++ [⟨kind, name⟩]))
    match answer with
    | .ok datum => pure datum
    | .error fault => throw (fault.through name)

/-- Fail with a fault, or go on with a result. -/
def lift {α : Type} (result : Except Fault α) : Evaluation F M α :=
  match result with
  | .ok x => pure x
  | .error fault => throw fault

end Evaluation

namespace Value

variable {F M : Type}

mutual

/-- Resolve every call of a tree. -/
def evaluate (host : Host F M) : Value → Evaluation F M Value
  | number n => pure (number n)
  | float x => pure (float x)
  | text s => pure (text s)
  | array items => do
    let items ← evaluateItems host items
    pure (array items)
  | object entries => do
    let entries ← evaluateEntries host entries
    pure (object entries)
  | call f x => do
    let argument ← evaluate host x
    let answer ← Evaluation.dispatch host .value f argument
    Evaluation.lift (answer.acceptValue f)
  | typed kind x => do
    let x ← evaluate host x
    pure (typed kind x)

/-- Resolve the calls of items, from left to right. -/
def evaluateItems (host : Host F M) : List Value → Evaluation F M (List Value)
  | [] => pure []
  | item :: rest => do
    let item ← evaluate host item
    let rest ← evaluateItems host rest
    pure (item :: rest)

/-- Resolve the calls of entries, from left to right. A call may leave no record. -/
def evaluateEntries (host : Host F M) : List Entry → Evaluation F M (List Entry)
  | [] => pure []
  | .record id x :: rest => do
    let x ← evaluate host x
    let rest ← evaluateEntries host rest
    pure (.record id x :: rest)
  | .call f x :: rest => do
    let argument ← evaluate host x
    let answer ← Evaluation.dispatch host .record f argument
    let record ← Evaluation.lift (answer.acceptRecord f)
    let rest ← evaluateEntries host rest
    pure (record.toList ++ rest)

end

end Value

/-- Evaluate what should be a value. -/
def Datum.evaluate {F M : Type} (host : Host F M) : Datum → Evaluation F M Value
  | .value v => v.evaluate host
  | other => throw (.notValue other)

/-- The end of an evaluation: its outcome, the state it left, and the calls it made. -/
structure Evaluated (F M : Type) where
  outcome : Except Fault Value
  state : DispatchState F M
  trace : List Dispatch

/-- Evaluate a datum from a state. -/
def DispatchState.evaluate {F M : Type} (state : DispatchState F M) (host : Host F M)
    (input : Datum) : Evaluated F M :=
  let (outcome, session) := (input.evaluate host).run.run ⟨state, []⟩
  ⟨outcome, session.state, session.trace⟩

end Manifest
