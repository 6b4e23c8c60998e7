import Manifest.Proofs.Load.Failure

/-!
# What operations keep

A property of states that every active function keeps (`Host.Keeps`) is kept by whatever makes
calls: by the calls of an evaluation, however it ends, and by loads. A session is a list of
operations on one state, each of which may fail; it keeps what each of them keeps
(`DispatchState.after_keeps`).
-/

namespace Manifest

variable {F M : Type} {host : Host F M} {P : DispatchState F M → Prop}

/-- Every function that is active in a state with a property leaves a state with it. -/
def Host.Keeps (host : Host F M) (P : DispatchState F M → Prop) : Prop :=
  ∀ s kind name f argument, P s → s.resolve kind name = some f → P (host f argument s).2

section Calls

variable {s t : DispatchState F M} {calls made : List Dispatch} {fault : Fault}

/-- Calls keep what every function keeps. -/
theorem Calls.keeps (keeps : host.Keeps P) (called : Calls host s calls t) (holds : P s) :
    P t := by
  induction called with
  | none => exact holds
  | @next s between t d ds f argument answer found acts _ _ ih =>
    have left := keeps s d.kind d.name f argument holds found
    rw [acts] at left
    exact ih left

/-- Calls that stop keep what every function keeps. -/
theorem Stops.keeps (keeps : host.Keeps P) (stops : Stops host s calls made fault t)
    (holds : P s) : P t := by
  cases stops with
  | missed _ called _ => exact called.keeps keeps holds
  | @failed made rest d between t f argument answer fault _ called found acts _ =>
    have left := keeps between d.kind d.name f argument (called.keeps keeps holds) found
    rwa [acts] at left

/-- Each of the calls was made by a function that was active in a state with the property. -/
theorem Calls.exists_resolve (keeps : host.Keeps P) (called : Calls host s calls t) (holds : P s) :
    ∀ d ∈ calls, ∃ u f, P u ∧ u.resolve d.kind d.name = some f := by
  induction called with
  | none => simp
  | @next s between t d ds f argument answer found acts _ _ ih =>
    have left := keeps s d.kind d.name f argument holds found
    rw [acts] at left
    exact List.forall_mem_cons.mpr ⟨⟨s, f, holds, found⟩, ih left⟩

end Calls

namespace DispatchState

variable {s : DispatchState F M}

/-- An evaluation, however it ends, keeps what every function keeps. -/
theorem evaluate_keeps (keeps : host.Keeps P) (holds : P s) (input : Datum) :
    P (s.evaluate host input).state := by
  cases input with
  | value v =>
    have made := s.evaluate_makes host v
    revert made
    rcases s.evaluate host (.value v) with ⟨fault | r, after, trace⟩
    · exact fun stops ↦ Stops.keeps keeps stops holds
    · rintro ⟨-, called⟩
      exact Calls.keeps keeps called holds
  | _ => exact holds

/-- A load, however it ends, keeps what every function keeps. -/
theorem load_keeps (keeps : host.Keeps P) (holds : P s) (source : String) :
    P (s.load host source).state := by
  rw [(s.load_evaluated host source).1]
  cases Document.ofSource source with
  | error fault => exact holds
  | ok document => exact evaluate_keeps keeps holds (.value document)

end DispatchState

/-- What may be done with a state. -/
inductive Operation
  | load (source : String)
  | evaluate (input : Datum)
  | select (kind : CallKind) (names : List String)

namespace DispatchState

/-- The state that an operation leaves, whether it succeeds or fails. -/
def perform (host : Host F M) (s : DispatchState F M) : Operation → DispatchState F M
  | .load source => (s.load host source).state
  | .evaluate input => (s.evaluate host input).state
  | .select kind names =>
    match s.select kind names with
    | .ok t => t
    | .error _ => s

/-- The state that operations leave, one after the other. -/
def after (host : Host F M) (s : DispatchState F M) (operations : List Operation) :
    DispatchState F M :=
  operations.foldl (perform host) s

/-- An operation keeps what every function and every selection keeps. -/
theorem perform_keeps (keeps : host.Keeps P)
    (selects : ∀ s t kind names, P s → s.select kind names = .ok t → P t) (operation : Operation)
    {s : DispatchState F M} (holds : P s) : P (s.perform host operation) := by
  cases operation with
  | load source => exact load_keeps keeps holds source
  | evaluate input => exact evaluate_keeps keeps holds input
  | select kind names =>
    rw [perform]
    split
    · next t selected => exact selects s t kind names holds selected
    · exact holds

/-- Operations keep what each of them keeps. -/
theorem after_keeps {operations : List Operation}
    (kept : ∀ operation ∈ operations, ∀ s, P s → P (s.perform host operation))
    {s : DispatchState F M} (holds : P s) : P (s.after host operations) := by
  induction operations generalizing s with
  | nil => exact holds
  | cons operation rest ih =>
    obtain ⟨first, others⟩ := List.forall_mem_cons.mp kept
    exact ih others (first s holds)

end DispatchState
end Manifest
