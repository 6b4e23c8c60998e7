import Manifest.Proofs.Dispatch.Composition
import Manifest.Proofs.Dispatch.Prediction

/-!
# The calls that an evaluation makes

The calls of a tree are known before it is evaluated: they are made in the order of
`Value.dispatches`, each by the function that is active under its name at that moment. `Calls` is a
run of such calls, from the state before the first to the state after the last, all of them
answered acceptably; `Stops` is a run that ends early, at a call that has no function or by the
answer of the last function that was called.

Every evaluation is one or the other (`DispatchState.evaluate_calls`), so that its trace is a
prefix of the calls of the tree, and what it leaves is what the last function called left.
-/

namespace Manifest

variable {F M α β : Type} {host : Host F M}

/-- How a call fails by what its function answered: by the fault that the function raised, or for
an answer that the call does not accept. -/
inductive Dispatch.FailsBy (d : Dispatch) : Except Fault Datum → Fault → Prop
  | raised {fault : Fault} : FailsBy d (.error fault) (fault.through d.name)
  | notResolved {answer : Datum} : d.kind = .value → ¬ answer.Answers .value →
    FailsBy d (.ok answer) (.hostFailed d.name (.notResolved answer))
  | notRecord {answer : Datum} : d.kind = .record → ¬ answer.Answers .record →
    FailsBy d (.ok answer) (.hostFailed d.name (.notRecord answer))

/-- Calls made one after the other, each by the function that is active when it is made and
answered acceptably: the state before the first call, the calls, and the state after the last. -/
inductive Calls (host : Host F M) :
    DispatchState F M → List Dispatch → DispatchState F M → Prop
  | none {s : DispatchState F M} : Calls host s [] s
  | next {s between t : DispatchState F M} {d : Dispatch} {ds : List Dispatch} {f : F}
      {argument : Value} {answer : Datum} :
    s.resolve d.kind d.name = some f → host f argument s = (.ok answer, between) →
    answer.Answers d.kind → Calls host between ds t → Calls host s (d :: ds) t

/-- How the making of some calls stops before all of them are made: the calls made, the fault, and
the state left. -/
inductive Stops (host : Host F M) (s : DispatchState F M) (calls : List Dispatch) :
    List Dispatch → Fault → DispatchState F M → Prop
  /-- There is no function for the next call. -/
  | missed {made rest : List Dispatch} {d : Dispatch} {t : DispatchState F M} :
    calls = made ++ d :: rest → Calls host s made t → t.resolve d.kind d.name = none →
    Stops host s calls made (.unknownFunction (some d.kind) d.name) t
  /-- The last call fails by what its function answered. -/
  | failed {made rest : List Dispatch} {d : Dispatch} {between t : DispatchState F M} {f : F}
      {argument : Value} {answer : Except Fault Datum} {fault : Fault} :
    calls = made ++ d :: rest → Calls host s made between →
    between.resolve d.kind d.name = some f → host f argument between = (answer, t) →
    d.FailsBy answer fault → Stops host s calls (made ++ [d]) fault t

section Runs

variable {s t u : DispatchState F M} {calls others made : List Dispatch} {fault : Fault}

/-- Calls after calls. -/
theorem Calls.append (first : Calls host s calls t) (second : Calls host t others u) :
    Calls host s (calls ++ others) u := by
  induction first with
  | none => exact second
  | next found acts accepted _ ih => exact .next found acts accepted (ih second)

/-- What stops early stops early when more calls were to follow. -/
theorem Stops.append_right (stops : Stops host s calls made fault t) (others : List Dispatch) :
    Stops host s (calls ++ others) made fault t := by
  cases stops with
  | missed split before lacking =>
    rw [split, List.append_assoc]
    exact .missed rfl before lacking
  | failed split before found acts fails =>
    rw [split, List.append_assoc]
    exact .failed rfl before found acts fails

/-- What stops early after calls that were all made. -/
theorem Calls.stops (first : Calls host s calls t) (second : Stops host t others made fault u) :
    Stops host s (calls ++ others) (calls ++ made) fault u := by
  cases second with
  | missed split before lacking =>
    rw [split, ← List.append_assoc]
    exact .missed rfl (first.append before) lacking
  | failed split before found acts fails =>
    rw [split, ← List.append_assoc, ← List.append_assoc]
    exact .failed rfl (first.append before) found acts fails

/-- The calls that were made are the first of those that were to be made. -/
theorem Stops.isPrefix (stops : Stops host s calls made fault t) : made <+: calls := by
  cases stops with
  | missed split => exact ⟨_, split.symm⟩
  | @failed made rest d => exact ⟨rest, by simpa using Eq.symm ‹calls = made ++ d :: rest›⟩

end Runs

/-! ### Answers -/

namespace Datum

private theorem acceptValue_eq_error {name : String} {answer : Datum}
    (other : ¬ answer.Answers .value) :
    answer.acceptValue name = .error (.hostFailed name (.notResolved answer)) := by
  cases answer with
  | value v =>
    have notFree : ¬ (value v).isCallFree = true := by
      intro free
      exact other ⟨v, rfl, (isCallFree_iff _).mp free⟩
    rw [acceptValue, if_neg notFree]
  | record id v => rfl
  | plain data => rfl

private theorem acceptRecord_eq_error {name : String} {answer : Datum}
    (other : ¬ answer.Answers .record) :
    answer.acceptRecord name = .error (.hostFailed name (.notRecord answer)) := by
  cases answer with
  | value v => rfl
  | record id v =>
    have notFree : ¬ (record id v).isCallFree = true := by
      intro free
      exact other (.inr ⟨id, v, rfl, (isCallFree_iff _).mp free⟩)
    rw [acceptRecord, if_neg notFree]
  | plain data =>
    cases data with
    | null => exact absurd (.inl rfl) other
    | _ => rfl

end Datum

/-! ### Parts of an evaluation -/

namespace Evaluation

/-- A part of an evaluation makes some calls: all of them when it succeeds, and otherwise as many
as are made until it stops. -/
def Makes (host : Host F M) (calls : List Dispatch) (m : Evaluation F M α) : Prop :=
  ∀ session, match m.result session with
    | (.ok _, after) => after.trace = session.trace ++ calls ∧
      Calls host session.state calls after.state
    | (.error fault, after) => ∃ made, after.trace = session.trace ++ made ∧
      Stops host session.state calls made fault after.state

variable {calls others : List Dispatch}

private theorem makes_pure (x : α) : (pure x : Evaluation F M α).Makes host [] :=
  fun _ ↦ ⟨(List.append_nil _).symm, .none⟩

private theorem Makes.bind {m : Evaluation F M α} {f : α → Evaluation F M β}
    {Q : α → Prop} (first : m.Makes host calls) (yields : m.Yields Q)
    (next : ∀ x, Q x → (f x).Makes host others) : (m >>= f).Makes host (calls ++ others) := by
  intro session
  have one := first session
  rw [result_bind]
  rcases begun : m.result session with ⟨fault | x, between⟩ <;> rw [begun] at one
  · obtain ⟨made, trace, stops⟩ := one
    exact ⟨made, trace, stops.append_right others⟩
  · obtain ⟨trace, called⟩ := one
    have other := next x (yields _ x _ begun) between
    dsimp only
    rcases ended : (f x).result between with ⟨fault | y, after⟩ <;> rw [ended] at other
    · obtain ⟨made, later, stops⟩ := other
      exact ⟨calls ++ made, by rw [later, trace, List.append_assoc], called.stops stops⟩
    · obtain ⟨later, calledLater⟩ := other
      exact ⟨by rw [later, trace, List.append_assoc], called.append calledLater⟩

-- A call and the check of its answer are one call, when the check takes the answers that the call
-- accepts and fails as the call does for all others.
private theorem makes_dispatch (kind : CallKind) (name : String) (argument : Value)
    {accept : Datum → Except Fault α}
    (checks : ∀ answer, (∃ x, accept answer = .ok x ∧ answer.Answers kind) ∨
      ∃ fault, accept answer = .error fault ∧
        (Dispatch.mk kind name).FailsBy (.ok answer) fault) :
    (dispatch host kind name argument >>= fun answer ↦ lift (accept answer)).Makes host
      [⟨kind, name⟩] := by
  intro session
  cases found : session.state.resolve kind name with
  | none =>
    rw [result_bind, result_dispatch, found]
    exact ⟨[], (List.append_nil _).symm, .missed (d := ⟨kind, name⟩) rfl .none found⟩
  | some f =>
    rcases acts : host f argument session.state with ⟨fault | answer, state⟩ <;>
      rw [result_dispatch_lift found, acts]
    · exact ⟨_, rfl, .failed (d := ⟨kind, name⟩) (List.nil_append _).symm .none found acts .raised⟩
    · dsimp only
      have checked : ((Except.ok answer).mapError (Fault.through name)).bind accept =
          accept answer := rfl
      rw [checked]
      obtain ⟨x, accepted, answers⟩ | ⟨fault, refused, fails⟩ := checks answer
      · rw [accepted]
        exact ⟨rfl, .next found acts answers .none⟩
      · rw [refused]
        exact ⟨_, rfl, .failed (d := ⟨kind, name⟩) (List.nil_append _).symm .none found acts fails⟩

private theorem makes_valueCall (name : String) (argument : Value) :
    (dispatch host .value name argument >>= fun answer ↦
      lift (answer.acceptValue name)).Makes host [⟨.value, name⟩] := by
  refine makes_dispatch .value name argument fun answer ↦ ?_
  by_cases answers : answer.Answers .value
  · obtain ⟨v, accepted⟩ := Datum.acceptValue_eq_ok answers
    exact .inl ⟨v, accepted, answers⟩
  · exact .inr ⟨_, Datum.acceptValue_eq_error answers, .notResolved rfl answers⟩

private theorem makes_recordCall (name : String) (argument : Value) :
    (dispatch host .record name argument >>= fun answer ↦
      lift (answer.acceptRecord name)).Makes host [⟨.record, name⟩] := by
  refine makes_dispatch .record name argument fun answer ↦ ?_
  by_cases answers : answer.Answers .record
  · obtain ⟨record, accepted⟩ := Datum.acceptRecord_eq_ok answers
    exact .inl ⟨record, accepted, answers⟩
  · exact .inr ⟨_, Datum.acceptRecord_eq_error answers, .notRecord rfl answers⟩

/-- Every part of an evaluation makes its calls. -/
theorem compositional_makes (host : Host F M) :
    Compositional host fun calls m ↦ m.Makes host calls where
  unit := makes_pure
  chain first yields next := first.bind yields next
  valueCall name _ _ := makes_valueCall name _
  recordCall name _ _ := makes_recordCall name _

end Evaluation

/-! ### A whole evaluation -/

namespace DispatchState

/-- An evaluation makes all calls of the tree, or stops. -/
theorem evaluate_makes (s : DispatchState F M) (host : Host F M) (v : Value) :
    let evaluated := s.evaluate host (.value v)
    match evaluated.outcome with
    | .ok _ => evaluated.trace = v.dispatches ∧ Calls host s v.dispatches evaluated.state
    | .error fault => Stops host s v.dispatches evaluated.trace fault evaluated.state := by
  have made := (Evaluation.compositional_makes host).evaluate v ⟨s, []⟩
  rw [evaluate_value]
  rcases found : (v.evaluate host).result ⟨s, []⟩ with ⟨fault | r, after⟩ <;> rw [found] at made
  · obtain ⟨calls, trace, stops⟩ := made
    rw [List.nil_append] at trace
    subst trace
    exact stops
  · exact made

/-- The calls that an evaluation makes are the first of the calls of the tree. If it succeeds they
are all of them, which are the sites of the tree in another order, and their functions answered
acceptably. Otherwise it stops at the call after them, which has no function, or by the answer of
the function of the last of them. -/
theorem evaluate_calls (s : DispatchState F M) (host : Host F M) (v : Value) :
    let evaluated := s.evaluate host (.value v)
    evaluated.trace <+: v.dispatches ∧
      match evaluated.outcome with
      | .ok _ => evaluated.trace = v.dispatches ∧
        (v.sites.map CallSite.dispatch).Perm evaluated.trace ∧
        Calls host s evaluated.trace evaluated.state
      | .error fault => Stops host s v.dispatches evaluated.trace fault evaluated.state := by
  have made := s.evaluate_makes host v
  revert made
  rcases s.evaluate host (.value v) with ⟨fault | r, after, trace⟩
  · intro stops
    exact ⟨Stops.isPrefix stops, stops⟩
  · rintro ⟨same, called⟩
    subst same
    exact ⟨List.prefix_rfl, rfl, v.map_sites_perm, called⟩

end DispatchState
end Manifest
