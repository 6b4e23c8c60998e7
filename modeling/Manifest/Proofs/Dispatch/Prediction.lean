import Manifest.Proofs.Call.Order
import Manifest.Proofs.Dispatch.Composition

/-!
# Predicting an evaluation

Where the active functions leave the active tables alone and answer acceptably, the tables of a
state decide how an evaluation ends before it starts. `Predicts` says so of a part of an evaluation
and the calls that it makes: it succeeds when the state has a function for each of them, and fails
at the first for which it has none.

The calls that are looked up beforehand are the sites of the tree, in the order of writing. They
are the calls that an evaluation makes (`Value.map_sites_perm`), so that none is missing exactly
when the evaluation succeeds (`DispatchState.evaluate_iff_missing`).
-/

namespace Manifest

variable {F M α β : Type} {host : Host F M}

/-- An answer that a call of a kind accepts. -/
def Datum.Answers (answer : Datum) : CallKind → Prop
  | .value => ∃ v, answer = .value v ∧ v.isResolved = true
  | .record => answer = .plain .null ∨ ∃ id v, answer = .record id v ∧ v.isResolved = true

namespace DispatchState

variable (s : DispatchState F M)

/-- No active function answers a call. -/
def lacks (d : Dispatch) : Bool := (s.resolve d.kind d.name).isNone

/-- The active functions answer every argument without calls acceptably and leave the active tables
alone, as long as these are the active tables. -/
def Steady (host : Host F M) : Prop :=
  ∀ kind name f, s.resolve kind name = some f →
    ∀ (argument : Value) (t : DispatchState F M), argument.isResolved = true →
      t.active = s.active → ∃ answer after, host f argument t = (.ok answer, after) ∧
        answer.Answers kind ∧ after.active = s.active

private theorem resolve_eq {s t : DispatchState F M} (same : t.active = s.active) (kind : CallKind)
    (name : String) : t.resolve kind name = s.resolve kind name := by
  rw [resolve, resolve, same]

end DispatchState

/-! ### Answers -/

namespace Datum

/-- A call for a value accepts a value without calls. -/
theorem acceptValue_eq_ok {name : String} {answer : Datum} (answers : answer.Answers .value) :
    ∃ v, answer.acceptValue name = .ok v := by
  obtain ⟨v, rfl, resolved⟩ := answers
  have free : (value v).isCallFree = true := (isCallFree_iff _).mpr resolved
  exact ⟨v, by rw [acceptValue, if_pos free]⟩

/-- A call for a record accepts a record without calls, and nothing. -/
theorem acceptRecord_eq_ok {name : String} {answer : Datum}
    (answers : answer.Answers .record) : ∃ record, answer.acceptRecord name = .ok record := by
  obtain rfl | ⟨id, v, rfl, resolved⟩ := answers
  · exact ⟨none, rfl⟩
  · have free : (record id v).isCallFree = true := (isCallFree_iff _).mpr resolved
    exact ⟨some (.record id v), by rw [acceptRecord, if_pos free]⟩

end Datum

/-! ### Parts of an evaluation -/

namespace Evaluation

/-- A part of an evaluation succeeds, with a result that has a property, when the state has a
function for each of the calls that the part makes; it fails at the first for which it has none. -/
def Predicts (s : DispatchState F M) (calls : List Dispatch) (m : Evaluation F M α)
    (P : α → Prop) : Prop :=
  ∀ session, session.state.active = s.active →
    match calls.find? s.lacks with
    | none => ∃ x after, m.result session = (.ok x, after) ∧ P x ∧ after.state.active = s.active
    | some d => ∃ after, m.result session = (.error (.unknownFunction (some d.kind) d.name), after)

variable {s : DispatchState F M} {calls others : List Dispatch} {P : α → Prop} {Q : β → Prop}

private theorem predicts_pure {x : α} (holds : P x) :
    (pure x : Evaluation F M α).Predicts s [] P :=
  fun session same ↦ ⟨x, session, rfl, holds, same⟩

private theorem predicts_lift {outcome : Except Fault α} {x : α} (accepted : outcome = .ok x)
    (holds : P x) : (lift outcome : Evaluation F M α).Predicts s [] P :=
  fun session same ↦ ⟨x, session, by rw [result_lift, accepted], holds, same⟩

private theorem Predicts.bind {m : Evaluation F M α} {f : α → Evaluation F M β}
    (first : m.Predicts s calls P) (next : ∀ x, P x → (f x).Predicts s others Q) :
    (m >>= f).Predicts s (calls ++ others) Q := by
  intro session same
  have one := first session same
  rw [List.find?_append]
  cases found : calls.find? s.lacks with
  | none =>
    rw [found] at one
    obtain ⟨x, after, ended, holds, kept⟩ := one
    rw [Option.none_or, result_bind, ended]
    exact next x holds after kept
  | some d =>
    rw [found] at one
    obtain ⟨after, ended⟩ := one
    exact ⟨after, by rw [result_bind, ended]⟩

private theorem Predicts.yielding {m : Evaluation F M α}
    (predicted : m.Predicts s calls fun _ ↦ True) (yields : m.Yields P) :
    m.Predicts s calls P := by
  intro session same
  have ends := predicted session same
  cases found : calls.find? s.lacks with
  | none =>
    rw [found] at ends
    obtain ⟨x, after, ended, -, kept⟩ := ends
    exact ⟨x, after, ended, yields session x after ended, kept⟩
  | some d =>
    rw [found] at ends
    exact ends

private theorem predicts_dispatch (steady : s.Steady host) (kind : CallKind) (name : String)
    {argument : Value} (resolved : argument.isResolved = true) :
    (dispatch host kind name argument).Predicts s [⟨kind, name⟩] (Datum.Answers · kind) := by
  intro session same
  rw [List.find?_singleton, DispatchState.lacks]
  cases found : s.resolve kind name with
  | none =>
    refine ⟨session, ?_⟩
    rw [result_dispatch, DispatchState.resolve_eq same, found]
  | some f =>
    obtain ⟨answer, after, acts, accepted, kept⟩ :=
      steady kind name f found argument session.state resolved same
    refine ⟨answer, ⟨after, session.trace ++ [⟨kind, name⟩]⟩, ?_, accepted, kept⟩
    rw [result_dispatch, DispatchState.resolve_eq same, found]
    dsimp only
    rw [acts]
    rfl

/-- Where the active functions answer acceptably and leave the active tables alone, every part of
an evaluation is predicted by its calls. -/
theorem compositional_predicts (steady : s.Steady host) :
    Compositional host fun calls m ↦ m.Predicts s calls fun _ ↦ True where
  unit _ := predicts_pure trivial
  chain first yields next := (first.yielding yields).bind next
  valueCall name _ resolved := (predicts_dispatch steady .value name resolved).bind
    fun _ answers ↦
      have ⟨_, accepted⟩ := Datum.acceptValue_eq_ok answers
      predicts_lift accepted trivial
  recordCall name _ resolved := (predicts_dispatch steady .record name resolved).bind
    fun _ answers ↦
      have ⟨_, accepted⟩ := Datum.acceptRecord_eq_ok answers
      predicts_lift accepted trivial

end Evaluation

/-! ### A whole evaluation -/

namespace DispatchState

variable {s : DispatchState F M}

private theorem map_missing_perm (v : Value) :
    ((s.missing v).map CallSite.dispatch).Perm (v.dispatches.filter s.lacks) := by
  have same : (s.missing v).map CallSite.dispatch =
      (v.sites.map CallSite.dispatch).filter s.lacks := by
    rw [List.filter_map]
    rfl
  rw [same]
  exact v.map_sites_perm.filter s.lacks

/-- Where the active functions answer acceptably and leave the active tables alone, an evaluation
succeeds exactly when no call is missing. Otherwise it fails for the first missing call in the
order in which calls are made. -/
theorem evaluate_iff_missing (steady : s.Steady host) (v : Value) :
    ((∃ r, (s.evaluate host (.value v)).outcome = .ok r) ↔ s.missing v = []) ∧
      (s.missing v ≠ [] → ∃ site ∈ s.missing v, v.dispatches.find? s.lacks = some site.dispatch ∧
        (s.evaluate host (.value v)).outcome =
          .error (.unknownFunction (some site.kind) site.name)) := by
  have outcome : (s.evaluate host (.value v)).outcome =
      ((v.evaluate host).result ⟨s, []⟩).1 := rfl
  have predicted := (Evaluation.compositional_predicts steady).evaluate v ⟨s, []⟩ rfl
  have same := map_missing_perm (s := s) v
  rw [outcome]
  -- The sites are searched in another order, but the two searches agree on whether there is any.
  cases found : v.dispatches.find? s.lacks with
  | none =>
    rw [found] at predicted
    obtain ⟨r, after, ended, -, -⟩ := predicted
    rw [List.filter_eq_nil_iff.mpr (List.find?_eq_none.mp found)] at same
    have empty : s.missing v = [] := List.map_eq_nil_iff.mp same.eq_nil
    exact ⟨iff_of_true ⟨r, by rw [ended]⟩ empty, fun nonempty ↦ absurd empty nonempty⟩
  | some d =>
    rw [found] at predicted
    obtain ⟨after, ended⟩ := predicted
    have lacking : d ∈ v.dispatches.filter s.lacks :=
      List.mem_filter.mpr ⟨List.mem_of_find?_eq_some found, List.find?_some found⟩
    obtain ⟨site, missing, rfl⟩ := List.mem_map.mp (same.mem_iff.mpr lacking)
    refine ⟨iff_of_false ?_ (List.ne_nil_of_mem missing), fun _ ↦ ⟨site, missing, rfl, ?_⟩⟩
    · rintro ⟨r, succeeds⟩
      rw [ended] at succeeds
      cases succeeds
    · rw [ended]
      rfl

private theorem steady_echoing : echoing.Steady .echo := by
  intro kind name f found argument t resolved same
  refine ⟨.value argument, t, rfl, ?_, same⟩
  cases kind with
  | value => exact ⟨argument, rfl, resolved⟩
  | record => cases found

/-- Of two functions that are missing, that of the argument is missed first. -/
theorem evaluate_iff_missing_echo :
    echoing.Steady .echo ∧
      (echoing.evaluate .echo (.value (.call "gone" (.array [.call "echo" (.number 1),
        .call "lost" (.number 2)])))).outcome =
          .error (.unknownFunction (some .value) "lost") := by
  refine ⟨steady_echoing, ?_⟩
  obtain ⟨⟨kind, name, path⟩, -, first, fails⟩ :=
    (evaluate_iff_missing steady_echoing (.call "gone" (.array [.call "echo" (.number 1),
      .call "lost" (.number 2)]))).2 (by decide)
  have lost : (Value.call "gone" (.array [.call "echo" (.number 1),
      .call "lost" (.number 2)])).dispatches.find? echoing.lacks = some ⟨.value, "lost"⟩ := by
        decide
  rw [lost] at first
  cases first
  exact fails

end DispatchState
end Manifest
