import Manifest.Proofs.Call.Order
import Manifest.Proofs.Dispatch.Composition

/-!
# What an evaluation depends on

A function that neither reads nor changes the state answers by its argument alone (`Host.IsPure`).
Where the functions that a tree calls are such, two states that have the same functions for its
calls cannot be told apart by evaluating it: whatever else is active, and whatever the libraries
hold, both give the same outcome and the same trace (`DispatchState.evaluate_eq_of_agree`). `Alike`
says so of a part of an evaluation and the calls that it makes.
-/

namespace Manifest

variable {F M α β : Type} {host : Host F M}

/-- The function answers by its argument alone, and leaves every state as it is. -/
def Host.IsPure (host : Host F M) (f : F) : Prop :=
  ∃ answer : Value → Except Fault Datum, ∀ argument s, host f argument s = (answer argument, s)

/-- Two states have the same function for a call, which neither reads nor changes the state, or
none. -/
structure Dispatch.Agree (host : Host F M) (s t : DispatchState F M) (d : Dispatch) : Prop where
  isPure : ∀ f, s.resolve d.kind d.name = some f → host.IsPure f
  same : s.resolve d.kind d.name = t.resolve d.kind d.name

/-! ### Parts of an evaluation -/

namespace Evaluation

/-- A part of an evaluation ends alike, and makes the same calls, in any two states that agree on
the calls that it can make; it leaves both as they were. -/
def Alike (host : Host F M) (calls : List Dispatch) (m : Evaluation F M α) : Prop :=
  ∀ s t, (∀ d ∈ calls, d.Agree host s t) → ∀ trace, ∃ outcome after,
    m.result ⟨s, trace⟩ = (outcome, ⟨s, after⟩) ∧ m.result ⟨t, trace⟩ = (outcome, ⟨t, after⟩)

variable {calls others : List Dispatch}

private theorem alike_pure (x : α) : (pure x : Evaluation F M α).Alike host [] :=
  fun _ _ _ trace ↦ ⟨.ok x, trace, rfl, rfl⟩

private theorem Alike.bind {m : Evaluation F M α} {f : α → Evaluation F M β}
    {Q : α → Prop} (first : m.Alike host calls) (yields : m.Yields Q)
    (next : ∀ x, Q x → (f x).Alike host others) : (m >>= f).Alike host (calls ++ others) := by
  intro s t agree trace
  obtain ⟨here, there⟩ := List.forall_mem_append.mp agree
  obtain ⟨outcome, between, inFirst, inSecond⟩ := first s t here trace
  rw [result_bind, result_bind, inFirst, inSecond]
  cases outcome with
  | error fault => exact ⟨.error fault, between, rfl, rfl⟩
  | ok x => exact next x (yields _ x _ inFirst) s t there between

private theorem alike_dispatch (kind : CallKind) (name : String) (argument : Value)
    (accept : Datum → Except Fault α) :
    (dispatch host kind name argument >>= fun answer ↦ lift (accept answer)).Alike host
      [⟨kind, name⟩] := by
  intro s t agree trace
  obtain ⟨isPure, same⟩ := agree ⟨kind, name⟩ (List.mem_singleton.mpr rfl)
  dsimp only at isPure same
  cases found : s.resolve kind name with
  | none =>
    rw [result_bind, result_bind, result_dispatch, result_dispatch]
    dsimp only
    rw [← same, found]
    exact ⟨_, trace, rfl, rfl⟩
  | some f =>
    obtain ⟨answer, acts⟩ := isPure f found
    rw [result_dispatch_lift found, result_dispatch_lift (same ▸ found)]
    dsimp only
    rw [acts, acts]
    exact ⟨_, _, rfl, rfl⟩

/-- Every part of an evaluation ends alike where the states agree on its calls. -/
theorem compositional_alike (host : Host F M) :
    Compositional host fun calls m ↦ m.Alike host calls where
  unit := alike_pure
  chain first yields next := first.bind yields next
  valueCall name _ _ := alike_dispatch .value name _ fun answer ↦ answer.acceptValue name
  recordCall name _ _ := alike_dispatch .record name _ fun answer ↦ answer.acceptRecord name

end Evaluation

/-! ### A whole evaluation -/

namespace DispatchState

/-- Two states with the same functions for the calls of a tree evaluate it to the same outcome with
the same trace, if these functions neither read nor change the state. -/
theorem evaluate_eq_of_agree {s t : DispatchState F M} {v : Value}
    (isPure : ∀ site ∈ v.sites, ∀ f, s.resolve site.kind site.name = some f → host.IsPure f)
    (same : ∀ site ∈ v.sites, s.resolve site.kind site.name = t.resolve site.kind site.name) :
    (s.evaluate host (.value v)).outcome = (t.evaluate host (.value v)).outcome ∧
      (s.evaluate host (.value v)).trace = (t.evaluate host (.value v)).trace := by
  have agree : ∀ d ∈ v.dispatches, d.Agree host s t := by
    intro d made
    obtain ⟨site, written, rfl⟩ := List.mem_map.mp (v.map_sites_perm.mem_iff.mpr made)
    exact ⟨isPure site written, same site written⟩
  obtain ⟨outcome, trace, inFirst, inSecond⟩ :=
    (Evaluation.compositional_alike host).evaluate v s t agree []
  rw [evaluate_value, evaluate_value, inFirst, inSecond]
  exact ⟨rfl, rfl⟩

private def pairing : Host Bool Nat
  | true, v, s => (.ok (.value (.array [v, v])), s)
  | false, v, s => (.ok (.value v), { s with memory := s.memory + 1 })

-- Of two states only the second has a function that counts, and neither may call it as a record.
private def narrow : DispatchState Bool Nat := .ofLibrary ⟨[("pair", true)], []⟩ .nan 0

private def wide : DispatchState Bool Nat :=
  { ofLibrary ⟨[("count", false), ("pair", true)], [("count", false)]⟩ .nan 7 with
    active := ⟨[("count", false), ("pair", true)], []⟩ }

private def paired : Value :=
  .object [.record "a" (.call "pair" (.number 1)), .call "count" (.call "pair" (.number 2))]

private theorem sites_paired :
    paired.sites = [⟨.value, "pair", "a"⟩, ⟨.record, "count", ""⟩, ⟨.value, "pair", ""⟩] := by
  decide

/-- A library and an active table that no call of the document consults make no difference. -/
theorem evaluate_eq_of_agree_pair :
    (∀ site ∈ paired.sites, ∀ f, narrow.resolve site.kind site.name = some f → pairing.IsPure f) ∧
      (∀ site ∈ paired.sites,
        narrow.resolve site.kind site.name = wide.resolve site.kind site.name) ∧
      (narrow.evaluate pairing (.value paired)).outcome =
        (wide.evaluate pairing (.value paired)).outcome ∧
      (narrow.evaluate pairing (.value paired)).trace =
        (wide.evaluate pairing (.value paired)).trace := by
  have pairs (kind : CallKind) (name : String) (f : Bool)
      (found : narrow.resolve kind name = some f) :
      f = true := by
    cases kind with
    | value => simp_all [narrow, ofLibrary, resolve, FunctionTables.of, Table.get?]
    | record => cases found
  have isPure : ∀ site ∈ paired.sites, ∀ f, narrow.resolve site.kind site.name = some f →
      pairing.IsPure f := by
    intro site _ f found
    exact ⟨fun v ↦ .ok (.value (.array [v, v])), fun v s ↦ by rw [pairs _ _ f found]; rfl⟩
  have same : ∀ site ∈ paired.sites,
      narrow.resolve site.kind site.name = wide.resolve site.kind site.name := by
    rw [sites_paired]
    simp only [List.forall_mem_cons]
    decide
  exact ⟨isPure, same, evaluate_eq_of_agree isPure same⟩

end DispatchState
end Manifest
