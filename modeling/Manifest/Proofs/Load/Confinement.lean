import Manifest.Proofs.Call.Order
import Manifest.Proofs.Dispatch.Selection
import Manifest.Proofs.Load.Invariant

/-!
# What a session can reach

Functions that change the tables by selections only keep them within the library, whatever is
loaded, evaluated or selected and however that ends (`DispatchState.after_build`). The standard
functions are such functions.

Only one of the standard functions selects at all, and the library has it under one name, for
records. Where the host adds no functions and that name is not active, documents leave the state as
it is, and those that load call nothing but what was active (`DispatchState.after_loads`).
-/

namespace Manifest

/-- How the functions of a host act. -/
abbrev HostAction (H M : Type) :=
  H → Value → DispatchState (Callee H) M → Except Fault Datum × DispatchState (Callee H) M

variable {H M : Type} {host : HostAction H M}

/-- The functions of a host change the tables by selections only. -/
def HostAction.Selects (host : HostAction H M) : Prop :=
  ∀ function v (s : DispatchState (Callee H) M), s.Reselects (host function v s).2

private theorem keeps_within (selects : host.Selects) (library : FunctionTables (Callee H)) :
    Host.Keeps (Callee.act host) (DispatchState.Within · library) := by
  intro s kind name f argument within _
  cases f with
  | standard function => exact within.reselects (function.call_reselects argument s)
  | host function => exact within.reselects (selects function argument s)

namespace DispatchState

section Built

variable {settings : Settings} {values records : Table H} {memory : M}
  {s : DispatchState (Callee H) M}

private theorem within_after (selects : host.Selects)
    (built : build settings values records memory = .ok s) (operations : List Operation) :
    (s.after (Callee.act host) operations).Within (Callee.library values records) :=
  after_keeps (P := (Within · (Callee.library values records)))
    (fun operation _ _ ↦ perform_keeps (keeps_within selects _)
      (fun _ _ _ _ within selected ↦ within.select selected) operation)
    (within_build built)

/-- After any loads, evaluations and selections on a state that was built, whether they succeed or
fail, the library is the one that it was built with, and every active name is bound once and as in
the library, if the functions of the host change the tables by selections only. -/
theorem after_build (selects : host.Selects)
    (built : build settings values records memory = .ok s) (operations : List Operation) :
    let t := s.after (Callee.act host) operations
    t.library = s.library ∧ s.library = Callee.library values records ∧
      ∀ kind, (t.active.of kind).names.Nodup ∧ (t.library.of kind).names.Nodup ∧
        ∀ name f, (t.active.of kind).get? name = some f →
          (t.library.of kind).get? name = some f := by
  have start := within_build built
  have within := within_after selects built operations
  refine ⟨within.library_eq.trans start.library_eq.symm, start.library_eq, fun kind ↦ ?_⟩
  rw [within.library_eq]
  exact ⟨within.distinct kind, Callee.nodup_names_library values records kind,
    within.subTable kind⟩

end Built

-- A function that makes itself the only active record function, and counts its calls.
private def retreat : HostAction Unit Nat := fun _ _ s ↦
  match s.select .record ["retreat"] with
  | .ok t => (.ok (.plain .null), { t with memory := t.memory + 1 })
  | .error fault => (.error fault, s)

private theorem retreat_selects : retreat.Selects := by
  intro function v s
  rw [retreat]
  cases selected : s.select .record ["retreat"] with
  | error fault => exact .none
  | ok t => exact .other (.select .none selected) rfl rfl

-- A tree whose second call is no longer active after the first.
private def overreach : Operation :=
  .evaluate (.value (.object [.call "retreat" (.number 1), .call "meta-eval" (.object [])]))

/-- A tree that retreats and then fails, a selection that is refused, and one that is not. -/
theorem after_build_retreat :
    ∃ s, build ⟨.nan, none, none, 2⟩ [] [("retreat", ())] 0 = .ok s ∧
      let t := s.after (Callee.act retreat)
        [overreach, .select .value ["retreat"], .select .value ["number"]]
      t.active = ⟨[("number", .standard .number)], [("retreat", .host ())]⟩ ∧
      t.library = s.library ∧
      ∀ kind, (t.active.of kind).names.Nodup ∧ (t.library.of kind).names.Nodup ∧
        ∀ name f, (t.active.of kind).get? name = some f →
          (t.library.of kind).get? name = some f := by
  have built : build ⟨.nan, none, none, 2⟩ [] [("retreat", ())] 0 = .ok
      (ofLibrary (Callee.library [] [("retreat", ())]) .nan 0) := rfl
  obtain ⟨kept, -, tables⟩ := after_build retreat_selects built
    [overreach, .select .value ["retreat"], .select .value ["number"]]
  exact ⟨_, built, rfl, kept, tables⟩

end DispatchState

/-! ### Without selections -/

private theorem bound_selection {kind : CallKind} {name : String}
    (bound : ((Callee.library [] [] : FunctionTables (Callee H)).of kind).get? name =
      some (.standard .selection)) : kind = .record ∧ name = "meta-eval" := by
  cases kind <;>
    simp only [Callee.library, Callee.standardTables, FunctionTables.of, Table.update, Table.get?,
      List.map_nil, List.foldl_nil, List.find?_cons, List.find?_nil] at bound
  · split at bound
    · cases bound
    split at bound <;> cases bound
  · split at bound
    · cases bound
    · split at bound
      · next found => exact ⟨rfl, (eq_of_beq found).symm⟩
      · cases bound

variable (host : HostAction Empty M)

private theorem act_state {f : Callee Empty} (other : f ≠ .standard .selection) (v : Value)
    (s : DispatchState (Callee Empty) M) : (Callee.act host f v s).2 = s := by
  cases f with
  | standard function =>
    cases function with
    | selection => exact absurd rfl other
    | _ => rfl
  | host function => cases function

private theorem keeps_state {s : DispatchState (Callee Empty) M}
    (within : s.Within (Callee.library [] [])) (off : s.resolve .record "meta-eval" = none) :
    Host.Keeps (Callee.act host) (· = s) := by
  rintro _ kind name f argument rfl found
  refine act_state host ?_ argument _
  rintro rfl
  obtain ⟨rfl, rfl⟩ := bound_selection (within.subTable kind name _ found)
  rw [off] at found
  cases found

namespace DispatchState

open Document

private theorem resolve_of_load {F : Type} {host : Host F M} {s : DispatchState F M}
    {source : String} {v : Value} (keeps : host.Keeps (· = s))
    (loaded : (s.load host source).outcome = .ok (.ok v)) :
    ∃ document, ofSource source = .ok document ∧
      ∀ site ∈ document.sites, (s.resolve site.kind site.name).isSome = true := by
  obtain ⟨document, read, evaluated⟩ := load_eq_ok loaded
  refine ⟨document, read, fun site inside ↦ ?_⟩
  have made := s.evaluate_makes host document
  simp only [evaluated] at made
  have called := made.2.exists_resolve keeps rfl
  obtain ⟨t, f, same, found⟩ := called site.dispatch
    (document.map_sites_perm.subset (List.mem_map_of_mem inside))
  rw [same] at found
  exact Option.isSome_of_eq_some found

/-- Where the function that selects is no longer active, and the host adds none, no documents
change the state, whether they load or fail; and each of them that loads calls only what was
active. -/
theorem after_loads {settings : Settings} {memory : M} {start : DispatchState (Callee Empty) M}
    (built : build settings [] [] memory = .ok start) (earlier : List Operation)
    (off : (start.after (Callee.act host) earlier).resolve .record "meta-eval" = none)
    (sources : List String) :
    let s := start.after (Callee.act host) earlier
    s.after (Callee.act host) (sources.map .load) = s ∧
      ∀ before source others, sources = before ++ source :: others →
        ∀ v,
        ((s.after (Callee.act host) (before.map .load)).load (Callee.act host) source).outcome =
          .ok (.ok v) →
        ∃ document, ofSource source = .ok document ∧
          ∀ site ∈ document.sites, (s.resolve site.kind site.name).isSome = true := by
  intro s
  have within : s.Within (Callee.library [] []) :=
    within_after (fun function ↦ nomatch function) built earlier
  have keeps := keeps_state host within off
  have same (sources : List String) : s.after (Callee.act host) (sources.map .load) = s := by
    refine after_keeps (P := (· = s)) (fun operation inside t ↦ ?_) rfl
    obtain ⟨source, -, rfl⟩ := List.mem_map.mp inside
    exact fun same ↦ load_keeps keeps same source
  refine ⟨same sources, ?_⟩
  rintro before source others rfl v loaded
  rw [same before] at loaded
  exact resolve_of_load keeps loaded

private def absent : HostAction Empty Unit := fun function _ _ ↦ nomatch function

private def numbering : DispatchState (Callee Empty) Unit :=
  ⟨Callee.library [] [], ⟨[("number", .standard .number)], []⟩, .nan, ()⟩

private theorem load_numbering :
    (numbering.load (Callee.act absent) "x = @number \"1\"").outcome =
      .ok (.ok (.object [.record "x" (.number 1)])) := by
  have read : ofSource "x = @number \"1\"" =
      .ok (.object [.record "x" (.call "number" (.text "1"))]) := by decide +kernel
  have ended := (numbering.load_evaluated (Callee.act absent) "x = @number \"1\"").2
  have evaluated : (numbering.evaluate (Callee.act absent)
      (.value (.object [.record "x" (.call "number" (.text "1"))]))).outcome =
        .ok (.object [.record "x" (.number 1)]) := by decide +kernel
  rw [read] at ended
  simp only [evaluated] at ended
  exact ended

/-- Where only one value function is active, a document that asks for others fails and changes
nothing, and one that loads calls that function. -/
theorem after_loads_numbering :
    build ⟨.nan, some ["number"], some [], 2⟩ [] [] () = .ok numbering ∧
      numbering.resolve .record "meta-eval" = none ∧
      numbering.after (Callee.act absent)
        (["#meta-eval {}", "x = @number \"1\"", "y = @std_url \"a\""].map .load) = numbering ∧
      ∃ document, ofSource "x = @number \"1\"" = .ok document ∧
        ∀ site ∈ document.sites, (numbering.resolve site.kind site.name).isSome = true := by
  have built : build ⟨.nan, some ["number"], some [], 2⟩ [] [] () = .ok numbering := rfl
  obtain ⟨same, documents⟩ := after_loads absent built [] rfl
    ["#meta-eval {}", "x = @number \"1\"", "y = @std_url \"a\""]
  have before := (after_loads absent built [] rfl ["#meta-eval {}"]).1
  refine ⟨built, rfl, same,
    documents ["#meta-eval {}"] _ _ rfl (.object [.record "x" (.number 1)]) ?_⟩
  rw [before]
  exact load_numbering

end DispatchState
end Manifest
