import Manifest.Proofs.Document.Image
import Manifest.Proofs.Json.Projection
import Manifest.Proofs.Load.Confinement
import Manifest.Proofs.Number.Narrowing

/-!
# Data of documents are finite

Evaluation makes no floats: if the functions answer with floats of their arguments only, as the
standard ones do (`Standard.floats_of_call`), a result has no floats but those of the tree
(`Value.yields_floats`). The numbers in its data are the doubles that stand for them
(`Value.reals_of_project`).

The floats of a document are finite, since literals denote them. So are therefore the numbers in
the data of what a document is evaluated to (`DispatchState.finite_of_load`).
-/

namespace Manifest

/-! ### Floats and reals -/

namespace Value

mutual

/-- The floats of a tree, in the order of writing. -/
def floats : Value → List Single
  | number _ | text _ => []
  | float x => [x]
  | array items => itemFloats items
  | object entries => entryFloats entries
  | call _ x | typed _ x => floats x

/-- The floats of items. -/
def itemFloats : List Value → List Single
  | [] => []
  | item :: rest => floats item ++ itemFloats rest

/-- The floats of entries. -/
def entryFloats : List Entry → List Single
  | [] => []
  | .record _ x :: rest | .call _ x :: rest => floats x ++ entryFloats rest

end

end Value

/-- The floats of the value or record that a datum is; plain data have none. -/
def Datum.floats : Datum → List Single
  | value v | record _ v => v.floats
  | plain _ => []

namespace Json

mutual

/-- The floating point numbers of a datum, in the order of writing. -/
def reals : Json → List Double
  | null | bool _ | integer _ | string _ => []
  | real x => [x]
  | array items => itemReals items
  | object members => memberReals members

/-- The floating point numbers of items. -/
def itemReals : List Json → List Double
  | [] => []
  | item :: rest => reals item ++ itemReals rest

/-- The floating point numbers of members. -/
def memberReals : List (String × Json) → List Double
  | [] => []
  | (_, data) :: rest => reals data ++ memberReals rest

end

/-- Binding a name adds no numbers but those of the datum bound. -/
theorem memberReals_set (members : Table Json) (name : String) (data : Json) :
    memberReals (members.set name data) ⊆ memberReals members ++ data.reals := by
  induction members with
  | nil => simp [Table.set, memberReals]
  | cons member members ih =>
    obtain ⟨other, old⟩ := member
    rw [Table.set]
    split
    · simp only [memberReals, List.append_subset]
      exact ⟨List.subset_append_right _ _,
        List.subset_append_of_subset_left _ (List.subset_append_right _ _)⟩
    · simp only [memberReals, List.append_subset, List.append_assoc]
      exact ⟨List.subset_append_left _ _, List.subset_append_of_subset_right _ ih⟩

end Json

private theorem append_subset_append {α : Type} {first other rest others : List α}
    (head : first ⊆ other) (tail : rest ⊆ others) : first ++ rest ⊆ other ++ others :=
  List.append_subset.mpr ⟨List.subset_append_of_subset_left _ head,
    List.subset_append_of_subset_right _ tail⟩

/-! ### Evaluation -/

variable {F H M : Type} {host : Host F M}

/-- Every function answers with no floats but those of its argument. -/
def Host.KeepsFloats (host : Host F M) : Prop :=
  ∀ f v s answer, (host f v s).1 = .ok answer → answer.floats ⊆ v.floats

namespace Datum

/-- A value that is accepted has the floats of the answer. -/
theorem floats_of_acceptValue {name : String} {answer : Datum} {v : Value}
    (accepted : answer.acceptValue name = .ok v) : v.floats = answer.floats := by
  cases answer with
  | value w =>
    rw [acceptValue] at accepted
    split at accepted <;> cases accepted
    rfl
  | _ => cases accepted

/-- A record that is accepted, if any, has the floats of the answer. -/
theorem floats_of_acceptRecord {name : String} {answer : Datum} {record : Option Entry}
    (accepted : answer.acceptRecord name = .ok record) :
    Value.entryFloats record.toList = answer.floats := by
  cases answer with
  | record id v =>
    rw [acceptRecord] at accepted
    split at accepted <;> cases accepted
    exact List.append_nil _
  | plain data =>
    cases data with
    | null =>
      cases accepted
      rfl
    | _ => cases accepted
  | value v => cases accepted

end Datum

namespace Evaluation

/-- What evaluating a tree yields is so of a result from any state. -/
theorem Yields.of_evaluate {v r : Value} {P : Value → Prop} (yields : (v.evaluate host).Yields P)
    {state : DispatchState F M} (evaluated : (state.evaluate host (.value v)).outcome = .ok r) :
    P r :=
  yields ⟨state, []⟩ r _ (Prod.ext evaluated rfl)

private theorem yields_dispatch (keeps : host.KeepsFloats) (kind : CallKind) (name : String)
    (argument : Value) :
    (dispatch host kind name argument).Yields (·.floats ⊆ argument.floats) := by
  intro session answer after ended
  rw [result_dispatch] at ended
  cases found : session.state.resolve kind name with
  | none =>
    rw [found] at ended
    cases ended
  | some f =>
    rw [found] at ended
    have answered : (host f argument session.state).1.mapError (Fault.through name) = .ok answer :=
      congrArg Prod.fst ended
    cases acted : (host f argument session.state).1 with
    | error fault =>
      rw [acted] at answered
      cases answered
    | ok datum =>
      rw [acted] at answered
      cases answered
      exact keeps f argument session.state _ acted

end Evaluation

namespace Value

open Evaluation

/-- Entries after entries have the floats of both. -/
theorem entryFloats_append (first second : List Entry) :
    entryFloats (first ++ second) = entryFloats first ++ entryFloats second := by
  induction first with
  | nil => rfl
  | cons entry rest ih => cases entry <;> simp [entryFloats, ih]

mutual

/-- Evaluating a tree yields a tree with no floats but those of the first. -/
theorem yields_floats (keeps : host.KeepsFloats) :
    (v : Value) → (v.evaluate host).Yields (·.floats ⊆ v.floats)
  | number _ | float _ | text _ => yields_pure (List.Subset.refl _)
  | array items => (yields_itemFloats keeps items).bind fun _ kept ↦ yields_pure kept
  | object entries => (yields_entryFloats keeps entries).bind fun _ kept ↦ yields_pure kept
  | call f x => (yields_floats keeps x).bind fun argument kept ↦
    (yields_dispatch keeps .value f argument).bind fun _ answered ↦ yields_lift fun _ accepted ↦
      List.Subset.trans (Datum.floats_of_acceptValue accepted ▸ answered) kept
  | typed _ x => (yields_floats keeps x).bind fun _ kept ↦ yields_pure kept

/-- Evaluating items yields items with no floats but those of the first. -/
theorem yields_itemFloats (keeps : host.KeepsFloats) :
    (items : List Value) → (evaluateItems host items).Yields (itemFloats · ⊆ itemFloats items)
  | [] => yields_pure (List.Subset.refl _)
  | item :: rest => (yields_floats keeps item).bind fun _ first ↦
    (yields_itemFloats keeps rest).bind fun _ others ↦
      yields_pure (append_subset_append first others)

/-- Evaluating entries yields records with no floats but those of the entries. -/
theorem yields_entryFloats (keeps : host.KeepsFloats) :
    (entries : List Entry) →
      (evaluateEntries host entries).Yields (entryFloats · ⊆ entryFloats entries)
  | [] => yields_pure (List.Subset.refl _)
  | .record _ x :: rest => (yields_floats keeps x).bind fun _ first ↦
    (yields_entryFloats keeps rest).bind fun _ others ↦
      yields_pure (append_subset_append first others)
  | .call f x :: rest => (yields_floats keeps x).bind fun argument kept ↦
    (yields_dispatch keeps .record f argument).bind fun _ answered ↦
      (yields_lift fun _ accepted ↦
        List.Subset.trans (Datum.floats_of_acceptRecord accepted ▸ answered) kept).bind
          fun record first ↦ (yields_entryFloats keeps rest).bind fun xs others ↦
            yields_pure ((entryFloats_append record.toList xs).symm ▸
              append_subset_append first others)

end

/-! ### Projection -/

mutual

/-- The reals of the data of a tree are the doubles that stand for its floats. -/
theorem reals_of_project : (v : Value) → {data : Json} → v.project = .ok data →
    data.reals ⊆ v.floats.map Binary.shortDouble
  | number _, data, projected | text _, data, projected | float _, data, projected => by
    cases projected
    exact List.Subset.refl _
  | array items, data, projected => by
    rw [project] at projected
    obtain ⟨parts, found, rfl⟩ := map_eq_ok projected
    exact reals_of_projectItems items found
  | object entries, data, projected => by
    rw [project] at projected
    obtain ⟨members, found, rfl⟩ := map_eq_ok projected
    exact reals_of_projectEntries [] entries found
  | call _ _, data, projected => by cases projected
  | typed _ x, data, projected => reals_of_project x projected

private theorem reals_of_projectItems : (items : List Value) → {parts : List Json} →
    projectItems items = .ok parts →
      Json.itemReals parts ⊆ (itemFloats items).map Binary.shortDouble
  | [], parts, projected => by
    cases projected
    exact List.Subset.refl _
  | item :: rest, parts, projected => by
    rw [projectItems] at projected
    cases first : project item with
    | error fault =>
      rw [first] at projected
      cases projected
    | ok data =>
      rw [first] at projected
      obtain ⟨others, found, rfl⟩ := map_eq_ok projected
      rw [itemFloats, List.map_append]
      exact append_subset_append (reals_of_project item first) (reals_of_projectItems rest found)

private theorem reals_of_projectEntries (before : Table Json) : (entries : List Entry) →
    {members : Table Json} → projectEntries before entries = .ok members →
      Json.memberReals members ⊆
        Json.memberReals before ++ (entryFloats entries).map Binary.shortDouble
  | [], members, projected => by
    cases projected
    exact List.subset_append_left _ _
  | .record id x :: rest, members, projected => by
    rw [projectEntries] at projected
    cases first : project x with
    | error fault =>
      rw [first] at projected
      cases projected
    | ok data =>
      rw [first] at projected
      have added := List.Subset.trans (Json.memberReals_set before id data)
        (append_subset_append (List.Subset.refl _) (reals_of_project x first))
      rw [entryFloats, List.map_append, ← List.append_assoc]
      exact List.Subset.trans (reals_of_projectEntries _ rest projected)
        (append_subset_append added (List.Subset.refl _))
  | .call _ _ :: _, members, projected => by cases projected

end

/-! ### Documents -/

mutual

/-- The floats of a literal tree are those that literals denote. -/
theorem isLiteral_of_mem_floats {x : Single} : (v : Value) → v.isLiteral = true → x ∈ v.floats →
    x.isLiteral = true
  | number _, _, inside | text _, _, inside => by cases inside
  | float _, literal, inside => by
    cases List.mem_singleton.mp inside
    exact literal
  | array items, literal, inside => isLiteral_of_mem_itemFloats items literal inside
  | object entries, literal, inside => isLiteral_of_mem_entryFloats entries literal inside
  | call _ v, literal, inside =>
    isLiteral_of_mem_floats v (Bool.and_eq_true_iff.mp literal).2 inside
  | typed _ _, literal, _ => by cases literal

/-- The floats of literal items are those that literals denote. -/
theorem isLiteral_of_mem_itemFloats {x : Single} : (items : List Value) →
    itemsLiteral items = true → x ∈ itemFloats items → x.isLiteral = true
  | [], _, inside => by cases inside
  | item :: rest, literal, inside => by
    obtain ⟨first, others⟩ := Bool.and_eq_true_iff.mp literal
    obtain inside | inside := List.mem_append.mp inside
    · exact isLiteral_of_mem_floats item first inside
    · exact isLiteral_of_mem_itemFloats rest others inside

/-- The floats of literal entries are those that literals denote. -/
theorem isLiteral_of_mem_entryFloats {x : Single} : (entries : List Entry) →
    entriesLiteral entries = true → x ∈ entryFloats entries → x.isLiteral = true
  | [], _, inside => by cases inside
  | .record _ v :: rest, literal, inside | .call _ v :: rest, literal, inside => by
    obtain ⟨first, others⟩ := Bool.and_eq_true_iff.mp literal
    obtain inside | inside := List.mem_append.mp inside
    · exact isLiteral_of_mem_floats v (Bool.and_eq_true_iff.mp first).2 inside
    · exact isLiteral_of_mem_entryFloats rest others inside

end

end Value

/-- The double that stands for a literal is finite. -/
theorem Binary.isFinite_shortDouble {x : Single} (literal : x.isLiteral = true) :
    x.shortDouble.isFinite = true := by
  cases x with
  | nan => cases literal
  | signed negative rank le =>
    simp only [isLiteral, Bool.and_eq_true, bne_iff_ne] at literal
    obtain ⟨wide, wide_le, finite, same⟩ := exists_shortDouble_eq negative le literal.1.2
    rw [same]
    exact bne_iff_ne.mpr finite

/-! ### The standard functions -/

namespace Standard

private theorem floats_of_toNumber {v : Value} {answer : Datum}
    (answered : toNumber v = .ok answer) : answer.floats ⊆ v.floats := by
  cases v with
  | number n =>
    cases answered
    exact List.Subset.refl _
  | text s =>
    unfold toNumber at answered
    dsimp only at answered
    split at answered
    · cases answered
    · split at answered
      · cases answered
      · next n _ =>
        unfold Value.ofInt at answered
        split at answered <;> cases answered
        exact List.Subset.refl _
  | _ => cases answered

private theorem floats_of_checkVersion {version : Double} {v : Value} {answer : Datum}
    (answered : checkVersion version v = .ok answer) : answer.floats ⊆ v.floats := by
  cases v with
  | float x =>
    rw [checkVersion] at answered
    split at answered <;> cases answered
    exact List.nil_subset _
  | _ => cases answered

/-- A standard function answers with no floats but those of its argument. -/
theorem floats_of_call {function : Standard} {v : Value} {s : DispatchState F M} {answer : Datum}
    (answered : (function.call v s).1 = .ok answer) : answer.floats ⊆ v.floats := by
  cases function with
  | url =>
    cases v with
    | text s =>
      cases answered
      exact List.Subset.refl _
    | _ => cases answered
  | number => exact floats_of_toNumber answered
  | language => exact floats_of_checkVersion answered
  | selection =>
    cases v with
    | object entries =>
      obtain ⟨_, -, rfl⟩ := Value.map_eq_ok answered
      exact List.nil_subset _
    | _ => cases answered

end Standard

/-- With functions of a host that answer with no floats but those of their argument, all functions
of the library do. -/
theorem Callee.keepsFloats_act {host : HostAction H M}
    (keeps : ∀ f v s answer, (host f v s).1 = .ok answer → answer.floats ⊆ v.floats) :
    Host.KeepsFloats (Callee.act host) := by
  intro f v s answer answered
  cases f with
  | standard function => exact Standard.floats_of_call answered
  | host function => exact keeps function v s answer answered

/-- When the functions make no floats, a document that loads has data, which are an object, and all
floating point numbers in them are finite. -/
theorem DispatchState.finite_of_load {state : DispatchState F M} (keeps : host.KeepsFloats)
    {source : String} {v : Value} (loaded : (state.load host source).outcome = .ok (.ok v)) :
    ∃ data, v.project = .ok (.object data) ∧
      ∀ x ∈ (Json.object data).reals, x.isFinite = true := by
  obtain ⟨document, read, evaluated⟩ := load_eq_ok loaded
  obtain ⟨entries, rfl, literal, -⟩ := Document.isLiteral_of_ofSource read
  have resolved := (Value.yields_evaluate host _).of_evaluate evaluated
  obtain ⟨entries', rfl⟩ := state.exists_object_of_evaluate evaluated
  obtain ⟨data, members⟩ := Value.exists_projectEntries [] entries' resolved
  have projected : (Value.object entries').project = .ok (.object data) := by
    rw [Value.project, members]
    rfl
  refine ⟨data, projected, fun x inside ↦ ?_⟩
  obtain ⟨y, ofResult, rfl⟩ := List.mem_map.mp (Value.reals_of_project _ projected inside)
  have ofDocument := (Value.yields_floats keeps _).of_evaluate evaluated ofResult
  exact Binary.isFinite_shortDouble (Value.isLiteral_of_mem_entryFloats entries literal ofDocument)

end Manifest
