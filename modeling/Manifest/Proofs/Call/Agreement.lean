import Mathlib.Data.List.TFAE
import Manifest.Call.Site
import Manifest.Proofs.Call.Search
import Manifest.Value.Projection

/-!
# Three walks that meet the same calls

Whether a tree has calls is seen by the search for one, by the listing of its sites and by its
projection to plain data. They agree on it: a tree without sites is resolved
(`Value.sitesAt_eq_nil_iff`), and projecting goes through the tree in the order of the sites, up to
the first of them (`Value.heeds_project`).
-/

namespace Manifest.Value

/-- A walk heeds the calls in its way: it ends well if there are none, and fails for the first. -/
inductive Heeds {α : Type} : List CallSite → Except Fault α → Prop
  | none (a : α) : Heeds [] (.ok a)
  | first (site : CallSite) (others : List CallSite) :
    Heeds (site :: others) (.error (.unresolved site.name))

/-- What is made of the result of a walk does not change what it heeds. -/
theorem Heeds.map {α β : Type} {sites : List CallSite} {outcome : Except Fault α}
    (heeds : Heeds sites outcome) (f : α → β) : Heeds sites (outcome.map f) := by
  cases heeds with
  | none a => exact .none (f a)
  | first site others => exact .first site others

/-! ### Projection -/

mutual

/-- Projecting a tree heeds its calls. -/
theorem heeds_project (path : String) : (v : Value) → Heeds (v.sitesAt path) v.project
  | number _ | float _ | text _ => .none _
  | array items => (heeds_projectItems path 0 items).map Json.array
  | object entries => (heeds_projectEntries path [] entries).map Json.object
  | call f _ => .first ⟨.value, f, path⟩ _
  | typed _ x => heeds_project path x

/-- Projecting items heeds their calls. -/
theorem heeds_projectItems (path : String) (index : Nat) :
    (items : List Value) → Heeds (itemSites path index items) (projectItems items)
  | [] => .none _
  | item :: rest => by
    have first := heeds_project (itemPath path index) item
    have others := heeds_projectItems path (index + 1) rest
    rw [itemSites, projectItems]
    generalize item.sitesAt (itemPath path index) = sites at first ⊢
    generalize item.project = outcome at first ⊢
    cases first with
    | none data => exact others.map (data :: ·)
    | first site later => exact .first site _

/-- Projecting entries heeds their calls. -/
theorem heeds_projectEntries (path : String) (before : Table Json) :
    (entries : List Entry) → Heeds (entrySites path entries) (projectEntries before entries)
  | [] => .none _
  | .record id x :: rest => by
    have first := heeds_project (joinPath path id) x
    have others (data : Json) := heeds_projectEntries path (before.set id data) rest
    rw [entrySites, projectEntries]
    generalize x.sitesAt (joinPath path id) = sites at first ⊢
    generalize x.project = outcome at first ⊢
    cases first with
    | none data => exact others data
    | first site later => exact .first site _
  | .call f _ :: _ => .first ⟨.record, f, path⟩ _

end

/-! ### Resolved trees -/

mutual

/-- A tree has no sites when it is resolved. -/
theorem sitesAt_eq_nil_iff (path : String) :
    (v : Value) → (v.sitesAt path = [] ↔ v.isResolved = true)
  | number _ | float _ | text _ => by simp [sitesAt, isResolved]
  | array items => itemSites_eq_nil_iff path 0 items
  | object entries => entrySites_eq_nil_iff path entries
  | call _ _ => by simp [sitesAt, isResolved]
  | typed _ x => sitesAt_eq_nil_iff path x

/-- Items have no sites when they are resolved. -/
theorem itemSites_eq_nil_iff (path : String) (index : Nat) :
    (items : List Value) → (itemSites path index items = [] ↔ itemsResolved items = true)
  | [] => by simp [itemSites, itemsResolved]
  | item :: rest => by
    rw [itemSites, List.append_eq_nil_iff, sitesAt_eq_nil_iff _ item,
      itemSites_eq_nil_iff path (index + 1) rest, itemsResolved, Bool.and_eq_true]

/-- Entries have no sites when they are records of resolved values. -/
theorem entrySites_eq_nil_iff (path : String) :
    (entries : List Entry) → (entrySites path entries = [] ↔ entriesResolved entries = true)
  | [] => by simp [entrySites, entriesResolved]
  | .record _ x :: rest => by
    rw [entrySites, List.append_eq_nil_iff, sitesAt_eq_nil_iff _ x,
      entrySites_eq_nil_iff path rest, entriesResolved, Bool.and_eq_true]
  | .call _ _ :: _ => by simp [entrySites, entriesResolved]

end

/-- The three walks agree on whether a tree has calls: the search finds none, no site is listed,
and projecting the tree does not fail for a call, in which case it does not fail at all. Where it
fails, it does so for the function of the first site. -/
theorem sites_eq_nil_tfae (v : Value) :
    [Datum.findCall? [.value v] = none, v.sites = [],
      ∀ name, v.project ≠ .error (.unresolved name),
        ∃ data, v.project = .ok data].TFAE ∧
      ∀ name, v.project = .error (.unresolved name) →
        ∃ site others, v.sites = site :: others ∧ site.name = name := by
  have searched : Datum.findCall? [.value v] = none ↔ v.sites = [] := by
    rw [Datum.findCall?_eq_none_iff, List.forall_mem_singleton]
    exact (sitesAt_eq_nil_iff "" v).symm
  have projected := heeds_project "" v
  rw [searched]
  change Heeds v.sites v.project at projected
  generalize v.sites = sites at projected
  generalize v.project = outcome at projected
  cases projected with
  | none data => simp
  | first site others =>
    refine ⟨?_, ?_⟩
    · simp
    · intro name failed
      cases failed
      exact ⟨site, others, rfl, rfl⟩

private def calling : Value :=
  .object [.record "a" (.array [.number 1, .typed "k" (.call "f" (.call "g" (.text "s")))]),
    .call "h" (.object [])]

/-- Projecting a tree fails for the call that is written first, though it is made after another. -/
theorem sites_eq_nil_tfae_calling :
    calling.project = .error (.unresolved "f") ∧
      ∃ site others, calling.sites = site :: others ∧ site.name = "f" :=
  ⟨rfl, calling.sites_eq_nil_tfae.2 "f" rfl⟩

end Manifest.Value
