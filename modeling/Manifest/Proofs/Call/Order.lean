import Manifest.Call.Site

/-!
# Two orders of the calls of a tree

The sites of a tree and its dispatches are the same calls. They differ in order only: a site comes
before those of its argument, a dispatch after them.
-/

namespace Manifest.Value

mutual

private theorem map_sitesAt_perm (path : String) :
    (v : Value) → ((v.sitesAt path).map CallSite.dispatch).Perm v.dispatches
  | number _ | float _ | text _ => .nil
  | array items => map_itemSites_perm path 0 items
  | object entries => map_entrySites_perm path entries
  | call f x => by
    have argument := map_sitesAt_perm path x
    exact (argument.cons ⟨.value, f⟩).trans (List.perm_append_singleton _ _).symm
  | typed _ x => map_sitesAt_perm path x

private theorem map_itemSites_perm (path : String) (index : Nat) :
    (items : List Value) →
      ((itemSites path index items).map CallSite.dispatch).Perm (itemDispatches items)
  | [] => .nil
  | item :: rest => by
    have first := map_sitesAt_perm (itemPath path index) item
    have others := map_itemSites_perm path (index + 1) rest
    rw [itemSites, List.map_append]
    exact first.append others

private theorem map_entrySites_perm (path : String) :
    (entries : List Entry) →
      ((entrySites path entries).map CallSite.dispatch).Perm (entryDispatches entries)
  | [] => .nil
  | .record id x :: rest => by
    have first := map_sitesAt_perm (joinPath path id) x
    have others := map_entrySites_perm path rest
    rw [entrySites, List.map_append]
    exact first.append others
  | .call f x :: rest => by
    have argument := map_sitesAt_perm path x
    have others := map_entrySites_perm path rest
    rw [entrySites, List.map_cons, List.map_append]
    exact ((argument.append others).cons ⟨.record, f⟩).trans List.perm_middle.symm

end

/-- The dispatches of a tree are the calls of its sites, in another order. -/
theorem map_sites_perm (v : Value) : (v.sites.map CallSite.dispatch).Perm v.dispatches :=
  map_sitesAt_perm "" v

end Manifest.Value
