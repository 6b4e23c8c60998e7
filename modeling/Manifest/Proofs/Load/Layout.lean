import Manifest.Proofs.Document.Places
import Manifest.Proofs.Load.Failure
import Manifest.Proofs.Token.Spacing

/-!
# Layout does not matter

A load sees of its text the words, and shows of it the places of a failure. Texts with the same
words leave the same state and end in the same way, but for those places (`load_of_words`). The
words of a text may be written out with any layout between them, so that whatever loads, loads with
any layout (`load_laidOut`).
-/

namespace Manifest

/-- The failure without its place in the text. -/
def Failure.unplaced (failure : Failure) : Failure := { failure with span := none, place := none }

/-- The result of a load without the place of a failure. -/
def Loaded.unplaced (loaded : Loaded) : Loaded := loaded.mapError Failure.unplaced

variable {F M : Type}

namespace DispatchState

open Document

-- What is reported of a fault of a text, without the place of a failure.
private def reported (fault : Fault) (source : Option String) : Except Fault Loaded :=
  (if fault.isOwn then (Failure.ofFault fault source).map .error
    else .error fault : Except Fault Loaded).map Loaded.unplaced

private theorem reported_document (fault : DocumentFault) (source : Option String) :
    reported (.document fault) source = reported (.document fault.unplaced) none := by
  cases fault <;> rfl

private theorem reported_eq (fault : Fault) (a b : Option String) :
    reported fault a = reported fault b := by
  cases fault with
  | document fault => rw [reported_document fault a, reported_document fault b]
  | _ => rfl

/-- Texts with the same words leave the same state when they are loaded, and end in the same way
but for the places of failures. -/
theorem load_of_words (state : DispatchState F M) (host : Host F M) {a b : String}
    {ts us : List Token} (scanned : Token.scan a = .ok ts) (scanned' : Token.scan b = .ok us)
    (same : ts.map Token.word = us.map Token.word) :
    (state.load host a).state = (state.load host b).state ∧
      (state.load host a).outcome.map Loaded.unplaced =
        (state.load host b).outcome.map Loaded.unplaced := by
  have read : unplacedResult (ofSource a) = unplacedResult (ofSource b) := by
    rw [ofSource, ofSource, scanned, scanned']
    exact ofTokens_of_words same
  have one := state.load_evaluated host a
  have other := state.load_evaluated host b
  dsimp only at one other
  rw [one.1, one.2, other.1, other.2]
  cases first : ofSource a with
  | ok v =>
    cases second : ofSource b with
    | ok w =>
      rw [first, second] at read
      obtain rfl : v = w := Except.ok.inj read
      refine ⟨rfl, ?_⟩
      dsimp only
      cases (state.evaluate host (.value v)).outcome with
      | ok r => rfl
      | error fault => exact reported_eq fault (some a) (some b)
    | error fault =>
      rw [first, second] at read
      cases read
  | error fault =>
    cases second : ofSource b with
    | ok w =>
      rw [first, second] at read
      cases read
    | error fault' =>
      rw [first, second] at read
      have same : fault.unplaced = fault'.unplaced := Except.error.inj read
      refine ⟨rfl, ?_⟩
      change reported (.document fault) (some a) = reported (.document fault') (some b)
      rw [reported_document fault (some a), reported_document fault' (some b), same]

/-- The words of a text may be written out with any layout between each two of them, and with or
without layout at both ends: the tokens of that text say the same words, and its load leaves the
same state and ends in the same way, but for the places of failures. -/
theorem load_laidOut (state : DispatchState F M) (host : Host F M) {source : String}
    {ts : List Token} {stop : Token} {gap : Nat → List Char}
    (scanned : Token.scan source = .ok (ts ++ [stop]))
    (layout : ∀ i, ∀ c ∈ gap i, Text.isLayout c = true)
    (apart : ∀ i, 0 < i → i < ts.length → gap i ≠ []) :
    let other := String.ofList (Token.laidOut gap 0 (ts.map Token.word))
    (∃ tokens, Token.scan other = .ok tokens ∧
      tokens.map Token.word = (ts ++ [stop]).map Token.word) ∧
      (state.load host other).state = (state.load host source).state ∧
      (state.load host other).outcome.map Loaded.unplaced =
        (state.load host source).outcome.map Loaded.unplaced := by
  intro other
  obtain ⟨ts', same, lexical⟩ := Token.scanFrom_eq_ok scanned
  obtain ⟨rfl, last⟩ := List.append_inj' same rfl
  obtain rfl := List.singleton_inj.mp last
  have words : ∀ w ∈ ts.map Token.word, w.IsLexical := by
    intro w inside
    obtain ⟨t, member, rfl⟩ := List.mem_map.mp inside
    exact lexical t member
  have between : ∀ i, 0 < i → i < 0 + (ts.map Token.word).length → gap i ≠ [] := by
    intro i later within
    rw [List.length_map, Nat.zero_add] at within
    exact apart i later within
  obtain ⟨us, end_, rescanned, spelled⟩ := Token.scanFrom_laidOut 0 words layout between
  have scanned' : Token.scan other = .ok (us ++ [Token.endAt end_]) := by
    rw [Token.scan, String.toList_ofList]
    exact rescanned
  have tokens : (us ++ [Token.endAt end_]).map Token.word =
      (ts ++ [Token.endAt (0 + source.toList.length)]).map Token.word := by
    rw [List.map_append, List.map_append, spelled]
    rfl
  exact ⟨⟨_, scanned', tokens⟩, state.load_of_words host scanned' scanned tokens⟩

private def tally : Host Unit Nat := fun _ argument state ↦
  (.ok (.record "n" argument), { state with memory := state.memory + 1 })

private def tallied (calls : Nat) : DispatchState Unit Nat :=
  .ofLibrary ⟨[], [("n", ())]⟩ .nan calls

private def tight : String := "#n 4a=\"\n\"5"

private def tightTokens : List Token :=
  [⟨.recordMark, "#", ⟨0, 1⟩⟩, ⟨.identifier, "n", ⟨1, 2⟩⟩, ⟨.integer, "4", ⟨3, 4⟩⟩,
    ⟨.identifier, "a", ⟨4, 5⟩⟩, ⟨.assign, "=", ⟨5, 6⟩⟩, ⟨.quoted, "\"\n\"", ⟨6, 9⟩⟩,
    ⟨.integer, "5", ⟨9, 10⟩⟩]

private def spread : String :=
  "\t\u2002#\t\u2002n\t\u20024\t\u2002a\t\u2002=\t\u2002\"\n\"\t\u20025\t\u2002"

/-- Words that touch one another are set apart by a tab and an en space: a call, a record after it,
and a number that stands where an entry is awaited. -/
theorem load_laidOut_spread :
    (∃ tokens, Token.scan spread = .ok tokens ∧
      tokens.map Token.word = (tightTokens ++ [Token.endAt 10]).map Token.word) ∧
      ((tallied 0).load tally spread).state = ((tallied 0).load tally tight).state ∧
      ((tallied 0).load tally spread).outcome.map Loaded.unplaced =
        ((tallied 0).load tally tight).outcome.map Loaded.unplaced := by
  have scanned : Token.scan tight = .ok (tightTokens ++ [Token.endAt 10]) := by decide +kernel
  have layout : ∀ c ∈ ['\t', '\u2002'], Text.isLayout c = true :=
    List.forall_mem_cons.mpr ⟨rfl, List.forall_mem_singleton.mpr rfl⟩
  have text : String.ofList (Token.laidOut (fun _ ↦ ['\t', '\u2002']) 0
      (tightTokens.map Token.word)) = spread := rfl
  rw [← text]
  exact (tallied 0).load_laidOut tally scanned (fun _ ↦ layout) fun _ _ _ ↦ List.cons_ne_nil _ _

end DispatchState
end Manifest
