import Mathlib.Data.List.TakeWhile
import Manifest.Proofs.Token.Written

/-!
# Where scanning stops

Scanning that fails stops at one character, and what is in front of it can be scanned alone
(`scanFrom_eq_error`). The character is a quote that is never closed, or a foreign one, which
stands in no lexeme but a quoted text and separates none (`munch?_eq_none_iff`). A foreign
character stops every text that begins as far; an open quote can still be closed (`scan_eq_error`).
-/

namespace Manifest.Token

open Manifest.Text

/-- The characters that are a lexeme by themselves, but for the line feed. -/
def marks : List Char := [';', '=', '\x7b', '\x7d', '[', ']', '.', '@', '#']

/-- A character that stands between lexemes neither as a blank nor as the start of one. -/
structure Foreign (c : Char) : Prop where
  notBlank : isBlank c = false
  notName : isNameChar c = false
  notMark : c ∉ marks
  notQuote : c ≠ '"'

variable {offset : Nat} {c : Char} {text rest : List Char} {fault : LexFault}

private theorem markKind?_eq_none_iff : markKind? c = none ↔ c ≠ '\n' ∧ c ∉ marks := by
  unfold markKind?
  split <;> simp_all [marks]

private theorem isLayout_iff : isLayout c = true ↔ isBlank c = true ∧ c ≠ '\n' := by
  simp [isLayout]

/-- A foreign character is not layout. -/
theorem Foreign.isLayout (foreign : Foreign c) : isLayout c = false := by
  rw [← Bool.not_eq_true]
  intro layout
  have blank := foreign.notBlank
  rw [isBlank_of_isLayout layout] at blank
  cases blank

/-- A foreign character starts no lexeme. -/
theorem Foreign.munch? (foreign : Foreign c) (rest : List Char) : munch? c rest = none := by
  have line : c ≠ '\n' := by
    rintro rfl
    exact absurd foreign.notBlank (by decide)
  have digit : ¬ Numeral.isAsciiDigit c = true := fun digit ↦ by
    have name := foreign.notName
    rw [isNameChar_of_isAsciiDigit digit] at name
    cases name
  rw [Token.munch?, if_neg digit, if_neg (by simp [foreign.notName]), if_neg foreign.notQuote,
    markKind?_eq_none_iff.mpr ⟨line, foreign.notMark⟩]
  rfl

/-- Where there is no layout, nothing is taken from the front of a text only at a quote that is
never closed and at a foreign character. -/
theorem munch?_eq_none_iff (noLayout : isLayout c = false) :
    munch? c rest = none ↔ (c = '"' ∧ '"' ∉ rest) ∨ Foreign c := by
  constructor
  · intro stuck
    unfold munch? at stuck
    split at stuck
    · cases stuck
    split at stuck
    · cases stuck
    split at stuck
    · next quote =>
      refine .inl ⟨quote, fun inside ↦ ?_⟩
      split at stuck
      · next unclosed => simpa using List.dropWhile_eq_nil_iff.mp unclosed '"' inside
      · cases stuck
    · next _ name quote =>
      obtain ⟨line, mark⟩ := markKind?_eq_none_iff.mp (Option.map_eq_none_iff.mp stuck)
      have notBlank : isBlank c = false := by
        rw [← Bool.not_eq_true]
        intro blank
        rw [isLayout_iff.mpr ⟨blank, line⟩] at noLayout
        cases noLayout
      exact .inr ⟨notBlank, Bool.eq_false_iff.mpr name, mark, quote⟩
  · rintro (⟨rfl, unclosed⟩ | foreign)
    · have run : rest.dropWhile (· != '"') = [] :=
        List.dropWhile_eq_nil_iff.mpr fun x inside ↦
          bne_iff_ne.mpr fun same ↦ unclosed (same ▸ inside)
      rw [munch?, if_neg (by decide), if_neg (by decide), if_pos rfl, run]
    · exact foreign.munch? rest

/-- Scanning that fails takes the tokens of a front of the text and stops at the character after
it, which starts no lexeme. -/
theorem scanFrom_eq_error (failed : scanFrom offset text = .error fault) :
    ∃ before c rest tokens, text = before ++ c :: rest ∧
      scanFrom offset before = .ok (tokens ++ [endAt (offset + before.length)]) ∧
      isLayout c = false ∧ munch? c rest = none ∧
      fault = .unexpected ⟨(offset + before.length : Nat), (offset + before.length : Nat) + 1⟩
        (String.singleton c) := by
  fun_induction scanFrom offset text with
  | case1 offset => cases failed
  | case2 offset c rest layout ih =>
    obtain ⟨before, x, more, tokens, rfl, scanned, noLayout, stuck, rfl⟩ := ih failed
    have place : offset + (c :: before).length = offset + 1 + before.length := by
      rw [List.length_cons, Nat.add_assoc, Nat.add_comm 1]
    refine ⟨c :: before, x, more, tokens, rfl, ?_, noLayout, stuck, by rw [place]⟩
    rw [scanFrom, if_pos layout, scanned, place]
  | case3 offset c rest layout stuck =>
    cases failed
    exact ⟨[], c, rest, [], rfl, by rw [scanFrom]; rfl, Bool.eq_false_iff.mpr layout, stuck, rfl⟩
  | case4 offset c rest layout m found =>
    rename_i after ih
    cases inner : scanFrom after m.rest with
    | ok others =>
      rw [inner] at failed
      cases failed
    | error cause =>
      rw [inner] at failed
      cases failed
      -- The lexeme is cut off in front of the character at fault as it is in the whole text.
      obtain ⟨before, x, more, tokens, whole, scanned, noLayout, stuck, rfl⟩ := ih inner
      have place : offset + (m.lexeme ++ before).length = after + before.length := by
        rw [List.length_append, ← Nat.add_assoc]
      let first : Token := ⟨m.kind, String.ofList m.lexeme, ⟨offset, after⟩⟩
      refine ⟨m.lexeme ++ before, x, more, first :: tokens, ?_, ?_, noLayout, stuck,
        by rw [place]⟩
      · rw [List.append_assoc, ← whole, munch?_append found]
      · rw [scanFrom_munch found ⟨x :: more, whole.symm⟩, scanned, place]
        rfl

private theorem scanFrom_foreign {before : List Char} {tokens : List Token}
    (scanned : scanFrom offset before = .ok (tokens ++ [endAt (offset + before.length)]))
    (foreign : Foreign c) (rest : List Char) :
    scanFrom offset (before ++ c :: rest) =
      .error (.unexpected ⟨(offset + before.length : Nat), (offset + before.length : Nat) + 1⟩
        (String.singleton c)) := by
  have apart : ∀ x ∈ (c :: rest).head?, isNameChar x = false := by
    rintro x ⟨⟩
    exact foreign.notName
  rw [scanFrom_append scanned apart, scanFrom, if_neg (by simp [foreign.isLayout])]
  split
  · rfl
  · next m found =>
    rw [foreign.munch?] at found
    cases found

private theorem scanFrom_close {before : List Char} {tokens : List Token}
    (scanned : scanFrom offset before = .ok (tokens ++ [endAt (offset + before.length)]))
    (unclosed : '"' ∉ rest) :
    let place := offset + before.length
    let quoted := '"' :: (rest ++ ['"'])
    scanFrom offset (before ++ quoted) =
      .ok (tokens ++ [⟨.quoted, String.ofList quoted, ⟨place, (place + quoted.length : Nat)⟩⟩,
        endAt (place + quoted.length)]) := by
  intro place quoted
  have apart : ∀ x ∈ quoted.head?, isNameChar x = false := by
    rintro x ⟨⟩
    decide
  have found : munch? '"' (rest ++ ['"']) = some ⟨.quoted, quoted, []⟩ :=
    munch?_eq_some_iff.mpr ⟨List.append_nil _, ⟨rest, rfl, unclosed⟩, by simp⟩
  rw [scanFrom_append scanned apart, scanFrom_cons (by decide) found, scanFrom]
  rfl

/-- The fault of a text that cannot be cut into tokens is one character of it, and the text before
the character can be cut. Either the character is a quote with no other after it, and one more
quote at the end makes a quoted text of all that follows; or it is foreign, and every text that
begins as far has the same fault. -/
theorem scan_eq_error {source : String} (failed : scan source = .error fault) :
    ∃ (p : Nat) (c : Char) (tokens : List Token),
      fault = .unexpected ⟨p, p + 1⟩ (String.singleton c) ∧ source.toList[p]? = some c ∧
      scan (String.ofList (source.toList.take p)) = .ok (tokens ++ [endAt p]) ∧
      ((c = '"' ∧ '"' ∉ source.toList.drop (p + 1) ∧
          scan (source ++ "\"") = .ok (tokens ++
            [⟨.quoted, String.ofList (source.toList.drop p ++ ['"']),
              ⟨p, (source.length + 1 : Nat)⟩⟩, endAt (source.length + 1)])) ∨
        (Foreign c ∧ ∀ text : String, source.toList.take (p + 1) <+: text.toList →
          scan text = .error fault)) := by
  obtain ⟨before, c, rest, tokens, whole, scanned, noLayout, stuck, rfl⟩ :=
    scanFrom_eq_error failed
  have front : source.toList.take before.length = before := by
    rw [whole, List.take_left]
  have further : source.toList.take (before.length + 1) = before ++ [c] := by
    rw [whole, List.append_cons, List.take_left' (by simp)]
  have after : source.toList.drop (before.length + 1) = rest := by
    rw [whole, List.append_cons, List.drop_left' (by simp)]
  refine ⟨before.length, c, tokens, by rw [Nat.zero_add], ?_, ?_, ?_⟩
  · rw [whole, List.getElem?_append_right (Nat.le_refl _), Nat.sub_self]
    rfl
  · rw [front, scan, String.toList_ofList, scanned, Nat.zero_add]
  · obtain ⟨rfl, unclosed⟩ | foreign := (munch?_eq_none_iff noLayout).mp stuck
    · have length : 0 + before.length + ('"' :: (rest ++ ['"'])).length = source.length + 1 := by
        rw [← String.length_toList, whole]
        simp only [List.length_append, List.length_cons, List.length_nil]
        omega
      have closed : (source ++ "\"").toList = before ++ '"' :: (rest ++ ['"']) := by
        rw [String.toList_append, whole, List.append_assoc]
        rfl
      refine .inl ⟨rfl, by rwa [after], ?_⟩
      rw [scan, closed, scanFrom_close scanned unclosed, length, whole, List.drop_left,
        Nat.zero_add]
      rfl
    · refine .inr ⟨foreign, fun text begins ↦ ?_⟩
      obtain ⟨others, same⟩ := begins
      rw [further, List.append_assoc] at same
      rw [scan, ← same]
      exact scanFrom_foreign scanned foreign others

/-- A sign that is foreign outside of quotes and ordinary inside stops the texts that begin so. -/
theorem scan_eq_error_percent :
    scan "\"%\" %" = .error (.unexpected ⟨4, 5⟩ "%") ∧
      ∀ text : String, "\"%\" %".toList <+: text.toList →
        scan text = .error (.unexpected ⟨4, 5⟩ "%") := by
  have quoted : munch? '"' ['%', '"', ' ', '%'] = some ⟨.quoted, ['"', '%', '"'], [' ', '%']⟩ := by
    decide
  have stuck : scanFrom 4 ['%'] = .error (.unexpected ⟨4, 5⟩ "%") := by
    rw [scanFrom, if_neg (by decide)]
    rfl
  have failed : scan "\"%\" %" = .error (.unexpected ⟨4, 5⟩ "%") := by
    rw [scan, show "\"%\" %".toList = ['"', '%', '"', ' ', '%'] by decide,
      scanFrom_cons (by decide) quoted, scanFrom, if_pos (by decide)]
    exact congrArg (Except.map _) stuck
  refine ⟨failed, ?_⟩
  obtain ⟨p, c, tokens, same, -, -, ⟨rfl, -⟩ | ⟨-, stops⟩⟩ := scan_eq_error failed
  · have found : "%" = String.singleton '"' := congrArg LexFault.found same
    exact absurd found (by decide)
  · have place : (4 : Int) = p := congrArg (fun fault ↦ fault.span.start) same
    obtain rfl : p = 4 := by omega
    exact stops

end Manifest.Token
