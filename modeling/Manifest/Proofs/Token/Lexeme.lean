import Manifest.Proofs.Number.Digits
import Manifest.Token.Scan

/-!
# Lexemes and the tokens of a text

`Kind.IsLexeme` says which texts are lexemes of a kind, without the scanner. Every token of a scan
but the last has a lexeme of its kind, and the last marks the end of the text (`scanFrom_eq_ok`).

Scanning goes on where it stopped: a text whose tokens are known may be followed by any other that
does not go on with a character of names, and the tokens of both follow one another
(`scanFrom_append`).
-/

namespace Manifest.Token

open Manifest.Text

/-- The texts that are lexemes of a kind. The end of the input has none. -/
def Kind.IsLexeme (kind : Kind) (text : List Char) : Prop :=
  match kind with
  | .integer => Numeral.IsRun text
  | .identifier => ∃ first rest, text = first :: rest ∧ isNameChar first = true ∧
      Numeral.isAsciiDigit first = false ∧ ∀ c ∈ rest, isNameChar c = true
  | .quoted => ∃ content, text = '"' :: (content ++ ['"']) ∧ '"' ∉ content
  | mark => ∃ c, text = [c] ∧ markKind? c = some mark

/-- A token with a lexeme of its kind. -/
def IsLexical (token : Token) : Prop := token.kind.IsLexeme token.lexeme.toList

/-- No mark ends the input. -/
theorem markKind?_ne_endOfInput (c : Char) : markKind? c ≠ some .endOfInput := by
  unfold markKind?
  split <;> simp

/-- A token with a lexeme does not end the input. -/
theorem IsLexical.kind_ne {token : Token} (h : token.IsLexical) : token.kind ≠ .endOfInput := by
  intro ended
  rw [IsLexical, ended] at h
  obtain ⟨c, _, mark⟩ := h
  exact markKind?_ne_endOfInput c mark

/-- A whole number is a run of digits. -/
theorem IsLexical.isRun {token : Token} (h : token.IsLexical) (kind : token.kind = .integer) :
    Numeral.IsRun token.lexeme.toList := by
  rwa [IsLexical, kind] at h

/-- The kinds of marks. -/
theorem isLexeme_of_markKind? {c : Char} {kind : Kind} (h : markKind? c = some kind) :
    kind.IsLexeme [c] := by
  have shape : kind ≠ .integer ∧ kind ≠ .identifier ∧ kind ≠ .quoted := by
    unfold markKind? at h
    split at h <;> cases h <;> decide
  unfold Kind.IsLexeme
  split
  · exact absurd rfl shape.1
  · exact absurd rfl shape.2.1
  · exact absurd rfl shape.2.2
  · exact ⟨c, rfl, h⟩

/-- What is taken from the front of a text is a lexeme of its kind. -/
theorem isLexeme_of_munch? {c : Char} {rest : List Char} {m : Munch}
    (h : munch? c rest = some m) : m.kind.IsLexeme m.lexeme := by
  unfold munch? at h
  split at h
  · next digit =>
    cases h
    refine ⟨List.cons_ne_nil _ _, ?_⟩
    intro d hd
    obtain rfl | inRun := List.mem_cons.mp hd
    · exact digit
    · exact List.all_eq_true.mp List.all_takeWhile d inRun
  split at h
  · next digit name =>
    cases h
    exact ⟨c, _, rfl, name, Bool.eq_false_iff.mpr digit,
      List.all_eq_true.mp List.all_takeWhile⟩
  split at h
  · next quote =>
    split at h
    · cases h
    · next close after tail =>
      cases h
      have closed : close = '"' := by
        have := List.head?_dropWhile_not (· != '"') rest
        rw [tail] at this
        simpa using this
      refine ⟨rest.takeWhile (· != '"'), by rw [quote, closed], fun inside ↦ ?_⟩
      have := List.all_eq_true.mp List.all_takeWhile _ inside
      simp at this
  · obtain ⟨kind, mark, rfl⟩ := Option.map_eq_some_iff.mp h
    exact isLexeme_of_markKind? mark

/-- Scanning takes a lexeme from the front of a text. -/
theorem scanFrom_cons {offset : Nat} {c : Char} {rest : List Char} {m : Munch}
    (noLayout : ¬ isLayout c = true) (found : munch? c rest = some m) :
    scanFrom offset (c :: rest) = (scanFrom (offset + m.lexeme.length) m.rest).map
      (⟨m.kind, String.ofList m.lexeme, ⟨offset, (offset + m.lexeme.length : Nat)⟩⟩ :: ·) := by
  rw [scanFrom, if_neg noLayout]
  split
  · next none =>
    rw [found] at none
    cases none
  · next n some =>
    obtain rfl := Option.some.inj (found.symm.trans some)
    rfl

/-- The tokens of a text: lexemes, and the end at the length of the text. -/
theorem scanFrom_eq_ok {offset : Nat} {text : List Char} {tokens : List Token}
    (h : scanFrom offset text = .ok tokens) :
    ∃ ts, tokens = ts ++ [endAt (offset + text.length)] ∧ ∀ t ∈ ts, t.IsLexical := by
  fun_induction scanFrom offset text generalizing tokens with
  | case1 offset =>
    cases h
    exact ⟨[], rfl, by simp⟩
  | case2 offset c rest layout ih =>
    obtain ⟨ts, rfl, lexical⟩ := ih h
    exact ⟨ts, by rw [List.length_cons, Nat.add_assoc, Nat.add_comm 1], lexical⟩
  | case3 offset c rest layout none => cases h
  | case4 offset c rest layout m found =>
    rename_i after ih
    cases scanned : scanFrom after m.rest with
    | error fault =>
      rw [scanned] at h
      cases h
    | ok others =>
      rw [scanned] at h
      cases h
      obtain ⟨ts, rfl, lexical⟩ := ih scanned
      have whole := congrArg List.length (munch?_append found)
      rw [List.length_append] at whole
      refine ⟨_ :: ts, by rw [← whole, ← Nat.add_assoc]; rfl, ?_⟩
      intro t ht
      obtain rfl | later := List.mem_cons.mp ht
      · rw [IsLexical, String.toList_ofList]
        exact isLexeme_of_munch? found
      · exact lexical t later

/-- A lexeme stays as it is when the text goes on with a character that is not one of names. -/
theorem munch?_append_right {c : Char} {rest more : List Char} {m : Munch}
    (h : munch? c rest = some m) (stop : ∀ x ∈ more.head?, isNameChar x = false) :
    munch? c (rest ++ more) = some { m with rest := m.rest ++ more } := by
  have noDigit : ∀ x ∈ more.head?, Numeral.isAsciiDigit x = false := by
    intro x hx
    have := stop x hx
    simp only [isNameChar, Bool.or_eq_false_iff] at this
    exact this.1.1.1.1
  unfold munch? at h ⊢
  split at h
  · next digit =>
    cases h
    have run := Numeral.takeWhile_append_stop noDigit rest
    rw [if_pos digit, run.1, run.2]
  split at h
  · next digit name =>
    cases h
    have run := Numeral.takeWhile_append_stop stop rest
    rw [if_neg digit, if_pos name, run.1, run.2]
  split at h
  · next digit name quote =>
    rw [if_neg digit, if_neg name, if_pos quote]
    split at h
    · cases h
    · next close after tail =>
      cases h
      have whole := List.takeWhile_append_dropWhile (p := (· != '"')) (l := rest)
      have inside : ¬ (rest.takeWhile (· != '"')).length = rest.length := by
        have := congrArg List.length whole
        rw [List.length_append, tail, List.length_cons] at this
        omega
      rw [List.dropWhile_append, List.takeWhile_append, tail, if_neg inside]
      simp
  · next digit name quote =>
    obtain ⟨kind, mark, rfl⟩ := Option.map_eq_some_iff.mp h
    rw [if_neg digit, if_neg name, if_neg quote, mark]
    rfl

/-- The tokens of a text that goes on with another are those of the first and then those of the
other, unless the other starts with a character of names. -/
theorem scanFrom_append {offset : Nat} {text more : List Char} {ts : List Token} {stop : Token}
    (scanned : scanFrom offset text = .ok (ts ++ [stop]))
    (apart : ∀ x ∈ more.head?, isNameChar x = false) :
    scanFrom offset (text ++ more) = (scanFrom (offset + text.length) more).map (ts ++ ·) := by
  fun_induction scanFrom offset text generalizing ts with
  | case1 offset =>
    obtain ⟨rfl, -⟩ := (List.append_eq_singleton_iff.mp (Except.ok.inj scanned).symm).resolve_right
      (by simp)
    change scanFrom offset more = (scanFrom offset more).map ([] ++ ·)
    cases scanFrom offset more <;> rfl
  | case2 offset c rest layout ih =>
    rw [List.cons_append, scanFrom, if_pos layout, ih scanned, List.length_cons, Nat.add_assoc,
      Nat.add_comm 1]
  | case3 offset c rest layout none => cases scanned
  | case4 offset c rest layout m found =>
    rename_i after ih
    have longer := munch?_append_right found apart
    have whole := congrArg List.length (munch?_append found)
    rw [List.length_append] at whole
    cases inner : scanFrom after m.rest with
    | error fault =>
      rw [inner] at scanned
      cases scanned
    | ok others =>
      obtain ⟨os, rfl, -⟩ := scanFrom_eq_ok inner
      rw [inner, Except.map, Except.ok.injEq, ← List.cons_append] at scanned
      obtain ⟨rfl, last⟩ := List.append_inj' scanned rfl
      rw [← List.singleton_inj.mp last] at ih
      rw [List.cons_append, scanFrom_cons layout longer]
      dsimp only
      rw [ih inner, ← whole, ← Nat.add_assoc]
      change ((scanFrom (after + m.rest.length) more).map _).map _ = _
      cases scanFrom (after + m.rest.length) more <;> rfl

end Manifest.Token
