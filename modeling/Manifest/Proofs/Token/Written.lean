import Manifest.Proofs.Token.Tiling

/-!
# Words and the texts they are written in

A word is what a token says wherever it stands: a kind and a lexeme. Words that are written out
with a space before each are the words of the tokens that are scanned from there
(`scanFrom_written`), and what a text says is put together from its front (`Spells`). The tokens of
a text that stand before another can be scanned alone (`scanFrom_front`), so that any words can be
written after them (`exists_scan_written`).
-/

namespace Manifest

open Manifest.Text

/-- A kind and a lexeme. -/
structure Word where
  kind : Token.Kind
  lexeme : String
deriving DecidableEq, Repr

/-- The lexeme of a word is one of its kind. -/
def Word.IsLexical (word : Word) : Prop := word.kind.IsLexeme word.lexeme.toList

namespace Token

/-- What a token says wherever it stands. -/
def word (token : Token) : Word := ⟨token.kind, token.lexeme⟩

/-- A token says a word when it has its kind and its lexeme. -/
theorem word_eq_iff {token : Token} {w : Word} :
    token.word = w ↔ token.kind = w.kind ∧ token.lexeme = w.lexeme := by
  cases w
  exact Word.mk.injEq .. ▸ Iff.rfl

/-- A mark is a word of one character. -/
theorem isLexical_mark {kind : Kind} {lexeme : String} {c : Char} (one : lexeme.toList = [c])
    (mark : markKind? c = some kind) : Word.IsLexical ⟨kind, lexeme⟩ := by
  rw [Word.IsLexical, one]
  exact isLexeme_of_markKind? mark

/-- Words that are written out, with a space before each. -/
def written (words : List Word) : List Char := words.flatMap fun w ↦ ' ' :: w.lexeme.toList

variable {offset : Nat} {w : Word} {words : List Word} {text rest : List Char}
  {before after : List Token} {t : Token}

/-! ### Scanning what is written -/

/-- Layout has no tokens. -/
theorem scanFrom_layout {gap : List Char} (layout : ∀ c ∈ gap, isLayout c = true) :
    scanFrom offset (gap ++ rest) = scanFrom (offset + gap.length) rest := by
  induction gap generalizing offset with
  | nil => rfl
  | cons c gap ih =>
    obtain ⟨first, others⟩ := List.forall_mem_cons.mp layout
    rw [List.cons_append, scanFrom, if_pos first, ih others, List.length_cons, Nat.add_assoc,
      Nat.add_comm 1]

/-- A lexeme has at least one character. -/
theorem Kind.IsLexeme.ne_nil {kind : Kind} (lexeme : kind.IsLexeme text) : text ≠ [] := by
  rintro rfl
  cases kind with
  | integer => exact lexeme.nonempty rfl
  | _ => simp [Kind.IsLexeme] at lexeme

/-- A lexeme that the text does not go on with is scanned as one token. -/
theorem scanFrom_lexeme (offset : Nat) (lexical : w.IsLexical)
    (stop : ∀ x ∈ rest.head?, w.kind.goesOn x = false) :
    scanFrom offset (w.lexeme.toList ++ rest) =
      (scanFrom (offset + w.lexeme.toList.length) rest).map
        (⟨w.kind, w.lexeme, ⟨offset, (offset + w.lexeme.toList.length : Nat)⟩⟩ :: ·) := by
  cases whole : w.lexeme.toList ++ rest with
  | nil => exact absurd (List.append_eq_nil_iff.mp whole).1 lexical.ne_nil
  | cons c others =>
    have found : munch? c others = some ⟨w.kind, w.lexeme.toList, rest⟩ :=
      munch?_eq_some_iff.mpr ⟨whole, lexical, stop⟩
    have noLayout : ¬ isLayout c = true := by
      intro layout
      rw [munch?_of_isLayout layout] at found
      cases found
    rw [scanFrom_cons noLayout found, String.ofList_toList]

/-- What is no character of names goes on with no lexeme. -/
theorem goesOn_of_isNameChar {c : Char} (h : isNameChar c = false) (kind : Kind) :
    kind.goesOn c = false := by
  cases kind with
  | integer =>
    simp only [isNameChar, Bool.or_eq_false_iff] at h
    exact h.1.1.1.1
  | identifier => exact h
  | _ => rfl

/-- A lexeme stops where words are written after it. -/
theorem goesOn_written (kind : Kind) (words : List Word) :
    ∀ x ∈ (written words).head?, kind.goesOn x = false := by
  cases words with
  | nil => simp [written]
  | cons w words => simpa [written] using goesOn_of_isNameChar (c := ' ') rfl kind

/-- Words that are written out are the words of the tokens that are scanned. -/
theorem scanFrom_written (offset : Nat) (lexical : ∀ w ∈ words, w.IsLexical) :
    ∃ ts, scanFrom offset (written words) = .ok (ts ++ [endAt (offset + (written words).length)]) ∧
      ts.map word = words := by
  induction words generalizing offset with
  | nil => exact ⟨[], by simp [written, scanFrom], rfl⟩
  | cons w words ih =>
    obtain ⟨first, others⟩ := List.forall_mem_cons.mp lexical
    have text : written (w :: words) = [' '] ++ (w.lexeme.toList ++ written words) := by
      simp [written]
    obtain ⟨ts, scanned, same⟩ := ih (offset + 1 + w.lexeme.toList.length) others
    have space : ∀ c ∈ [' '], isLayout c = true := List.forall_mem_singleton.mpr (by decide)
    let span : Span := ⟨(offset + 1 : Nat), (offset + 1 + w.lexeme.toList.length : Nat)⟩
    refine ⟨⟨w.kind, w.lexeme, span⟩ :: ts, ?_, congrArg (w :: ·) same⟩
    rw [text, scanFrom_layout space, List.length_singleton,
      scanFrom_lexeme _ first (goesOn_written w.kind words), scanned, List.length_append,
      List.length_append, List.length_singleton, ← Nat.add_assoc, ← Nat.add_assoc]
    rfl

/-- The text is cut, from the offset on, into tokens that say the words. -/
def Spells (offset : Nat) (text : List Char) (words : List Word) : Prop :=
  ∃ ts stop, scanFrom offset text = .ok (ts ++ [endAt stop]) ∧ ts.map word = words

/-- The empty text says nothing. -/
theorem spells_nil (offset : Nat) : Spells offset [] [] := ⟨[], offset, by rw [scanFrom]; rfl, rfl⟩

/-- Words that are written out are said. -/
theorem spells_written (offset : Nat) (lexical : ∀ w ∈ words, w.IsLexical) :
    Spells offset (written words) words := by
  obtain ⟨ts, scanned, same⟩ := scanFrom_written offset lexical
  exact ⟨ts, _, scanned, same⟩

/-- Layout in front adds nothing to what a text says. -/
theorem Spells.layout {gap : List Char} (spells : Spells (offset + gap.length) rest words)
    (layout : ∀ c ∈ gap, isLayout c = true) : Spells offset (gap ++ rest) words := by
  obtain ⟨ts, stop, scanned, same⟩ := spells
  exact ⟨ts, stop, (scanFrom_layout layout).trans scanned, same⟩

/-- A lexeme that the text does not go on with is the first word said. -/
theorem Spells.lexeme (spells : Spells (offset + w.lexeme.toList.length) rest words)
    (lexical : w.IsLexical) (stop : ∀ x ∈ rest.head?, w.kind.goesOn x = false) :
    Spells offset (w.lexeme.toList ++ rest) (w :: words) := by
  obtain ⟨ts, last, scanned, same⟩ := spells
  let span : Span := ⟨offset, (offset + w.lexeme.toList.length : Nat)⟩
  refine ⟨⟨w.kind, w.lexeme, span⟩ :: ts, last, ?_, congrArg (w :: ·) same⟩
  rw [scanFrom_lexeme offset lexical stop, scanned]
  rfl

/-! ### The front of a text -/

/-- A lexeme is taken as well from a front of the text that holds it. -/
theorem scanFrom_munch {c : Char} {m : Munch} {front : List Char} (found : munch? c rest = some m)
    (within : front <+: m.rest) :
    scanFrom offset (m.lexeme ++ front) = (scanFrom (offset + m.lexeme.length) front).map
      (⟨m.kind, String.ofList m.lexeme, ⟨offset, (offset + m.lexeme.length : Nat)⟩⟩ :: ·) := by
  obtain ⟨-, lexeme, stop⟩ := munch?_eq_some_iff.mp found
  have lexical : Word.IsLexical ⟨m.kind, String.ofList m.lexeme⟩ := by
    rwa [Word.IsLexical, String.toList_ofList]
  have stays : ∀ x ∈ front.head?, m.kind.goesOn x = false := by
    intro x first
    refine stop x ?_
    obtain ⟨others, same⟩ := within
    cases front with
    | nil => cases first
    | cons y front => rwa [← same]
  have split := scanFrom_lexeme offset lexical stays
  rwa [String.toList_ofList] at split

/-- The tokens of a text before one of them are all the tokens of a front of the text. -/
theorem scanFrom_front (scanned : scanFrom offset text = .ok (before ++ t :: after)) :
    ∃ front, front <+: text ∧
      scanFrom offset front = .ok (before ++ [endAt (offset + front.length)]) := by
  fun_induction scanFrom offset text generalizing before with
  | case1 offset =>
    have alone := (List.append_eq_singleton_iff.mp (Except.ok.inj scanned).symm).resolve_right
      (by simp)
    exact ⟨[], List.nil_prefix, by rw [alone.1, scanFrom]; rfl⟩
  | case2 offset c rest layout ih =>
    obtain ⟨front, within, alone⟩ := ih scanned
    refine ⟨c :: front, List.cons_prefix_cons.mpr ⟨rfl, within⟩, ?_⟩
    rw [scanFrom, if_pos layout, alone, List.length_cons, Nat.add_assoc, Nat.add_comm 1]
  | case3 offset c rest layout none => cases scanned
  | case4 offset c rest layout m found =>
    rename_i next ih
    cases before with
    | nil => exact ⟨[], List.nil_prefix, by rw [scanFrom]; rfl⟩
    | cons b before =>
      cases inner : scanFrom next m.rest with
      | error fault =>
        rw [inner] at scanned
        cases scanned
      | ok others =>
        rw [inner] at scanned
        cases scanned
        obtain ⟨front, within, alone⟩ := ih inner
        have whole := munch?_append found
        refine ⟨m.lexeme ++ front, whole ▸ (List.prefix_append_right_inj _).mpr within, ?_⟩
        rw [scanFrom_munch found within, alone, List.length_append, ← Nat.add_assoc]
        rfl

/-- Any words can be written after the tokens of a text that stand before one of them. -/
theorem exists_scan_written {source : String} (scanned : scan source = .ok (before ++ t :: after))
    (lexical : ∀ w ∈ words, w.IsLexical) :
    ∃ source' ts stop, scan source' = .ok (before ++ (ts ++ [stop])) ∧ ts.map word = words ∧
      stop.kind = .endOfInput := by
  obtain ⟨front, -, alone⟩ := scanFrom_front scanned
  obtain ⟨ts, others, same⟩ := scanFrom_written (0 + front.length) lexical
  have apart : ∀ x ∈ (written words).head?, isNameChar x = false :=
    goesOn_written .identifier words
  refine ⟨String.ofList (front ++ written words), ts,
    endAt (0 + front.length + (written words).length), ?_, same, rfl⟩
  rw [scan, String.toList_ofList, scanFrom_append alone apart, others]
  rfl

end Token
end Manifest
