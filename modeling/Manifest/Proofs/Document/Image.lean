import Manifest.Proofs.Document.Recognition
import Manifest.Proofs.Number.Fraction

/-!
# The trees of documents

A literal tree is one without tags whose numbers are not negative, whose floats are those that a
literal with a point denotes, whose texts hold no quote, and whose records and functions have
names. Every tree that is read is literal and nests no deeper than `maxDepth` levels
(`Reads.fits`).
-/

namespace Manifest

/-- A text that may name a record or a function: at least one character of names, of which the
first is no digit. -/
def Token.isName (s : String) : Bool :=
  match s.toList with
  | [] => false
  | c :: rest => isNameChar c && !Numeral.isAsciiDigit c && rest.all isNameChar

/-- Names are the lexemes of identifiers. -/
theorem Token.isName_iff (s : String) :
    isName s = true ↔ Kind.IsLexeme .identifier s.toList := by
  unfold isName Kind.IsLexeme
  cases s.toList with
  | nil => simp
  | cons c rest => simp [and_assoc]

namespace Value

mutual

/-- Whether a tree is literal. -/
def isLiteral : Value → Bool
  | number n => 0 ≤ n.toInt
  | float x => x.isLiteral
  | text s => !s.toList.contains '"'
  | array items => itemsLiteral items
  | object entries => entriesLiteral entries
  | call f x => Token.isName f && isLiteral x
  | typed _ _ => false

/-- Whether all items are literal. -/
def itemsLiteral : List Value → Bool
  | [] => true
  | item :: rest => isLiteral item && itemsLiteral rest

/-- Whether all entries have names and literal values. -/
def entriesLiteral : List Entry → Bool
  | [] => true
  | .record id x :: rest => Token.isName id && isLiteral x && entriesLiteral rest
  | .call f x :: rest => Token.isName f && isLiteral x && entriesLiteral rest

end

end Value

namespace Document

open Numeral (IsRun valueOf maxDigits)

/-- Whether a part of a tree is literal. -/
def Phrase.isLiteral : Phrase → Bool
  | value v => v.isLiteral
  | entries es => Value.entriesLiteral es
  | items vs => Value.itemsLiteral vs

variable {d : Nat} {p : Phrase} {ts us : List Token}

private theorem Admits.bounds {digits : Token} (admits : Admits digits)
    (run : IsRun digits.lexeme.toList) :
    digits.lexeme.toList.length ≤ maxDigits ∧
      (valueOf digits.lexeme.toList : Int) ≤ maxInteger := by
  obtain ⟨n, read, small⟩ := admits
  rw [Numeral.readInteger_isRun run] at read
  split at read
  · cases read
  · next short =>
    cases read
    exact ⟨Nat.not_lt.mp short, small⟩

private theorem isLiteral_realOf {whole fraction : Token}
    (small : (valueOf whole.lexeme.toList : Int) ≤ maxInteger)
    (after : IsRun fraction.lexeme.toList) : (realOf whole fraction).isLiteral = true := by
  refine Binary.isLiteral_convert_ofDecimal ?_
  rw [Decimal.ratio_fraction, valueOf, Numeral.valueFrom_append, ← valueOf]
  rw [maxInteger] at small
  refine (Numeral.valueFrom_lt after.digits _).le.trans ?_
  exact Nat.mul_le_mul_right _ (by omega)

/-- The content of a quoted text is what its quotes enclose. -/
theorem content_eq {token : Token} {content : List Char}
    (lexeme : token.lexeme.toList = '"' :: (content ++ ['"'])) :
    token.content = String.ofList content := by
  rw [Token.content, lexeme, List.drop_one, List.tail_cons, List.dropLast_concat]

private theorem isLiteral_content {token : Token} (lexical : token.IsLexical)
    (kind : token.kind = .quoted) : (Value.text token.content).isLiteral = true := by
  rw [Token.IsLexical, kind] at lexical
  obtain ⟨content, lexeme, inside⟩ := lexical
  simpa [Value.isLiteral, content_eq lexeme] using inside

private theorem isName_lexeme {token : Token} (lexical : token.IsLexical)
    (kind : token.kind = .identifier) : Token.isName token.lexeme = true := by
  rw [Token.IsLexical, kind] at lexical
  exact (Token.isName_iff _).mpr lexical

/-- What is left are the last of the tokens. -/
theorem Reads.suffix (read : Reads d p ts us) : us <:+ ts := by
  have two (t u : Token) (ts : List Token) : ts <:+ t :: u :: ts :=
    (List.suffix_cons u ts).trans (List.suffix_cons t _)
  induction read with
  | integer | quoted => exact List.suffix_cons _ _
  | real => exact (two _ _ _).trans (List.suffix_cons _ _)
  | object _ _ _ _ ih => exact (List.suffix_cons _ _).trans (ih.trans (List.suffix_cons _ _))
  | array _ _ _ _ ih => exact (List.suffix_cons _ _).trans (ih.trans (List.suffix_cons _ _))
  | call _ _ _ _ ih => exact ih.trans (two _ _ _)
  | record _ _ _ _ valueIh restIh => exact restIh.trans (valueIh.trans (two _ _ _))
  | recordCall _ _ _ _ valueIh restIh => exact restIh.trans (valueIh.trans (two _ _ _))
  | betweenEntries _ _ ih => exact ih.trans (List.suffix_cons _ _)
  | betweenItems _ _ ih => exact ih.trans (List.suffix_cons _ _)
  | item _ _ valueIh restIh => exact restIh.trans valueIh
  | noEntries | noItems => exact List.suffix_refl _

/-- The tokens are lexemes, or closing brackets that the end of the input stands for. -/
def Closable (ts : List Token) : Prop := ∀ t ∈ ts, t.kind ≠ .closeBracket → t.IsLexical

private theorem Closable.suffix (closable : Closable ts) (last : us <:+ ts) : Closable us :=
  fun t inside ↦ closable t (last.subset inside)

private theorem Closable.tail {t : Token} (closable : Closable (t :: ts)) : Closable ts :=
  closable.suffix (List.suffix_cons t ts)

private theorem Closable.head {t : Token} (closable : Closable (t :: ts))
    (other : t.kind ≠ .closeBracket) : t.IsLexical :=
  closable t List.mem_cons_self other

/-- A part of a tree that is literal, and that nests in the levels left when `d` of them are
open. -/
structure Phrase.Fits (d : Nat) (p : Phrase) : Prop where
  literal : p.isLiteral = true
  levels : d + p.nesting ≤ maxDepth

private theorem fits_cons {name : String} {v : Value} {entry : Entry} {es : List Entry}
    (shape : entry = .record name v ∨ entry = .call name v) (named : Token.isName name = true)
    (value : Phrase.Fits d (.value v)) (rest : Phrase.Fits d (.entries es)) :
    Phrase.Fits d (.entries (entry :: es)) := by
  obtain ⟨literal, levels⟩ := value
  obtain ⟨others, levelsRest⟩ := rest
  simp only [Phrase.isLiteral, Phrase.nesting] at literal levels others levelsRest
  have both : d + max v.nesting (Value.entriesNesting es) ≤ maxDepth := by omega
  obtain rfl | rfl := shape
  · exact ⟨by simp [Phrase.isLiteral, Value.entriesLiteral, named, literal, others], both⟩
  · exact ⟨by simp [Phrase.isLiteral, Value.entriesLiteral, named, literal, others], both⟩

/-- What is read from lexemes is literal, and it nests in the levels that were left. -/
theorem Reads.fits (read : Reads d p ts us) (closable : Closable ts) (room : d ≤ maxDepth) :
    p.Fits d := by
  -- What opens a level leaves one less to what is inside it.
  have inside {d n : Nat} (levels : d + 1 + n ≤ maxDepth) : d + (n + 1) ≤ maxDepth := by omega
  induction read with
  | integer kind admits value =>
    have run := (closable.head (by simp [kind])).isRun kind
    obtain ⟨short, small⟩ := admits.bounds run
    rw [integerValue_isRun run short small] at value
    cases value
    refine ⟨?_, room⟩
    rw [maxInteger] at small
    simp only [Phrase.isLiteral, Value.isLiteral, decide_eq_true_eq]
    rw [Int32.toInt_ofInt_of_le (by omega) (by omega)]
    exact Int.natCast_nonneg _
  | real kind admits point fraction value =>
    have run := (closable.head (by simp [kind])).isRun kind
    have after := (closable.tail.tail.head (by simp [fraction])).isRun fraction
    obtain ⟨short, small⟩ := admits.bounds run
    rw [fractionValue_isRun run short after] at value
    cases value
    exact ⟨isLiteral_realOf small after, room⟩
  | quoted kind => exact ⟨isLiteral_content (closable.head (by simp [kind])) kind, room⟩
  | object start free _ stop ih =>
    obtain ⟨literal, levels⟩ := ih closable.tail free
    exact ⟨literal, inside levels⟩
  | array start free _ stop ih =>
    obtain ⟨literal, levels⟩ := ih closable.tail free
    exact ⟨literal, inside levels⟩
  | call mark free name _ ih =>
    have named := isName_lexeme (closable.tail.head (by simp [name])) name
    obtain ⟨literal, levels⟩ := ih closable.tail.tail free
    exact ⟨Bool.and_eq_true_iff.mpr ⟨named, literal⟩, inside levels⟩
  | noEntries => exact ⟨rfl, room⟩
  | record id mark value _ valueIh restIh =>
    have named := isName_lexeme (closable.head (by simp [id])) id
    exact fits_cons (.inl rfl) named (valueIh closable.tail.tail room)
      (restIh (closable.tail.tail.suffix value.suffix) room)
  | recordCall mark name value _ valueIh restIh =>
    have named := isName_lexeme (closable.tail.head (by simp [name])) name
    exact fits_cons (.inr rfl) named (valueIh closable.tail.tail room)
      (restIh (closable.tail.tail.suffix value.suffix) room)
  | betweenEntries _ _ ih => exact ih closable.tail room
  | noItems => exact ⟨rfl, room⟩
  | item value _ valueIh restIh =>
    obtain ⟨literal, levels⟩ := valueIh closable room
    obtain ⟨others, levelsRest⟩ := restIh (closable.suffix value.suffix) room
    refine ⟨Bool.and_eq_true_iff.mpr ⟨literal, others⟩, ?_⟩
    simp only [Phrase.nesting, Value.itemsNesting] at levels levelsRest ⊢
    omega
  | betweenItems _ _ ih => exact ih closable.tail room

/-- The document of a text is literal, and at most so many levels nest in it as may be open. -/
theorem isLiteral_of_ofSource {source : String} {root : Value}
    (read : ofSource source = .ok root) :
    ∃ es, root = .object es ∧ Value.entriesLiteral es = true ∧
      Value.entriesNesting es ≤ maxDepth := by
  rw [ofSource] at read
  cases scanned : Token.scan source with
  | error fault =>
    rw [scanned] at read
    cases read
  | ok tokens =>
    rw [scanned] at read
    obtain ⟨ts, rfl, lexical⟩ := Token.scanFrom_eq_ok scanned
    obtain ⟨closers, es, closing, entries, rfl⟩ :=
      (ofTokens_eq_ok_iff_reads (fun t inside ↦ (lexical t inside).kind_ne) rfl).mp read
    have closable : Closable (ts ++ closers) := by
      intro t inside other
      obtain inside | inside := List.mem_append.mp inside
      · exact lexical t inside
      · exact absurd (closing t inside) other
    obtain ⟨literal, levels⟩ := entries.fits closable (Nat.zero_le _)
    rw [Nat.zero_add] at levels
    exact ⟨es, rfl, literal, levels⟩

end Document
end Manifest
