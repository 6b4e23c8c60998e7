import Manifest.Proofs.Document.Image
import Manifest.Proofs.Token.Written

/-!
# Printing documents

A tree is printed as words with spaces between them: a float with all its decimal places, and every
other value in its one notation. The tokens of a literal tree derive it (`derived_words`), and a
text that spells its words in any layout is read as the tree (`ofSource_of_spells`), as what is
printed does (`ofSource_print`). The trees of documents are therefore exactly the literal ones that
do not nest too deep (`exists_ofSource_iff`).
-/

namespace Manifest

open Numeral (IsRun valueOf maxDigits)

/-- The words of a number with a point. -/
def Binary.words (x : Single) : List Word :=
  [⟨.integer, String.ofList (Numeral.ofNat x.wholePart)⟩, ⟨.point, "."⟩,
    ⟨.integer, String.ofList (Numeral.padded places x.fractionPart)⟩]

namespace Value

mutual

/-- The words of a tree. A tag has none. -/
def words : Value → List Word
  | number n => [⟨.integer, String.ofList (Numeral.ofNat n.toInt.toNat)⟩]
  | float x => x.words
  | text s => [⟨.quoted, String.ofList ('"' :: (s.toList ++ ['"']))⟩]
  | array items => ⟨.openBracket, "["⟩ :: (itemWords items ++ [⟨.closeBracket, "]"⟩])
  | object entries => ⟨.openBrace, "\x7b"⟩ :: (entryWords entries ++ [⟨.closeBrace, "\x7d"⟩])
  | call f x => ⟨.valueMark, "@"⟩ :: ⟨.identifier, f⟩ :: words x
  | typed _ x => words x

/-- The words of items. -/
def itemWords : List Value → List Word
  | [] => []
  | item :: rest => words item ++ itemWords rest

/-- The words of entries. -/
def entryWords : List Entry → List Word
  | [] => []
  | .record id x :: rest => ⟨.identifier, id⟩ :: ⟨.assign, "="⟩ :: (words x ++ entryWords rest)
  | .call f x :: rest => ⟨.recordMark, "#"⟩ :: ⟨.identifier, f⟩ :: (words x ++ entryWords rest)

end

end Value

/-- The text of a document with these entries. -/
def Document.print (entries : List Entry) : String :=
  String.ofList (Token.written (Value.entryWords entries))

/-! ### The words are lexemes -/

/-- A word that is a lexeme, and can be read if it is a run of digits. -/
structure Word.Readable (word : Word) : Prop where
  lexical : word.IsLexical
  short : word.kind = .integer → word.lexeme.toList.length ≤ maxDigits

namespace Value

private theorem readable_mark {kind : Token.Kind} {lexeme : String} {c : Char}
    (one : lexeme.toList = [c]) (mark : Token.markKind? c = some kind) :
    Word.Readable ⟨kind, lexeme⟩ := by
  refine ⟨Token.isLexical_mark one mark, fun _ ↦ ?_⟩
  rw [one, List.length_singleton]
  decide

private theorem readable_digits {digits : List Char} (run : IsRun digits)
    (short : digits.length ≤ maxDigits) : Word.Readable ⟨.integer, String.ofList digits⟩ := by
  refine ⟨?_, fun _ ↦ ?_⟩
  · rw [Word.IsLexical, String.toList_ofList]
    exact run
  · rwa [String.toList_ofList]

private theorem readable_ofNat {n : Nat} (small : n ≤ 0x7fffffff) :
    Word.Readable ⟨.integer, String.ofList (Numeral.ofNat n)⟩ := by
  refine readable_digits (Numeral.isRun_ofNat n) ?_
  rw [Numeral.length_ofNat]
  have width : Numeral.width n ≤ 10 := Numeral.width_le (by decide) (by omega)
  exact width.trans (by decide)

private theorem readable_padded (n : Nat) :
    Word.Readable ⟨.integer, String.ofList (Numeral.padded Binary.places n)⟩ := by
  have length := Numeral.length_padded Binary.places n
  refine readable_digits ⟨?_, Numeral.isAsciiDigit_padded Binary.places n⟩ ?_
  · exact List.ne_nil_of_length_pos (by rw [length]; decide)
  · rw [length]
    decide

private theorem readable_name {name : String} (named : Token.isName name = true) :
    Word.Readable ⟨.identifier, name⟩ :=
  ⟨(Token.isName_iff name).mp named, fun same ↦ by cases same⟩

private theorem readable_quoted {s : String} (plain : '"' ∉ s.toList) :
    Word.Readable ⟨.quoted, String.ofList ('"' :: (s.toList ++ ['"']))⟩ := by
  refine ⟨?_, fun same ↦ by cases same⟩
  rw [Word.IsLexical, String.toList_ofList]
  exact ⟨s.toList, rfl, plain⟩

mutual

/-- The words of a literal tree can be read. -/
theorem readable_words : (v : Value) → v.isLiteral = true → ∀ w ∈ words v, w.Readable
  | number n, literal => by
    have below := n.toInt_lt
    simp only [isLiteral, decide_eq_true_eq] at literal
    exact List.forall_mem_singleton.mpr (readable_ofNat (by omega))
  | float x, _ => by
    simp only [words, Binary.words, List.forall_mem_cons, List.not_mem_nil, false_implies,
      implies_true, and_true]
    exact ⟨readable_ofNat x.wholePart_le, readable_mark rfl rfl, readable_padded _⟩
  | text s, literal => by
    simp only [isLiteral, Bool.not_eq_true', List.contains_eq_mem,
      decide_eq_false_iff_not] at literal
    exact List.forall_mem_singleton.mpr (readable_quoted literal)
  | array items, literal => by
    have inner := readable_itemWords items literal
    simp only [words, List.forall_mem_cons, List.forall_mem_append, List.not_mem_nil,
      false_implies, implies_true, and_true]
    exact ⟨readable_mark rfl rfl, inner, readable_mark rfl rfl⟩
  | object entries, literal => by
    have inner := readable_entryWords entries literal
    simp only [words, List.forall_mem_cons, List.forall_mem_append, List.not_mem_nil,
      false_implies, implies_true, and_true]
    exact ⟨readable_mark rfl rfl, inner, readable_mark rfl rfl⟩
  | call f x, literal => by
    obtain ⟨named, argument⟩ := Bool.and_eq_true_iff.mp literal
    simp only [words, List.forall_mem_cons]
    exact ⟨readable_mark rfl rfl, readable_name named, readable_words x argument⟩
  | typed kind x, literal => by cases literal

/-- The words of literal items can be read. -/
theorem readable_itemWords : (vs : List Value) → itemsLiteral vs = true →
    ∀ w ∈ itemWords vs, w.Readable
  | [], _ => by simp [itemWords]
  | v :: vs, literal => by
    obtain ⟨first, others⟩ := Bool.and_eq_true_iff.mp literal
    exact List.forall_mem_append.mpr ⟨readable_words v first, readable_itemWords vs others⟩

/-- The words of literal entries can be read. -/
theorem readable_entryWords : (es : List Entry) → entriesLiteral es = true →
    ∀ w ∈ entryWords es, w.Readable
  | [], _ => by simp [entryWords]
  | .record id v :: es, literal => by
    simp only [entriesLiteral, Bool.and_eq_true] at literal
    obtain ⟨⟨named, value⟩, others⟩ := literal
    simp only [entryWords, List.forall_mem_cons, List.forall_mem_append]
    exact ⟨readable_name named, readable_mark rfl rfl, readable_words v value,
      readable_entryWords es others⟩
  | .call f v :: es, literal => by
    simp only [entriesLiteral, Bool.and_eq_true] at literal
    obtain ⟨⟨named, value⟩, others⟩ := literal
    simp only [entryWords, List.forall_mem_cons, List.forall_mem_append]
    exact ⟨readable_mark rfl rfl, readable_name named, readable_words v value,
      readable_entryWords es others⟩

end

end Value

/-! ### The tokens derive the tree -/

namespace Document

variable {ts : List Token}

/-- The tokens derive a part of a tree, and their whole numbers are within the bound. -/
def Derived (p : Phrase) (ts : List Token) : Prop := ∃ ws, Derives p ts ws ∧ Bounded ws

private theorem exists_enclosed {start stop : Word} {inner : List Word}
    (spelled : ts.map Token.word = start :: (inner ++ [stop])) :
    ∃ t us u, ts = t :: (us ++ [u]) ∧ t.kind = start.kind ∧ us.map Token.word = inner ∧
      u.kind = stop.kind := by
  obtain ⟨t, others, rfl, first, rest⟩ := List.map_eq_cons_iff.mp spelled
  obtain ⟨us, lasts, rfl, middle, last⟩ := List.map_eq_append_iff.mp rest
  obtain ⟨u, rfl, same⟩ := List.map_eq_singleton_iff.mp last
  exact ⟨t, us, u, rfl, (Token.word_eq_iff.mp first).1, middle, (Token.word_eq_iff.mp same).1⟩

private theorem exists_headed {first second : Word} {rest : List Word}
    (spelled : ts.map Token.word = first :: second :: rest) :
    ∃ t u us, ts = t :: u :: us ∧ t.word = first ∧ u.word = second ∧ us.map Token.word = rest := by
  obtain ⟨t, others, rfl, head, spelled⟩ := List.map_eq_cons_iff.mp spelled
  obtain ⟨u, us, rfl, next, spelled⟩ := List.map_eq_cons_iff.mp spelled
  exact ⟨t, u, us, rfl, head, next, spelled⟩

private theorem derived_number {n : Int32} (nonneg : 0 ≤ n.toInt)
    (spelled : ts.map Token.word = Value.words (.number n)) : Derived (.value (.number n)) ts := by
  obtain ⟨t, rfl, same⟩ := List.map_eq_singleton_iff.mp spelled
  obtain ⟨kind, lexeme⟩ := Token.word_eq_iff.mp same
  have denoted : n.toInt = valueOf t.lexeme.toList := by
    rw [lexeme, String.toList_ofList, Numeral.valueOf_ofNat, Int.toNat_of_nonneg nonneg]
  refine ⟨[t], .integer kind denoted, List.forall_mem_singleton.mpr ?_⟩
  rw [← denoted]
  exact n.toInt_le

private theorem derived_float {x : Single} (literal : x.isLiteral = true)
    (spelled : ts.map Token.word = Value.words (.float x)) : Derived (.value (.float x)) ts := by
  obtain ⟨whole, point, others, rfl, first, mark, rest⟩ := exists_headed spelled
  obtain ⟨fraction, rfl, last⟩ := List.map_eq_singleton_iff.mp rest
  obtain ⟨wholeKind, wholeLexeme⟩ := Token.word_eq_iff.mp first
  obtain ⟨fractionKind, fractionLexeme⟩ := Token.word_eq_iff.mp last
  have real : realOf whole fraction = x := by
    rw [realOf, wholeLexeme, fractionLexeme, String.toList_ofList, String.toList_ofList, valueOf,
      Numeral.valueFrom_append, ← valueOf, Numeral.valueOf_ofNat, Numeral.valueFrom_padded,
      Nat.mod_eq_of_lt x.fractionPart_lt, Numeral.length_padded]
    exact Binary.convert_parts literal
  refine ⟨[whole], real ▸ .real wholeKind (Token.word_eq_iff.mp mark).1 fractionKind,
    List.forall_mem_singleton.mpr ?_⟩
  rw [wholeLexeme, String.toList_ofList, Numeral.valueOf_ofNat]
  exact Int.ofNat_le.mpr x.wholePart_le

private theorem derived_text {s : String}
    (spelled : ts.map Token.word = Value.words (.text s)) : Derived (.value (.text s)) ts := by
  obtain ⟨t, rfl, same⟩ := List.map_eq_singleton_iff.mp spelled
  obtain ⟨kind, lexeme⟩ := Token.word_eq_iff.mp same
  have content : t.content = s := by
    rw [content_eq ((congrArg String.toList lexeme).trans String.toList_ofList),
      String.ofList_toList]
  exact ⟨[], content ▸ .quoted kind, by simp [Bounded]⟩

mutual

/-- Tokens that say the words of a literal tree derive it. -/
theorem derived_words : (v : Value) → v.isLiteral = true → {ts : List Token} →
    ts.map Token.word = v.words → Derived (.value v) ts
  | .number n, literal, ts, spelled => derived_number (of_decide_eq_true literal) spelled
  | .float x, literal, ts, spelled => derived_float literal spelled
  | .text s, _, ts, spelled => derived_text spelled
  | .array items, literal, ts, spelled => by
    obtain ⟨start, us, stop, rfl, opens, inner, closes⟩ := exists_enclosed spelled
    obtain ⟨ws, derived, small⟩ := derived_itemWords items literal inner
    exact ⟨ws, .array opens derived closes, small⟩
  | .object entries, literal, ts, spelled => by
    obtain ⟨start, us, stop, rfl, opens, inner, closes⟩ := exists_enclosed spelled
    obtain ⟨ws, derived, small⟩ := derived_entryWords entries literal inner
    exact ⟨ws, .object opens derived closes, small⟩
  | .call f x, literal, ts, spelled => by
    obtain ⟨mark, name, us, rfl, first, second, rest⟩ := exists_headed spelled
    obtain ⟨kind, rfl⟩ := Token.word_eq_iff.mp second
    obtain ⟨ws, derived, small⟩ := derived_words x (Bool.and_eq_true_iff.mp literal).2 rest
    exact ⟨ws, .call (Token.word_eq_iff.mp first).1 kind derived, small⟩
  | .typed _ _, literal, ts, _ => by cases literal

/-- Tokens that say the words of literal items derive them. -/
theorem derived_itemWords : (vs : List Value) → Value.itemsLiteral vs = true →
    {ts : List Token} → ts.map Token.word = Value.itemWords vs → Derived (.items vs) ts
  | [], _, ts, spelled => by
    obtain rfl := List.map_eq_nil_iff.mp spelled
    exact ⟨[], .noItems, by simp [Bounded]⟩
  | v :: vs, literal, ts, spelled => by
    obtain ⟨first, others⟩ := Bool.and_eq_true_iff.mp literal
    obtain ⟨us, xs, rfl, item, rest⟩ := List.map_eq_append_iff.mp spelled
    obtain ⟨ws, value, small⟩ := derived_words v first item
    obtain ⟨zs, items, smallRest⟩ := derived_itemWords vs others rest
    exact ⟨ws ++ zs, .item value items, List.forall_mem_append.mpr ⟨small, smallRest⟩⟩

/-- Tokens that say the words of literal entries derive them. -/
theorem derived_entryWords : (es : List Entry) → Value.entriesLiteral es = true →
    {ts : List Token} → ts.map Token.word = Value.entryWords es → Derived (.entries es) ts
  | [], _, ts, spelled => by
    obtain rfl := List.map_eq_nil_iff.mp spelled
    exact ⟨[], .noEntries, by simp [Bounded]⟩
  | .record id v :: es, literal, ts, spelled => by
    simp only [Value.entriesLiteral, Bool.and_eq_true] at literal
    obtain ⟨name, mark, us, rfl, first, second, tail⟩ := exists_headed spelled
    obtain ⟨kind, rfl⟩ := Token.word_eq_iff.mp first
    obtain ⟨us, xs, rfl, here, rest⟩ := List.map_eq_append_iff.mp tail
    obtain ⟨ws, value, small⟩ := derived_words v literal.1.2 here
    obtain ⟨zs, entries, smallRest⟩ := derived_entryWords es literal.2 rest
    exact ⟨ws ++ zs, .record kind (Token.word_eq_iff.mp second).1 value entries,
      List.forall_mem_append.mpr ⟨small, smallRest⟩⟩
  | .call f v :: es, literal, ts, spelled => by
    simp only [Value.entriesLiteral, Bool.and_eq_true] at literal
    obtain ⟨mark, name, us, rfl, first, second, tail⟩ := exists_headed spelled
    obtain ⟨kind, rfl⟩ := Token.word_eq_iff.mp second
    obtain ⟨us, xs, rfl, here, rest⟩ := List.map_eq_append_iff.mp tail
    obtain ⟨ws, value, small⟩ := derived_words v literal.1.2 here
    obtain ⟨zs, entries, smallRest⟩ := derived_entryWords es literal.2 rest
    exact ⟨ws ++ zs, .recordCall (Token.word_eq_iff.mp first).1 kind value entries,
      List.forall_mem_append.mpr ⟨small, smallRest⟩⟩

end

/-! ### The texts of documents -/

/-- A text is read as the entries that are read from the tokens of its words. -/
theorem ofSource_of_reads {source : String} {words : List Word} {es : List Entry}
    (spells : Token.Spells 0 source.toList words) (lexical : ∀ w ∈ words, w.IsLexical)
    (reads : ∀ {ts : List Token}, ts.map Token.word = words → Reads 0 (.entries es) ts []) :
    ofSource source = .ok (.object es) := by
  obtain ⟨ts, stop, scanned, rfl⟩ := spells
  have more : ∀ t ∈ ts, t.kind ≠ .endOfInput := fun t inside ↦
    Token.IsLexical.kind_ne (lexical _ (List.mem_map_of_mem inside))
  have read := reads rfl
  rw [← List.append_nil ts] at read
  rw [ofSource, Token.scan, scanned]
  exact (ofTokens_eq_ok_iff_reads more rfl).mpr ⟨[], es, by simp [AreClosers], read, rfl⟩

/-- A text is read as the entries that the tokens of its words derive. -/
theorem ofSource_of_spells {source : String} {words : List Word} {es : List Entry}
    (spells : Token.Spells 0 source.toList words) (readable : ∀ w ∈ words, w.Readable)
    (derives : ∀ {ts : List Token}, ts.map Token.word = words → Derived (.entries es) ts)
    (levels : Value.entriesNesting es ≤ maxDepth) : ofSource source = .ok (.object es) := by
  apply ofSource_of_reads spells fun w inside ↦ (readable w inside).lexical
  intro ts said
  have words (t : Token) (inside : t ∈ ts) : t.word.Readable :=
    readable _ (said ▸ List.mem_map_of_mem inside)
  have runs : ShortRuns ts := fun t inside kind ↦
    ⟨Token.IsLexical.isRun (words t inside).lexical kind, (words t inside).short kind⟩
  obtain ⟨ws, derived, small⟩ := derives said
  have read := derived.reads (d := 0) runs small (by rwa [Nat.zero_add]) noPoint_nil
  rwa [List.append_nil] at read

/-- What is printed is read as the document again. -/
theorem ofSource_print {es : List Entry} (literal : Value.entriesLiteral es = true)
    (levels : Value.entriesNesting es ≤ maxDepth) : ofSource (print es) = .ok (.object es) := by
  have readable := Value.readable_entryWords es literal
  have spells : Token.Spells 0 (print es).toList (Value.entryWords es) := by
    rw [print, String.toList_ofList]
    exact Token.spells_written 0 fun w inside ↦ (readable w inside).lexical
  exact ofSource_of_spells spells readable (derived_entryWords es literal) levels

/-- The trees that texts are read as are the literal ones in which at most so many levels nest as
may be open. -/
theorem exists_ofSource_iff (root : Value) :
    (∃ source, ofSource source = .ok root) ↔
      ∃ es, root = .object es ∧ Value.entriesLiteral es = true ∧
        Value.entriesNesting es ≤ maxDepth := by
  constructor
  · rintro ⟨source, read⟩
    exact isLiteral_of_ofSource read
  · rintro ⟨es, rfl, literal, levels⟩
    exact ⟨print es, ofSource_print literal levels⟩

end Document
end Manifest
