import Manifest.Proofs.Document.Reading
import Manifest.Proofs.Token.Spacing

/-!
# Separators say nothing

A separator stands between entries or between items, and nowhere else. The document of a text stays
the same when its separators give way to layout, to the other separator, or to several of either
(`ofSource_refill`).

One thing could go wrong. A number ends where no point follows, and a separator may hide a point;
but then the point would stand where an entry or an item is awaited. So a point comes neither after
what is read nor after the separators there (`NoPointAhead`), and what is read from some tokens is
read from the same tokens with other separators (`Reads.respaced`).
-/

namespace Manifest.Document

open Token (Respaced)

variable {d : Nat} {p : Phrase} {t : Token} {ts us : List Token}

/-- The tokens do not start with a point, nor do they after the separators at their front. -/
def NoPointAhead (ts : List Token) : Prop := NoPoint (ts.dropWhile (·.kind = .separator))

private theorem noPointAhead_cons {kind : Token.Kind} (has : t.kind = kind)
    (other : kind ≠ .point ∧ kind ≠ .separator) : NoPointAhead (t :: ts) := by
  rw [NoPointAhead, List.dropWhile_cons_of_neg (by simp [has, other.2])]
  intro u first
  cases first
  exact has ▸ other.1

private theorem noPointAhead_separator (separator : t.kind = .separator) :
    NoPointAhead (t :: ts) ↔ NoPointAhead ts := by
  rw [NoPointAhead, List.dropWhile_cons_of_pos (by simp [separator])]
  rfl

private theorem NoPointAhead.respaced (ahead : NoPointAhead ts) (respaced : Respaced ts us) :
    NoPoint us := by
  induction respaced with
  | nil => simp [NoPoint]
  | @same t u ts us other word _ _ =>
    have point : t.kind ≠ .point := by
      rw [NoPointAhead, List.dropWhile_cons_of_neg (by simp [other])] at ahead
      exact ahead t rfl
    intro x first
    cases first
    rwa [(Token.word_eq_iff.mp word).1] at point
  | @separators t seps ts us separator kinds _ ih =>
    have rest := ih ((noPointAhead_separator separator).mp ahead)
    cases seps with
    | nil => exact rest
    | cons s seps =>
      intro x first
      cases first
      simp [kinds s List.mem_cons_self]

private theorem Reads.noPointAhead (read : Reads d p ts us) (ahead : NoPointAhead us) :
    NoPointAhead ts := by
  induction read with
  | noEntries | noItems => exact ahead
  | betweenEntries separator _ ih | betweenItems separator _ ih =>
    exact (noPointAhead_separator separator).mpr (ih ahead)
  | item _ _ valueIh restIh => exact valueIh (restIh ahead)
  | integer kind | real kind | quoted kind | object kind | array kind | call kind | record kind
  | recordCall kind => exact noPointAhead_cons kind (by decide)

/-! ### Reading with other separators -/

private theorem admits_of_lexeme_eq {u : Token} (lexeme : t.lexeme = u.lexeme) :
    Admits t ↔ Admits u := by rw [Admits, Admits, lexeme]

private theorem integerValue_of_lexeme_eq {u : Token} (lexeme : t.lexeme = u.lexeme) :
    integerValue t = integerValue u := by rw [integerValue, integerValue, lexeme]

private theorem fractionValue_of_lexeme_eq {u t' u' : Token} (lexeme : t.lexeme = u.lexeme)
    (lexeme' : t'.lexeme = u'.lexeme) : fractionValue t t' = fractionValue u u' := by
  rw [fractionValue, fractionValue, lexeme, lexeme']

private theorem Reads.separators {seps : List Token} (kinds : ∀ s ∈ seps, s.kind = .separator)
    (between : ∀ {s : Token} {ts : List Token}, s.kind = .separator → Reads d p ts us →
      Reads d p (s :: ts) us) (read : Reads d p ts us) :
    Reads d p (seps ++ ts) us := by
  induction seps with
  | nil => exact read
  | cons s seps ih =>
    obtain ⟨first, others⟩ := List.forall_mem_cons.mp kinds
    exact between first (ih others)

private theorem exists_cons_of_kind {kind : Token.Kind} (respaced : Respaced (t :: ts) us)
    (has : t.kind = kind) (other : kind ≠ .separator) :
    ∃ u vs, us = u :: vs ∧ u.kind = kind ∧ t.lexeme = u.lexeme ∧ Respaced ts vs := by
  obtain ⟨u, vs, rfl, word, rest⟩ := respaced.exists_cons (has ▸ other)
  obtain ⟨same, lexeme⟩ := Token.word_eq_iff.mp word
  exact ⟨u, vs, rfl, same.symm.trans has, lexeme, rest⟩

private theorem Reads.respaced (read : Reads d p ts us) (ahead : NoPointAhead us)
    {others : List Token} (respaced : Respaced ts others) :
    ∃ left, Respaced us left ∧ Reads d p others left := by
  -- On the derivation. Behind an inner part comes a closing mark or another part, so no point.
  induction read generalizing others with
  | integer kind admits value _ =>
    obtain ⟨u, left, rfl, kind', lexeme, rest⟩ := exists_cons_of_kind respaced kind (by decide)
    rw [integerValue_of_lexeme_eq lexeme] at value
    exact ⟨left, rest,
      .integer kind' ((admits_of_lexeme_eq lexeme).mp admits) value (ahead.respaced rest)⟩
  | real kind admits point fraction value =>
    obtain ⟨w, _, rfl, kind', lexeme, rest⟩ := exists_cons_of_kind respaced kind (by decide)
    obtain ⟨p, _, rfl, point', -, rest⟩ := exists_cons_of_kind rest point (by decide)
    obtain ⟨f, left, rfl, fraction', lexeme', rest⟩ :=
      exists_cons_of_kind rest fraction (by decide)
    rw [fractionValue_of_lexeme_eq lexeme lexeme'] at value
    exact ⟨left, rest,
      .real kind' ((admits_of_lexeme_eq lexeme).mp admits) point' fraction' value⟩
  | @quoted d token ts kind =>
    obtain ⟨u, left, rfl, kind', lexeme, rest⟩ := exists_cons_of_kind respaced kind (by decide)
    have content : token.content = u.content := by rw [Token.content, Token.content, lexeme]
    rw [content]
    exact ⟨left, rest, .quoted kind'⟩
  | object start room _ stop ih =>
    obtain ⟨u, _, rfl, start', -, rest⟩ := exists_cons_of_kind respaced start (by decide)
    obtain ⟨_, rest, inner⟩ := ih (noPointAhead_cons stop (by decide)) rest
    obtain ⟨w, left, rfl, stop', -, rest⟩ := exists_cons_of_kind rest stop (by decide)
    exact ⟨left, rest, .object start' room inner stop'⟩
  | array start room _ stop ih =>
    obtain ⟨u, _, rfl, start', -, rest⟩ := exists_cons_of_kind respaced start (by decide)
    obtain ⟨_, rest, inner⟩ := ih (noPointAhead_cons stop (by decide)) rest
    obtain ⟨w, left, rfl, stop', -, rest⟩ := exists_cons_of_kind rest stop (by decide)
    exact ⟨left, rest, .array start' room inner stop'⟩
  | call mark room name _ ih =>
    obtain ⟨m, _, rfl, mark', -, rest⟩ := exists_cons_of_kind respaced mark (by decide)
    obtain ⟨n, _, rfl, name', lexeme, rest⟩ := exists_cons_of_kind rest name (by decide)
    obtain ⟨left, rest, argument⟩ := ih ahead rest
    rw [lexeme]
    exact ⟨left, rest, .call mark' room name' argument⟩
  | noEntries => exact ⟨others, respaced, .noEntries⟩
  | record id mark _ entries valueIh restIh =>
    obtain ⟨i, _, rfl, id', lexeme, rest⟩ := exists_cons_of_kind respaced id (by decide)
    obtain ⟨m, _, rfl, mark', -, rest⟩ := exists_cons_of_kind rest mark (by decide)
    obtain ⟨_, rest, value⟩ := valueIh (entries.noPointAhead ahead) rest
    obtain ⟨left, rest, entries⟩ := restIh ahead rest
    rw [lexeme]
    exact ⟨left, rest, .record id' mark' value entries⟩
  | recordCall mark name _ entries valueIh restIh =>
    obtain ⟨m, _, rfl, mark', -, rest⟩ := exists_cons_of_kind respaced mark (by decide)
    obtain ⟨n, _, rfl, name', lexeme, rest⟩ := exists_cons_of_kind rest name (by decide)
    obtain ⟨_, rest, value⟩ := valueIh (entries.noPointAhead ahead) rest
    obtain ⟨left, rest, entries⟩ := restIh ahead rest
    rw [lexeme]
    exact ⟨left, rest, .recordCall mark' name' value entries⟩
  | betweenEntries separator _ ih =>
    obtain ⟨seps, _, rfl, kinds, rest⟩ := respaced.exists_append separator
    obtain ⟨left, rest, entries⟩ := ih ahead rest
    exact ⟨left, rest, entries.separators kinds .betweenEntries⟩
  | noItems => exact ⟨others, respaced, .noItems⟩
  | item _ items valueIh restIh =>
    obtain ⟨_, rest, value⟩ := valueIh (items.noPointAhead ahead) respaced
    obtain ⟨left, rest, items⟩ := restIh ahead rest
    exact ⟨left, rest, .item value items⟩
  | betweenItems separator _ ih =>
    obtain ⟨seps, _, rfl, kinds, rest⟩ := respaced.exists_append separator
    obtain ⟨left, rest, items⟩ := ih ahead rest
    exact ⟨left, rest, items.separators kinds .betweenItems⟩

/-! ### Documents -/

/-- Tokens that say the same with other separators make the same document. -/
theorem ofTokens_of_respaced {stop stop' : Token} {root : Value} (respaced : Respaced ts us)
    (more : ∀ t ∈ ts, t.kind ≠ .endOfInput) (ended : stop.kind = .endOfInput)
    (more' : ∀ t ∈ us, t.kind ≠ .endOfInput) (ended' : stop'.kind = .endOfInput)
    (read : ofTokens (ts ++ [stop]) = .ok root) : ofTokens (us ++ [stop']) = .ok root := by
  obtain ⟨closers, es, closing, reads, rfl⟩ := (ofTokens_eq_ok_iff_reads more ended).mp read
  have others : ∀ t ∈ closers, t.kind ≠ .separator := by
    intro t closes
    simp [closing t closes]
  obtain ⟨left, left_nil, reads'⟩ := reads.respaced (by simp [NoPointAhead, NoPoint])
    (respaced.append others)
  cases left_nil
  exact (ofTokens_eq_ok_iff_reads more' ended').mpr ⟨closers, es, closing, reads', rfl⟩

/-- Separators may give way to whatever sets words apart: where a text has a document, the text in
which every separator is replaced by a space, by the other separator, or by any number of
separators and layout in any order, has the same document. -/
theorem ofSource_refill {source : String} {tokens : List Token} {root : Value}
    {fill : Nat → Char → List Char}
    (fits : ∀ i c, Token.markKind? c = some .separator →
      fill i c ≠ [] ∧ ∀ x ∈ fill i c, Token.SetsApart x)
    (scanned : Token.scan source = .ok tokens) (read : ofSource source = .ok root) :
    ofSource (String.ofList (Token.refill fill (Token.separatesAt tokens) 0 source.toList)) =
      .ok root := by
  obtain ⟨ts, rfl, lexical⟩ := Token.scanFrom_eq_ok scanned
  have marks : ∀ i, 0 ≤ i → Token.separatesAt (ts ++ [Token.endAt (0 + source.toList.length)]) i =
      Token.separatesAt ts i := by
    intro i _
    rw [Token.separatesAt, List.any_append, ← Token.separatesAt]
    simp [Token.endAt]
  obtain ⟨us, last, rescanned, respaced⟩ := (Token.scanFrom_refill fits scanned marks).scanned 0
  obtain ⟨us', same, lexical'⟩ := Token.scanFrom_eq_ok rescanned
  obtain ⟨rfl, -⟩ := List.append_inj' same rfl
  rw [ofSource, scanned] at read
  rw [ofSource, Token.scan, String.toList_ofList, rescanned]
  exact ofTokens_of_respaced respaced (fun t ht ↦ (lexical t ht).kind_ne) rfl
    (fun t ht ↦ (lexical' t ht).kind_ne) rfl read

private def separated : String := "a = [1;@f 2]\n#g \";\""

private def separatedTokens : List Token :=
  [⟨.identifier, "a", ⟨0, 1⟩⟩, ⟨.assign, "=", ⟨2, 3⟩⟩, ⟨.openBracket, "[", ⟨4, 5⟩⟩,
    ⟨.integer, "1", ⟨5, 6⟩⟩, ⟨.separator, ";", ⟨6, 7⟩⟩, ⟨.valueMark, "@", ⟨7, 8⟩⟩,
    ⟨.identifier, "f", ⟨8, 9⟩⟩, ⟨.integer, "2", ⟨10, 11⟩⟩, ⟨.closeBracket, "]", ⟨11, 12⟩⟩,
    ⟨.separator, "\n", ⟨12, 13⟩⟩, ⟨.recordMark, "#", ⟨13, 14⟩⟩, ⟨.identifier, "g", ⟨14, 15⟩⟩,
    ⟨.quoted, "\";\"", ⟨16, 19⟩⟩, Token.endAt 19]

private def separatedRoot : Value :=
  .object [.record "a" (.array [.number 1, .call "f" (.number 2)]), .call "g" (.text ";")]

private def respaced (fill : Nat → Char → List Char) : String :=
  String.ofList (Token.refill fill (Token.separatesAt separatedTokens) 0 separated.toList)

/-- A space in place of each separator, the other separator in place of the first, and each of them
twice: the quoted one stays, and the document is that of the text. -/
theorem ofSource_refill_separated :
    ofSource "a = [1 @f 2] #g \";\"" = .ok separatedRoot ∧
      ofSource "a = [1\n@f 2]\n#g \";\"" = .ok separatedRoot ∧
      ofSource "a = [1;;@f 2]\n\n#g \";\"" = .ok separatedRoot := by
  have scanned : Token.scan separated = .ok separatedTokens := by decide +kernel
  have read : ofSource separated = .ok separatedRoot := by decide +kernel
  have mark (c : Char) : Token.markKind? c = some .separator → Token.SetsApart c := .inr
  let other (i : Nat) (c : Char) := if i = 6 then ['\n'] else [c]
  have spaces : respaced (fun _ _ ↦ [' ']) = "a = [1 @f 2] #g \";\"" := rfl
  have others : respaced other = "a = [1\n@f 2]\n#g \";\"" := rfl
  have twice : respaced (fun _ c ↦ [c, c]) = "a = [1;;@f 2]\n\n#g \";\"" := rfl
  rw [← spaces, ← others, ← twice]
  refine ⟨ofSource_refill ?_ scanned read, ofSource_refill ?_ scanned read,
    ofSource_refill ?_ scanned read⟩
  · intro i c _
    exact ⟨List.cons_ne_nil _ _, List.forall_mem_singleton.mpr (.inl rfl)⟩
  · intro i c separator
    by_cases first : i = 6
    · simp only [other, if_pos first]
      exact ⟨List.cons_ne_nil _ _, List.forall_mem_singleton.mpr (mark '\n' rfl)⟩
    · simp only [other, if_neg first]
      exact ⟨List.cons_ne_nil _ _, List.forall_mem_singleton.mpr (mark c separator)⟩
  · intro i c separator
    exact ⟨List.cons_ne_nil _ _, by simp [mark c separator]⟩

end Manifest.Document
