import Mathlib.Data.List.Nodup
import Manifest.Proofs.Document.Blame
import Manifest.Proofs.Token.Written

/-!
# The first token with which no document goes on

Tokens are viable when some document goes on with them. Whatever is open, there are words that
close it (`attainable_expects`), so that the tokens a reading has taken without failing are viable.
It fails at the first token for which there are no such words, and never for a token further on; at
the end of the input it fails where the tokens are viable but complete no document
(`ofTokens_viable_prefix`).
-/

namespace Manifest.Document

open Numeral (IsRun valueOf maxDigits)

/-- The tokens of some text start with these, and they are read as a document. -/
def Viable (before : List Token) : Prop :=
  ∃ source more root, Token.scan source = .ok (before ++ more) ∧
    ofTokens (before ++ more) = .ok root

variable {outer : List Slot} {d : Nat} {t : Token} {ts : List Token} {fault : DocumentFault}

/-! ### Words that complete what is open -/

/-- There are words such that all tokens that say them have a property. -/
def Attainable (P : List Token → Prop) : Prop :=
  ∃ words : List Word, (∀ w ∈ words, w.IsLexical) ∧ ∀ ts, ts.map Token.word = words → P ts

private theorem Attainable.nil {P : List Token → Prop} (holds : P []) : Attainable P :=
  ⟨[], by simp, fun _ empty ↦ List.map_eq_nil_iff.mp empty ▸ holds⟩

private theorem Attainable.cons {P Q : List Token → Prop} (rest : Attainable Q) (w : Word)
    (lexical : w.IsLexical)
    (first : ∀ t ts, t.kind = w.kind → t.lexeme = w.lexeme → Q ts → P (t :: ts)) :
    Attainable P := by
  obtain ⟨words, others, holds⟩ := rest
  refine ⟨w :: words, List.forall_mem_cons.mpr ⟨lexical, others⟩, fun ts spelled ↦ ?_⟩
  obtain ⟨t, ts, rfl, same, spelled⟩ := List.map_eq_cons_iff.mp spelled
  obtain ⟨kind, lexeme⟩ := Token.word_eq_iff.mp same
  exact first t ts kind lexeme (holds ts spelled)

section Words

private theorem isLexical_zero : Word.IsLexical ⟨.integer, "0"⟩ :=
  ⟨List.cons_ne_nil _ _, List.forall_mem_singleton.mpr rfl⟩

private theorem isLexical_name : Word.IsLexical ⟨.identifier, "a"⟩ :=
  ⟨'a', [], rfl, rfl, rfl, by simp⟩

private theorem isLexical_quotes : Word.IsLexical ⟨.quoted, "\"\""⟩ := ⟨[], rfl, by simp⟩

end Words

private theorem attainable_entriesThen {before : List Entry}
    (rest : ∀ v, Attainable fun ts ↦ ∃ r, Follows r outer (d - 1) v ts) :
    Attainable fun ts ↦
      ∃ r, EntriesThen outer.isEmpty r (Follows r outer (d - 1)) d before ts := by
  cases inside : outer.isEmpty with
  | true => exact .nil ⟨_, [], [], .noEntries, rfl, rfl⟩
  | false =>
    refine (rest (.object (before.reverse ++ []))).cons ⟨.closeBrace, "\x7d"⟩
      (Token.isLexical_mark rfl rfl) ?_
    rintro t ts kind - ⟨r, follow⟩
    exact ⟨r, [], t :: ts, .noEntries, t, ts, rfl, kind, follow⟩

private theorem attainable_itemsThen {before : List Value}
    (rest : ∀ v, Attainable fun ts ↦ ∃ r, Follows r outer (d - 1) v ts) :
    Attainable fun ts ↦ ∃ r, ItemsThen (Follows r outer (d - 1)) d before ts := by
  refine (rest (.array (before.reverse ++ []))).cons ⟨.closeBracket, "]"⟩
    (Token.isLexical_mark rfl rfl) ?_
  rintro t ts kind - ⟨r, follow⟩
  exact ⟨r, [], t, ts, .noItems, kind, follow⟩

private theorem attainable_follows (outer : List Slot) (d : Nat) (v : Value) :
    Attainable fun ts ↦ ∃ r, Follows r outer d v ts := by
  induction outer generalizing d v with
  | nil => exact .nil ⟨v, rfl⟩
  | cons slot outer ih =>
    cases slot with
    | entry before head => exact attainable_entriesThen (ih (d - 1))
    | item before => exact attainable_itemsThen (ih (d - 1))
    | argument f => exact ih (d - 1) (.call f v)

private theorem attainable_expectsValue (outer : List Slot) (d : Nat) :
    Attainable fun ts ↦ ∃ r, ExpectsValue r outer d ts := by
  refine (attainable_follows outer d (.text "")).cons ⟨.quoted, "\"\""⟩ isLexical_quotes ?_
  rintro t ts kind lexeme ⟨r, follow⟩
  have content : t.content = "" := by
    rw [Token.content, lexeme]
    rfl
  exact ⟨r, _, ts, .quoted kind, content ▸ follow⟩

private theorem attainable_expectsFraction {whole : Token} (admitted : Admitted whole) :
    Attainable fun ts ↦ ∃ r, ExpectsFraction r outer d whole ts := by
  have digit : IsRun "0".toList := isLexical_zero
  let zero : Token := ⟨.integer, "0", ⟨0, 1⟩⟩
  refine (attainable_follows outer d (.float (realOf whole zero))).cons ⟨.integer, "0"⟩
    isLexical_zero ?_
  rintro t ts kind lexeme ⟨r, follow⟩
  have run : IsRun t.lexeme.toList := lexeme ▸ digit
  have value := fractionValue_isRun admitted.run admitted.short.1 run
  have same : realOf whole t = realOf whole zero := by simp only [realOf, lexeme, zero]
  exact ⟨r, t, ts, rfl, kind, _, value, same ▸ follow⟩

/-- Whatever is open can be completed. -/
theorem attainable_expects {config : Config} (sound : config.Sound) :
    Attainable fun ts ↦ ∃ r, Expects r config ts := by
  obtain ⟨outer, state, d⟩ := config
  cases state with
  | inside container =>
    cases container with
    | entries before => exact attainable_entriesThen (attainable_follows outer (d - 1))
    | items before => exact attainable_itemsThen (attainable_follows outer (d - 1))
  | assign before id =>
    refine (attainable_expectsValue (.entry before (.record id) :: outer) d).cons ⟨.assign, "="⟩
      (Token.isLexical_mark rfl rfl) ?_
    rintro t ts kind - ⟨r, expected⟩
    exact ⟨r, t, ts, rfl, kind, expected⟩
  | entryCall before =>
    refine (attainable_expectsValue (.entry before (.call "a") :: outer) d).cons
      ⟨.identifier, "a"⟩ isLexical_name ?_
    rintro t ts kind lexeme ⟨r, expected⟩
    exact ⟨r, t, ts, rfl, kind, lexeme ▸ expected⟩
  | valueCall =>
    refine (attainable_expectsValue (.argument "a" :: outer) d).cons ⟨.identifier, "a"⟩
      isLexical_name ?_
    rintro t ts kind lexeme ⟨r, expected⟩
    exact ⟨r, t, ts, rfl, kind, lexeme ▸ expected⟩
  | value => exact attainable_expectsValue outer d
  | integer whole =>
    -- A point and a digit may follow the number, where it is open what else may.
    have digits : Attainable fun ts ↦ ∃ r, ExpectsFraction r outer d whole ts :=
      attainable_expectsFraction sound
    refine digits.cons ⟨.point, "."⟩ (Token.isLexical_mark rfl rfl) ?_
    rintro t ts kind - ⟨r, expected⟩
    exact ⟨r, .inr ⟨t, ts, rfl, kind, expected⟩⟩
  | fraction whole => exact attainable_expectsFraction sound

/-! ### What a reading has taken -/

private theorem Steps.slotted {config last : Config} (steps : Steps config ts last)
    (slotted : config.Slotted) : last.Slotted := by
  induction steps with
  | none => exact slotted
  | next _ stepped _ ih => exact ih (slotted_step stepped)

private theorem Steps.viable {source : String} {before after : List Token} {last : Config}
    (steps : Steps ⟨[], .inside (.entries []), 0⟩ before last)
    (scanned : Token.scan source = .ok (before ++ t :: after))
    (lexical : ∀ t ∈ before, t.IsLexical) : Viable before := by
  obtain ⟨words, wordsLexical, complete⟩ := attainable_expects (steps.sound lexical trivial)
  obtain ⟨source', ts, stop, again, spelled, ended⟩ :=
    Token.exists_scan_written scanned wordsLexical
  obtain ⟨root, expected⟩ := complete ts spelled
  have more : ∀ t ∈ ts, t.kind ≠ .endOfInput := by
    intro t inside
    have lexical : t.word.IsLexical := wordsLexical _ (spelled ▸ List.mem_map_of_mem inside)
    exact Token.IsLexical.kind_ne lexical
  have slotted : last.Slotted := steps.slotted fun awaited ↦ by cases awaited
  refine ⟨source', ts ++ [stop], root, again, ?_⟩
  rw [ofTokens_eq_run, steps.run_append]
  refine (run_eq_ok_iff slotted more ended).mpr ⟨[], by simp [AreClosers], ?_⟩
  rwa [List.append_nil]

/-! ### Where a reading fails -/

private theorem nodup_spans {source : String} {tiles : List Token}
    (tiling : Token.Tiles source.toList 0 tiles) :
    ((tiles ++ [Token.endAt source.length]).map Token.span).Nodup := by
  rw [List.Nodup, List.pairwise_map, List.pairwise_append]
  refine ⟨?_, List.pairwise_singleton _ _, fun t inside u last ↦ ?_⟩
  · refine tiling.ordered.imp_of_mem fun {t u} inside _ order same ↦ ?_
    have long := (tiling.stands t inside).start_lt_stop
    rw [← same] at order
    omega
  · rw [List.mem_singleton.mp last]
    intro same
    have long := (tiling.stands t inside).start_lt_stop
    rw [same] at long
    exact Int.lt_irrefl _ long

private theorem span_ne_of_nodup {before after : List Token}
    (distinct : ((before ++ t :: after).map Token.span).Nodup) :
    ∀ u ∈ before ++ after, u.span ≠ t.span := by
  intro u inside same
  rw [List.map_append, List.map_cons, List.nodup_middle, ← List.map_append] at distinct
  exact (List.nodup_cons.mp distinct).1 (same ▸ List.mem_map_of_mem inside)

private theorem span_of_blames {reason : String} {span : Span} (blamed : fault.Blames t)
    (placed : fault.placed? = some (reason, span)) : t.span = span := by
  cases fault with
  | parse fault =>
    cases placed
    exact blamed.1.symm
  | lex fault =>
    have refused := blamed.2
    unfold Token.refusal? at refused
    split at refused
    · cases refused
    split at refused <;> cases refused
    cases placed
    rfl
  | _ => cases placed

private theorem ended_iff_of_blames (blamed : fault.Blames t) :
    (∃ span, fault = .parse ⟨.endOfInput, span⟩) ↔ t.kind = .endOfInput := by
  cases fault with
  | parse fault =>
    obtain ⟨kind, span⟩ := fault
    simpa using blamed.2
  | _ => simp [blamed.1]

private theorem exists_viable_of_error {source : String} {stop : Token}
    (scanned : Token.scan source = .ok (ts ++ [stop])) (lexical : ∀ t ∈ ts, t.IsLexical)
    (ended : stop.kind = .endOfInput) (failed : ofTokens (ts ++ [stop]) = .error fault) :
    (fault.Blames stop ∧ Viable ts) ∨
      ∃ before t after, ts = before ++ t :: after ∧ fault.Blames t ∧ Viable before ∧
        ∀ others, ofTokens (before ++ t :: others) = .error fault := by
  have start : Config.Sound ⟨[], .inside (.entries []), 0⟩ := trivial
  rw [ofTokens_eq_run] at failed
  obtain ⟨before, t, last, steps, blamed, place⟩ := run_eq_error start lexical ended failed
  obtain ⟨rfl, rfl⟩ | ⟨after, taken, d, rfl, stepped⟩ := place
  · exact .inl ⟨blamed, steps.viable scanned lexical⟩
  · obtain ⟨others, here, -⟩ := List.forall_mem_append.mp lexical |>.imp_right
      List.forall_mem_cons.mp
    rw [List.append_assoc, List.cons_append] at scanned
    refine .inr ⟨before, t, after, rfl, blamed, steps.viable scanned others, fun more ↦ ?_⟩
    rw [ofTokens_eq_run, steps.run_append]
    simp only [run, if_neg here.kind_ne, stepped]

/-- Reading the tokens of a text fails at the first of them with which no document goes on. The one
token with the span of the fault comes after tokens that are viable. At the end of the input the
fault is that the input ends; at any other token it is another, and the same whatever follows the
token. Of the tokens whose reading fails, those that fail because the input ends are those that are
viable. -/
theorem ofTokens_viable_prefix {source : String} {ts : List Token} {stop : Token}
    {fault : DocumentFault} (scanned : Token.scan source = .ok (ts ++ [stop]))
    (failed : ofTokens (ts ++ [stop]) = .error fault) :
    (∀ reason span, fault.placed? = some (reason, span) →
      ∃ before t after, ts ++ [stop] = before ++ t :: after ∧ t.span = span ∧
        (∀ u ∈ before ++ after, u.span ≠ span) ∧ Viable before ∧
        (t.kind = .endOfInput → fault = .parse ⟨.endOfInput, span⟩) ∧
        (t.kind ≠ .endOfInput → (∀ span, fault ≠ .parse ⟨.endOfInput, span⟩) ∧
          ∀ others, ofTokens (before ++ t :: others) = .error fault)) ∧
    (Viable ts ↔ ∃ span, fault = .parse ⟨.endOfInput, span⟩) := by
  obtain ⟨tiles, whole, tiling⟩ := Token.tiles_of_scan scanned
  obtain ⟨rfl, same⟩ := List.append_inj' whole rfl
  have lexical (t : Token) (inside : t ∈ ts) := (tiling.stands t inside).lexical
  have ended : stop.kind = .endOfInput := by
    rw [List.singleton_inj.mp same]
    rfl
  have distinct := whole ▸ nodup_spans tiling
  obtain ⟨blamed, viable⟩ | ⟨before, t, after, rfl, blamed, viable, fails⟩ :=
    exists_viable_of_error scanned lexical ended failed
  · have ends := (ended_iff_of_blames blamed).mpr ended
    refine ⟨fun reason span placed ↦ ?_, iff_of_true viable ends⟩
    obtain rfl := span_of_blames blamed placed
    refine ⟨ts, stop, [], rfl, rfl, span_ne_of_nodup distinct, viable, fun _ ↦ ?_,
      fun more ↦ absurd ended more⟩
    obtain ⟨span, rfl⟩ := ends
    cases placed
    rfl
  · have more : t.kind ≠ .endOfInput := (lexical t (by simp)).kind_ne
    have other : ¬ ∃ span, fault = .parse ⟨.endOfInput, span⟩ := fun ends ↦
      more ((ended_iff_of_blames blamed).mp ends)
    rw [List.append_assoc, List.cons_append] at distinct ⊢
    refine ⟨fun reason span placed ↦ ?_, iff_of_false ?_ other⟩
    · obtain rfl := span_of_blames blamed placed
      exact ⟨before, t, _, rfl, rfl, span_ne_of_nodup distinct, viable,
        fun ends ↦ absurd ends more, fun _ ↦ ⟨not_exists.mp other, fails⟩⟩
    · rintro ⟨source', rest, root, -, read⟩
      rw [List.append_assoc, List.cons_append, fails] at read
      cases read

/-- A brace cannot follow an assignment mark, whatever comes after it. -/
theorem ofTokens_viable_prefix_brace :
    let tokens : List Token := [⟨.identifier, "x", ⟨0, 1⟩⟩, ⟨.assign, "=", ⟨2, 3⟩⟩,
      ⟨.closeBrace, "\x7d", ⟨4, 5⟩⟩]
    Token.scan "x = \x7d" = .ok (tokens ++ [Token.endAt 5]) ∧
      ofTokens (tokens ++ [Token.endAt 5]) = .error (.parse ⟨.expectedValue, ⟨4, 5⟩⟩) ∧
      (∃ before t after, tokens ++ [Token.endAt 5] = before ++ t :: after ∧ t.span = ⟨4, 5⟩ ∧
        Viable before ∧ ∀ others,
          ofTokens (before ++ t :: others) = .error (.parse ⟨.expectedValue, ⟨4, 5⟩⟩)) ∧
      ¬ Viable tokens := by
  intro tokens
  have scanned : Token.scan "x = \x7d" = .ok (tokens ++ [Token.endAt 5]) := by decide +kernel
  have failed : ofTokens (tokens ++ [Token.endAt 5]) =
      .error (.parse ⟨.expectedValue, ⟨4, 5⟩⟩) := rfl
  obtain ⟨first, viable⟩ := ofTokens_viable_prefix scanned failed
  obtain ⟨before, t, after, split, span, -, front, ends, fails⟩ := first _ _ rfl
  have more : t.kind ≠ .endOfInput := fun ended ↦ by cases ends ended
  refine ⟨scanned, failed, ⟨before, t, after, split, span, front, (fails more).2⟩, fun whole ↦ ?_⟩
  obtain ⟨span, same⟩ := viable.mp whole
  cases same

end Manifest.Document
