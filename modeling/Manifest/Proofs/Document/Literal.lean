import Manifest.Proofs.Document.Blame
import Manifest.Proofs.Document.Growth

/-!
# Whole numbers in their places

A whole number may stand wherever some document goes on with a number (`AwaitsNumber`). One that is
refused, for its value or for its digits, is blamed there whatever follows it (`ofTokens_literal`):
the steps before it are those of a document (`Steps`), which does not end before its text, and its
own step fails where that of another number led on. Only the digits after a point are never
refused, and they stand where no number with a point of its own could.
-/

namespace Manifest.Document

open Numeral (IsRun valueOf maxDigits)

variable {outer : List Slot} {d : Nat} {t : Token} {ts : List Token} {fault : DocumentFault}

/-! ### Steps of a document -/

/-- A configuration of the reading of a document: the outermost slot is for an entry, so that other
entries could stand before. -/
def Config.OfDocument (config : Config) : Prop := ∃ other, config.Grows [] 0 other

private theorem Config.OfDocument.step {config : Config} (inside : config.OfDocument)
    (more : t.kind ≠ .endOfInput) :
    (∃ next, Document.step .endOfInput config t = .next next ∧ next.OfDocument) ∨
      ∃ fault taken d, Document.step .endOfInput config t = .fail fault taken d := by
  obtain ⟨other, grows⟩ := inside
  have stepped := step_grows grows more
  revert stepped
  generalize Document.step .endOfInput config t = one
  generalize Document.step .endOfInput other (t.shift 0) = two
  intro stepped
  cases stepped with
  | next grows => exact .inl ⟨_, rfl, _, grows⟩
  | fail => exact .inr ⟨_, _, _, rfl⟩

/-- Tokens of a document lead on, or fail whatever follows them. -/
theorem Config.OfDocument.steps {config : Config} (inside : config.OfDocument)
    (more : ∀ t ∈ ts, t.kind ≠ .endOfInput) :
    (∃ last, Steps config ts last ∧ last.OfDocument) ∨
      ∃ fault, ∀ us, (run .endOfInput config (ts ++ us)).result = .error fault := by
  induction ts generalizing config with
  | nil => exact .inl ⟨config, .none, inside⟩
  | cons t ts ih =>
    obtain ⟨first, others⟩ := List.forall_mem_cons.mp more
    obtain ⟨next, stepped, inside'⟩ | ⟨fault, taken, d, failed⟩ := inside.step first
    · obtain ⟨last, steps, ends⟩ | ⟨fault, failed⟩ := ih inside' others
      · exact .inl ⟨last, .next first stepped steps, ends⟩
      · refine .inr ⟨fault, fun us ↦ ?_⟩
        simp only [List.cons_append, run, if_neg first, stepped]
        exact failed us
    · refine .inr ⟨fault, fun us ↦ ?_⟩
      simp only [List.cons_append, run, if_neg first, failed]

/-- A number may stand after the tokens: some document goes on with a whole number and a point. -/
def AwaitsNumber (before : List Token) : Prop :=
  ∃ whole point rest root, whole.kind = .integer ∧ point.kind = .point ∧
    ofTokens (before ++ whole :: point :: rest) = .ok root

/-- A number may stand after an identifier and an assignment mark. -/
theorem awaitsNumber_assigned {id mark : Token} (identifies : id.kind = .identifier)
    (assigns : mark.kind = .assign) : AwaitsNumber [id, mark] := by
  let zero : Token := ⟨.integer, String.ofList ['0'], ⟨0, 1⟩⟩
  let point : Token := ⟨.point, ".", ⟨1, 2⟩⟩
  have digits : zero.lexeme.toList = ['0'] := String.toList_ofList
  have run : IsRun zero.lexeme.toList := by
    rw [digits]
    exact ⟨List.cons_ne_nil _ _, List.forall_mem_singleton.mpr rfl⟩
  have short : zero.lexeme.toList.length ≤ maxDigits := by
    rw [digits]
    decide
  have taken (outer : List Slot) : stepValue outer 0 zero = .next ⟨outer, .integer zero, 0⟩ := by
    have admitted : zero.refusal? = none := by
      rw [Token.refusal?, digits]
      decide
    rw [stepValue_integer rfl run, admitted]
  refine ⟨zero, point, [zero, Token.endAt 0],
    .object [.record id.lexeme (.float (realOf zero zero))], rfl, rfl, ?_⟩
  rw [ofTokens_eq_run]
  simp [Document.run, step, stepInside, identifies, assigns, taken,
    fractionValue_isRun run short run, deliver, Delivery.toStep, finish, finishEntries,
    Token.endAt, Head.bind, zero, point]

section Literals

variable {digits literal : Token}

private theorem not_ends {kind : Token.Kind} (outer : List Slot) (more : kind ≠ .endOfInput)
    (other : kind ≠ .closeBrace) :
    ¬ kind = (if outer.isEmpty then .endOfInput else .closeBrace) := by
  split
  · exact more
  · exact other

private theorem stepInside_literal {container : Container} {next : Config}
    (kind : digits.kind = .integer) (same : literal.kind = .integer)
    (run : IsRun literal.lexeme.toList) (refused : literal.refusal? = some fault)
    (stepped : stepInside .endOfInput outer container d digits = .next next) :
    stepInside .endOfInput outer container d literal = .fail fault true d := by
  cases container with
  | entries before =>
    simp only [stepInside, kind] at stepped
    rw [if_neg (not_ends outer (by simp) (by simp))] at stepped
    cases stepped
  | items before =>
    simp only [stepInside, same]
    rw [stepValue_integer same run, refused]

private theorem step_literal {state : State} {next : Config} (kind : digits.kind = .integer)
    (same : literal.kind = .integer) (run : IsRun literal.lexeme.toList)
    (refused : literal.refusal? = some fault) (noFraction : ∀ whole, state ≠ .fraction whole)
    (stepped : step .endOfInput ⟨outer, state, d⟩ digits = .next next) :
    ∃ e, step .endOfInput ⟨outer, state, d⟩ literal = .fail fault true e := by
  cases state with
  | inside container => exact ⟨d, stepInside_literal kind same run refused stepped⟩
  | value =>
    refine ⟨d, ?_⟩
    simp only [step, stepValue_integer same run, refused]
  | integer whole =>
    simp only [step, kind, same, reduceCtorEq, if_false] at stepped ⊢
    split at stepped
    · cases stepped
    · split at stepped
      · cases stepped
      · exact ⟨_, stepInside_literal kind same run refused stepped⟩
  | fraction whole => exact absurd rfl (noFraction whole)
  | _ =>
    simp only [step, kind, reduceCtorEq, if_false] at stepped
    cases stepped

private theorem stepInside_point {container : Container} (kind : t.kind = .point) :
    ∃ fault, stepInside .endOfInput outer container d t = .fail fault false d := by
  cases container with
  | entries before =>
    simp only [stepInside, kind]
    rw [if_neg (not_ends outer (by simp) (by simp))]
    exact ⟨_, rfl⟩
  | items before =>
    simp only [stepInside, stepValue, kind]
    exact ⟨_, rfl⟩

private theorem not_fraction {config : Config} {whole point : Token} {rest : List Token}
    {root : Value} (inside : config.OfDocument) (kind : digits.kind = .integer)
    (mark : point.kind = .point)
    (read : (run .endOfInput config (digits :: point :: rest)).result = .ok root) :
    config.state ≠ .fraction whole := by
  obtain ⟨outer, state, d⟩ := config
  rintro rfl
  have more : digits.kind ≠ .endOfInput := by simp [kind]
  obtain ⟨next, stepped, -⟩ | ⟨fault, taken, e, failed⟩ := inside.step more
  · simp only [run, if_neg more, stepped, mark, reduceCtorEq, if_false] at read
    simp only [step, kind, if_true] at stepped
    split at stepped
    · cases stepped
    · next v _ =>
      rcases delivered : deliver v d outer with v | ⟨inner, container, e⟩
      · rw [delivered] at stepped
        cases stepped
      · rw [delivered] at stepped
        cases stepped
        obtain ⟨fault, failed⟩ := @stepInside_point inner e point container mark
        simp only [step, failed] at read
        cases read
  · simp only [run, if_neg more, failed] at read
    cases read

/-- A whole number that is refused is blamed wherever a number may stand, whatever follows it. -/
theorem ofTokens_literal {before : List Token} (awaits : AwaitsNumber before)
    (more : ∀ t ∈ before, t.kind ≠ .endOfInput) (same : literal.kind = .integer)
    (run : IsRun literal.lexeme.toList) (refused : literal.refusal? = some fault)
    (after : List Token) : ofTokens (before ++ literal :: after) = .error fault := by
  obtain ⟨whole, point, rest, root, kind, mark, read⟩ := awaits
  rw [ofTokens_eq_run] at read ⊢
  have start : Config.OfDocument ⟨[], .inside (.entries []), 0⟩ := ⟨_, .inside .outermost⟩
  have wholeMore : whole.kind ≠ .endOfInput := by simp [kind]
  have literalMore : literal.kind ≠ .endOfInput := by simp [same]
  obtain ⟨⟨outer, state, d⟩, steps, inside⟩ | ⟨fault, failed⟩ := start.steps more
  · rw [steps.run_append] at read ⊢
    obtain ⟨next, stepped, -⟩ | ⟨fault', taken, e, failed⟩ := inside.step wholeMore
    · have noFraction (digits : Token) : state ≠ .fraction digits :=
        not_fraction inside kind mark read
      obtain ⟨e, failed⟩ := step_literal kind same run refused noFraction stepped
      simp only [Document.run, if_neg literalMore, failed]
    · simp only [Document.run, if_neg wholeMore, failed] at read
      cases read
  · rw [failed] at read
    cases read

end Literals

/-! ### Texts -/

/-- A whole number above the bound is refused: for its digits if they are too many to be read, and
for its value, with its span, if they are not. -/
theorem refusal?_of_lt {literal : Token}
    (great : maxInteger < (valueOf literal.lexeme.toList : Int)) :
    literal.refusal? = some
      (if maxDigits < literal.lexeme.toList.length then
        .numeral (.tooLong literal.lexeme.toList.length)
      else .lex (.outOfRange literal)) := by
  rw [Token.refusal?, if_pos great]
  split
  · rfl
  · rfl

/-- A whole number that is refused is the fault of a text wherever a number may stand. -/
theorem ofSource_literal {source : String} {before after : List Token} {literal : Token}
    (scanned : Token.scan source = .ok (before ++ literal :: after)) (awaits : AwaitsNumber before)
    (kind : literal.kind = .integer) (refused : literal.refusal? = some fault) :
    ofSource source = .error fault := by
  obtain ⟨ts, whole, lexical⟩ := Token.scanFrom_eq_ok scanned
  -- The literal is not the end of the text, which therefore comes after it.
  obtain ⟨others, rfl⟩ : ∃ others, after = others ++ [Token.endAt (0 + source.toList.length)] := by
    obtain rfl | ⟨others, last, rfl⟩ := after.eq_nil_or_concat
    · have last := (List.append_inj' whole rfl).2
      rw [List.singleton_inj] at last
      rw [last] at kind
      cases kind
    · rw [List.concat_eq_append, ← List.cons_append, ← List.append_assoc] at whole
      have last := (List.append_inj' whole rfl).2
      exact ⟨others, by rw [List.concat_eq_append, last]⟩
  rw [← List.cons_append, ← List.append_assoc] at whole
  obtain rfl := List.append_cancel_right whole
  have more : ∀ t ∈ before, t.kind ≠ .endOfInput := by
    intro t inside
    exact (lexical t (List.mem_append_left _ inside)).kind_ne
  have run := (lexical literal (by simp)).isRun kind
  rw [ofSource, scanned]
  exact ofTokens_literal awaits more kind run refused _

end Manifest.Document
