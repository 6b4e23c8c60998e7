import Manifest.Proofs.Document.Recognition
import Manifest.Proofs.Token.Unexpected

/-!
# The token that a fault blames

A reading fails at one token: at a whole number that is refused wherever it stands, or at a token
that cannot stand where it stands. `DocumentFault.Blames` ties a fault to its token, and every
fault of a reading of lexemes blames one of them or the end of the input (`run_eq_error`). The
invariant is that a whole number which the machine holds was admitted when it was taken, so that it
cannot fail later (`Config.Sound`).

The fault of a text therefore is that of a character that starts no lexeme, or blames a token of
the text or its end (`ofSource_eq_error`). It has its span in the text, or says that a whole number
of the text has more digits than are read (`ofSource_cases`).
-/

namespace Manifest

open Document
open Numeral (IsRun valueOf maxDigits)

/-- Why a whole number is refused, if it is: its digits are too many to be read, or it is greater
than the bound. -/
def Token.refusal? (token : Token) : Option DocumentFault :=
  if maxDigits < token.lexeme.toList.length then
    some (.numeral (.tooLong token.lexeme.toList.length))
  else if maxInteger < valueOf token.lexeme.toList then some (.lex (.outOfRange token))
  else none

/-- The fault is the refusal of the token, which is a whole number, or finds that the token cannot
stand at its place: that the input ends, at its end and nowhere else. -/
def DocumentFault.Blames (fault : DocumentFault) (token : Token) : Prop :=
  match fault with
  | .parse fault => fault.span = token.span ∧ (fault.kind = .endOfInput ↔ token.kind = .endOfInput)
  | refusal => token.kind = .integer ∧ token.refusal? = some refusal

/-- A span in a text of a length. -/
structure Span.Within (span : Span) (length : Nat) : Prop where
  start_nonneg : 0 ≤ span.start
  start_le_stop : span.start ≤ span.stop
  stop_le : span.stop ≤ length

/-- A fault that a text can have: one of scanning or of reading with a span in the text, or that a
whole number of the text has more digits than are read. -/
def DocumentFault.LiesIn (fault : DocumentFault) (source : String) : Prop :=
  match fault with
  | .lex fault => fault.span.Within source.length
  | .parse fault => fault.span.Within source.length
  | .numeral (.tooLong digits) => ∃ token : Token, token.StandsIn source.toList ∧
    token.kind = .integer ∧ token.lexeme.toList.length = digits ∧ maxDigits < digits
  | _ => False

namespace Document

variable {closing : Token.Kind} {outer : List Slot} {d : Nat} {t : Token} {ts : List Token}
  {fault : DocumentFault}

/-! ### One step -/

/-- A whole number that was not refused. -/
structure Admitted (token : Token) : Prop where
  run : IsRun token.lexeme.toList
  admitted : token.refusal? = none

/-- An admitted number can be read and is within the bound. -/
theorem Admitted.short {token : Token} (h : Admitted token) :
    token.lexeme.toList.length ≤ maxDigits ∧
      (valueOf token.lexeme.toList : Int) ≤ maxInteger := by
  have admitted := h.admitted
  unfold Token.refusal? at admitted
  split at admitted
  · cases admitted
  split at admitted
  · cases admitted
  · omega

/-- The whole number that a configuration holds, if it does, was admitted. -/
def Config.Sound (config : Config) : Prop :=
  match config.state with
  | .integer whole | .fraction whole => Admitted whole
  | _ => True

/-- A step at a token goes on soundly, ends the reading, or blames the token. -/
def Step.Sound (token : Token) : Step → Prop
  | .next config => config.Sound
  | .done _ _ => True
  | .fail fault _ _ => fault.Blames token

private theorem toStep_sound (delivery : Delivery) : delivery.toStep.Sound t := by
  cases delivery <;> trivial

private theorem reject_sound {kind : ParseFault.Kind} (lexical : t.IsLexical)
    (other : kind ≠ .endOfInput) : (Step.reject kind t d).Sound t := by
  refine ⟨rfl, ?_⟩
  simp only [ParseFault.unmet, lexical.kind_ne, if_false, other]

private theorem stepOpen_sound {state : State} (lexical : t.IsLexical)
    (opens : ∀ d, Config.Sound ⟨outer, state, d⟩) : (stepOpen outer state d t).Sound t := by
  unfold stepOpen
  split
  · exact ⟨rfl, by simp only [lexical.kind_ne, reduceCtorEq]⟩
  · exact opens (d + 1)

private theorem blames_of_refusal? (kind : t.kind = .integer) (refused : t.refusal? = some fault) :
    fault.Blames t := by
  cases fault with
  | parse fault =>
    unfold Token.refusal? at refused
    split at refused
    · cases refused
    split at refused <;> cases refused
  | _ => exact ⟨kind, refused⟩

/-- A whole number where a value is awaited is refused or held. -/
theorem stepValue_integer (kind : t.kind = .integer) (run : IsRun t.lexeme.toList) :
    stepValue outer d t =
      match t.refusal? with
      | some refusal => .fail refusal true d
      | none => .next ⟨outer, .integer t, d⟩ := by
  simp only [stepValue, kind, Numeral.readInteger_isRun run, Token.refusal?]
  by_cases long : maxDigits < t.lexeme.toList.length
  · simp only [if_pos long]
  · by_cases great : maxInteger < (valueOf t.lexeme.toList : Int)
    · simp only [if_neg long, if_pos great]
    · simp only [if_neg long, if_neg great]

private theorem stepValue_sound (lexical : t.IsLexical) : (stepValue outer d t).Sound t := by
  by_cases kind : t.kind = .integer
  · have run := lexical.isRun kind
    rw [stepValue_integer kind run]
    cases refused : t.refusal? with
    | none => exact ⟨run, refused⟩
    | some refusal => exact blames_of_refusal? kind refused
  · unfold stepValue
    split
    · next integer => exact absurd integer kind
    · exact toStep_sound _
    · exact stepOpen_sound lexical fun _ ↦ trivial
    · exact stepOpen_sound lexical fun _ ↦ trivial
    · exact stepOpen_sound lexical fun _ ↦ trivial
    · exact reject_sound lexical (by simp)

private theorem stepInside_sound {container : Container} (lexical : t.IsLexical) :
    (stepInside closing outer container d t).Sound t := by
  cases container with
  | entries before =>
    simp only [stepInside]
    by_cases ends : t.kind = (if outer.isEmpty then closing else .closeBrace)
    · rw [if_pos ends]
      exact toStep_sound _
    · rw [if_neg ends]
      split
      · trivial
      · trivial
      · trivial
      · exact reject_sound lexical (by simp)
  | items before =>
    simp only [stepInside]
    split
    · exact toStep_sound _
    · trivial
    · exact stepValue_sound lexical

/-- A step at a lexeme keeps a sound configuration sound, or blames the lexeme. -/
theorem step_sound {config : Config} (sound : config.Sound) (lexical : t.IsLexical) :
    (step closing config t).Sound t := by
  obtain ⟨outer, state, d⟩ := config
  cases state with
  | inside container => exact stepInside_sound lexical
  | value => exact stepValue_sound lexical
  | integer whole =>
    obtain ⟨short, small⟩ := Admitted.short sound
    simp only [step, integerValue_isRun sound.run short small]
    split
    · exact sound
    · split
      · trivial
      · exact stepInside_sound lexical
  | fraction whole =>
    simp only [step]
    split
    · next kind =>
      have run := lexical.isRun kind
      rw [fractionValue_isRun sound.run (Admitted.short sound).1 run]
      exact toStep_sound _
    · exact reject_sound lexical (by simp)
  | _ =>
    simp only [step]
    split
    · trivial
    · exact reject_sound lexical (by simp)

/-! ### A whole reading -/

private theorem finishEntries_blames {before : List Entry} (ended : t.kind = .endOfInput)
    (failed : (finishEntries closing t before outer d).1 = .error fault) : fault.Blames t := by
  unfold finishEntries at failed
  split at failed <;> cases failed
  exact ⟨rfl, by simp only [ended]⟩

private theorem finishValue_blames {v : Value} (ended : t.kind = .endOfInput)
    (failed : (finishValue closing t v d outer).1 = .error fault) : fault.Blames t := by
  induction outer generalizing v d with
  | nil => cases failed
  | cons slot outer ih =>
    cases slot with
    | entry before head => exact finishEntries_blames ended failed
    | item before => exact ih failed
    | argument f => exact ih failed

/-- What the end of the input leaves incomplete is blamed on the end. -/
theorem finish_blames {config : Config} (sound : config.Sound) (ended : t.kind = .endOfInput)
    (failed : (finish closing config t).1 = .error fault) : fault.Blames t := by
  obtain ⟨outer, state, d⟩ := config
  cases state with
  | inside container =>
    cases container with
    | entries before => exact finishEntries_blames ended failed
    | items before => exact finishValue_blames ended failed
  | integer whole =>
    obtain ⟨short, small⟩ := Admitted.short sound
    simp only [finish, integerValue_isRun sound.run short small] at failed
    exact finishValue_blames ended failed
  | _ =>
    cases failed
    exact ⟨rfl, by simp only [ended]⟩

/-- The steps of a reading of a document: the configuration before some tokens and the one
after. -/
inductive Steps : Config → List Token → Config → Prop
  | none {config : Config} : Steps config [] config
  | next {config between last : Config} {t : Token} {ts : List Token} :
    t.kind ≠ .endOfInput → step .endOfInput config t = .next between → Steps between ts last →
    Steps config (t :: ts) last

/-- A reading goes on from where its steps lead. -/
theorem Steps.run_append {config last : Config} (steps : Steps config ts last) (us : List Token) :
    (run .endOfInput config (ts ++ us)).result = (run .endOfInput last us).result := by
  induction steps with
  | none => rfl
  | next more stepped _ ih =>
    simp only [List.cons_append, run, if_neg more, stepped]
    exact ih

/-- Steps at lexemes keep a sound configuration sound. -/
theorem Steps.sound {config last : Config} (steps : Steps config ts last)
    (lexical : ∀ t ∈ ts, t.IsLexical) (sound : config.Sound) : last.Sound := by
  induction steps with
  | none => exact sound
  | next more stepped _ ih =>
    obtain ⟨first, others⟩ := List.forall_mem_cons.mp lexical
    have kept := @step_sound .endOfInput _ _ sound first
    rw [stepped] at kept
    exact ih others kept

/-- A reading of lexemes up to the end of the input fails at the end or at one of them, where the
step after those before it fails; and its fault blames the token there. -/
theorem run_eq_error {config : Config} {stop : Token} (sound : config.Sound)
    (lexical : ∀ t ∈ ts, t.IsLexical) (ended : stop.kind = .endOfInput)
    (failed : (run .endOfInput config (ts ++ [stop])).result = .error fault) :
    ∃ before t last, Steps config before last ∧ fault.Blames t ∧
      (before = ts ∧ t = stop ∨ ∃ after taken d, ts = before ++ t :: after ∧
        step .endOfInput last t = .fail fault taken d) := by
  -- Every step keeps the configuration sound, so that `step_sound` applies to the next token.
  induction ts generalizing config with
  | nil =>
    simp only [List.nil_append, run, ended, if_true] at failed
    exact ⟨[], stop, config, .none, finish_blames sound ended failed, .inl ⟨rfl, rfl⟩⟩
  | cons t ts ih =>
    obtain ⟨first, others⟩ := List.forall_mem_cons.mp lexical
    have stepped : (step .endOfInput config t).Sound t := step_sound sound first
    simp only [List.cons_append, run, if_neg first.kind_ne] at failed
    cases next : step .endOfInput config t with
    | next config' =>
      rw [next] at failed stepped
      obtain ⟨before, u, last, steps, blamed, place⟩ := ih stepped others failed
      refine ⟨t :: before, u, last, .next first.kind_ne next steps, blamed, ?_⟩
      obtain ⟨rfl, rfl⟩ | ⟨after, taken, d, rfl, fails⟩ := place
      · exact .inl ⟨rfl, rfl⟩
      · exact .inr ⟨after, taken, d, rfl, fails⟩
    | done v taken =>
      rw [next] at failed
      cases failed
    | fail fault' taken d =>
      rw [next] at failed stepped
      cases failed
      exact ⟨[], t, config, .none, stepped, .inr ⟨ts, taken, d, rfl, next⟩⟩

/-! ### Texts -/

private theorem within_of_standsIn {text : List Char} (stands : t.StandsIn text) :
    t.span.Within text.length :=
  ⟨stands.start_nonneg, Int.le_of_lt stands.start_lt_stop, stands.stop_le⟩

private theorem liesIn_of_refusal? {source : String} (stands : t.StandsIn source.toList)
    (kind : t.kind = .integer) (refused : t.refusal? = some fault) : fault.LiesIn source := by
  unfold Token.refusal? at refused
  split at refused
  · next long =>
    cases refused
    exact ⟨t, stands, kind, rfl, long⟩
  split at refused
  · cases refused
    have within := within_of_standsIn stands
    rwa [String.length_toList] at within
  · cases refused

private theorem liesIn_of_blames {source : String} {tiles : List Token}
    (tiling : Token.Tiles source.toList 0 tiles)
    (blamed : ∃ t ∈ tiles ++ [Token.endAt source.length], fault.Blames t) :
    fault.LiesIn source := by
  obtain ⟨t, inside, blames⟩ := blamed
  rw [List.mem_append, List.mem_singleton] at inside
  have within : t.span.Within source.length := by
    obtain inside | rfl := inside
    · have within := within_of_standsIn (tiling.stands t inside)
      rwa [String.length_toList] at within
    · exact ⟨Int.natCast_nonneg _, Int.le_refl _, Int.le_refl _⟩
  cases fault with
  | parse fault =>
    have same : fault.span = t.span := blames.1
    show fault.span.Within source.length
    rwa [same]
  | _ =>
    obtain ⟨kind, refused⟩ := blames
    obtain inside | rfl := inside
    · exact liesIn_of_refusal? (tiling.stands t inside) kind refused
    · cases kind

/-- A text without a document has a character that starts no lexeme, or the fault blames one of its
tokens or its end. -/
theorem ofSource_eq_error {source : String} (failed : ofSource source = .error fault) :
    (∃ before c rest, source.toList = before ++ c :: rest ∧
      fault = .lex (.unexpected ⟨before.length, before.length + 1⟩ (String.singleton c))) ∨
    ∃ tiles, Token.Tiles source.toList 0 tiles ∧
      ∃ t ∈ tiles ++ [Token.endAt source.length], fault.Blames t := by
  rw [ofSource] at failed
  cases scanned : Token.scan source with
  | error lexFault =>
    rw [scanned] at failed
    cases failed
    obtain ⟨before, c, rest, -, whole, -, -, -, rfl⟩ := Token.scanFrom_eq_error scanned
    exact .inl ⟨before, c, rest, whole, by rw [Nat.zero_add]⟩
  | ok tokens =>
    rw [scanned] at failed
    obtain ⟨tiles, rfl, tiling⟩ := Token.tiles_of_scan scanned
    have lexical (t : Token) (inside : t ∈ tiles) := (tiling.stands t inside).lexical
    dsimp only at failed
    rw [ofTokens_eq_run] at failed
    have start : Config.Sound ⟨[], .inside (.entries []), 0⟩ := trivial
    obtain ⟨before, t, last, -, blamed, place⟩ := run_eq_error start lexical rfl failed
    refine .inr ⟨tiles, tiling, t, ?_, blamed⟩
    obtain ⟨-, rfl⟩ | ⟨after, -, -, rfl, -⟩ := place <;> simp

/-- A text is read as an object, or its fault lies in the text. -/
theorem ofSource_cases (source : String) :
    match ofSource source with
    | .ok root => ∃ entries, root = .object entries
    | .error fault => fault.LiesIn source := by
  cases read : ofSource source with
  | ok root => exact ofSource_object read
  | error fault =>
    obtain ⟨before, c, rest, whole, rfl⟩ | ⟨tiles, tiling, blamed⟩ := ofSource_eq_error read
    · have length := congrArg List.length whole
      rw [String.length_toList, List.length_append, List.length_cons] at length
      refine ⟨Int.natCast_nonneg _, ?_, ?_⟩
      · show (before.length : Int) ≤ before.length + 1
        omega
      · show (before.length : Int) + 1 ≤ source.length
        omega
    · exact liesIn_of_blames tiling blamed

end Document
end Manifest
