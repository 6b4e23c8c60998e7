import Manifest.Proofs.Document.Reading
import Manifest.Proofs.Token.Written

/-!
# Reading without places

Reading looks at what tokens say and never at where they stand. Tokens of which the places are
forgotten are read in the same way, and so the document is the same, or the fault is the same but
for its place (`ofTokens_unplaced`). Tokens that say the same words therefore differ in nothing but
the places of faults (`ofTokens_of_words`).
-/

namespace Manifest

/-- The token with its place forgotten. -/
def Token.unplaced (token : Token) : Token := { token with span := ⟨0, 0⟩ }

/-- The fault with its place forgotten. -/
def LexFault.unplaced (fault : LexFault) : LexFault := { fault with span := ⟨0, 0⟩ }

/-- The fault with its place forgotten. -/
def ParseFault.unplaced (fault : ParseFault) : ParseFault := { fault with span := ⟨0, 0⟩ }

/-- The fault with its place forgotten, if it has one. -/
def DocumentFault.unplaced : DocumentFault → DocumentFault
  | .lex fault => .lex fault.unplaced
  | .parse fault => .parse fault.unplaced
  | placeless => placeless

/-- There is nothing to forget of a fault without a place. -/
theorem DocumentFault.unplaced_of_placeless {fault : DocumentFault}
    (placeless : fault.placed? = none) : fault.unplaced = fault := by
  cases fault <;> first | rfl | cases placeless

/-- Without places there is nothing more to a token than the word it says. -/
theorem Token.unplaced_of_word {t u : Token} (same : t.word = u.word) :
    t.unplaced = u.unplaced := by
  obtain ⟨kind, lexeme⟩ := Token.word_eq_iff.mp same
  rw [Token.unplaced, Token.unplaced, kind, lexeme]
  rfl

namespace Document

/-- The state with the place of its token forgotten. -/
def State.unplaced : State → State
  | .integer token => .integer token.unplaced
  | .fraction token => .fraction token.unplaced
  | tokenless => tokenless

/-- The configuration with the place of its token forgotten. -/
def Config.unplaced (config : Config) : Config := { config with state := config.state.unplaced }

/-- What one token does, with places forgotten. -/
def Step.unplaced : Step → Step
  | .next config => .next config.unplaced
  | .done v taken => .done v taken
  | .fail fault taken d => .fail fault.unplaced taken d

/-- A result with the place of its fault forgotten. -/
def unplacedResult (result : Except DocumentFault Value) : Except DocumentFault Value :=
  result.mapError DocumentFault.unplaced

variable {closing : Token.Kind} {outer : List Slot} {d : Nat} {t : Token}

/-! ### One token -/

private theorem toStep_unplaced (delivery : Delivery) :
    delivery.toStep.unplaced = delivery.toStep := by
  cases delivery <;> rfl

private theorem ite_unplaced {kind : Token.Kind} {yes yes' no no' : Step}
    (ifYes : yes' = yes.unplaced) (ifNo : no' = no.unplaced) :
    (if t.unplaced.kind = kind then yes' else no') =
      (if t.kind = kind then yes else no).unplaced := by
  rw [apply_ite Step.unplaced, ifYes, ifNo]
  rfl

private theorem stepOpen_unplaced {state : State} (tokenless : state.unplaced = state) :
    stepOpen outer state d t.unplaced = (stepOpen outer state d t).unplaced := by
  unfold stepOpen
  split
  · rfl
  · rw [Step.unplaced, Config.unplaced, tokenless]

private theorem stepValue_unplaced :
    stepValue outer d t.unplaced = (stepValue outer d t).unplaced := by
  obtain ⟨kind, lexeme, span⟩ := t
  cases kind with
  | integer =>
    simp only [stepValue, Token.unplaced]
    split
    · rfl
    · split <;> rfl
  | quoted => exact (toStep_unplaced _).symm
  | openBrace | openBracket | valueMark => exact stepOpen_unplaced rfl
  | _ => rfl

private theorem stepInside_unplaced {container : Container} :
    stepInside closing outer container d t.unplaced =
      (stepInside closing outer container d t).unplaced := by
  cases container with
  | entries before =>
    refine ite_unplaced (toStep_unplaced _).symm ?_
    obtain ⟨kind, lexeme, span⟩ := t
    cases kind <;> rfl
  | items before =>
    obtain ⟨kind, lexeme, span⟩ := t
    cases kind with
    | closeBracket => exact (toStep_unplaced _).symm
    | separator => rfl
    | _ =>
      simp only [stepInside, Token.unplaced]
      exact @stepValue_unplaced (.item before :: outer) d ⟨_, lexeme, span⟩

private theorem integerValue_unplaced : integerValue t.unplaced = integerValue t := rfl

private theorem fractionValue_unplaced {whole : Token} :
    fractionValue whole.unplaced t.unplaced = fractionValue whole t := rfl

/-- One token does the same without places. -/
theorem step_unplaced (config : Config) :
    step closing config.unplaced t.unplaced = (step closing config t).unplaced := by
  obtain ⟨outer, state, d⟩ := config
  cases state with
  | inside container => exact stepInside_unplaced
  | assign before id => exact ite_unplaced rfl rfl
  | entryCall before => exact ite_unplaced rfl rfl
  | valueCall => exact ite_unplaced rfl rfl
  | value => exact stepValue_unplaced
  | integer whole =>
    simp only [Config.unplaced, State.unplaced, step, integerValue_unplaced]
    refine ite_unplaced rfl ?_
    cases read : integerValue whole with
    | error fault => rw [Step.unplaced, fault.unplaced_of_placeless (placed?_of_integerValue read)]
    | ok v =>
      dsimp only
      cases deliver v d outer with
      | done v => rfl
      | inside outer container d => exact stepInside_unplaced
  | fraction whole =>
    simp only [Config.unplaced, State.unplaced, step, fractionValue_unplaced]
    refine ite_unplaced ?_ rfl
    cases read : fractionValue whole t with
    | error fault =>
      rw [Step.unplaced, fault.unplaced_of_placeless (placed?_of_fractionValue read)]
    | ok v => exact (toStep_unplaced _).symm

/-! ### A whole reading -/

private theorem finishEntries_unplaced {before : List Entry} :
    (finishEntries closing t.unplaced before outer d).1 =
      unplacedResult (finishEntries closing t before outer d).1 := by
  unfold finishEntries
  split <;> rfl

private theorem finishValue_unplaced (v : Value) (d : Nat) :
    (finishValue closing t.unplaced v d outer).1 =
      unplacedResult (finishValue closing t v d outer).1 := by
  induction outer generalizing v d with
  | nil => rfl
  | cons slot outer ih =>
    cases slot with
    | entry before head => exact finishEntries_unplaced
    | item before => exact ih _ (d - 1)
    | argument f => exact ih _ (d - 1)

/-- The end of the input has the same result without places. -/
theorem finish_unplaced (config : Config) :
    (finish closing config.unplaced t.unplaced).1 =
      unplacedResult (finish closing config t).1 := by
  obtain ⟨outer, state, d⟩ := config
  cases state with
  | inside container =>
    cases container with
    | entries before => exact finishEntries_unplaced
    | items before => exact finishValue_unplaced _ _
  | integer whole =>
    simp only [Config.unplaced, State.unplaced, finish, integerValue_unplaced]
    cases read : integerValue whole with
    | error fault =>
      exact congrArg Except.error (fault.unplaced_of_placeless (placed?_of_integerValue read)).symm
    | ok v => exact finishValue_unplaced v d
  | _ => rfl

/-- A reading has the same result without places. -/
theorem run_unplaced (config : Config) (tokens : List Token) :
    (run closing config.unplaced (tokens.map Token.unplaced)).result =
      unplacedResult (run closing config tokens).result := by
  induction tokens generalizing config with
  | nil => rfl
  | cons t tokens ih =>
    simp only [List.map_cons, run]
    by_cases ended : t.kind = .endOfInput
    · rw [if_pos ended, if_pos (show t.unplaced.kind = .endOfInput from ended)]
      exact finish_unplaced config
    · rw [if_neg ended, if_neg (show ¬ t.unplaced.kind = .endOfInput from ended), step_unplaced]
      cases step closing config t with
      | next config => exact ih config
      | done v taken => rfl
      | fail fault taken d => rfl

/-- The document of tokens is the same without places, and so is the fault but for its place. -/
theorem ofTokens_unplaced (tokens : List Token) :
    ofTokens (tokens.map Token.unplaced) = unplacedResult (ofTokens tokens) := by
  rw [ofTokens_eq_run, ofTokens_eq_run]
  exact run_unplaced ⟨[], .inside (.entries []), 0⟩ tokens

/-- Tokens that say the same words have the same document, or the same fault but for its place. -/
theorem ofTokens_of_words {ts us : List Token} (same : ts.map Token.word = us.map Token.word) :
    unplacedResult (ofTokens ts) = unplacedResult (ofTokens us) := by
  have unplaced : ts.map Token.unplaced = us.map Token.unplaced := by
    induction ts generalizing us with
    | nil => rw [List.map_eq_nil_iff.mp same.symm]
    | cons t ts ih =>
      obtain ⟨u, us, rfl, word, rest⟩ := List.map_eq_cons_iff.mp same.symm
      rw [List.map_cons, List.map_cons, Token.unplaced_of_word word.symm, ih rest.symm]
  rw [← ofTokens_unplaced, ← ofTokens_unplaced, unplaced]

end Document
end Manifest
