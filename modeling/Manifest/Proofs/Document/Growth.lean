import Manifest.Document.Reading

/-!
# Reading on after other entries

A document may be read after entries that stand before it, further to the right in a longer text.
The two readings, with and without the entries before, go in step: their configurations differ only
in the outermost list of entries and in the places of the tokens they hold (`Config.Grows`). One
token keeps this (`step_grows`), and so the results are the same but for the entries before and the
places of faults (`run_grows`).
-/

namespace Manifest

/-- The fault moved to the right. -/
def ParseFault.shift (fault : ParseFault) (distance : Nat) : ParseFault :=
  { fault with span := fault.span.shift distance }

/-- The fault moved to the right, if it has a place. -/
def DocumentFault.shift (fault : DocumentFault) (distance : Nat) : DocumentFault :=
  match fault with
  | .lex fault => .lex (fault.shift distance)
  | .parse fault => .parse (fault.shift distance)
  | placeless => placeless

namespace Document

/-- The result of reading a document further to the right, after entries that stand before it. -/
def continued (first : List Entry) (distance : Nat) :
    Except DocumentFault Value → Except DocumentFault Value
  | .ok v => .ok (.object (first ++ v.entries))
  | .error fault => .error (fault.shift distance)

/-- The state with its token moved to the right. -/
def State.shift (distance : Nat) : State → State
  | .integer token => .integer (token.shift distance)
  | .fraction token => .fraction (token.shift distance)
  | tokenless => tokenless

/-- The slots of a reading with and without entries before it. They differ in the outermost. -/
inductive SlotsGrow (first : List Entry) : List Slot → List Slot → Prop
  | outermost {before : List Entry} {head : Head} :
    SlotsGrow first [.entry before head] [.entry (before ++ first.reverse) head]
  | inner {slot : Slot} {outer outer' : List Slot} :
    SlotsGrow first outer outer' → SlotsGrow first (slot :: outer) (slot :: outer')

/-- An open container, in its slots, with and without entries before the reading. -/
inductive InsideGrows (first : List Entry) :
    List Slot → Container → List Slot → Container → Prop
  | outermost {before : List Entry} :
    InsideGrows first [] (.entries before) [] (.entries (before ++ first.reverse))
  | inner {outer outer' : List Slot} {container : Container} :
    SlotsGrow first outer outer' → InsideGrows first outer container outer' container

/-- The configurations of a reading without and with entries before it and further to the right. -/
inductive Config.Grows (first : List Entry) (distance : Nat) : Config → Config → Prop
  | inside {outer outer' : List Slot} {container container' : Container} {d : Nat} :
    InsideGrows first outer container outer' container' →
    Grows first distance ⟨outer, .inside container, d⟩ ⟨outer', .inside container', d⟩
  | assign {before : List Entry} {id : String} {d : Nat} :
    Grows first distance ⟨[], .assign before id, d⟩ ⟨[], .assign (before ++ first.reverse) id, d⟩
  | entryCall {before : List Entry} {d : Nat} :
    Grows first distance ⟨[], .entryCall before, d⟩ ⟨[], .entryCall (before ++ first.reverse), d⟩
  | inner {outer outer' : List Slot} {state : State} {d : Nat} :
    SlotsGrow first outer outer' →
    Grows first distance ⟨outer, state, d⟩ ⟨outer', state.shift distance, d⟩

/-- What one token does in both readings. -/
inductive Step.Grows (first : List Entry) (distance : Nat) : Step → Step → Prop
  | next {config config' : Config} :
    config.Grows first distance config' → Grows first distance (.next config) (.next config')
  | fail {fault : DocumentFault} {taken : Bool} {d : Nat} :
    Grows first distance (.fail fault taken d) (.fail (fault.shift distance) taken d)

variable {first : List Entry} {distance : Nat} {outer outer' : List Slot} {d : Nat} {t : Token}

/-! ### One token -/

private theorem SlotsGrow.isEmpty (grows : SlotsGrow first outer outer') :
    outer.isEmpty = false ∧ outer'.isEmpty = false := by
  cases grows <;> exact ⟨rfl, rfl⟩

private theorem SlotsGrow.deliver (grows : SlotsGrow first outer outer') (v : Value) (d : Nat) :
    ∃ inner container inner' container' e, deliver v d outer = .inside inner container e ∧
      deliver v d outer' = .inside inner' container' e ∧
        InsideGrows first inner container inner' container' := by
  induction grows generalizing v d with
  | @outermost before head =>
    exact ⟨_, _, _, _, _, rfl, rfl, @InsideGrows.outermost first (head.bind v :: before)⟩
  | @inner slot outer outer' grows ih =>
    cases slot with
    | entry before head => exact ⟨_, _, _, _, _, rfl, rfl, .inner grows⟩
    | item before => exact ⟨_, _, _, _, _, rfl, rfl, .inner grows⟩
    | argument f => exact ih (.call f v) (d - 1)

private theorem next_grows (grows : SlotsGrow first outer outer') (state : State) (d : Nat) :
    Step.Grows first distance (.next ⟨outer, state, d⟩)
      (.next ⟨outer', state.shift distance, d⟩) :=
  .next (.inner grows)

private theorem toStep_grows (grows : SlotsGrow first outer outer') (v : Value) (d : Nat) :
    (deliver v d outer).toStep.Grows first distance (deliver v d outer').toStep := by
  obtain ⟨_, _, _, _, _, one, other, inside⟩ := grows.deliver v d
  rw [one, other]
  exact .next (.inside inside)

private theorem reject_grows {kind : ParseFault.Kind} :
    (Step.reject kind t d).Grows first distance (.reject kind (t.shift distance) d) := .fail

private theorem fail_grows {fault : DocumentFault} {taken : Bool}
    (placeless : fault.shift distance = fault) :
    Step.Grows first distance (.fail fault taken d) (.fail fault taken d) := by
  have moved := @Step.Grows.fail first distance fault taken d
  rwa [placeless] at moved

private theorem stepOpen_grows (grows : SlotsGrow first outer outer') {state : State}
    (tokenless : state.shift distance = state) :
    (stepOpen outer state d t).Grows first distance
      (stepOpen outer' state d (t.shift distance)) := by
  unfold stepOpen
  split
  · exact .fail
  · have := @next_grows first distance outer outer' grows state (d + 1)
    rwa [tokenless] at this

private theorem stepValue_grows (grows : SlotsGrow first outer outer') :
    (stepValue outer d t).Grows first distance (stepValue outer' d (t.shift distance)) := by
  obtain ⟨kind, lexeme, span⟩ := t
  cases kind with
  | integer =>
    simp only [stepValue, Token.shift]
    split
    · exact .fail
    · split
      · exact .fail
      · exact next_grows grows (.integer ⟨.integer, lexeme, span⟩) d
  | quoted => exact toStep_grows grows _ d
  | openBrace => exact stepOpen_grows grows rfl
  | openBracket => exact stepOpen_grows grows rfl
  | valueMark => exact stepOpen_grows grows rfl
  | _ => exact reject_grows

private theorem stepInside_grows {container container' : Container}
    (grows : InsideGrows first outer container outer' container')
    (more : t.kind ≠ .endOfInput) :
    (stepInside .endOfInput outer container d t).Grows first distance
      (stepInside .endOfInput outer' container' d (t.shift distance)) := by
  obtain ⟨kind, lexeme, span⟩ := t
  cases grows with
  | outermost =>
    cases kind with
    | endOfInput => exact absurd rfl more
    | separator => exact .next (.inside .outermost)
    | identifier => exact .next .assign
    | recordMark => exact .next .entryCall
    | _ => exact reject_grows
  | inner slots =>
    obtain ⟨inner, inner'⟩ := slots.isEmpty
    cases container with
    | entries before =>
      simp only [stepInside, inner, inner', Token.shift]
      cases kind with
      | closeBrace => exact toStep_grows slots _ _
      | separator => exact .next (.inside (.inner slots))
      | identifier => exact next_grows slots (.assign before lexeme) d
      | recordMark => exact next_grows slots (.entryCall before) d
      | _ => exact reject_grows (t := ⟨_, lexeme, span⟩)
    | items before =>
      cases kind with
      | closeBracket => exact toStep_grows slots _ _
      | separator => exact .next (.inside (.inner slots))
      | _ =>
        simp only [stepInside, Token.shift]
        exact stepValue_grows (.inner slots)

private theorem integerValue_shift : integerValue (t.shift distance) = integerValue t := rfl

private theorem fractionValue_shift {whole : Token} :
    fractionValue (whole.shift distance) (t.shift distance) = fractionValue whole t := rfl

private theorem shift_of_placeless {fault : DocumentFault} (placeless : fault.placed? = none) :
    fault.shift distance = fault := by
  cases fault <;> first | rfl | cases placeless

private theorem ite_grows {kind : Token.Kind} {yes yes' no no' : Step}
    (ifYes : yes.Grows first distance yes') (ifNo : no.Grows first distance no') :
    (if t.kind = kind then yes else no).Grows first distance
      (if (t.shift distance).kind = kind then yes' else no') := by
  by_cases same : t.kind = kind
  · rwa [if_pos same, if_pos (show (t.shift distance).kind = kind from same)]
  · rwa [if_neg same, if_neg (show ¬ (t.shift distance).kind = kind from same)]

/-- One token, which does not end the input, keeps two readings in step. -/
theorem step_grows {config config' : Config} (grows : config.Grows first distance config')
    (more : t.kind ≠ .endOfInput) :
    (step .endOfInput config t).Grows first distance
      (step .endOfInput config' (t.shift distance)) := by
  cases grows with
  | inside grows => exact stepInside_grows grows more
  | assign => exact ite_grows (next_grows .outermost .value _) reject_grows
  | entryCall => exact ite_grows (next_grows .outermost .value _) reject_grows
  | @inner outer outer' state d slots =>
    cases state with
    | inside container => exact stepInside_grows (.inner slots) more
    | assign before id => exact ite_grows (next_grows (.inner slots) .value d) reject_grows
    | entryCall before => exact ite_grows (next_grows (.inner slots) .value d) reject_grows
    | valueCall => exact ite_grows (next_grows (.inner slots) .value d) reject_grows
    | value => exact stepValue_grows slots
    | integer whole =>
      simp only [step, State.shift, integerValue_shift]
      refine ite_grows (next_grows slots (.fraction whole) d) ?_
      cases read : integerValue whole with
      | error fault => exact fail_grows (shift_of_placeless (placed?_of_integerValue read))
      | ok v =>
        obtain ⟨_, _, _, _, _, one, other, inside⟩ := slots.deliver v d
        simp only [one, other]
        exact stepInside_grows inside more
    | fraction whole =>
      simp only [step, State.shift, fractionValue_shift]
      refine ite_grows ?_ reject_grows
      cases read : fractionValue whole t with
      | error fault => exact fail_grows (shift_of_placeless (placed?_of_fractionValue read))
      | ok v => exact toStep_grows slots v d

/-! ### A whole reading -/

private theorem finishEntries_grows {before : List Entry} :
    (finishEntries .endOfInput (t.shift distance) (before ++ first.reverse) [] d).1 =
      continued first distance (finishEntries .endOfInput t before [] d).1 := by
  simp [finishEntries, continued, Value.entries]

private theorem finishEntries_inner {before : List Entry} (grows : SlotsGrow first outer outer') :
    (finishEntries .endOfInput (t.shift distance) before outer' d).1 =
      continued first distance (finishEntries .endOfInput t before outer d).1 := by
  obtain ⟨inner, inner'⟩ := grows.isEmpty
  simp [finishEntries, inner, inner', continued, DocumentFault.shift, ParseFault.shift,
    Token.shift]

private theorem finishValue_grows (grows : SlotsGrow first outer outer') (v : Value) (d : Nat) :
    (finishValue .endOfInput (t.shift distance) v d outer').1 =
      continued first distance (finishValue .endOfInput t v d outer).1 := by
  induction grows generalizing v d with
  | @outermost before head => exact @finishEntries_grows first distance d t (head.bind v :: before)
  | @inner slot outer outer' grows ih =>
    cases slot with
    | entry before head => exact finishEntries_inner grows
    | item before => exact ih _ (d - 1)
    | argument f => exact ih _ (d - 1)

private theorem finishInside_grows {container container' : Container}
    (grows : InsideGrows first outer container outer' container') (d : Nat) :
    (finish .endOfInput ⟨outer', .inside container', d⟩ (t.shift distance)).1 =
      continued first distance (finish .endOfInput ⟨outer, .inside container, d⟩ t).1 := by
  cases grows with
  | outermost => exact finishEntries_grows
  | inner slots =>
    cases container with
    | entries before => exact finishEntries_inner slots
    | items before => exact finishValue_grows slots _ _

/-- The end of the input has the same result in both readings. -/
theorem finish_grows {config config' : Config} (grows : config.Grows first distance config') :
    (finish .endOfInput config' (t.shift distance)).1 =
      continued first distance (finish .endOfInput config t).1 := by
  cases grows with
  | inside grows => exact finishInside_grows grows _
  | assign => rfl
  | entryCall => rfl
  | @inner outer outer' state d slots =>
    cases state with
    | inside container => exact finishInside_grows (.inner slots) d
    | integer whole =>
      simp only [finish, State.shift, integerValue_shift]
      cases read : integerValue whole with
      | error fault =>
        exact congrArg Except.error (shift_of_placeless (placed?_of_integerValue read)).symm
      | ok v => exact finishValue_grows slots v d
    | _ => rfl

/-- Two readings in step have the same result, but for the entries before the one and the places of
faults. -/
theorem run_grows {config config' : Config} (grows : config.Grows first distance config')
    (tokens : List Token) :
    (run .endOfInput config' (tokens.map (·.shift distance))).result =
      continued first distance (run .endOfInput config tokens).result := by
  induction tokens generalizing config config' with
  | nil => rfl
  | cons t tokens ih =>
    simp only [List.map_cons, run]
    by_cases ended : t.kind = .endOfInput
    · rw [if_pos ended, if_pos (show (t.shift distance).kind = .endOfInput from ended)]
      exact finish_grows grows
    · rw [if_neg ended, if_neg (show ¬ (t.shift distance).kind = .endOfInput from ended)]
      have stepped := step_grows grows ended
      revert stepped
      generalize step .endOfInput config t = one
      generalize step .endOfInput config' (t.shift distance) = other
      intro stepped
      cases stepped with
      | next grows => exact ih grows
      | fail => rfl

end Document
end Manifest
