import Manifest.Proofs.Document.Descent

/-!
# The machine follows a descent

The machine holds in its slots what a descent holds in the parts that it has still to come back to.
Whatever the slots around, the machine reads what the descent reads, and goes on with the value in
the innermost slot or fails where the descent fails (`Descends.run_eq`). So a cursor reads with the
machine what it reads by descent, and is left in the same place with the same levels open
(`Descends.read_eq`).
-/

namespace Manifest.Document

/-- The outcome, with no levels told after a success. The machine ends on the token that completes
its value, inside the level that this token closes. -/
def Outcome.settled (outcome : Outcome) : Outcome :=
  match outcome.result with
  | .ok _ => { outcome with depth := 0 }
  | .error _ => outcome

/-- How the machine goes on with a complete value for the innermost slot. -/
def resume (closing : Token.Kind) (v : Value) (depth : Nat) (outer : List Slot)
    (ts : List Token) : Outcome :=
  match deliver v depth outer with
  | .done v => ⟨.ok v, ts, 0⟩
  | .inside outer container depth => run closing ⟨outer, .inside container, depth⟩ ts

/-- How the machine goes on after what a descent has read, with the levels that end with it. -/
def resumed (closing : Token.Kind) (outer : List Slot) (levels : Nat)
    (result : Except DocumentFault Value) (after : Cursor) : Outcome :=
  match result with
  | .ok v => resume closing v (after.depth - levels) outer after.ahead
  | .error fault => ⟨.error fault, after.ahead, after.depth⟩

/-- How the machine goes on after what stands before a value, which gives the slots for the
value. -/
def awaited {α : Type} (closing : Token.Kind) (slots : α → List Slot)
    (result : Except DocumentFault α) (after : Cursor) : Outcome :=
  match result with
  | .ok a => run closing ⟨slots a, .value, after.depth⟩ after.ahead
  | .error fault => ⟨.error fault, after.ahead, after.depth⟩

private theorem awaited_map {α β : Type} {closing : Token.Kind} (slots : β → List Slot) (f : α → β)
    (result : Except DocumentFault α) (after : Cursor) :
    awaited closing slots (result.map f) after =
      awaited closing (fun a ↦ slots (f a)) result after := by
  cases result <;> rfl

variable {closing : Token.Kind} {outer : List Slot} {config : Config} {c after : Cursor} {d : Nat}
  {t : Token} {ts : List Token} {v : Value}

/-! ### One token of a run -/

/-- Where no token is left, the machine fails with the levels open that are open. -/
theorem run_exhausted {fault : DocumentFault} (peeked : c.peek = .error fault) :
    run closing config c.ahead = ⟨.error fault, c.ahead, config.depth⟩ := by
  obtain ⟨rfl, ahead⟩ := Cursor.peek_eq_error peeked
  rw [ahead]
  rfl

private theorem run_ended (ended : t.kind = .endOfInput) :
    run closing config (t :: ts) =
      ⟨(finish closing config t).1, t :: ts, (finish closing config t).2⟩ := by
  simp only [run, if_pos ended]

private theorem run_next {next : Config} (more : t.kind ≠ .endOfInput)
    (stepped : step closing config t = .next next) :
    run closing config (t :: ts) = run closing next ts := by
  simp only [run, if_neg more, stepped]

private theorem run_fail {fault : DocumentFault} {taken : Bool} (more : t.kind ≠ .endOfInput)
    (stepped : step closing config t = .fail fault taken d) :
    run closing config (t :: ts) = ⟨.error fault, if taken then ts else t :: ts, d⟩ := by
  simp only [run, if_neg more, stepped]

/-- A token that completes a value. -/
theorem run_deliver (more : t.kind ≠ .endOfInput)
    (stepped : step closing config t = (deliver v d outer).toStep) :
    (run closing config (t :: ts)).settled = (resume closing v d outer ts).settled := by
  simp only [run, if_neg more, stepped, resume]
  cases deliver v d outer <;> rfl

/-- A token that cannot stand where it stands, the end of the input among them. -/
theorem run_reject (kind : ParseFault.Kind)
    (finished : t.kind = .endOfInput →
      finish closing config t = (.error (.parse ⟨.endOfInput, t.span⟩), config.depth))
    (stepped : t.kind ≠ .endOfInput → step closing config t = .reject kind t config.depth) :
    run closing config (t :: ts) = ⟨.error (.parse (.unmet kind t)), t :: ts, config.depth⟩ := by
  by_cases ended : t.kind = .endOfInput
  · rw [run_ended ended, finished ended, ParseFault.unmet, if_pos ended]
  · rw [run_fail ended (stepped ended)]
    rfl

/-- At the end of the input a value is put into its slot, as it is anywhere. -/
theorem finishValue_eq_resume (ended : t.kind = .endOfInput) :
    (⟨(finishValue closing t v d outer).1, t :: ts, (finishValue closing t v d outer).2⟩ :
      Outcome).settled = (resume closing v d outer (t :: ts)).settled := by
  induction outer generalizing v d with
  | nil => rfl
  | cons slot outer ih =>
    cases slot with
    | entry before head =>
      simp only [resume, deliver, run_ended ended]
      rfl
    | item before =>
      simp only [resume, deliver, run_ended ended]
      rfl
    | argument f => exact @ih (d - 1) (.call f v)

/-! ### Parts that are not nested -/

/-- The machine reads a fraction as a cursor does. -/
theorem run_readFraction {whole : Token} {result : Except DocumentFault Value}
    (read : c.readFraction whole = (result, after)) :
    (run closing ⟨outer, .fraction whole, c.depth⟩ c.ahead).settled =
      (resumed closing outer 0 result after).settled := by
  unfold Cursor.readFraction at read
  split at read
  · next fault peeked =>
    cases read
    rw [run_exhausted peeked]
    rfl
  · next t peeked =>
    obtain ⟨ts, ahead⟩ := Cursor.peek_eq_ok peeked
    split at read
    · next kind =>
      have more : t.kind ≠ .endOfInput := by simp [kind]
      rw [Cursor.next_eq ahead more] at read
      obtain ⟨rfl, rfl⟩ := Prod.mk.inj read
      rw [ahead]
      cases value : fractionValue whole t with
      | error fault => rw [run_fail more (by simp only [step, kind, if_true, value]; rfl)]; rfl
      | ok v => exact run_deliver more (by simp only [step, kind, if_true, value]; rfl)
    · next kind =>
      cases read
      rw [resumed, ahead, run_reject .expectedNumber (fun _ ↦ rfl) fun _ ↦ by
        simp only [step, if_neg kind]]

/-- A whole number that no point follows is a value on its own. -/
theorem run_integerValue {whole : Token} (ahead : c.ahead = t :: ts) (noPoint : t.kind ≠ .point) :
    (run closing ⟨outer, .integer whole, c.depth⟩ c.ahead).settled =
      (resumed closing outer 0 (integerValue whole) c).settled := by
  rw [ahead]
  by_cases ended : t.kind = .endOfInput
  · rw [run_ended ended]
    cases value : integerValue whole with
    | error fault => simp only [finish, value, resumed, ahead]
    | ok v =>
      simp only [finish, value, resumed, ahead]
      exact finishValue_eq_resume ended
  · cases value : integerValue whole with
    | error fault =>
      rw [run_fail ended (by simp only [step, if_neg noPoint, value]; rfl), resumed, ahead]
      rfl
    | ok v =>
      simp only [run, if_neg ended, step, if_neg noPoint, value, resumed, resume, ahead]
      cases deliver v (c.depth - 0) outer with
      | done v => rfl
      | inside inner container d =>
        dsimp only
        cases stepInside closing inner container d t <;> rfl

/-- The machine reads a number as a cursor does. -/
theorem run_readNumber {whole : Token} {result : Except DocumentFault Value}
    (kind : whole.kind = .integer) (read : c.readNumber whole = (result, after)) :
    (run closing ⟨outer, .value, c.depth⟩ (whole :: c.ahead)).settled =
      (resumed closing outer 0 result after).settled := by
  have more : whole.kind ≠ .endOfInput := by simp [kind]
  unfold Cursor.readNumber at read
  split at read
  · next fault failed =>
    cases read
    rw [run_fail more (by simp only [step, stepValue, kind, failed]; rfl)]
    rfl
  next n number =>
  split at read
  · next large =>
    cases read
    rw [run_fail more (by simp only [step, stepValue, kind, number, if_pos large]; rfl)]
    rfl
  next small =>
  rw [run_next more (by simp only [step, stepValue, kind, number, if_neg small]; rfl)]
  split at read
  · next fault peeked =>
    cases read
    rw [run_exhausted peeked]
    rfl
  next t peeked =>
  obtain ⟨ts, ahead⟩ := Cursor.peek_eq_ok peeked
  split at read
  · next point =>
    have more : t.kind ≠ .endOfInput := by simp [point]
    rw [ahead, run_next more (by simp only [step, point, if_true]; rfl)]
    rw [Cursor.next_eq ahead more] at read
    exact run_readFraction read
  · next noPoint =>
    cases read
    exact run_integerValue ahead noPoint

/-- The machine reads the name before an argument as a cursor does. -/
theorem run_readName {state : State} {slot : String → Slot} {result : Except DocumentFault String}
    (finished : ∀ t, finish closing ⟨outer, state, c.depth⟩ t =
      (.error (.parse ⟨.endOfInput, t.span⟩), c.depth))
    (stepped : ∀ t, step closing ⟨outer, state, c.depth⟩ t =
      if t.kind = .identifier then .next ⟨slot t.lexeme :: outer, .value, c.depth⟩
      else .reject .expectedIdentifier t c.depth)
    (read : c.readName = (result, after)) :
    run closing ⟨outer, state, c.depth⟩ c.ahead =
      awaited closing (fun name ↦ slot name :: outer) result after := by
  unfold Cursor.readName at read
  split at read
  · next fault peeked =>
    cases read
    rw [run_exhausted peeked]
    rfl
  next t peeked =>
  obtain ⟨ts, ahead⟩ := Cursor.peek_eq_ok peeked
  split at read
  · next kind =>
    have more : t.kind ≠ .endOfInput := by simp [kind]
    rw [Cursor.next_eq ahead more] at read
    cases read
    rw [ahead, run_next more ((stepped t).trans (if_pos kind))]
    rfl
  · next kind =>
    cases read
    rw [awaited, ahead, run_reject .expectedIdentifier (fun _ ↦ finished t)
      fun _ ↦ (stepped t).trans (if_neg kind)]

/-- The machine reads the assignment mark after an identifier as a cursor does. -/
theorem run_readId {before : List Entry} {result : Except DocumentFault String}
    (peeked : c.peek = .ok t) (kind : t.kind = .identifier) (read : c.readId = (result, after)) :
    run closing ⟨outer, .assign before t.lexeme, c.depth⟩ c.next.ahead =
      awaited closing (fun id ↦ .entry before (.record id) :: outer) result after := by
  have named : c.readName = (.ok t.lexeme, c.next) := by
    simp only [Cursor.readName, peeked, kind, if_true]
  simp only [Cursor.readId, named] at read
  rw [← c.depth_next]
  split at read
  · next fault missing =>
    cases read
    rw [run_exhausted missing]
    rfl
  next mark marked =>
  obtain ⟨ts, ahead⟩ := Cursor.peek_eq_ok marked
  split at read
  · next assign =>
    have more : mark.kind ≠ .endOfInput := by simp [assign]
    rw [Cursor.next_eq ahead more] at read
    cases read
    rw [ahead, run_next more (by simp only [step, assign, if_true]; rfl)]
    rfl
  · next other =>
    cases read
    rw [awaited, ahead, run_reject .expectedAssign (fun _ ↦ rfl) fun _ ↦ by
      simp only [step, if_neg other]]

/-- The kind of token that closes the innermost list of entries. -/
def closer (closing : Token.Kind) (outer : List Slot) : Token.Kind :=
  if outer.isEmpty then closing else .closeBrace

/-- The machine reads the part of an entry before its value as a cursor does. -/
theorem run_readHead {before : List Entry} {result : Except DocumentFault Head}
    (peeked : c.peek = .ok t) (open_ : t.kind ≠ closer closing outer)
    (other : t.kind ≠ .separator) (read : c.readHead = (result, after)) :
    run closing ⟨outer, .inside (.entries before), c.depth⟩ c.ahead =
      awaited closing (fun head ↦ .entry before head :: outer) result after := by
  obtain ⟨ts, ahead⟩ := Cursor.peek_eq_ok peeked
  unfold closer at open_
  simp only [Cursor.readHead, peeked] at read
  split at read
  · next kind =>
    have more : t.kind ≠ .endOfInput := by simp [kind]
    have stepped : step closing ⟨outer, .inside (.entries before), c.depth⟩ t =
        .next ⟨outer, .assign before t.lexeme, c.depth⟩ := by
      simp only [step, stepInside]
      rw [if_neg open_, kind]
    rcases assigned : c.readId with ⟨id, between⟩
    rw [assigned] at read
    cases read
    have rest := @run_readId closing outer c _ t before _ peeked kind assigned
    rw [Cursor.next_eq ahead more] at rest
    rw [ahead, run_next more stepped, rest, awaited_map]
  · next kind =>
    have more : t.kind ≠ .endOfInput := by simp [kind]
    have stepped : step closing ⟨outer, .inside (.entries before), c.depth⟩ t =
        .next ⟨outer, .entryCall before, c.depth⟩ := by
      simp only [step, stepInside]
      rw [if_neg open_, kind]
    rcases named : c.next.readName with ⟨name, between⟩
    rw [named] at read
    cases read
    have rest := @run_readName closing outer c.next _ (.entryCall before)
      (fun name ↦ .entry before (.call name)) _ (fun _ ↦ rfl) (fun _ ↦ rfl) named
    rw [Cursor.next_eq ahead more] at rest
    rw [ahead, run_next more stepped, rest, awaited_map]
  · next noId noMark =>
    cases read
    rw [awaited, ahead, run_reject .expectedIdentifier ?_ ?_]
    · intro ended
      rw [ended] at open_
      simp only [finish, finishEntries]
      rw [if_neg ?_]
      rintro ⟨outermost, rfl⟩
      exact open_ (by rw [if_pos outermost])
    · intro more
      simp only [step, stepInside]
      rw [if_neg open_]

/-! ### Parts that are nested -/

/-- The state of the machine where something is to be read. -/
def Goal.state : Goal → State
  | value => .value
  | call => .valueCall
  | entries _ before => .inside (.entries before)
  | items before => .inside (.items before)

/-- The levels that end with what is to be read. -/
def Goal.levels : Goal → Nat
  | value => 0
  | _ => 1

/-- The machine closes a list of entries at the token that closes it for the descent. -/
def Goal.Fits (closing : Token.Kind) (outer : List Slot) : Goal → Prop
  | value => closer closing outer = .closeBrace
  | entries kind _ => closer closing outer = kind
  | _ => True

variable {goal : Goal} {result : Except DocumentFault Value}

private theorem opened_cases {kind : Token.Kind} (opened : Goal.opened? kind = some goal) :
    (kind = .openBrace ∧ goal = .entries .closeBrace []) ∨
      (kind = .openBracket ∧ goal = .items []) ∨ (kind = .valueMark ∧ goal = .call) := by
  unfold Goal.opened? at opened
  split at opened <;> simp_all

/-- A token that opens a level does so for the machine. -/
theorem stepValue_opened (opened : Goal.opened? t.kind = some goal) :
    stepValue outer d t = stepOpen outer goal.state d t := by
  obtain ⟨kind, rfl⟩ | ⟨kind, rfl⟩ | ⟨kind, rfl⟩ := opened_cases opened <;>
    simp only [stepValue, kind, Goal.state]

/-- What is read one level deeper ends that level. -/
theorem levels_opened {kind : Token.Kind} (opened : Goal.opened? kind = some goal) :
    goal.levels = 1 := by
  obtain ⟨-, rfl⟩ | ⟨-, rfl⟩ | ⟨-, rfl⟩ := opened_cases opened <;> rfl

private theorem fits_opened {kind : Token.Kind} (opened : Goal.opened? kind = some goal)
    (fits : closer closing outer = .closeBrace) : goal.Fits closing outer := by
  obtain ⟨-, rfl⟩ | ⟨-, rfl⟩ | ⟨-, rfl⟩ := opened_cases opened
  · exact fits
  · trivial
  · trivial

/-- A token that opens a level, where one more may be open. -/
theorem run_opened {inner : Cursor} (peeked : c.peek = .ok t)
    (opened : Goal.opened? t.kind = some goal) (entered : c.enterAt t = (.ok (), inner)) :
    run closing ⟨outer, .value, c.depth⟩ c.ahead =
      run closing ⟨outer, goal.state, inner.next.depth⟩ inner.next.ahead := by
  obtain ⟨ts, ahead⟩ := Cursor.peek_eq_ok peeked
  obtain ⟨room, rfl⟩ := Cursor.enterAt_eq_ok entered
  have more := Goal.ne_endOfInput opened
  have stepped : step closing ⟨outer, .value, c.depth⟩ t =
      .next ⟨outer, goal.state, c.depth + 1⟩ := by
    rw [step, stepValue_opened opened, stepOpen, if_neg (Nat.not_le.mpr room)]
  have taken : Cursor.next { c with depth := c.depth + 1 } = ⟨ts, c.index + 1, c.depth + 1⟩ :=
    Cursor.next_eq ahead more
  rw [taken, ahead, run_next more stepped]

/-- A token that opens a level, where too many are open. -/
theorem run_tooDeep {fault : DocumentFault} (peeked : c.peek = .ok t)
    (opened : Goal.opened? t.kind = some goal) (entered : c.enterAt t = (.error fault, after)) :
    run closing ⟨outer, .value, c.depth⟩ c.ahead = ⟨.error fault, after.ahead, after.depth⟩ := by
  obtain ⟨ts, ahead⟩ := Cursor.peek_eq_ok peeked
  obtain ⟨full, rfl, rfl⟩ := Cursor.enterAt_eq_error entered
  have stepped : step closing ⟨outer, .value, after.depth⟩ t =
      .fail (.parse ⟨.nestingTooDeep, t.span⟩) false after.depth := by
    rw [step, stepValue_opened opened, stepOpen, if_pos full]
  rw [ahead, run_fail (Goal.ne_endOfInput opened) stepped]
  rfl

/-- A token that starts no value. -/
theorem stepValue_reject (noInteger : t.kind ≠ .integer) (noQuoted : t.kind ≠ .quoted)
    (noLevel : Goal.opened? t.kind = none) :
    stepValue outer d t = .reject .expectedValue t d := by
  unfold stepValue
  split <;> simp_all [Goal.opened?]

/-- The token that closes a list of entries. -/
theorem run_entriesEnd {before : List Entry} (peeked : c.peek = .ok t)
    (closes : t.kind = closer closing outer) :
    (run closing ⟨outer, .inside (.entries before), c.depth⟩ c.ahead).settled =
      (resumed closing outer 1 (.ok (.object before.reverse)) c.next).settled := by
  obtain ⟨ts, ahead⟩ := Cursor.peek_eq_ok peeked
  unfold closer at closes
  by_cases ended : t.kind = .endOfInput
  · -- Only the outermost list may be closed by the end of the input, which is not taken.
    have stays : c.next = c := by simp only [Cursor.next, ahead, if_pos ended]
    cases outer with
    | nil =>
      have same : closing = .endOfInput := closes.symm.trans ended
      rw [stays, ahead, run_ended ended]
      simp only [finish, finishEntries, same, resumed, ahead]
      rfl
    | cons slot outer => cases ended.symm.trans closes
  · rw [Cursor.next_eq ahead ended, ahead]
    refine run_deliver ended ?_
    simp only [step, stepInside]
    rw [if_pos closes]

/-- A separator between entries or items. -/
theorem run_separator {container : Container} (peeked : c.peek = .ok t)
    (kind : t.kind = .separator)
    (open_ : ∀ before, container = .entries before → t.kind ≠ closer closing outer) :
    run closing ⟨outer, .inside container, c.depth⟩ c.ahead =
      run closing ⟨outer, .inside container, c.next.depth⟩ c.next.ahead := by
  obtain ⟨ts, ahead⟩ := Cursor.peek_eq_ok peeked
  have more : t.kind ≠ .endOfInput := by simp [kind]
  rw [Cursor.next_eq ahead more, ahead]
  refine run_next more ?_
  cases container with
  | entries before =>
    have open_ := open_ before rfl
    unfold closer at open_
    simp only [step, stepInside]
    rw [if_neg open_, kind]
  | items before => simp only [step, stepInside, kind]

/-- An item is read as a value for its slot. -/
theorem run_item {before : List Value} (peeked : c.peek = .ok t) (open_ : t.kind ≠ .closeBracket)
    (more : t.kind ≠ .endOfInput) (other : t.kind ≠ .separator) :
    run closing ⟨outer, .inside (.items before), c.depth⟩ c.ahead =
      run closing ⟨.item before :: outer, .value, c.depth⟩ c.ahead := by
  obtain ⟨ts, ahead⟩ := Cursor.peek_eq_ok peeked
  have same : step closing ⟨outer, .inside (.items before), c.depth⟩ t =
      step closing ⟨.item before :: outer, .value, c.depth⟩ t := by
    simp only [step, stepInside]
  rw [ahead]
  simp only [run, if_neg more, same]

/-- The machine reads what a descent reads, whatever the slots around, and goes on with it. -/
theorem Descends.run_eq (descends : Descends c goal result after) (outer : List Slot)
    (fits : goal.Fits closing outer) :
    (run closing ⟨outer, goal.state, c.depth⟩ c.ahead).settled =
      (resumed closing outer goal.levels result after).settled := by
  -- By the rules of the descent. Slots are pushed for a part, which `resume` then finds on top.
  induction descends generalizing outer with
  | exhausted peeked =>
    rw [run_exhausted peeked]
    rfl
  | @integer c after t result peeked kind read =>
    obtain ⟨ts, ahead⟩ := Cursor.peek_eq_ok peeked
    rw [Cursor.next_eq ahead (by simp [kind])] at read
    rw [ahead]
    exact run_readNumber kind read
  | @quoted c t peeked kind =>
    obtain ⟨ts, ahead⟩ := Cursor.peek_eq_ok peeked
    have more : t.kind ≠ .endOfInput := by simp [kind]
    rw [ahead, Cursor.next_eq ahead more]
    exact run_deliver more (by simp only [Goal.state, step, stepValue, kind]; rfl)
  | tooDeep peeked opened entered =>
    rw [Goal.state, run_tooDeep peeked opened entered]
    rfl
  | nested peeked opened entered _ deeper ih =>
    rw [Goal.state, run_opened peeked opened entered, ih outer (fits_opened opened fits),
      levels_opened opened]
    simp only [resumed, deeper]
    rfl
  | nestedFault peeked opened entered _ ih =>
    rw [Goal.state, run_opened peeked opened entered]
    exact ih outer (fits_opened opened fits)
  | @noValue c t peeked noInteger noQuoted noLevel =>
    obtain ⟨ts, ahead⟩ := Cursor.peek_eq_ok peeked
    have rejects := @run_reject closing ⟨outer, .value, c.depth⟩ t ts .expectedValue (fun _ ↦ rfl)
      fun _ ↦ stepValue_reject noInteger noQuoted noLevel
    rw [ahead, resumed, ahead, ← rejects]
    rfl
  | noName read =>
    rw [Goal.state, run_readName (fun _ ↦ rfl) (fun _ ↦ rfl) read]
    rfl
  | @call c between after name result read _ ih =>
    rw [Goal.state, @run_readName closing outer c _ .valueCall .argument _ (fun _ ↦ rfl)
      (fun _ ↦ rfl) read]
    refine (ih (.argument name :: outer) rfl).trans ?_
    cases result <;> rfl
  | entriesEnd peeked closes => exact run_entriesEnd peeked (closes.trans fits.symm)
  | betweenEntries peeked open_ kind _ ih =>
    rw [Goal.state, run_separator peeked kind fun _ _ ↦ fits ▸ open_]
    exact ih outer fits
  | noHead peeked open_ other read =>
    rw [Goal.state, run_readHead peeked (fits ▸ open_) other read]
    rfl
  | @entry c between later after t kind before head v result peeked open_ other read _ _ valueIh
      restIh =>
    rw [Goal.state, run_readHead peeked (fits ▸ open_) other read]
    exact (valueIh (.entry before head :: outer) rfl).trans (restIh outer fits)
  | @entryFault c between after t kind before head fault peeked open_ other read _ ih =>
    rw [Goal.state, run_readHead peeked (fits ▸ open_) other read]
    exact ih (.entry before head :: outer) rfl
  | @itemsEnd c t before peeked kind =>
    obtain ⟨ts, ahead⟩ := Cursor.peek_eq_ok peeked
    have more : t.kind ≠ .endOfInput := by simp [kind]
    rw [ahead, Cursor.next_eq ahead more]
    exact run_deliver more (by simp only [Goal.state, step, stepInside, kind]; rfl)
  | @inputEnd c t before peeked ended =>
    obtain ⟨ts, ahead⟩ := Cursor.peek_eq_ok peeked
    rw [ahead, run_ended ended, resumed, ahead]
    exact finishValue_eq_resume ended
  | betweenItems peeked kind _ ih =>
    rw [Goal.state, run_separator peeked kind fun _ same ↦ by cases same]
    exact ih outer fits
  | @item c between after t before v result peeked open_ more other _ _ valueIh restIh =>
    rw [Goal.state, run_item peeked open_ more other]
    exact (valueIh (.item before :: outer) rfl).trans (restIh outer fits)
  | @itemFault c after t before fault peeked open_ more other _ ih =>
    rw [Goal.state, run_item peeked open_ more other]
    exact ih (.item before :: outer) rfl

/-! ### A cursor -/

private theorem settled_eq_ok {outcome : Outcome} {d : Nat}
    (same : outcome.settled = ⟨.ok v, ts, d⟩) : outcome.result = .ok v ∧ outcome.ahead = ts := by
  obtain ⟨fault | w, ahead, depth⟩ := outcome <;> cases same
  exact ⟨rfl, rfl⟩

private theorem settled_eq_error {outcome : Outcome} {fault : DocumentFault} {d : Nat}
    (same : outcome.settled = ⟨.error fault, ts, d⟩) : outcome = ⟨.error fault, ts, d⟩ := by
  obtain ⟨fault | w, ahead, depth⟩ := outcome <;> cases same
  rfl

/-- A cursor reads what a descent reads. -/
theorem Descends.read_eq (descends : Descends c goal result after) (fits : goal.Fits closing []) :
    c.read closing goal.state = (result, after) := by
  have kept := descends.keeps
  have index : c.index + (c.ahead.length - after.ahead.length) = after.index := by
    have sum := kept.reaches.index_add_length
    have fewer := kept.reaches.length_le
    omega
  have same := descends.run_eq [] fits
  cases result with
  | ok v =>
    obtain ⟨read, (ahead : _ = after.ahead)⟩ := settled_eq_ok same
    simp only [Cursor.read, read, ahead, index]
    rw [← kept.depth_eq v rfl]
  | error fault =>
    have failed := settled_eq_error same
    simp only [Cursor.read, failed, index]

end Manifest.Document
