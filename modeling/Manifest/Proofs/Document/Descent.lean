import Manifest.Document.Reading

/-!
# Reading by descent

What a cursor reads can be told without the machine and its slots, by descent into the parts of a
document. `Descends` has a rule for each thing that may happen at the current token. A part that
opens a level is read one level deeper, and the level is closed after a success and stays open
after a fault, so that the number of open levels is counted here as it goes up and down.

A descent keeps the cursor in order, however it ends (`Descends.keeps`) and all the way through
(`Visits.leads`). It always ends, since each of its parts starts with fewer tokens ahead, or is the
first item of an array (`exists_descends`).
-/

namespace Manifest.Document

namespace Cursor

/-! ### Parts that are not nested -/

/-- Read the function of a call. -/
def readName (c : Cursor) : Except DocumentFault String × Cursor :=
  match c.peek with
  | .error fault => (.error fault, c)
  | .ok token =>
    if token.kind = .identifier then (.ok token.lexeme, c.next)
    else (.error (.parse (.unmet .expectedIdentifier token)), c)

/-- Read the identifier of a record and the assignment mark. -/
def readId (c : Cursor) : Except DocumentFault String × Cursor :=
  match c.readName with
  | (.error fault, after) => (.error fault, after)
  | (.ok id, after) =>
    match after.peek with
    | .error fault => (.error fault, after)
    | .ok mark =>
      if mark.kind = .assign then (.ok id, after.next)
      else (.error (.parse (.unmet .expectedAssign mark)), after)

/-- Read the part of an entry before its value. -/
def readHead (c : Cursor) : Except DocumentFault Head × Cursor :=
  match c.peek with
  | .error fault => (.error fault, c)
  | .ok token =>
    match token.kind with
    | .identifier => (c.readId.1.map .record, c.readId.2)
    | .recordMark => (c.next.readName.1.map .call, c.next.readName.2)
    | _ => (.error (.parse (.unmet .expectedIdentifier token)), c)

/-- Read on after a point that follows a whole number. -/
def readFraction (whole : Token) (c : Cursor) : Except DocumentFault Value × Cursor :=
  match c.peek with
  | .error fault => (.error fault, c)
  | .ok fraction =>
    if fraction.kind = .integer then (fractionValue whole fraction, c.next)
    else (.error (.parse (.unmet .expectedNumber fraction)), c)

/-- Read on after a whole number. -/
def readNumber (whole : Token) (c : Cursor) : Except DocumentFault Value × Cursor :=
  match Numeral.readInteger whole.lexeme with
  | .error fault => (.error (.numeral fault), c)
  | .ok n =>
    if maxInteger < n then (.error (.lex (.outOfRange whole)), c)
    else match c.peek with
      | .error fault => (.error fault, c)
      | .ok token =>
        if token.kind = .point then c.next.readFraction whole else (integerValue whole, c)

end Cursor

/-! ### Parts that are nested -/

/-- What a descent is to read. -/
inductive Goal
  | value
  /-- The function of a call that is a value, and its argument. -/
  | call
  /-- Entries up to a token of a kind, after those before, the last first. -/
  | entries (closing : Token.Kind) (before : List Entry)
  /-- Items of an array, after those before, the last first. -/
  | items (before : List Value)

/-- What is read one level deeper after a token that opens a level. -/
def Goal.opened? : Token.Kind → Option Goal
  | .openBrace => some (.entries .closeBrace [])
  | .openBracket => some (.items [])
  | .valueMark => some .call
  | _ => none

/-- `Descends c goal result after`: what is to be read at the cursor `c` ends in the result, with
the cursor `after`. -/
inductive Descends : Cursor → Goal → Except DocumentFault Value → Cursor → Prop
  | exhausted {c : Cursor} {goal : Goal} {fault : DocumentFault} :
    c.peek = .error fault → Descends c goal (.error fault) c
  | integer {c after : Cursor} {t : Token} {result : Except DocumentFault Value} :
    c.peek = .ok t → t.kind = .integer → c.next.readNumber t = (result, after) →
    Descends c .value result after
  | quoted {c : Cursor} {t : Token} :
    c.peek = .ok t → t.kind = .quoted → Descends c .value (.ok (.text t.content)) c.next
  | tooDeep {c after : Cursor} {t : Token} {goal : Goal} {fault : DocumentFault} :
    c.peek = .ok t → Goal.opened? t.kind = some goal → c.enterAt t = (.error fault, after) →
    Descends c .value (.error fault) after
  /-- The level of a complete value is closed, and there is one to be closed. -/
  | nested {c inner after : Cursor} {t : Token} {goal : Goal} {v : Value} {d : Nat} :
    c.peek = .ok t → Goal.opened? t.kind = some goal → c.enterAt t = (.ok (), inner) →
    Descends inner.next goal (.ok v) after → after.depth = d + 1 →
    Descends c .value (.ok v) { after with depth := d }
  /-- A fault leaves the level open. -/
  | nestedFault {c inner after : Cursor} {t : Token} {goal : Goal} {fault : DocumentFault} :
    c.peek = .ok t → Goal.opened? t.kind = some goal → c.enterAt t = (.ok (), inner) →
    Descends inner.next goal (.error fault) after → Descends c .value (.error fault) after
  | noValue {c : Cursor} {t : Token} :
    c.peek = .ok t → t.kind ≠ .integer → t.kind ≠ .quoted → Goal.opened? t.kind = none →
    Descends c .value (.error (.parse (.unmet .expectedValue t))) c
  | noName {c after : Cursor} {fault : DocumentFault} :
    c.readName = (.error fault, after) → Descends c .call (.error fault) after
  | call {c between after : Cursor} {name : String} {result : Except DocumentFault Value} :
    c.readName = (.ok name, between) → Descends between .value result after →
    Descends c .call (result.map (.call name)) after
  | entriesEnd {c : Cursor} {t : Token} {closing : Token.Kind} {before : List Entry} :
    c.peek = .ok t → t.kind = closing →
    Descends c (.entries closing before) (.ok (.object before.reverse)) c.next
  | betweenEntries {c after : Cursor} {t : Token} {closing : Token.Kind} {before : List Entry}
    {result : Except DocumentFault Value} :
    c.peek = .ok t → t.kind ≠ closing → t.kind = .separator →
    Descends c.next (.entries closing before) result after →
    Descends c (.entries closing before) result after
  | noHead {c after : Cursor} {t : Token} {closing : Token.Kind} {before : List Entry}
    {fault : DocumentFault} :
    c.peek = .ok t → t.kind ≠ closing → t.kind ≠ .separator → c.readHead = (.error fault, after) →
    Descends c (.entries closing before) (.error fault) after
  | entry {c between later after : Cursor} {t : Token} {closing : Token.Kind}
    {before : List Entry} {head : Head} {v : Value} {result : Except DocumentFault Value} :
    c.peek = .ok t → t.kind ≠ closing → t.kind ≠ .separator → c.readHead = (.ok head, between) →
    Descends between .value (.ok v) later →
    Descends later (.entries closing (head.bind v :: before)) result after →
    Descends c (.entries closing before) result after
  | entryFault {c between after : Cursor} {t : Token} {closing : Token.Kind}
    {before : List Entry} {head : Head} {fault : DocumentFault} :
    c.peek = .ok t → t.kind ≠ closing → t.kind ≠ .separator → c.readHead = (.ok head, between) →
    Descends between .value (.error fault) after →
    Descends c (.entries closing before) (.error fault) after
  | itemsEnd {c : Cursor} {t : Token} {before : List Value} :
    c.peek = .ok t → t.kind = .closeBracket →
    Descends c (.items before) (.ok (.array before.reverse)) c.next
  /-- The end of the input closes an array and is not taken. -/
  | inputEnd {c : Cursor} {t : Token} {before : List Value} :
    c.peek = .ok t → t.kind = .endOfInput →
    Descends c (.items before) (.ok (.array before.reverse)) c
  | betweenItems {c after : Cursor} {t : Token} {before : List Value}
    {result : Except DocumentFault Value} :
    c.peek = .ok t → t.kind = .separator → Descends c.next (.items before) result after →
    Descends c (.items before) result after
  | item {c between after : Cursor} {t : Token} {before : List Value} {v : Value}
    {result : Except DocumentFault Value} :
    c.peek = .ok t → t.kind ≠ .closeBracket → t.kind ≠ .endOfInput → t.kind ≠ .separator →
    Descends c .value (.ok v) between → Descends between (.items (v :: before)) result after →
    Descends c (.items before) result after
  | itemFault {c after : Cursor} {t : Token} {before : List Value} {fault : DocumentFault} :
    c.peek = .ok t → t.kind ≠ .closeBracket → t.kind ≠ .endOfInput → t.kind ≠ .separator →
    Descends c .value (.error fault) after → Descends c (.items before) (.error fault) after

/-! ### What is kept -/

namespace Cursor

variable {α β : Type} {c between after : Cursor} {t : Token} {fault : DocumentFault}

/-- A cursor is reached from another by taking tokens, none of which ends the input. -/
def Reaches (c after : Cursor) : Prop :=
  ∃ taken, c.ahead = taken ++ after.ahead ∧ after.index = c.index + taken.length ∧
    ∀ t ∈ taken, t.kind ≠ .endOfInput

/-- A cursor is reached from itself without taking a token. -/
theorem Reaches.refl (c : Cursor) : c.Reaches c :=
  ⟨[], rfl, rfl, List.forall_mem_nil _⟩

/-- What is reached from a reached cursor is reached from the first. -/
theorem Reaches.trans (first : c.Reaches between) (second : between.Reaches after) :
    c.Reaches after := by
  obtain ⟨taken, ahead, index, more⟩ := first
  obtain ⟨others, aheadThen, indexThen, moreThen⟩ := second
  refine ⟨taken ++ others, ?_, ?_, ?_⟩
  · rw [ahead, aheadThen, List.append_assoc]
  · rw [indexThen, index, List.length_append, Nat.add_assoc]
  · exact List.forall_mem_append.mpr ⟨more, moreThen⟩

/-- The index goes up by as many tokens as are taken. -/
theorem Reaches.index_add_length (h : c.Reaches after) :
    after.index + after.ahead.length = c.index + c.ahead.length := by
  obtain ⟨taken, ahead, index, -⟩ := h
  rw [ahead, index, List.length_append, Nat.add_assoc]

/-- No more tokens are ahead of a cursor that is reached. -/
theorem Reaches.length_le (h : c.Reaches after) : after.ahead.length ≤ c.ahead.length := by
  obtain ⟨taken, ahead, -, -⟩ := h
  rw [ahead, List.length_append]
  exact Nat.le_add_left _ _

/-- The current token is the first of those ahead. -/
theorem peek_eq_ok (peeked : c.peek = .ok t) : ∃ rest, c.ahead = t :: rest := by
  unfold peek at peeked
  split at peeked
  · cases peeked
  · next first rest ahead =>
    cases peeked
    exact ⟨rest, ahead⟩

/-- There is no current token only where none is ahead. -/
theorem peek_eq_error (peeked : c.peek = .error fault) : fault = .exhausted ∧ c.ahead = [] := by
  unfold peek at peeked
  split at peeked
  · next ahead =>
    cases peeked
    exact ⟨rfl, ahead⟩
  · cases peeked

/-- A token that does not end the input is taken. -/
theorem next_eq {rest : List Token} (ahead : c.ahead = t :: rest) (more : t.kind ≠ .endOfInput) :
    c.next = ⟨rest, c.index + 1, c.depth⟩ := by
  simp only [next, ahead, if_neg more]

/-- Taking a token opens and closes no level. -/
theorem depth_next (c : Cursor) : c.next.depth = c.depth := by
  unfold next
  split
  · rfl
  · split <;> rfl

private theorem reaches_next (c : Cursor) : c.Reaches c.next := by
  unfold next
  split
  · exact .refl c
  · next t rest ahead =>
    split
    · exact .refl c
    · next more => exact ⟨[t], ahead, rfl, List.forall_mem_singleton.mpr more⟩

/-- A token that does not end the input leaves fewer tokens ahead. -/
theorem length_next_lt (peeked : c.peek = .ok t) (more : t.kind ≠ .endOfInput) :
    c.next.ahead.length < c.ahead.length := by
  obtain ⟨rest, ahead⟩ := peek_eq_ok peeked
  rw [next_eq ahead more, ahead]
  exact Nat.lt_succ_self _

/-- A cursor leads to another by taking tokens and opening levels, no more than may be open. -/
structure Leads (c after : Cursor) : Prop where
  reaches : c.Reaches after
  depth_le : c.depth ≤ after.depth
  depth_le_max : c.depth ≤ maxDepth → after.depth ≤ maxDepth

private theorem leads_of_depth_eq (reaches : c.Reaches after) (same : after.depth = c.depth) :
    c.Leads after where
  reaches := reaches
  depth_le := Nat.le_of_eq same.symm
  depth_le_max := fun bounded ↦ same ▸ bounded

/-- A cursor leads to itself. -/
theorem Leads.refl (c : Cursor) : c.Leads c := leads_of_depth_eq (.refl c) rfl

private theorem leads_next (c : Cursor) : c.Leads c.next :=
  leads_of_depth_eq c.reaches_next c.depth_next

/-- A cursor leads wherever a cursor leads that it leads to. -/
theorem Leads.trans (first : c.Leads between) (second : between.Leads after) : c.Leads after where
  reaches := first.reaches.trans second.reaches
  depth_le := Nat.le_trans first.depth_le second.depth_le
  depth_le_max := fun bounded ↦ second.depth_le_max (first.depth_le_max bounded)

/-- What holds of a result and of the cursor with it, however the reading ends. -/
structure Keeps (c : Cursor) (result : Except DocumentFault α) (after : Cursor) : Prop
    extends Leads c after where
  depth_eq : ∀ v, result = .ok v → after.depth = c.depth
  ahead_eq_nil : result = .error .exhausted → after.ahead = []

/-- What opens no level keeps everything unless tokens are missing. -/
theorem keeps_of_depth_eq {result : Except DocumentFault α} (reaches : c.Reaches after)
    (same : after.depth = c.depth) (missing : result = .error .exhausted → after.ahead = []) :
    c.Keeps result after where
  toLeads := leads_of_depth_eq reaches same
  depth_eq := fun _ _ ↦ same
  ahead_eq_nil := missing

/-- A result where the cursor stays is kept unless tokens are missing. -/
theorem keeps_self {result : Except DocumentFault α} (other : result ≠ .error .exhausted) :
    c.Keeps result c :=
  keeps_of_depth_eq (.refl c) rfl fun same ↦ absurd same other

/-- A result with which the current token is taken is kept unless tokens are missing. -/
theorem keeps_next {result : Except DocumentFault α} (other : result ≠ .error .exhausted) :
    c.Keeps result c.next :=
  keeps_of_depth_eq c.reaches_next c.depth_next fun same ↦ absurd same other

/-- Failing where no token is ahead keeps everything. -/
theorem keeps_of_peek (peeked : c.peek = .error fault) :
    c.Keeps (.error fault : Except DocumentFault α) c :=
  keeps_of_depth_eq (.refl c) rfl fun _ ↦ (peek_eq_error peeked).2

/-- What is kept after a success is kept from its start. -/
theorem Keeps.trans {v : α} {result : Except DocumentFault β} (first : c.Keeps (.ok v) between)
    (second : between.Keeps result after) : c.Keeps result after where
  toLeads := first.toLeads.trans second.toLeads
  depth_eq := fun w same ↦ (second.depth_eq w same).trans (first.depth_eq v rfl)
  ahead_eq_nil := second.ahead_eq_nil

/-- What is kept after the current token is kept with it. -/
theorem Keeps.of_next {result : Except DocumentFault α} (later : c.next.Keeps result after) :
    c.Keeps result after :=
  have taken : c.Keeps (.ok ()) c.next := keeps_next (by simp)
  taken.trans later

/-- A fault is kept whatever was to be read. -/
theorem Keeps.error (h : c.Keeps (.error fault : Except DocumentFault α) after) :
    c.Keeps (.error fault : Except DocumentFault β) after where
  toLeads := h.toLeads
  depth_eq := fun _ same ↦ by cases same
  ahead_eq_nil := fun same ↦ by
    cases same
    exact h.ahead_eq_nil rfl

/-- What is built from a result is kept with it. -/
theorem Keeps.map {result : Except DocumentFault α} (h : c.Keeps result after) (f : α → β) :
    c.Keeps (result.map f) after := by
  cases result with
  | error fault => exact h.error
  | ok v => exact keeps_of_depth_eq h.reaches (h.depth_eq v rfl) fun same ↦ by cases same

/-! ### Parts that are not nested -/

/-- Reading the function of a call keeps everything. -/
theorem keeps_readName {result : Except DocumentFault String}
    (read : c.readName = (result, after)) : c.Keeps result after := by
  unfold readName at read
  split at read
  · next fault peeked =>
    cases read
    exact keeps_of_peek peeked
  · split at read
    · cases read
      exact keeps_next (by simp)
    · cases read
      exact keeps_self (by simp)

/-- Reading what stands before the value of a record keeps everything. -/
theorem keeps_readId {result : Except DocumentFault String}
    (read : c.readId = (result, after)) : c.Keeps result after := by
  unfold readId at read
  split at read
  · next fault between named =>
    cases read
    exact keeps_readName named
  · next id between named =>
    apply (keeps_readName named).trans
    split at read
    · next fault peeked =>
      cases read
      exact keeps_of_peek peeked
    · split at read
      · cases read
        exact keeps_next (by simp)
      · cases read
        exact keeps_self (by simp)

private theorem keeps_readHead {result : Except DocumentFault Head}
    (read : c.readHead = (result, after)) : c.Keeps result after := by
  unfold readHead at read
  split at read
  · next fault peeked =>
    cases read
    exact keeps_of_peek peeked
  · split at read
    · cases read
      exact (keeps_readId rfl).map _
    · cases read
      exact ((keeps_readName rfl).map _).of_next
    · cases read
      exact keeps_self (by simp)

/-- A number that cannot be had is no sign of missing tokens. -/
theorem integerValue_ne_exhausted (token : Token) : integerValue token ≠ .error .exhausted := by
  unfold integerValue Value.ofInt
  split
  · simp
  · split <;> exact fun same ↦ by cases same

/-- A number that cannot be had is no sign of missing tokens. -/
theorem fractionValue_ne_exhausted (whole fraction : Token) :
    fractionValue whole fraction ≠ .error .exhausted := by
  unfold fractionValue
  split <;> simp

private theorem keeps_readFraction {whole : Token} {result : Except DocumentFault Value}
    (read : c.readFraction whole = (result, after)) : c.Keeps result after := by
  unfold readFraction at read
  split at read
  · next fault peeked =>
    cases read
    exact keeps_of_peek peeked
  · split at read
    · cases read
      exact keeps_next (fractionValue_ne_exhausted _ _)
    · cases read
      exact keeps_self (by simp)

private theorem keeps_readNumber {whole : Token} {result : Except DocumentFault Value}
    (read : c.readNumber whole = (result, after)) : c.Keeps result after := by
  unfold readNumber at read
  split at read
  · cases read
    exact keeps_self (by simp)
  split at read
  · cases read
    exact keeps_self (by simp)
  split at read
  · next fault peeked =>
    cases read
    exact keeps_of_peek peeked
  split at read
  · exact (keeps_readFraction read).of_next
  · cases read
    exact keeps_self (integerValue_ne_exhausted _)

/-- A name takes its token. -/
theorem length_lt_of_readName {name : String} (read : c.readName = (.ok name, after)) :
    after.ahead.length < c.ahead.length := by
  unfold readName at read
  split at read
  · cases read
  · next t peeked =>
    split at read
    · next kind =>
      cases read
      exact length_next_lt peeked (by simp [kind])
    · cases read

/-- An identifier and its assignment mark take their tokens. -/
theorem length_lt_of_readId {id : String} (read : c.readId = (.ok id, after)) :
    after.ahead.length < c.ahead.length := by
  unfold readId at read
  split at read
  · cases read
  · next name between named =>
    split at read
    · cases read
    · split at read
      · cases read
        exact Nat.lt_of_le_of_lt between.reaches_next.length_le (length_lt_of_readName named)
      · cases read

/-- The part of an entry before its value takes its tokens. -/
theorem length_lt_of_readHead {head : Head} (read : c.readHead = (.ok head, after)) :
    after.ahead.length < c.ahead.length := by
  unfold readHead at read
  split at read
  · cases read
  · split at read
    · rcases named : c.readId with ⟨fault | id, between⟩
      · rw [named] at read
        cases read
      · rw [named] at read
        cases read
        exact length_lt_of_readId named
    · rcases named : c.next.readName with ⟨fault | name, between⟩
      · rw [named] at read
        cases read
      · rw [named] at read
        cases read
        exact Nat.lt_of_lt_of_le (length_lt_of_readName named) c.reaches_next.length_le
    · cases read

/-- A level is opened where one more may be open. -/
theorem enterAt_eq_ok (entered : c.enterAt t = (.ok (), after)) :
    c.depth < maxDepth ∧ after = { c with depth := c.depth + 1 } := by
  unfold enterAt at entered
  split at entered
  · cases entered
  · next room =>
    cases entered
    exact ⟨Nat.lt_of_not_le room, rfl⟩

/-- A level that is opened is one of those that may be open. -/
theorem leads_enterAt (entered : c.enterAt t = (.ok (), after)) : c.Leads after := by
  obtain ⟨room, rfl⟩ := enterAt_eq_ok entered
  exact ⟨⟨[], rfl, rfl, List.forall_mem_nil _⟩, Nat.le_succ _, fun _ ↦ room⟩

/-- No level is opened where too many are open. -/
theorem enterAt_eq_error (entered : c.enterAt t = (.error fault, after)) :
    maxDepth ≤ c.depth ∧ fault = .parse ⟨.nestingTooDeep, t.span⟩ ∧ after = c := by
  unfold enterAt at entered
  split at entered
  · next full =>
    cases entered
    exact ⟨full, rfl, rfl⟩
  · cases entered

end Cursor

/-! ### Parts that are nested -/

variable {c after : Cursor} {goal : Goal} {t : Token} {result : Except DocumentFault Value}

/-- The end of the input opens no level. -/
theorem Goal.ne_endOfInput (opened : Goal.opened? t.kind = some goal) : t.kind ≠ .endOfInput := by
  intro ended
  rw [ended] at opened
  cases opened

/-- A descent keeps the cursor in order, whether it succeeds or fails. -/
theorem Descends.keeps (descends : Descends c goal result after) : c.Keeps result after := by
  induction descends with
  | exhausted peeked => exact Cursor.keeps_of_peek peeked
  | integer _ _ read => exact (Cursor.keeps_readNumber read).of_next
  | quoted _ _ => exact Cursor.keeps_next (by simp)
  | tooDeep _ _ entered =>
    obtain ⟨-, rfl, rfl⟩ := Cursor.enterAt_eq_error entered
    exact Cursor.keeps_self (by simp)
  | @nested c inner after t goal v d _ _ entered _ open_ ih =>
    have reaches :=
      ((Cursor.leads_enterAt entered).trans (inner.leads_next.trans ih.toLeads)).reaches
    obtain ⟨-, rfl⟩ := Cursor.enterAt_eq_ok entered
    have inside : after.depth = c.depth + 1 := (ih.depth_eq v rfl).trans (Cursor.depth_next _)
    have same : d = c.depth := by omega
    exact Cursor.keeps_of_depth_eq reaches same fun missing ↦ by cases missing
  | @nestedFault c inner after t goal fault _ _ entered _ ih =>
    exact {
      toLeads := (Cursor.leads_enterAt entered).trans (inner.leads_next.trans ih.toLeads)
      depth_eq := fun _ same ↦ by cases same
      ahead_eq_nil := ih.ahead_eq_nil }
  | noValue _ _ _ _ => exact Cursor.keeps_self (by simp)
  | noName read => exact (Cursor.keeps_readName read).error
  | call read _ ih => exact (Cursor.keeps_readName read).trans (ih.map _)
  | entriesEnd _ _ => exact Cursor.keeps_next (by simp)
  | betweenEntries _ _ _ _ ih => exact ih.of_next
  | noHead _ _ _ read => exact (Cursor.keeps_readHead read).error
  | entry _ _ _ read _ _ valueIh restIh =>
    exact (Cursor.keeps_readHead read).trans (valueIh.trans restIh)
  | entryFault _ _ _ read _ ih => exact (Cursor.keeps_readHead read).trans ih
  | itemsEnd _ _ => exact Cursor.keeps_next (by simp)
  | inputEnd _ _ => exact Cursor.keeps_self (by simp)
  | betweenItems _ _ _ ih => exact ih.of_next
  | item _ _ _ _ _ _ valueIh restIh => exact valueIh.trans restIh
  | itemFault _ _ _ _ _ ih => exact ih

/-- `Visits c goal m`: while it reads from the cursor `c`, a descent comes to the cursor `m` with a
part to be read there. -/
inductive Visits : Cursor → Goal → Cursor → Prop
  | start {c : Cursor} {goal : Goal} : Visits c goal c
  | nested {c inner m : Cursor} {t : Token} {goal : Goal} :
    c.peek = .ok t → Goal.opened? t.kind = some goal → c.enterAt t = (.ok (), inner) →
    Visits inner.next goal m → Visits c .value m
  | call {c between m : Cursor} {name : String} :
    c.readName = (.ok name, between) → Visits between .value m → Visits c .call m
  | betweenEntries {c m : Cursor} {t : Token} {closing : Token.Kind} {before : List Entry} :
    c.peek = .ok t → t.kind ≠ closing → t.kind = .separator →
    Visits c.next (.entries closing before) m → Visits c (.entries closing before) m
  | entry {c between m : Cursor} {t : Token} {closing : Token.Kind} {before : List Entry}
    {head : Head} :
    c.peek = .ok t → t.kind ≠ closing → t.kind ≠ .separator → c.readHead = (.ok head, between) →
    Visits between .value m → Visits c (.entries closing before) m
  | afterEntry {c between later m : Cursor} {t : Token} {closing : Token.Kind}
    {before : List Entry} {head : Head} {v : Value} :
    c.peek = .ok t → t.kind ≠ closing → t.kind ≠ .separator → c.readHead = (.ok head, between) →
    Descends between .value (.ok v) later →
    Visits later (.entries closing (head.bind v :: before)) m →
      Visits c (.entries closing before) m
  | betweenItems {c m : Cursor} {t : Token} {before : List Value} :
    c.peek = .ok t → t.kind = .separator → Visits c.next (.items before) m →
    Visits c (.items before) m
  | item {c m : Cursor} {t : Token} {before : List Value} :
    c.peek = .ok t → t.kind ≠ .closeBracket → t.kind ≠ .endOfInput → t.kind ≠ .separator →
    Visits c .value m → Visits c (.items before) m
  | afterItem {c between m : Cursor} {t : Token} {before : List Value} {v : Value} :
    c.peek = .ok t → t.kind ≠ .closeBracket → t.kind ≠ .endOfInput → t.kind ≠ .separator →
    Descends c .value (.ok v) between → Visits between (.items (v :: before)) m →
    Visits c (.items before) m

/-- The levels are bounded all the way through a descent. -/
theorem Visits.leads {m : Cursor} (visits : Visits c goal m) : c.Leads m := by
  induction visits with
  | start => exact .refl _
  | nested _ _ entered _ ih =>
    exact (Cursor.leads_enterAt entered).trans ((Cursor.leads_next _).trans ih)
  | call read _ ih => exact (Cursor.keeps_readName read).toLeads.trans ih
  | betweenEntries _ _ _ _ ih => exact (Cursor.leads_next _).trans ih
  | entry _ _ _ read _ ih => exact (Cursor.keeps_readHead read).toLeads.trans ih
  | afterEntry _ _ _ read value _ ih =>
    exact ((Cursor.keeps_readHead read).trans value.keeps).toLeads.trans ih
  | betweenItems _ _ _ ih => exact (Cursor.leads_next _).trans ih
  | item _ _ _ _ _ ih => exact ih
  | afterItem _ _ _ _ value _ ih => exact value.keeps.toLeads.trans ih

/-- A complete value takes at least one token. -/
theorem Descends.length_lt {v : Value} (descends : Descends c .value (.ok v) after) :
    after.ahead.length < c.ahead.length := by
  generalize same : (.ok v : Except DocumentFault Value) = result at descends
  cases descends with
  | exhausted _ => cases same
  | integer peeked kind read =>
    exact Nat.lt_of_le_of_lt (Cursor.keeps_readNumber read).reaches.length_le
      (Cursor.length_next_lt peeked (by simp [kind]))
  | quoted peeked kind => exact Cursor.length_next_lt peeked (by simp [kind])
  | tooDeep _ _ _ => cases same
  | nested peeked opened entered inside _ =>
    obtain ⟨-, rfl⟩ := Cursor.enterAt_eq_ok entered
    exact Nat.lt_of_le_of_lt inside.keeps.reaches.length_le
      (Cursor.length_next_lt peeked (Goal.ne_endOfInput opened))
  | nestedFault _ _ _ _ => cases same
  | noValue _ _ _ _ => cases same

/-! ### Every descent ends -/

/-- What is to be read at a cursor comes to an end. -/
def Ends (c : Cursor) (goal : Goal) : Prop := ∃ result after, Descends c goal result after

private theorem ends_value
    (later : ∀ b : Cursor, b.ahead.length < c.ahead.length → ∀ goal, Ends b goal) :
    Ends c .value := by
  cases peeked : c.peek with
  | error fault => exact ⟨_, _, .exhausted peeked⟩
  | ok t =>
    by_cases integer : t.kind = .integer
    · exact ⟨_, _, .integer peeked integer rfl⟩
    by_cases quoted : t.kind = .quoted
    · exact ⟨_, _, .quoted peeked quoted⟩
    cases opened : Goal.opened? t.kind with
    | none => exact ⟨_, _, .noValue peeked integer quoted opened⟩
    | some goal =>
      rcases entered : c.enterAt t with ⟨fault | ⟨⟩, inner⟩
      · exact ⟨_, _, .tooDeep peeked opened entered⟩
      · obtain ⟨room, rfl⟩ := Cursor.enterAt_eq_ok entered
        have shorter := Cursor.length_next_lt (c := { c with depth := c.depth + 1 }) peeked
          (Goal.ne_endOfInput opened)
        obtain ⟨fault | v, after, inside⟩ := later _ shorter goal
        · exact ⟨_, _, .nestedFault peeked opened entered inside⟩
        · -- The level that was opened is there to be closed.
          have deeper := (inside.keeps.depth_eq v rfl).trans (Cursor.depth_next _)
          exact ⟨_, _, .nested peeked opened entered inside deeper⟩

private theorem ends_call
    (later : ∀ b : Cursor, b.ahead.length < c.ahead.length → ∀ goal, Ends b goal) :
    Ends c .call := by
  rcases read : c.readName with ⟨fault | name, between⟩
  · exact ⟨_, _, .noName read⟩
  · obtain ⟨result, after, argument⟩ := later between (Cursor.length_lt_of_readName read) .value
    exact ⟨_, _, .call read argument⟩

private theorem ends_entries {closing : Token.Kind} {before : List Entry}
    (later : ∀ b : Cursor, b.ahead.length < c.ahead.length → ∀ goal, Ends b goal) :
    Ends c (.entries closing before) := by
  cases peeked : c.peek with
  | error fault => exact ⟨_, _, .exhausted peeked⟩
  | ok t =>
    by_cases closes : t.kind = closing
    · exact ⟨_, _, .entriesEnd peeked closes⟩
    by_cases separator : t.kind = .separator
    · have shorter := Cursor.length_next_lt peeked (by simp [separator])
      obtain ⟨result, after, rest⟩ := later c.next shorter (.entries closing before)
      exact ⟨_, _, .betweenEntries peeked closes separator rest⟩
    rcases read : c.readHead with ⟨fault | head, between⟩
    · exact ⟨_, _, .noHead peeked closes separator read⟩
    · have shorter := Cursor.length_lt_of_readHead read
      obtain ⟨fault | v, between', value⟩ := later between shorter .value
      · exact ⟨_, _, .entryFault peeked closes separator read value⟩
      · obtain ⟨result, after, rest⟩ := later between' (Nat.lt_trans value.length_lt shorter)
          (.entries closing (head.bind v :: before))
        exact ⟨_, _, .entry peeked closes separator read value rest⟩

private theorem ends_items {before : List Value}
    (later : ∀ b : Cursor, b.ahead.length < c.ahead.length → ∀ goal, Ends b goal) :
    Ends c (.items before) := by
  cases peeked : c.peek with
  | error fault => exact ⟨_, _, .exhausted peeked⟩
  | ok t =>
    by_cases closes : t.kind = .closeBracket
    · exact ⟨_, _, .itemsEnd peeked closes⟩
    by_cases ended : t.kind = .endOfInput
    · exact ⟨_, _, .inputEnd peeked ended⟩
    by_cases separator : t.kind = .separator
    · have shorter := Cursor.length_next_lt peeked ended
      obtain ⟨result, after, rest⟩ := later c.next shorter (.items before)
      exact ⟨_, _, .betweenItems peeked separator rest⟩
    obtain ⟨fault | v, between, value⟩ := ends_value later
    · exact ⟨_, _, .itemFault peeked closes ended separator value⟩
    · obtain ⟨result, after, rest⟩ := later between value.length_lt (.items (v :: before))
      exact ⟨_, _, .item peeked closes ended separator value rest⟩

/-- Whatever is to be read, wherever the cursor is, the descent comes to an end. -/
theorem exists_descends (c : Cursor) (goal : Goal) : Ends c goal := by
  -- By the number of tokens ahead. An item is read from the same cursor as the items, which is why
  -- `ends_items` takes its value from `ends_value`.
  induction h : c.ahead.length using Nat.strongRecOn generalizing c goal with
  | ind n ih =>
    have later : ∀ b : Cursor, b.ahead.length < c.ahead.length → ∀ goal, Ends b goal :=
      fun b shorter goal ↦ ih _ (h ▸ shorter) b goal rfl
    cases goal with
    | value => exact ends_value later
    | call => exact ends_call later
    | entries closing before => exact ends_entries later
    | items before => exact ends_items later

end Manifest.Document
