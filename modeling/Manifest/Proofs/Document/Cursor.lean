import Manifest.Proofs.Document.Resumption

/-!
# A cursor under any use

The operations of a cursor may be called in any order, and go on where one of them has failed.
`Cursor.Does` tells what each of them does by descent. It comes to an end (`exists_does`), and it
is what the operation does (`does_iff`). An operation keeps the cursor in order or opens a level
(`Does.cases`), so that any operations only take tokens and open levels (`leads_after`).

Where some token ends the input, a cursor therefore always has a current token, never passes the
first token that ends the input, and never has more levels open than may be (`exists_goesOn`).
-/

namespace Manifest.Document.Cursor

/-- What may be done with a cursor. -/
inductive Operation
  | peek
  | advance
  /-- Open a level for a token, which need not be the current one. -/
  | enter (token : Token)
  | document
  | record
  | call
  | value
  | items
  | entries (closing : Token.Kind)

/-- What an operation answers. -/
inductive Answer
  | token (t : Token)
  | level
  | value (v : Value)
  | entry (e : Entry)

/-- The end of an operation with its result as an answer. -/
def answered {α : Type} (answer : α → Answer) (ended : Except DocumentFault α × Cursor) :
    Except DocumentFault Answer × Cursor :=
  (ended.1.map answer, ended.2)

/-- The end of an operation: its result, and the cursor that it leaves. -/
def perform (c : Cursor) : Operation → Except DocumentFault Answer × Cursor
  | .peek => (c.peek.map .token, c)
  | .advance => answered .token c.advance
  | .enter token => answered (fun _ ↦ .level) (c.enterAt token)
  | .document => answered .value c.readDocument
  | .record => answered .entry c.readRecord
  | .call => answered .entry c.readCall
  | .value => answered .value c.readValue
  | .items => answered .value c.readItems
  | .entries closing => answered .value (c.readEntries closing)

/-- The cursor that operations leave, one after the other, whether they succeed or fail. -/
def after (c : Cursor) (operations : List Operation) : Cursor :=
  operations.foldl (fun c operation ↦ (c.perform operation).2) c

namespace Operation

/-- The operation reads a part of a document. -/
def Reads : Operation → Prop
  | .peek | .advance | .enter _ => False
  | _ => True

/-- The operation reads one value, or one entry. -/
def ReadsOne : Operation → Prop
  | .value | .record | .call => True
  | _ => False

/-- What a descent is to read for the operation. -/
def goal? : Operation → Option Goal
  | .document => some (.entries .endOfInput [])
  | .value => some .value
  | .items => some (.items [])
  | .entries closing => some (.entries closing [])
  | _ => none

/-- What the operation reads before the value of an entry. -/
def head? (c : Cursor) : Operation → Option (Except DocumentFault Head × Cursor)
  | .record => some (c.readId.1.map .record, c.readId.2)
  | .call => some (c.readName.1.map .call, c.readName.2)
  | _ => none

end Operation

/-- `c.Does operation result after`: by descent, the operation ends in the result, with the cursor
`after`. -/
inductive Does : Cursor → Operation → Except DocumentFault Answer → Cursor → Prop
  | peek {c : Cursor} : Does c .peek (c.peek.map .token) c
  | advance {c : Cursor} : Does c .advance (c.peek.map .token) c.next
  | enter {c after : Cursor} {token : Token} {result : Except DocumentFault Unit} :
    c.enterAt token = (result, after) → Does c (.enter token) (result.map fun _ ↦ .level) after
  | part {c after : Cursor} {operation : Operation} {goal : Goal}
    {result : Except DocumentFault Value} :
    operation.goal? = some goal → Descends c goal result after →
    Does c operation (result.map .value) after
  | noHead {c after : Cursor} {operation : Operation} {fault : DocumentFault} :
    operation.head? c = some (.error fault, after) → Does c operation (.error fault) after
  | headed {c between after : Cursor} {operation : Operation} {head : Head}
    {result : Except DocumentFault Value} :
    operation.head? c = some (.ok head, between) → Descends between .value result after →
    Does c operation (result.map fun v ↦ .entry (head.bind v)) after

/-- `c.Passes operation m`: while the operation reads, a descent comes to the cursor `m`. -/
inductive Passes : Cursor → Operation → Cursor → Prop
  | part {c m : Cursor} {operation : Operation} {goal : Goal} :
    operation.goal? = some goal → Visits c goal m → Passes c operation m
  | headed {c between m : Cursor} {operation : Operation} {head : Head} :
    operation.head? c = some (.ok head, between) → Visits between .value m → Passes c operation m

variable {c after : Cursor} {operation : Operation} {result : Except DocumentFault Answer}

/-! ### One operation -/

/-- The value of an entry is read after what stands before it. -/
def readBound (head : Except DocumentFault Head × Cursor) : Except DocumentFault Entry × Cursor :=
  match head with
  | (.error fault, after) => (.error fault, after)
  | (.ok head, between) => (between.readValue.1.map head.bind, between.readValue.2)

private theorem readCall_eq (c : Cursor) :
    c.readCall = readBound (c.readName.1.map .call, c.readName.2) := by
  unfold readCall readName
  cases c.peek with
  | error fault => rfl
  | ok name =>
    by_cases kind : name.kind = .identifier
    · simp only [kind, if_true, ne_eq, not_true_eq_false, if_false]
      rfl
    · simp only [kind, if_false, ne_eq, not_false_eq_true, if_true]
      rfl

private theorem readRecord_eq (c : Cursor) :
    c.readRecord = readBound (c.readId.1.map .record, c.readId.2) := by
  unfold readRecord readId readName
  cases c.peek with
  | error fault => rfl
  | ok id =>
    by_cases kind : id.kind = .identifier
    · simp only [kind, if_true, ne_eq, not_true_eq_false, if_false]
      cases c.next.peek with
      | error fault => rfl
      | ok mark =>
        by_cases assign : mark.kind = .assign
        · simp only [assign, if_true, not_true_eq_false, if_false]
          rfl
        · simp only [assign, if_false, not_false_eq_true, if_true]
          rfl
    · simp only [kind, if_false, ne_eq, not_false_eq_true, if_true]
      rfl

private theorem perform_of_goal? {goal : Goal} (reads : operation.goal? = some goal) :
    ∃ closing, goal.Fits closing [] ∧
      c.perform operation = answered .value (c.read closing goal.state) := by
  cases operation with
  | document => cases reads; exact ⟨.endOfInput, rfl, rfl⟩
  | value => cases reads; exact ⟨.closeBrace, rfl, rfl⟩
  | items => cases reads; exact ⟨.closeBrace, trivial, rfl⟩
  | entries closing => cases reads; exact ⟨closing, rfl, rfl⟩
  | _ => cases reads

private theorem perform_of_head? {head : Except DocumentFault Head × Cursor}
    (reads : operation.head? c = some head) :
    c.perform operation = answered .entry (readBound head) := by
  cases operation with
  | record =>
    cases reads
    rw [perform, readRecord_eq]
  | call =>
    cases reads
    rw [perform, readCall_eq]
  | _ => cases reads

/-- An operation does what it does by descent. -/
theorem Does.perform_eq (does : c.Does operation result after) :
    c.perform operation = (result, after) := by
  cases does with
  | peek => rfl
  | advance => rfl
  | enter entered => rw [perform, entered]; rfl
  | part reads descends =>
    obtain ⟨closing, fits, same⟩ := @perform_of_goal? c _ _ reads
    rw [same, descends.read_eq fits]
    rfl
  | noHead reads =>
    rw [perform_of_head? reads]
    rfl
  | @headed between _ _ _ value reads descends =>
    have read : between.readValue = (value, after) :=
      @Descends.read_eq .closeBrace between after .value value descends rfl
    rw [perform_of_head? reads, readBound, read]
    cases value <;> rfl

private theorem exists_does_of_goal? {goal : Goal} (reads : operation.goal? = some goal) :
    ∃ result after, c.Does operation result after := by
  obtain ⟨result, after, descends⟩ := exists_descends c goal
  exact ⟨_, _, .part reads descends⟩

private theorem exists_does_of_head? {head : Except DocumentFault Head × Cursor}
    (reads : operation.head? c = some head) : ∃ result after, c.Does operation result after := by
  obtain ⟨fault | head, between⟩ := head
  · exact ⟨_, _, .noHead reads⟩
  · obtain ⟨result, after, descends⟩ := exists_descends between .value
    exact ⟨_, _, .headed reads descends⟩

/-- Every operation comes to an end. -/
theorem exists_does (c : Cursor) (operation : Operation) :
    ∃ result after, c.Does operation result after := by
  cases operation with
  | peek => exact ⟨_, _, .peek⟩
  | advance => exact ⟨_, _, .advance⟩
  | enter token => exact ⟨_, _, .enter rfl⟩
  | document => exact exists_does_of_goal? rfl
  | record => exact exists_does_of_head? rfl
  | call => exact exists_does_of_head? rfl
  | value => exact exists_does_of_goal? rfl
  | items => exact exists_does_of_goal? rfl
  | entries closing => exact exists_does_of_goal? rfl

/-- What an operation does by descent, it does, and nothing else. -/
theorem does_iff : c.Does operation result after ↔ c.perform operation = (result, after) := by
  constructor
  · exact Does.perform_eq
  · intro performed
    obtain ⟨result', after', does⟩ := exists_does c operation
    obtain ⟨rfl, rfl⟩ := Prod.mk.inj (performed.symm.trans does.perform_eq)
    exact does

/-! ### What an operation keeps -/

private theorem keeps_advance (c : Cursor) : c.Keeps c.peek c.next := by
  cases peeked : c.peek with
  | ok t => exact keeps_next (by simp)
  | error fault =>
    have stays : c.next = c := by simp only [next, (peek_eq_error peeked).2]
    rw [stays]
    exact keeps_of_peek peeked

private theorem keeps_peek (c : Cursor) : c.Keeps c.peek c := by
  cases peeked : c.peek with
  | ok t => exact keeps_self (by simp)
  | error fault => exact keeps_of_peek peeked

private theorem keeps_of_head? {head : Except DocumentFault Head}
    (reads : operation.head? c = some (head, after)) : c.Keeps head after := by
  cases operation with
  | record =>
    cases reads
    exact (keeps_readId rfl).map _
  | call =>
    cases reads
    exact (keeps_readName rfl).map _
  | _ => cases reads

/-- All that an operation can do to the cursor: it keeps it in order, or opens a level. -/
theorem Does.cases (does : c.Does operation result after) :
    c.Keeps result after ∨
      ∃ token, operation = .enter token ∧ result = .ok .level ∧
        c.enterAt token = (.ok (), after) := by
  cases does with
  | peek => exact .inl (c.keeps_peek.map _)
  | advance => exact .inl (c.keeps_advance.map _)
  | @enter _ token level entered =>
    cases level with
    | error fault =>
      obtain ⟨-, rfl, rfl⟩ := enterAt_eq_error entered
      exact .inl (keeps_self (by simp [Except.map]))
    | ok level => exact .inr ⟨token, rfl, rfl, entered⟩
  | part _ descends => exact .inl (descends.keeps.map _)
  | noHead reads => exact .inl (keeps_of_head? reads).error
  | headed reads descends => exact .inl ((keeps_of_head? reads).trans (descends.keeps.map _))

/-- An operation takes tokens and opens levels, no more than may be open. -/
theorem Does.leads (does : c.Does operation result after) : c.Leads after := by
  obtain kept | ⟨token, -, -, entered⟩ := does.cases
  · exact kept.toLeads
  · exact leads_enterAt entered

/-- An operation that finds no token is at the end of the list. -/
theorem Does.ahead_eq_nil (does : c.Does operation (.error .exhausted) after) :
    after.ahead = [] := by
  obtain kept | ⟨token, -, same, -⟩ := does.cases
  · exact kept.ahead_eq_nil rfl
  · cases same

/-- What reads a part of a document keeps the cursor in order. -/
theorem Does.keeps (does : c.Does operation result after) (reads : operation.Reads) :
    c.Keeps result after := by
  obtain kept | ⟨token, rfl, -, -⟩ := does.cases
  · exact kept
  · exact reads.elim

/-- So does it up to every cursor that it comes to. -/
theorem Passes.leads (passes : c.Passes operation after) : c.Leads after := by
  cases passes with
  | part _ visits => exact visits.leads
  | headed reads visits => exact (keeps_of_head? reads).toLeads.trans visits.leads

private theorem length_lt_of_head? {head : Head}
    (reads : operation.head? c = some (.ok head, after)) :
    after.ahead.length < c.ahead.length := by
  cases operation with
  | record =>
    rcases read : c.readId with ⟨fault | id, between⟩ <;>
      simp only [Operation.head?, read] at reads <;> cases reads
    exact length_lt_of_readId read
  | call =>
    rcases read : c.readName with ⟨fault | name, between⟩ <;>
      simp only [Operation.head?, read] at reads <;> cases reads
    exact length_lt_of_readName read
  | _ => cases reads

/-- A value or an entry takes at least one token. -/
theorem Does.length_lt {answer : Answer} (does : c.Does operation (.ok answer) after)
    (one : operation.ReadsOne) : after.ahead.length < c.ahead.length := by
  generalize same : (.ok answer : Except DocumentFault Answer) = result at does
  cases does with
  | peek => exact one.elim
  | advance => exact one.elim
  | enter _ => exact one.elim
  | @part _ _ goal result reads descends =>
    obtain fault | v := result
    · cases same
    · cases operation with
      | value =>
        cases reads
        exact descends.length_lt
      | record => cases reads
      | call => cases reads
      | _ => exact one.elim
  | noHead _ => cases same
  | headed reads descends =>
    exact Nat.lt_of_le_of_lt descends.keeps.reaches.length_le (length_lt_of_head? reads)

/-! ### Any operations -/

/-- Operations take tokens and open levels, whether they succeed or fail. -/
theorem leads_after (c : Cursor) (operations : List Operation) : c.Leads (c.after operations) := by
  induction operations generalizing c with
  | nil => exact .refl c
  | cons operation operations ih =>
    have does : c.Does operation _ (c.perform operation).2 := does_iff.mpr rfl
    exact does.leads.trans (ih (c.perform operation).2)

/-- A cursor in a list of tokens: it has a current token, it has not passed the end of the input,
and no more levels are open than may be. -/
structure InOrder (tokens : List Token) (c : Cursor) : Prop where
  peek : ∃ t, tokens[c.index]? = some t ∧ c.peek = .ok t
  index_le : ∀ i t, tokens[i]? = some t → t.kind = .endOfInput → c.index ≤ i
  depth_le : c.depth ≤ maxDepth

/-- Where some token ends the input, a cursor is in order wherever the first token leads. -/
theorem Leads.inOrder {tokens : List Token} (ended : ∃ t ∈ tokens, t.kind = .endOfInput)
    (leads : (ofTokens tokens).Leads c) : InOrder tokens c := by
  obtain ⟨taken, ahead, index, more⟩ := leads.reaches
  obtain rfl : tokens = taken ++ c.ahead := ahead
  have index : c.index = taken.length := index.trans (Nat.zero_add _)
  refine ⟨?_, ?_, leads.depth_le_max (Nat.zero_le _)⟩
  · cases ahead : c.ahead with
    | nil =>
      obtain ⟨t, mem, kind⟩ := ended
      rw [ahead, List.append_nil] at mem
      exact absurd kind (more t mem)
    | cons t rest =>
      refine ⟨t, ?_, ?_⟩
      · rw [index, List.getElem?_append_right (Nat.le_refl _), Nat.sub_self]
        rfl
      · simp only [Cursor.peek, ahead]
  · intro i t found kind
    apply Nat.le_of_not_lt
    intro before
    have before : i < taken.length := by omega
    rw [List.getElem?_append_left before] at found
    exact more t (List.mem_of_getElem? found) kind

/-- `GoesOn tokens c operation result after`: at the cursor `c` in the tokens, the operation ends
in the result and leaves the cursor `after`, and the cursor is in order before, after and in
between. -/
structure GoesOn (tokens : List Token) (c : Cursor) (operation : Operation)
    (result : Except DocumentFault Answer) (after : Cursor) : Prop where
  performs : c.perform operation = (result, after)
  /-- The descent comes to an end, and only to this one. -/
  does_iff : ∀ result' after', c.Does operation result' after' ↔ result' = result ∧ after' = after
  result_ne : result ≠ .error .exhausted
  inOrder : InOrder tokens c
  inOrder_after : InOrder tokens after
  inOrder_of_passes : ∀ m, c.Passes operation m → InOrder tokens m
  index_le : c.index ≤ after.index
  depth_eq : operation.Reads → ∀ answer, result = .ok answer → after.depth = c.depth
  depth_le : operation.Reads → ∀ fault, result = .error fault → c.depth ≤ after.depth
  index_lt : operation.ReadsOne → ∀ answer, result = .ok answer → c.index < after.index

/-- Where some token ends the input, any operation goes on after any others, whether they succeeded
or failed. -/
theorem exists_goesOn {tokens : List Token} (ended : ∃ t ∈ tokens, t.kind = .endOfInput)
    (operations : List Operation) (operation : Operation) :
    ∃ result after,
      GoesOn tokens ((ofTokens tokens).after operations) operation result after := by
  have leads := (ofTokens tokens).leads_after operations
  generalize (ofTokens tokens).after operations = c at leads ⊢
  obtain ⟨result, after, does⟩ := exists_does c operation
  have inOrder := (leads.trans does.leads).inOrder ended
  have index := does.leads.reaches.index_add_length
  refine ⟨result, after, ?_⟩
  exact {
    performs := does.perform_eq
    does_iff := fun result' after' ↦ by
      rw [Cursor.does_iff, does.perform_eq, Prod.mk.injEq, eq_comm, eq_comm (a := after)]
    result_ne := by
      rintro rfl
      obtain ⟨t, -, peeked⟩ := inOrder.peek
      simp only [Cursor.peek, does.ahead_eq_nil] at peeked
      cases peeked
    inOrder := leads.inOrder ended
    inOrder_after := inOrder
    inOrder_of_passes := fun _ passes ↦ (leads.trans passes.leads).inOrder ended
    index_le := by
      have := does.leads.reaches.length_le
      omega
    depth_eq := fun reads ↦ (does.keeps reads).depth_eq
    depth_le := fun reads _ _ ↦ (does.keeps reads).depth_le
    index_lt := by
      rintro one answer rfl
      have := does.length_lt one
      omega }

/-- An array with an object that is never closed, and a token after the end of the input. -/
def unclosed : List Token :=
  [⟨.openBracket, "[", ⟨0, 1⟩⟩, ⟨.integer, "1", ⟨1, 2⟩⟩, ⟨.openBrace, "\x7b", ⟨2, 3⟩⟩,
    ⟨.integer, "2", ⟨3, 4⟩⟩, ⟨.endOfInput, "", ⟨4, 4⟩⟩, ⟨.closeBrace, "\x7d", ⟨5, 6⟩⟩]

/-- The array fails in its object with two levels open, and a number is read there. -/
theorem goesOn_unclosed :
    (∃ t ∈ unclosed, t.kind = .endOfInput) ∧ ∃ result after,
      GoesOn unclosed ((ofTokens unclosed).after [.value]) .value result after ∧
        after.index = 4 ∧ after.depth = 2 := by
  have ended : ∃ t ∈ unclosed, t.kind = .endOfInput :=
    ⟨⟨.endOfInput, "", ⟨4, 4⟩⟩, by decide, rfl⟩
  obtain ⟨result, after, goesOn⟩ := exists_goesOn ended [.value] .value
  have index : (((ofTokens unclosed).after [.value]).perform .value).2.index = 4 := by
    decide +kernel
  have depth : (((ofTokens unclosed).after [.value]).perform .value).2.depth = 2 := by
    decide +kernel
  rw [goesOn.performs] at index depth
  exact ⟨ended, result, after, goesOn, index, depth⟩

end Manifest.Document.Cursor
