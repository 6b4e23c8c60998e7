import Manifest.Document.Fault
import Manifest.Value.Construction

/-!
# Reading a document from tokens

A document is read token by token by a machine that remembers what is open. `Slot` is a place where
a value is awaited: after the head of an entry, in an array, or as the argument of a call. The
slots around the current place form a stack, and `State` says what may come next in the innermost
one. `step` takes one token; when a value is complete, `deliver` puts it into the innermost slot,
and through every call that was waiting for it.

The end of the input is never taken. It closes the arrays that are open (`finish`) and nothing
else. Objects, arrays and calls that stand for values nest at most `maxDepth` levels deep.

`Cursor` is a place in a list of tokens with the number of levels open there. Reading from a cursor
gives a value or a fault together with the cursor after it; a fault leaves the cursor where it was
met, with the levels open that were open there.
-/

namespace Manifest.Document

/-- How many objects, arrays and calls may be open inside one another. -/
def maxDepth : Nat := 100

/-- The greatest integer literal. -/
def maxInteger : Int := 0x7fffffff

/-- The part of an entry before its value. -/
inductive Head
  | record (id : String)
  | call (function : String)
deriving DecidableEq, Repr

/-- The entry made of a head and a value. -/
def Head.bind : Head → Value → Entry
  | record id, v => .record id v
  | call f, v => .call f v

/-- A place where a value is awaited, with what stands before it, the last first. -/
inductive Slot
  | entry (before : List Entry) (head : Head)
  | item (before : List Value)
  | argument (function : String)

/-- A container that is open, with what it holds so far, the last first. -/
inductive Container
  | entries (before : List Entry)
  | items (before : List Value)

/-- What may come next. -/
inductive State
  /-- An element of a container or its end. -/
  | inside (container : Container)
  /-- The assignment mark, after an identifier. -/
  | assign (before : List Entry) (id : String)
  /-- The function of a call that is an entry, after its mark. -/
  | entryCall (before : List Entry)
  /-- The function of a call that is a value, after its mark. -/
  | valueCall
  /-- A value. -/
  | value
  /-- A point or what follows the number, after an integer. -/
  | integer (token : Token)
  /-- The digits after a point. -/
  | fraction (token : Token)

/-- The state of a reading: the slots around the current place, the innermost first, what may come
next, and the number of levels open. -/
structure Config where
  outer : List Slot
  state : State
  depth : Nat

/-- Where a complete value has gone. -/
inductive Delivery
  /-- It is what was to be read. -/
  | done (v : Value)
  /-- It is an element of the container that is open now. -/
  | inside (outer : List Slot) (container : Container) (depth : Nat)

/-- Put a complete value into the innermost slot. An argument completes its call. -/
def deliver (v : Value) (depth : Nat) : List Slot → Delivery
  | [] => .done v
  | .entry before head :: outer => .inside outer (.entries (head.bind v :: before)) depth
  | .item before :: outer => .inside outer (.items (v :: before)) depth
  | .argument f :: outer => deliver (.call f v) (depth - 1) outer

/-- What one token does. -/
inductive Step
  /-- The token is taken and reading goes on. -/
  | next (config : Config)
  /-- Reading is complete, with the token taken or left. -/
  | done (v : Value) (taken : Bool)
  /-- Reading fails, with the token taken or left, and so many levels open. -/
  | fail (fault : DocumentFault) (taken : Bool) (depth : Nat)

/-- Go on after a delivery by the token just taken. -/
def Delivery.toStep : Delivery → Step
  | done v => .done v true
  | inside outer container depth => .next ⟨outer, .inside container, depth⟩

/-- A token where something else was expected. -/
def Step.reject (kind : ParseFault.Kind) (token : Token) (depth : Nat) : Step :=
  .fail (.parse (.unmet kind token)) false depth

/-- Open a level, unless too many are open. -/
def stepOpen (outer : List Slot) (state : State) (depth : Nat) (token : Token) : Step :=
  if maxDepth ≤ depth then .fail (.parse ⟨.nestingTooDeep, token.span⟩) false depth
  else .next ⟨outer, state, depth + 1⟩

/-- A token where a value is awaited in the innermost slot. -/
def stepValue (outer : List Slot) (depth : Nat) (token : Token) : Step :=
  match token.kind with
  | .integer =>
    match Numeral.readInteger token.lexeme with
    | .error fault => .fail (.numeral fault) true depth
    | .ok n =>
      if maxInteger < n then .fail (.lex (.outOfRange token)) true depth
      else .next ⟨outer, .integer token, depth⟩
  | .quoted => (deliver (.text token.content) depth outer).toStep
  | .openBrace => stepOpen outer (.inside (.entries [])) depth token
  | .openBracket => stepOpen outer (.inside (.items [])) depth token
  | .valueMark => stepOpen outer .valueCall depth token
  | _ => .reject .expectedValue token depth

/-- A token in an open container. The outermost list of entries is closed by the token kind
`closing`, every other by a brace. -/
def stepInside (closing : Token.Kind) (outer : List Slot) (container : Container) (depth : Nat)
    (token : Token) : Step :=
  match container with
  | .entries before =>
    if token.kind = (if outer.isEmpty then closing else .closeBrace) then
      (deliver (.object before.reverse) (depth - 1) outer).toStep
    else match token.kind with
      | .separator => .next ⟨outer, .inside (.entries before), depth⟩
      | .identifier => .next ⟨outer, .assign before token.lexeme, depth⟩
      | .recordMark => .next ⟨outer, .entryCall before, depth⟩
      | _ => .reject .expectedIdentifier token depth
  | .items before =>
    match token.kind with
    | .closeBracket => (deliver (.array before.reverse) (depth - 1) outer).toStep
    | .separator => .next ⟨outer, .inside (.items before), depth⟩
    | _ => stepValue (.item before :: outer) depth token

/-- The number of an integer literal, which may turn out to be below the 32-bit range. -/
def integerValue (token : Token) : Except DocumentFault Value :=
  match Numeral.readInteger token.lexeme with
  | .error fault => .error (.numeral fault)
  | .ok n => (Value.ofInt n).mapError .number

/-- The number of an integer literal and the digits after its point, of which there may be any
number: that a text of a gigabyte is too long for a number is left out. -/
def fractionValue (whole fraction : Token) : Except DocumentFault Value :=
  match joinReal whole.lexeme fraction.lexeme with
  | .error fault => .error (.numeral fault)
  | .ok x => .ok (.float (x.convert .single))

/-- What is wrong with the number of an integer literal has no place. -/
theorem placed?_of_integerValue {token : Token} {fault : DocumentFault}
    (failed : integerValue token = .error fault) : fault.placed? = none := by
  unfold integerValue at failed
  split at failed
  · cases failed
    rfl
  · unfold Value.ofInt at failed
    split at failed <;> cases failed
    rfl

/-- What is wrong with a number and the digits after its point has no place. -/
theorem placed?_of_fractionValue {whole fraction : Token} {fault : DocumentFault}
    (failed : fractionValue whole fraction = .error fault) : fault.placed? = none := by
  unfold fractionValue at failed
  split at failed <;> cases failed
  rfl

/-- One token other than the end of the input. -/
def step (closing : Token.Kind) (config : Config) (token : Token) : Step :=
  let ⟨outer, state, depth⟩ := config
  match state with
  | .inside container => stepInside closing outer container depth token
  | .assign before id =>
    if token.kind = .assign then .next ⟨.entry before (.record id) :: outer, .value, depth⟩
    else .reject .expectedAssign token depth
  | .entryCall before =>
    if token.kind = .identifier then
      .next ⟨.entry before (.call token.lexeme) :: outer, .value, depth⟩
    else .reject .expectedIdentifier token depth
  | .valueCall =>
    if token.kind = .identifier then .next ⟨.argument token.lexeme :: outer, .value, depth⟩
    else .reject .expectedIdentifier token depth
  | .value => stepValue outer depth token
  | .integer whole =>
    if token.kind = .point then .next ⟨outer, .fraction whole, depth⟩
    else match integerValue whole with
      | .error fault => .fail fault false depth
      | .ok v =>
        match deliver v depth outer with
        | .done v => .done v false
        | .inside outer container depth => stepInside closing outer container depth token
  | .fraction whole =>
    if token.kind = .integer then
      match fractionValue whole token with
      | .error fault => .fail fault true depth
      | .ok v => (deliver v depth outer).toStep
    else .reject .expectedNumber token depth

/-- The end of the input in a list of entries, which only the outermost may meet. -/
def finishEntries (closing : Token.Kind) (token : Token) (before : List Entry)
    (outer : List Slot) (depth : Nat) : Except DocumentFault Value × Nat :=
  if outer.isEmpty ∧ closing = .endOfInput then (.ok (.object before.reverse), depth)
  else (.error (.parse ⟨.endOfInput, token.span⟩), depth)

/-- The end of the input after a complete value: it closes the arrays that are open. -/
def finishValue (closing : Token.Kind) (token : Token) (v : Value) (depth : Nat) :
    List Slot → Except DocumentFault Value × Nat
  | [] => (.ok v, depth)
  | .entry before head :: outer => finishEntries closing token (head.bind v :: before) outer depth
  | .item before :: outer =>
    finishValue closing token (.array (v :: before).reverse) (depth - 1) outer
  | .argument f :: outer => finishValue closing token (.call f v) (depth - 1) outer

/-- The end of the input: the value that is complete by it, or why there is none, and the levels
still open. -/
def finish (closing : Token.Kind) (config : Config) (token : Token) :
    Except DocumentFault Value × Nat :=
  let ⟨outer, state, depth⟩ := config
  match state with
  | .inside (.entries before) => finishEntries closing token before outer depth
  | .inside (.items before) =>
    finishValue closing token (.array before.reverse) (depth - 1) outer
  | .integer whole =>
    match integerValue whole with
    | .error fault => (.error fault, depth)
    | .ok v => finishValue closing token v depth outer
  | _ => (.error (.parse ⟨.endOfInput, token.span⟩), depth)

/-- The end of a reading: its result, the tokens ahead, and the levels open. -/
structure Outcome where
  result : Except DocumentFault Value
  ahead : List Token
  depth : Nat

/-- Read from a configuration up to the end of what was to be read. -/
def run (closing : Token.Kind) (config : Config) : List Token → Outcome
  | [] => ⟨.error .exhausted, [], config.depth⟩
  | token :: rest =>
    if token.kind = .endOfInput then
      let (result, depth) := finish closing config token
      ⟨result, token :: rest, depth⟩
    else match step closing config token with
      | .next config => run closing config rest
      | .done v taken => ⟨.ok v, if taken then rest else token :: rest, config.depth⟩
      | .fail fault taken depth =>
        ⟨.error fault, if taken then rest else token :: rest, depth⟩

/-- A place in a list of tokens, with the number of levels open there. -/
structure Cursor where
  ahead : List Token
  index : Nat
  depth : Nat

namespace Cursor

/-- The start of a list of tokens. -/
def ofTokens (tokens : List Token) : Cursor := ⟨tokens, 0, 0⟩

/-- The current token. -/
def peek (c : Cursor) : Except DocumentFault Token :=
  match c.ahead with
  | [] => .error .exhausted
  | token :: _ => .ok token

/-- The cursor after the current token; the end of the input stays current. -/
def next (c : Cursor) : Cursor :=
  match c.ahead with
  | [] => c
  | token :: rest => if token.kind = .endOfInput then c else ⟨rest, c.index + 1, c.depth⟩

/-- Take the current token. -/
def advance (c : Cursor) : Except DocumentFault Token × Cursor := (c.peek, c.next)

/-- Open a level for a token, unless too many are open. -/
def enterAt (token : Token) (c : Cursor) : Except DocumentFault Unit × Cursor :=
  if maxDepth ≤ c.depth then (.error (.parse ⟨.nestingTooDeep, token.span⟩), c)
  else (.ok (), { c with depth := c.depth + 1 })

/-- Open a level at the current token. -/
def enter (c : Cursor) : Except DocumentFault Unit × Cursor :=
  match c.peek with
  | .error fault => (.error fault, c)
  | .ok token => c.enterAt token

/-- Read from a state on. A success leaves as many levels open as there were. -/
def read (closing : Token.Kind) (state : State) (c : Cursor) :
    Except DocumentFault Value × Cursor :=
  let outcome := run closing ⟨[], state, c.depth⟩ c.ahead
  let index := c.index + (c.ahead.length - outcome.ahead.length)
  match outcome.result with
  | .ok v => (.ok v, ⟨outcome.ahead, index, c.depth⟩)
  | .error fault => (.error fault, ⟨outcome.ahead, index, outcome.depth⟩)

/-- Read entries up to a closing token, as an object. -/
def readEntries (closing : Token.Kind) (c : Cursor) : Except DocumentFault Value × Cursor :=
  c.read closing (.inside (.entries []))

/-- Read items up to a closing bracket or the end of the input, as an array. -/
def readItems (c : Cursor) : Except DocumentFault Value × Cursor :=
  c.read .closeBrace (.inside (.items []))

/-- Read one value. -/
def readValue (c : Cursor) : Except DocumentFault Value × Cursor :=
  c.read .closeBrace .value

/-- Read all entries up to the end of the input, as an object. -/
def readDocument (c : Cursor) : Except DocumentFault Value × Cursor := c.readEntries .endOfInput

/-- Read a function name and its argument. -/
def readCall (c : Cursor) : Except DocumentFault Entry × Cursor :=
  match c.peek with
  | .error fault => (.error fault, c)
  | .ok name =>
    if name.kind ≠ .identifier then (.error (.parse (.unmet .expectedIdentifier name)), c)
    else
      let (result, after) := c.next.readValue
      (result.map (Entry.call name.lexeme), after)

/-- Read an identifier, an assignment mark and a value. -/
def readRecord (c : Cursor) : Except DocumentFault Entry × Cursor :=
  match c.peek with
  | .error fault => (.error fault, c)
  | .ok id =>
    if id.kind ≠ .identifier then (.error (.parse (.unmet .expectedIdentifier id)), c)
    else match c.next.peek with
      | .error fault => (.error fault, c.next)
      | .ok mark =>
        if mark.kind ≠ .assign then (.error (.parse (.unmet .expectedAssign mark)), c.next)
        else
          let (result, after) := c.next.next.readValue
          (result.map (Entry.record id.lexeme), after)

end Cursor

/-- The document of a list of tokens. -/
def ofTokens (tokens : List Token) : Except DocumentFault Value :=
  (Cursor.ofTokens tokens).readDocument.1

/-- The document of a text. -/
def ofSource (source : String) : Except DocumentFault Value :=
  match Token.scan source with
  | .error fault => .error (.lex fault)
  | .ok tokens => ofTokens tokens

end Manifest.Document
