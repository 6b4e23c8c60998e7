import Manifest.Proofs.Document.Grammar
import Manifest.Proofs.Token.Lexeme

/-!
# What a reading accepts

`Reads` says what is read from the front of a list of tokens inside a number of levels, and what is
left; it states the bounds on integers and levels where they are met. The machine of a reading
holds in its slots what it has read so far, so that a configuration demands of the tokens ahead
that they finish every slot. `Expects` writes this down: `Follows` for the slots, from the
innermost outwards, and one clause for each state.

One token changes what is expected as it should (`expects_cons`), and at the end of the input
closing brackets may be added (`finish_eq_ok_iff`). Both together give the documents of a list of
tokens (`ofTokens_eq_ok_iff_reads`).
-/

namespace Manifest.Document

/-- A token that states a whole number within the bound. -/
def Admits (token : Token) : Prop :=
  ∃ n, Numeral.readInteger token.lexeme = .ok n ∧ n ≤ maxInteger

/-- The tokens do not start with a point. -/
def NoPoint (ts : List Token) : Prop := ∀ t ∈ ts.head?, t.kind ≠ .point

/-- At the end there is no point. -/
theorem noPoint_nil : NoPoint [] := by simp [NoPoint]

/-- Nothing starts with a point that is put together from what does not. -/
theorem NoPoint.append {ts us : List Token} (first : NoPoint ts) (second : NoPoint us) :
    NoPoint (ts ++ us) := by
  cases ts with
  | nil => exact second
  | cons t ts => exact first

/-- `Reads d p ts us`: with `d` levels open, the part `p` of a tree is read from the tokens `ts`,
and `us` are left. -/
inductive Reads : Nat → Phrase → List Token → List Token → Prop
  | integer {d : Nat} {digits : Token} {v : Value} {ts : List Token} :
    digits.kind = .integer → Admits digits → integerValue digits = .ok v → NoPoint ts →
    Reads d (.value v) (digits :: ts) ts
  | real {d : Nat} {whole point fraction : Token} {v : Value} {ts : List Token} :
    whole.kind = .integer → Admits whole → point.kind = .point → fraction.kind = .integer →
    fractionValue whole fraction = .ok v →
    Reads d (.value v) (whole :: point :: fraction :: ts) ts
  | quoted {d : Nat} {token : Token} {ts : List Token} :
    token.kind = .quoted → Reads d (.value (.text token.content)) (token :: ts) ts
  | object {d : Nat} {start stop : Token} {es : List Entry} {ts us : List Token} :
    start.kind = .openBrace → d < maxDepth → Reads (d + 1) (.entries es) ts (stop :: us) →
    stop.kind = .closeBrace → Reads d (.value (.object es)) (start :: ts) us
  | array {d : Nat} {start stop : Token} {vs : List Value} {ts us : List Token} :
    start.kind = .openBracket → d < maxDepth → Reads (d + 1) (.items vs) ts (stop :: us) →
    stop.kind = .closeBracket → Reads d (.value (.array vs)) (start :: ts) us
  | call {d : Nat} {mark name : Token} {v : Value} {ts us : List Token} :
    mark.kind = .valueMark → d < maxDepth → name.kind = .identifier →
    Reads (d + 1) (.value v) ts us → Reads d (.value (.call name.lexeme v)) (mark :: name :: ts) us
  | noEntries {d : Nat} {ts : List Token} : Reads d (.entries []) ts ts
  | record {d : Nat} {id mark : Token} {v : Value} {es : List Entry} {ts us xs : List Token} :
    id.kind = .identifier → mark.kind = .assign → Reads d (.value v) ts us →
    Reads d (.entries es) us xs →
    Reads d (.entries (.record id.lexeme v :: es)) (id :: mark :: ts) xs
  | recordCall {d : Nat} {mark name : Token} {v : Value} {es : List Entry}
    {ts us xs : List Token} :
    mark.kind = .recordMark → name.kind = .identifier → Reads d (.value v) ts us →
    Reads d (.entries es) us xs →
    Reads d (.entries (.call name.lexeme v :: es)) (mark :: name :: ts) xs
  | betweenEntries {d : Nat} {token : Token} {es : List Entry} {ts us : List Token} :
    token.kind = .separator → Reads d (.entries es) ts us → Reads d (.entries es) (token :: ts) us
  | noItems {d : Nat} {ts : List Token} : Reads d (.items []) ts ts
  | item {d : Nat} {v : Value} {vs : List Value} {ts us xs : List Token} :
    Reads d (.value v) ts us → Reads d (.items vs) us xs → Reads d (.items (v :: vs)) ts xs
  | betweenItems {d : Nat} {token : Token} {vs : List Value} {ts us : List Token} :
    token.kind = .separator → Reads d (.items vs) ts us → Reads d (.items vs) (token :: ts) us

/-! ### What a configuration expects -/

/-- What may come where a list of entries is over: no token at all after those of the document, and
a brace after those of an object, which `follow` then takes. -/
def EntriesEnd (outermost : Bool) (r : Value) (follow : Value → List Token → Prop) (v : Value)
    (ts : List Token) : Prop :=
  if outermost then ts = [] ∧ v = r
  else ∃ stop us, ts = stop :: us ∧ stop.kind = .closeBrace ∧ follow v us

/-- More entries, after those before, and the end of the list. -/
def EntriesThen (outermost : Bool) (r : Value) (follow : Value → List Token → Prop) (d : Nat)
    (before : List Entry) (ts : List Token) : Prop :=
  ∃ es us, Reads d (.entries es) ts us ∧
    EntriesEnd outermost r follow (.object (before.reverse ++ es)) us

/-- More items, after those before, and the end of the array. -/
def ItemsThen (follow : Value → List Token → Prop) (d : Nat) (before : List Value)
    (ts : List Token) : Prop :=
  ∃ vs stop us, Reads d (.items vs) ts (stop :: us) ∧ stop.kind = .closeBracket ∧
    follow (.array (before.reverse ++ vs)) us

/-- `Follows r outer d v ts`: with the value `v` in the innermost of the slots, the tokens complete
the value `r`. -/
def Follows (r : Value) : List Slot → Nat → Value → List Token → Prop
  | [], _, v, _ => v = r
  | .entry before head :: outer, d, v, ts =>
    EntriesThen outer.isEmpty r (Follows r outer (d - 1)) d (head.bind v :: before) ts
  | .item before :: outer, d, v, ts => ItemsThen (Follows r outer (d - 1)) d (v :: before) ts
  | .argument f :: outer, d, v, ts => Follows r outer (d - 1) (.call f v) ts

/-- A value for the innermost slot, and what follows it. -/
def ExpectsValue (r : Value) (outer : List Slot) (d : Nat) (ts : List Token) : Prop :=
  ∃ v us, Reads d (.value v) ts us ∧ Follows r outer d v us

/-- The digits after a point, and what follows the number. -/
def ExpectsFraction (r : Value) (outer : List Slot) (d : Nat) (whole : Token) (ts : List Token) :
    Prop :=
  ∃ fraction us, ts = fraction :: us ∧ fraction.kind = .integer ∧
    ∃ v, fractionValue whole fraction = .ok v ∧ Follows r outer d v us

/-- The tokens complete the value `r` from a configuration on. -/
def Expects (r : Value) (config : Config) (ts : List Token) : Prop :=
  let ⟨outer, state, d⟩ := config
  match state with
  | .inside (.entries before) =>
    EntriesThen outer.isEmpty r (Follows r outer (d - 1)) d before ts
  | .inside (.items before) => ItemsThen (Follows r outer (d - 1)) d before ts
  | .assign before id => ∃ mark us, ts = mark :: us ∧ mark.kind = .assign ∧
      ExpectsValue r (.entry before (.record id) :: outer) d us
  | .entryCall before => ∃ name us, ts = name :: us ∧ name.kind = .identifier ∧
      ExpectsValue r (.entry before (.call name.lexeme) :: outer) d us
  | .valueCall => ∃ name us, ts = name :: us ∧ name.kind = .identifier ∧
      ExpectsValue r (.argument name.lexeme :: outer) d us
  | .value => ExpectsValue r outer d ts
  | .integer whole =>
    (NoPoint ts ∧ ∃ v, integerValue whole = .ok v ∧ Follows r outer d v ts) ∨
      ∃ point us, ts = point :: us ∧ point.kind = .point ∧ ExpectsFraction r outer d whole us
  | .fraction whole => ExpectsFraction r outer d whole ts

/-- The tokens complete the value `r` after a step. -/
def Step.Expects (r : Value) (ts : List Token) : Step → Prop
  | .next config => Document.Expects r config ts
  | .done v _ => v = r
  | .fail _ _ _ => False

/-! ### One token -/

variable {r : Value} {outer : List Slot} {d : Nat} {t : Token} {ts : List Token}

private theorem exists_cons_eq {P : Token → List Token → Prop} :
    (∃ x xs, t :: ts = x :: xs ∧ P x xs) ↔ P t ts := by
  constructor
  · rintro ⟨x, xs, same, h⟩
    obtain ⟨rfl, rfl⟩ := List.cons.inj same
    exact h
  · exact fun h ↦ ⟨t, ts, rfl, h⟩

private theorem reads_entries_cons {es : List Entry} {us : List Token} :
    Reads d (.entries es) (t :: ts) us ↔
      (es = [] ∧ us = t :: ts) ∨
      (t.kind = .separator ∧ Reads d (.entries es) ts us) ∨
      (t.kind = .identifier ∧ ∃ mark xs v ys fs, ts = mark :: xs ∧ mark.kind = .assign ∧
        Reads d (.value v) xs ys ∧ Reads d (.entries fs) ys us ∧ es = .record t.lexeme v :: fs) ∨
      (t.kind = .recordMark ∧ ∃ name xs v ys fs, ts = name :: xs ∧ name.kind = .identifier ∧
        Reads d (.value v) xs ys ∧ Reads d (.entries fs) ys us ∧
          es = .call name.lexeme v :: fs) := by
  constructor
  · intro h
    cases h with
    | noEntries => exact .inl ⟨rfl, rfl⟩
    | betweenEntries kind rest => exact .inr (.inl ⟨kind, rest⟩)
    | record id mark value rest =>
      exact .inr (.inr (.inl ⟨id, _, _, _, _, _, rfl, mark, value, rest, rfl⟩))
    | recordCall mark name value rest =>
      exact .inr (.inr (.inr ⟨mark, _, _, _, _, _, rfl, name, value, rest, rfl⟩))
  · rintro (⟨rfl, rfl⟩ | ⟨kind, rest⟩ | ⟨id, _, _, _, _, _, rfl, mark, value, rest, rfl⟩ |
      ⟨mark, _, _, _, _, _, rfl, name, value, rest, rfl⟩)
    · exact .noEntries
    · exact .betweenEntries kind rest
    · exact .record id mark value rest
    · exact .recordCall mark name value rest

private theorem reads_items_iff {vs : List Value} {us : List Token} :
    Reads d (.items vs) ts us ↔
      (vs = [] ∧ us = ts) ∨
      (∃ token xs, ts = token :: xs ∧ token.kind = .separator ∧ Reads d (.items vs) xs us) ∨
      (∃ v xs ws, Reads d (.value v) ts xs ∧ Reads d (.items ws) xs us ∧ vs = v :: ws) := by
  constructor
  · intro h
    cases h with
    | noItems => exact .inl ⟨rfl, rfl⟩
    | betweenItems kind rest => exact .inr (.inl ⟨_, _, rfl, kind, rest⟩)
    | item value rest => exact .inr (.inr ⟨_, _, _, value, rest, rfl⟩)
  · rintro (⟨rfl, rfl⟩ | ⟨_, _, rfl, kind, rest⟩ | ⟨_, _, _, value, rest, rfl⟩)
    · exact .noItems
    · exact .betweenItems kind rest
    · exact .item value rest

/-- The kinds of tokens that a value may start with. -/
def startsValue (kind : Token.Kind) : Bool :=
  match kind with
  | .integer | .quoted | .openBrace | .openBracket | .valueMark => true
  | _ => false

private theorem Reads.startsValue_cons {v : Value} {us : List Token}
    (h : Reads d (.value v) (t :: ts) us) : startsValue t.kind = true := by
  cases h <;> simp_all [Document.startsValue]

/-- What a value is read from starts as a value does. -/
theorem Reads.startsValue {v : Value} {us : List Token} (h : Reads d (.value v) ts us) :
    ∃ t xs, ts = t :: xs ∧ startsValue t.kind = true := by
  cases ts with
  | nil => cases h
  | cons t xs => exact ⟨t, xs, rfl, h.startsValue_cons⟩

/-- What follows a value is what is expected once the value is in its slot. -/
theorem follows_iff_deliver {v : Value} :
    Follows r outer d v ts ↔ (deliver v d outer).toStep.Expects r ts := by
  induction outer generalizing v d with
  | nil => rfl
  | cons slot outer ih =>
    cases slot with
    | entry before head => rfl
    | item before => rfl
    | argument f => exact ih

private theorem expects_stepOpen {state : State} :
    (stepOpen outer state d t).Expects r ts ↔
      d < maxDepth ∧ Expects r ⟨outer, state, d + 1⟩ ts := by
  unfold stepOpen
  split
  · next full => simp [Step.Expects, Nat.not_lt.mpr full]
  · next open_ => simp [Step.Expects, Nat.lt_of_not_le open_]

private theorem expectsValue_integer (kind : t.kind = .integer) :
    ExpectsValue r outer d (t :: ts) ↔
      Admits t ∧ Expects r ⟨outer, .integer t, d⟩ ts := by
  constructor
  · rintro ⟨v, us, read, follow⟩
    cases read with
    | integer _ admits value noPoint => exact ⟨admits, .inl ⟨noPoint, v, value, follow⟩⟩
    | real _ admits point fraction value =>
      exact ⟨admits, .inr ⟨_, _, rfl, point, _, _, rfl, fraction, v, value, follow⟩⟩
    | _ => simp_all
  · rintro ⟨admits, ⟨noPoint, v, value, follow⟩ |
      ⟨point, us, rfl, pointKind, fraction, xs, rfl, fractionKind, v, value, follow⟩⟩
    · exact ⟨v, ts, .integer kind admits value noPoint, follow⟩
    · exact ⟨v, xs, .real kind admits pointKind fractionKind value, follow⟩

private theorem expectsValue_object (nested : outer ≠ []) (kind : t.kind = .openBrace) :
    ExpectsValue r outer d (t :: ts) ↔
      d < maxDepth ∧ Expects r ⟨outer, .inside (.entries []), d + 1⟩ ts := by
  have inside : outer.isEmpty = false := by simpa using nested
  constructor
  · rintro ⟨v, us, read, follow⟩
    cases read with
    | object _ room entries stop =>
      refine ⟨room, _, _, entries, ?_⟩
      rw [inside]
      exact ⟨_, us, rfl, stop, follow⟩
    | _ => simp_all
  · rintro ⟨room, es, us, entries, ends⟩
    rw [inside] at ends
    obtain ⟨stop, xs, rfl, stopKind, follow⟩ := ends
    exact ⟨_, xs, .object kind room entries stopKind, follow⟩

private theorem expectsValue_array (kind : t.kind = .openBracket) :
    ExpectsValue r outer d (t :: ts) ↔
      d < maxDepth ∧ Expects r ⟨outer, .inside (.items []), d + 1⟩ ts := by
  constructor
  · rintro ⟨v, us, read, follow⟩
    cases read with
    | array _ room items stop => exact ⟨room, _, _, us, items, stop, follow⟩
    | _ => simp_all
  · rintro ⟨room, vs, stop, us, items, stopKind, follow⟩
    exact ⟨_, us, .array kind room items stopKind, follow⟩

private theorem expectsValue_call (kind : t.kind = .valueMark) :
    ExpectsValue r outer d (t :: ts) ↔
      d < maxDepth ∧ Expects r ⟨outer, .valueCall, d + 1⟩ ts := by
  constructor
  · rintro ⟨v, us, read, follow⟩
    cases read with
    | call _ room name argument => exact ⟨room, _, _, rfl, name, _, us, argument, follow⟩
    | _ => simp_all
  · rintro ⟨room, name, xs, rfl, nameKind, v, us, argument, follow⟩
    exact ⟨_, us, .call kind room nameKind argument, follow⟩

/-- A token where a value is expected. -/
theorem expectsValue_cons (nested : outer ≠ []) :
    ExpectsValue r outer d (t :: ts) ↔ (stepValue outer d t).Expects r ts := by
  unfold stepValue
  split
  · next kind =>
    rw [expectsValue_integer kind]
    unfold Admits
    split
    · next fault failed => simp [failed, Step.Expects]
    · next n read =>
      split
      · next large => simp [read, Step.Expects, Int.not_le.mpr large]
      · next small => simp [read, Step.Expects, Int.not_lt.mp small]
  · next kind =>
    rw [← follows_iff_deliver]
    constructor
    · rintro ⟨v, us, read, follow⟩
      cases read <;> simp_all
    · exact fun follow ↦ ⟨_, ts, .quoted kind, follow⟩
  · next kind => rw [expects_stepOpen, expectsValue_object nested kind]
  · next kind => rw [expects_stepOpen, expectsValue_array kind]
  · next kind => rw [expects_stepOpen, expectsValue_call kind]
  · constructor
    · rintro ⟨v, us, read, follow⟩
      have := read.startsValue_cons
      unfold Document.startsValue at this
      split at this <;> simp_all
    · exact False.elim

private theorem entriesThen_cons {outermost : Bool} {follow : Value → List Token → Prop}
    {before : List Entry} :
    EntriesThen outermost r follow d before (t :: ts) ↔
      EntriesEnd outermost r follow (.object before.reverse) (t :: ts) ∨
      (t.kind = .separator ∧ EntriesThen outermost r follow d before ts) ∨
      (t.kind = .identifier ∧ ∃ mark xs, ts = mark :: xs ∧ mark.kind = .assign ∧
        ∃ v ys, Reads d (.value v) xs ys ∧
          EntriesThen outermost r follow d (.record t.lexeme v :: before) ys) ∨
      (t.kind = .recordMark ∧ ∃ name xs, ts = name :: xs ∧ name.kind = .identifier ∧
        ∃ v ys, Reads d (.value v) xs ys ∧
          EntriesThen outermost r follow d (.call name.lexeme v :: before) ys) := by
  have snoc (entry : Entry) (es : List Entry) :
      (entry :: before).reverse ++ es = before.reverse ++ entry :: es := by simp
  constructor
  · rintro ⟨es, us, read, ends⟩
    obtain ⟨rfl, rfl⟩ | ⟨kind, rest⟩ | ⟨kind, mark, xs, v, ys, fs, rfl, markKind, value,
        rest, rfl⟩ |
      ⟨kind, name, xs, v, ys, fs, rfl, nameKind, value, rest, rfl⟩ := reads_entries_cons.mp read
    · exact .inl (by simpa using ends)
    · exact .inr (.inl ⟨kind, es, us, rest, ends⟩)
    · exact .inr (.inr (.inl ⟨kind, mark, xs, rfl, markKind, v, ys, value, fs, us, rest,
        by rwa [snoc]⟩))
    · exact .inr (.inr (.inr ⟨kind, name, xs, rfl, nameKind, v, ys, value, fs, us, rest,
        by rwa [snoc]⟩))
  · rintro (ends | ⟨kind, es, us, rest, ends⟩ |
      ⟨kind, mark, xs, rfl, markKind, v, ys, value, fs, us, rest, ends⟩ |
      ⟨kind, name, xs, rfl, nameKind, v, ys, value, fs, us, rest, ends⟩)
    · exact ⟨[], _, .noEntries, by simpa using ends⟩
    · exact ⟨es, us, .betweenEntries kind rest, ends⟩
    · exact ⟨_, us, .record kind markKind value rest, by rwa [snoc] at ends⟩
    · exact ⟨_, us, .recordCall kind nameKind value rest, by rwa [snoc] at ends⟩

private theorem itemsThen_cons {follow : Value → List Token → Prop} {before : List Value} :
    ItemsThen follow d before (t :: ts) ↔
      (t.kind = .closeBracket ∧ follow (.array before.reverse) ts) ∨
      (t.kind = .separator ∧ ItemsThen follow d before ts) ∨
      (∃ v us, Reads d (.value v) (t :: ts) us ∧ ItemsThen follow d (v :: before) us) := by
  have snoc (v : Value) (vs : List Value) :
      (v :: before).reverse ++ vs = before.reverse ++ v :: vs := by simp
  constructor
  · rintro ⟨vs, stop, us, read, stopKind, ends⟩
    obtain ⟨rfl, same⟩ | ⟨token, xs, same, kind, rest⟩ | ⟨v, xs, ws, value, rest, rfl⟩ :=
      reads_items_iff.mp read
    · obtain ⟨rfl, rfl⟩ := List.cons.inj same
      exact .inl ⟨stopKind, by simpa using ends⟩
    · obtain ⟨rfl, rfl⟩ := List.cons.inj same
      exact .inr (.inl ⟨kind, vs, stop, us, rest, stopKind, ends⟩)
    · exact .inr (.inr ⟨v, xs, value, ws, stop, us, rest, stopKind, by rwa [snoc]⟩)
  · rintro (⟨stopKind, ends⟩ | ⟨kind, vs, stop, us, rest, stopKind, ends⟩ |
      ⟨v, xs, value, ws, stop, us, rest, stopKind, ends⟩)
    · exact ⟨[], t, ts, .noItems, stopKind, by simpa using ends⟩
    · exact ⟨vs, stop, us, .betweenItems kind rest, stopKind, ends⟩
    · exact ⟨v :: ws, stop, us, .item value rest, stopKind, by rwa [snoc] at ends⟩

private theorem expects_entries_cons {before : List Entry} (more : t.kind ≠ .endOfInput) :
    Expects r ⟨outer, .inside (.entries before), d⟩ (t :: ts) ↔
      (stepInside .endOfInput outer (.entries before) d t).Expects r ts := by
  simp only [Expects, stepInside]
  rw [entriesThen_cons]
  by_cases closes : t.kind = (if outer.isEmpty then .endOfInput else .closeBrace)
  · rw [if_pos closes, ← follows_iff_deliver]
    cases inside : outer.isEmpty with
    | true =>
      rw [inside, if_pos rfl] at closes
      exact absurd closes more
    | false =>
      rw [inside] at closes
      simp only [Bool.false_eq_true, if_false] at closes
      simp only [EntriesEnd, Bool.false_eq_true, if_false, exists_cons_eq, closes, reduceCtorEq,
        true_and, false_and, or_false]
  · rw [if_neg closes]
    have noEnd {v : Value} :
        ¬ EntriesEnd outer.isEmpty r (Follows r outer (d - 1)) v (t :: ts) := by
      unfold EntriesEnd
      split
      · simp
      · next inside =>
        rw [if_neg inside] at closes
        simp [closes]
    split
    · next kind => simp [kind, noEnd, Step.Expects, Expects]
    · next kind =>
      simp only [kind, noEnd, reduceCtorEq, false_and, true_and, or_false, false_or]
      exact Iff.rfl
    · next kind =>
      simp only [kind, noEnd, reduceCtorEq, false_and, true_and, false_or]
      exact Iff.rfl
    · next noSeparator noIdentifier noMark =>
      have separator : ¬ t.kind = .separator := noSeparator
      have identifier : ¬ t.kind = .identifier := noIdentifier
      have mark : ¬ t.kind = .recordMark := noMark
      simp [noEnd, separator, identifier, mark, Step.reject, Step.Expects]

private theorem expects_items_cons {before : List Value} :
    Expects r ⟨outer, .inside (.items before), d⟩ (t :: ts) ↔
      (stepInside .endOfInput outer (.items before) d t).Expects r ts := by
  have starts {v : Value} {us : List Token} (h : startsValue t.kind = false) :
      ¬ Reads d (.value v) (t :: ts) us := by
    intro read
    rw [read.startsValue_cons] at h
    cases h
  simp only [Expects, stepInside]
  rw [itemsThen_cons]
  split
  · next kind =>
    rw [← follows_iff_deliver]
    simp [kind, starts, Document.startsValue]
  · next kind => simp [kind, starts, Document.startsValue, Step.Expects, Expects]
  · next noClose noSeparator =>
    have close : ¬ t.kind = .closeBracket := noClose
    have separator : ¬ t.kind = .separator := noSeparator
    rw [← expectsValue_cons (by simp)]
    simp only [close, separator, false_and, false_or]
    exact Iff.rfl

private theorem expects_inside_cons {container : Container} (more : t.kind ≠ .endOfInput) :
    Expects r ⟨outer, .inside container, d⟩ (t :: ts) ↔
      (stepInside .endOfInput outer container d t).Expects r ts := by
  cases container with
  | entries before => exact expects_entries_cons more
  | items before => exact expects_items_cons

private theorem expects_integer_cons {whole : Token} (more : t.kind ≠ .endOfInput) :
    Expects r ⟨outer, .integer whole, d⟩ (t :: ts) ↔
      (step .endOfInput ⟨outer, .integer whole, d⟩ t).Expects r ts := by
  simp only [step]
  split
  · next point =>
    have notFirst : ¬ NoPoint (t :: ts) := fun first ↦ first t rfl point
    simp only [Expects, notFirst, exists_cons_eq, point, false_and, false_or, true_and,
      Step.Expects]
  · next noPoint =>
    have value : Expects r ⟨outer, .integer whole, d⟩ (t :: ts) ↔
        ∃ v, integerValue whole = .ok v ∧ Follows r outer d v (t :: ts) := by
      simp [Expects, NoPoint, noPoint]
    rw [value]
    split
    · next fault failed => simp [failed, Step.Expects]
    · next v read =>
      rw [read]
      simp only [Except.ok.injEq, exists_eq_left', follows_iff_deliver]
      split
      · next v' done => simp [done, Delivery.toStep, Step.Expects]
      · next outer' container d' inside =>
        simp only [inside, Delivery.toStep, Step.Expects]
        exact expects_inside_cons more

/-- A configuration that awaits a value awaits it for a slot. -/
def Config.Slotted (config : Config) : Prop := config.state = .value → config.outer ≠ []

/-- One token, which does not end the input, changes what is expected as its step says. -/
theorem expects_cons {config : Config} (slotted : config.Slotted) (more : t.kind ≠ .endOfInput) :
    Expects r config (t :: ts) ↔ (step .endOfInput config t).Expects r ts := by
  obtain ⟨outer, state, d⟩ := config
  cases state with
  | inside container => exact expects_inside_cons more
  | assign before id =>
    simp only [step]
    split
    · next kind => simp only [Expects, exists_cons_eq, kind, true_and, Step.Expects]
    · next kind => simp only [Expects, exists_cons_eq, kind, false_and, Step.reject, Step.Expects]
  | entryCall before =>
    simp only [step]
    split
    · next kind => simp only [Expects, exists_cons_eq, kind, true_and, Step.Expects]
    · next kind => simp only [Expects, exists_cons_eq, kind, false_and, Step.reject, Step.Expects]
  | valueCall =>
    simp only [step]
    split
    · next kind => simp only [Expects, exists_cons_eq, kind, true_and, Step.Expects]
    · next kind => simp only [Expects, exists_cons_eq, kind, false_and, Step.reject, Step.Expects]
  | value => exact expectsValue_cons (slotted rfl)
  | integer whole => exact expects_integer_cons more
  | fraction whole =>
    simp only [step]
    split
    · next kind =>
      split
      · next fault failed =>
        simp only [Expects, ExpectsFraction, exists_cons_eq, failed, reduceCtorEq, false_and,
          exists_false, and_false, Step.Expects]
      · next v read =>
        rw [← follows_iff_deliver]
        simp only [Expects, ExpectsFraction, exists_cons_eq, kind, read, Except.ok.injEq,
          exists_eq_left', true_and]
    · next kind =>
      simp only [Expects, ExpectsFraction, exists_cons_eq, kind, false_and, Step.reject,
        Step.Expects]

/-! ### The end of the input -/

/-- Closing brackets, as many as there are arrays to be closed by the end of the input. -/
def AreClosers (closers : List Token) : Prop := ∀ c ∈ closers, c.kind = .closeBracket

private theorem reads_closers {p : Phrase} {closers us : List Token} (closing : AreClosers closers)
    (read : Reads d p closers us) : us = closers ∧ (p = .entries [] ∨ p = .items []) := by
  induction read with
  | noEntries => exact ⟨rfl, .inl rfl⟩
  | noItems => exact ⟨rfl, .inr rfl⟩
  | item value rest valueIh restIh => simpa using (valueIh closing).2
  | _ => simp_all [AreClosers]

private theorem closers_not_value {closers us : List Token} {v : Value}
    (closing : AreClosers closers) : ¬ Reads d (.value v) closers us := by
  intro read
  simpa using (reads_closers closing read).2

private theorem exists_closers_and {P : Prop} : (∃ closers, AreClosers closers ∧ P) ↔ P := by
  constructor
  · rintro ⟨closers, closing, h⟩
    exact h
  · exact fun h ↦ ⟨[], by simp [AreClosers], h⟩

private theorem entriesThen_closers {outermost : Bool} {follow : Value → List Token → Prop}
    {before : List Entry} :
    (∃ closers, AreClosers closers ∧ EntriesThen outermost r follow d before closers) ↔
      outermost = true ∧ .object before.reverse = r := by
  constructor
  · rintro ⟨closers, closing, es, us, read, ends⟩
    obtain ⟨rfl, same | same⟩ := reads_closers closing read
    · obtain rfl := Phrase.entries.inj same
      cases outermost with
      | true => exact ⟨rfl, by simpa [EntriesEnd] using ends.2⟩
      | false =>
        obtain ⟨stop, xs, rfl, kind, -⟩ := ends
        have := closing stop List.mem_cons_self
        rw [kind] at this
        cases this
    · cases same
  · rintro ⟨rfl, rfl⟩
    exact ⟨[], by simp [AreClosers], [], [], .noEntries, by simp [EntriesEnd]⟩

private theorem itemsThen_closers {follow : Value → List Token → Prop} {before : List Value} :
    (∃ closers, AreClosers closers ∧ ItemsThen follow d before closers) ↔
      ∃ closers, AreClosers closers ∧ follow (.array before.reverse) closers := by
  constructor
  · rintro ⟨closers, closing, vs, stop, us, read, -, ends⟩
    obtain ⟨rfl, same | same⟩ := reads_closers closing read
    · cases same
    · obtain rfl := Phrase.items.inj same
      exact ⟨us, fun c hc ↦ closing c (List.mem_cons_of_mem stop hc), by simpa using ends⟩
  · rintro ⟨closers, closing, ends⟩
    let bracket : Token := ⟨.closeBracket, "]", ⟨0, 0⟩⟩
    refine ⟨bracket :: closers, ?_, [], bracket, closers, .noItems, rfl, by simpa using ends⟩
    intro c hc
    obtain rfl | later := List.mem_cons.mp hc
    · rfl
    · exact closing c later

variable {stop : Token}

/-- The end of the input after a value closes the arrays around it. -/
theorem finishValue_eq_ok_iff {v : Value} :
    (finishValue .endOfInput stop v d outer).1 = .ok r ↔
      ∃ closers, AreClosers closers ∧ Follows r outer d v closers := by
  induction outer generalizing v d with
  | nil =>
    simp only [finishValue, Follows, Except.ok.injEq]
    rw [exists_closers_and]
  | cons slot outer ih =>
    cases slot with
    | entry before head =>
      simp only [finishValue, finishEntries, Follows]
      rw [entriesThen_closers]
      split
      · next outermost => simp [outermost]
      · next inside => simp_all
    | item before =>
      simp only [finishValue, Follows]
      rw [itemsThen_closers, ih]
    | argument f => exact ih

private theorem closers_not_first {closers : List Token} {kind : Token.Kind}
    {P : Token → List Token → Prop} (closing : AreClosers closers) (other : kind ≠ .closeBracket) :
    ¬ ∃ x xs, closers = x :: xs ∧ x.kind = kind ∧ P x xs := by
  rintro ⟨x, xs, rfl, same, -⟩
  exact other (same.symm.trans (closing x List.mem_cons_self))

/-- The end of the input completes what closers complete. -/
theorem finish_eq_ok_iff {config : Config} :
    (finish .endOfInput config stop).1 = .ok r ↔
      ∃ closers, AreClosers closers ∧ Expects r config closers := by
  obtain ⟨outer, state, d⟩ := config
  have never {P : List Token → Prop} (h : ∀ closers, AreClosers closers → ¬ P closers) :
      (Except.error (.parse ⟨.endOfInput, stop.span⟩) : Except DocumentFault Value) = .ok r ↔
        ∃ closers, AreClosers closers ∧ P closers := by
    simp only [reduceCtorEq, false_iff, not_exists, not_and]
    exact h
  cases state with
  | inside container =>
    cases container with
    | entries before =>
      simp only [finish, finishEntries, Expects]
      rw [entriesThen_closers]
      split
      · next outermost => simp [outermost]
      · next inside => simp_all
    | items before =>
      simp only [finish, Expects]
      rw [itemsThen_closers, finishValue_eq_ok_iff]
  | assign before id => exact never fun _ closing ↦ closers_not_first closing (by simp)
  | entryCall before => exact never fun _ closing ↦ closers_not_first closing (by simp)
  | valueCall => exact never fun _ closing ↦ closers_not_first closing (by simp)
  | value =>
    refine never fun closers closing expected ↦ ?_
    obtain ⟨v, us, read, -⟩ := expected
    exact closers_not_value closing read
  | integer whole =>
    have alone {closers : List Token} (closing : AreClosers closers) :
        Expects r ⟨outer, .integer whole, d⟩ closers ↔
          ∃ v, integerValue whole = .ok v ∧ Follows r outer d v closers := by
      have noPoint : NoPoint closers := by
        intro t first
        simp [closing t (List.mem_of_mem_head? first)]
      have noMark : ¬ ∃ point us, closers = point :: us ∧ point.kind = .point ∧
          ExpectsFraction r outer d whole us := closers_not_first closing (by simp)
      simp only [Expects, noPoint, true_and, noMark, or_false]
    constructor
    · intro finished
      simp only [finish] at finished
      split at finished
      · cases finished
      · next v read =>
        obtain ⟨closers, closing, follow⟩ := finishValue_eq_ok_iff.mp finished
        exact ⟨closers, closing, (alone closing).mpr ⟨v, read, follow⟩⟩
    · rintro ⟨closers, closing, expected⟩
      obtain ⟨v, read, follow⟩ := (alone closing).mp expected
      simp only [finish, read]
      exact finishValue_eq_ok_iff.mpr ⟨closers, closing, follow⟩
  | fraction whole => exact never fun _ closing ↦ closers_not_first closing (by simp)

/-! ### A whole reading -/

private theorem slotted_toStep {delivery : Delivery} {config : Config}
    (h : delivery.toStep = .next config) : config.Slotted := by
  cases delivery with
  | done v => cases h
  | inside outer container d =>
    cases h
    exact fun h ↦ by cases h

private theorem slotted_stepOpen {state : State} {config : Config} (opens : state ≠ .value)
    (h : stepOpen outer state d t = .next config) : config.Slotted := by
  unfold stepOpen at h
  split at h
  · cases h
  · cases h
    exact fun same ↦ absurd same opens

private theorem slotted_stepValue {config : Config} (h : stepValue outer d t = .next config) :
    config.Slotted := by
  unfold stepValue at h
  split at h
  · split at h
    · cases h
    · split at h
      · cases h
      · cases h
        exact fun same ↦ by cases same
  · exact slotted_toStep h
  · exact slotted_stepOpen (by simp) h
  · exact slotted_stepOpen (by simp) h
  · exact slotted_stepOpen (by simp) h
  · cases h

private theorem slotted_stepInside {closing : Token.Kind} {container : Container} {config : Config}
    (h : stepInside closing outer container d t = .next config) : config.Slotted := by
  cases container with
  | entries before =>
    simp only [stepInside] at h
    by_cases ends : t.kind = (if outer.isEmpty then closing else .closeBrace)
    · rw [if_pos ends] at h
      exact slotted_toStep h
    · rw [if_neg ends] at h
      split at h
      · cases h
        exact fun same ↦ by cases same
      · cases h
        exact fun same ↦ by cases same
      · cases h
        exact fun same ↦ by cases same
      · cases h
  | items before =>
    simp only [stepInside] at h
    split at h
    · exact slotted_toStep h
    · cases h
      exact fun same ↦ by cases same
    · exact slotted_stepValue h

/-- A value is awaited only for a slot, after every step. -/
theorem slotted_step {closing : Token.Kind} {config next : Config}
    (h : step closing config t = .next next) : next.Slotted := by
  obtain ⟨outer, state, d⟩ := config
  cases state with
  | inside container => exact slotted_stepInside h
  | value => exact slotted_stepValue h
  | integer whole =>
    simp only [step] at h
    split at h
    · cases h
      exact fun same ↦ by cases same
    · split at h
      · cases h
      · split at h
        · cases h
        · exact slotted_stepInside h
  | fraction whole =>
    simp only [step] at h
    split at h
    · split at h
      · cases h
      · exact slotted_toStep h
    · cases h
  | _ =>
    simp only [step] at h
    split at h
    · cases h
      exact fun _ ↦ List.cons_ne_nil _ _
    · cases h

/-- A reading up to the end of the input gives a value when closers after its tokens complete
it. -/
theorem run_eq_ok_iff {config : Config} (slotted : config.Slotted)
    (more : ∀ t ∈ ts, t.kind ≠ .endOfInput) (ended : stop.kind = .endOfInput) :
    (run .endOfInput config (ts ++ [stop])).result = .ok r ↔
      ∃ closers, AreClosers closers ∧ Expects r config (ts ++ closers) := by
  -- Every step keeps the configuration slotted, so that `expects_cons` applies to the next token.
  induction ts generalizing config with
  | nil =>
    simp only [List.nil_append, run, ended, if_true]
    exact finish_eq_ok_iff
  | cons t ts ih =>
    have first := more t List.mem_cons_self
    simp only [List.cons_append, run, if_neg first, expects_cons slotted first]
    cases stepped : step .endOfInput config t with
    | next config' =>
      exact ih (slotted_step stepped) fun u hu ↦ more u (List.mem_cons_of_mem t hu)
    | done v taken =>
      simp only [Except.ok.injEq, Step.Expects]
      rw [exists_closers_and]
    | fail fault taken d => simp [Step.Expects]

/-- Reading a document is a run that starts with no entries. -/
theorem ofTokens_eq_run (tokens : List Token) :
    ofTokens tokens = (run .endOfInput ⟨[], .inside (.entries []), 0⟩ tokens).result := by
  simp only [ofTokens, Cursor.readDocument, Cursor.readEntries, Cursor.read, Cursor.ofTokens]
  split <;> simp_all

/-- The documents of a list of tokens are the objects whose entries are read from the tokens and
closers after them. -/
theorem ofTokens_eq_ok_iff_reads (more : ∀ t ∈ ts, t.kind ≠ .endOfInput)
    (ended : stop.kind = .endOfInput) :
    ofTokens (ts ++ [stop]) = .ok r ↔
      ∃ closers es, AreClosers closers ∧ Reads 0 (.entries es) (ts ++ closers) [] ∧
        r = .object es := by
  rw [ofTokens_eq_run, run_eq_ok_iff (fun h ↦ by cases h) more ended]
  simp only [Expects, EntriesThen, EntriesEnd, List.isEmpty_nil, if_true, List.reverse_nil,
    List.nil_append]
  constructor
  · rintro ⟨closers, closing, es, us, read, rfl, rfl⟩
    exact ⟨closers, es, closing, read, rfl⟩
  · rintro ⟨closers, es, closing, read, rfl⟩
    exact ⟨closers, closing, es, [], read, rfl, rfl⟩

/-- The document of a text is an object. -/
theorem ofSource_object {source : String} {root : Value} (read : ofSource source = .ok root) :
    ∃ es, root = .object es := by
  rw [ofSource] at read
  cases scanned : Token.scan source with
  | error fault =>
    rw [scanned] at read
    cases read
  | ok tokens =>
    rw [scanned] at read
    obtain ⟨ts, rfl, lexical⟩ := Token.scanFrom_eq_ok scanned
    obtain ⟨_, es, _, _, same⟩ :=
      (ofTokens_eq_ok_iff_reads (fun t ht ↦ (lexical t ht).kind_ne) rfl).mp read
    exact ⟨es, same⟩

end Manifest.Document
