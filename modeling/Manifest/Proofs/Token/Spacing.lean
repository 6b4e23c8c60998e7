import Manifest.Proofs.Token.Written

/-!
# What stands between the words of a text

Words may be set apart by any layout: a text in which some layout stands between each two of them
has the same words (`scanFrom_laidOut`).

A separator of a text may give way to layout, to other separators, or to any mixture of both, as
long as something is left (`refill`). The tokens are then those of the text with no, one or more
separators where there was one before (`Respaced`, `scanFrom_refill`).

Both rest on this: no lexeme that stands in a text goes on with layout or with a separator.
-/

namespace Manifest.Token

open Manifest.Text

variable {offset : Nat} {words : List Word} {text rest : List Char} {ts : List Token}
  {stop : Token} {c : Char}

/-! ### Layout around words -/

/-- Words that are written out: before each of them the gap of its number, counted from `index`,
and after the last the gap of the next number. -/
def laidOut (gap : Nat → List Char) (index : Nat) : List Word → List Char
  | [] => gap index
  | w :: words => gap index ++ (w.lexeme.toList ++ laidOut gap (index + 1) words)

/-- Words with layout around them, and some of it between each two, are the words of the tokens
that are scanned. -/
theorem scanFrom_laidOut {gap : Nat → List Char} {index : Nat} (offset : Nat)
    (lexical : ∀ w ∈ words, w.IsLexical) (layout : ∀ i, ∀ c ∈ gap i, isLayout c = true)
    (apart : ∀ i, index < i → i < index + words.length → gap i ≠ []) :
    ∃ ts stop, scanFrom offset (laidOut gap index words) = .ok (ts ++ [endAt stop]) ∧
      ts.map word = words := by
  induction words generalizing index offset with
  | nil =>
    refine ⟨[], offset + (gap index).length, ?_, rfl⟩
    have alone := @scanFrom_layout offset [] _ (layout index)
    rw [List.append_nil] at alone
    rw [laidOut, alone, scanFrom, List.nil_append]
  | cons w words ih =>
    obtain ⟨first, others⟩ := List.forall_mem_cons.mp lexical
    have stops : ∀ x ∈ (laidOut gap (index + 1) words).head?, w.kind.goesOn x = false := by
      intro x next
      have inGap : x ∈ gap (index + 1) := by
        cases words with
        | nil => exact List.mem_of_mem_head? next
        | cons v words =>
          have within : index + 1 < index + (w :: v :: words).length := by
            rw [List.length_cons, List.length_cons]
            omega
          have nonempty := apart (index + 1) (by omega) within
          obtain ⟨y, gapRest, same⟩ := List.exists_cons_of_ne_nil nonempty
          rw [laidOut, same] at next
          cases next
          exact same ▸ List.mem_cons_self
      exact goesOn_of_isNameChar (isNameChar_of_isLayout (layout _ x inGap)) w.kind
    have apartRest : ∀ i, index + 1 < i → i < index + 1 + words.length → gap i ≠ [] := by
      intro i later within
      exact apart i (by omega) (by rw [List.length_cons]; omega)
    obtain ⟨ts, stop, scanned, same⟩ :=
      ih (offset + (gap index).length + w.lexeme.toList.length) others apartRest
    let start := offset + (gap index).length
    let token : Token := ⟨w.kind, w.lexeme, ⟨start, (start + w.lexeme.toList.length : Nat)⟩⟩
    refine ⟨token :: ts, stop, ?_, congrArg (w :: ·) same⟩
    rw [laidOut, scanFrom_layout (layout index), scanFrom_lexeme _ first stops, scanned]
    rfl

/-! ### What stands in place of separators -/

/-- The characters that set words apart and say nothing in a document: layout and separators. -/
def SetsApart (c : Char) : Prop := isLayout c = true ∨ markKind? c = some .separator

/-- What sets words apart goes on with no lexeme. -/
theorem SetsApart.goesOn (apart : SetsApart c) (kind : Kind) : kind.goesOn c = false := by
  apply goesOn_of_isNameChar
  obtain layout | mark := apart
  · exact isNameChar_of_isLayout layout
  · exact (markKind?_eq_some mark).2.1

/-- A text in which the characters at the marked offsets are replaced; `fill` gives for an offset
and its character what stands there instead. -/
def refill (fill : Nat → Char → List Char) (marked : Nat → Bool) (offset : Nat) :
    List Char → List Char
  | [] => []
  | c :: rest =>
    (if marked offset then fill offset c else [c]) ++ refill fill marked (offset + 1) rest

/-- One of the tokens is a separator that starts at an offset. -/
def separatesAt (tokens : List Token) (offset : Nat) : Bool :=
  tokens.any fun t ↦ decide (t.kind = .separator ∧ t.span.start = offset)

/-- Tokens that say the same but for the number of separators: in place of each separator there are
any number of them. -/
inductive Respaced : List Token → List Token → Prop
  | nil : Respaced [] []
  | same {t u : Token} {ts us : List Token} :
    t.kind ≠ .separator → t.word = u.word → Respaced ts us → Respaced (t :: ts) (u :: us)
  | separators {t : Token} {seps ts us : List Token} :
    t.kind = .separator → (∀ s ∈ seps, s.kind = .separator) → Respaced ts us →
    Respaced (t :: ts) (seps ++ us)

/-- Where there is no separator, the other tokens start with one that says the same. -/
theorem Respaced.exists_cons {t : Token} {us : List Token} (respaced : Respaced (t :: ts) us)
    (other : t.kind ≠ .separator) :
    ∃ u vs, us = u :: vs ∧ t.word = u.word ∧ Respaced ts vs := by
  cases respaced with
  | same _ word rest => exact ⟨_, _, rfl, word, rest⟩
  | separators separator => exact absurd separator other

/-- Where there is a separator, the other tokens start with any number of them. -/
theorem Respaced.exists_append {t : Token} {us : List Token} (respaced : Respaced (t :: ts) us)
    (separator : t.kind = .separator) :
    ∃ seps vs, us = seps ++ vs ∧ (∀ s ∈ seps, s.kind = .separator) ∧ Respaced ts vs := by
  cases respaced with
  | same other => exact absurd separator other
  | separators _ separators rest => exact ⟨_, _, rfl, separators, rest⟩

/-- The same tokens may follow, as long as there are no separators among them. -/
theorem Respaced.append {us more : List Token} (respaced : Respaced ts us)
    (others : ∀ t ∈ more, t.kind ≠ .separator) : Respaced (ts ++ more) (us ++ more) := by
  induction respaced with
  | nil =>
    induction more with
    | nil => exact .nil
    | cons t more ih =>
      obtain ⟨first, rest⟩ := List.forall_mem_cons.mp others
      exact .same first rfl (ih rest)
  | same other word _ ih => exact .same other word ih
  | separators separator all _ ih =>
    rw [List.append_assoc]
    exact .separators separator all ih

/-- A text whose tokens are respaced, wherever it is scanned. It starts as another text does or
with what sets words apart, so that it may follow what the other follows. -/
structure Respelled (ts : List Token) (text new : List Char) : Prop where
  scanned : ∀ place, ∃ us last, scanFrom place new = .ok (us ++ [endAt last]) ∧ Respaced ts us
  head : ∀ x ∈ new.head?, x ∈ text.head? ∨ SetsApart x

section Respelled

variable {new : List Char} {t : Token}

private theorem respelled_nil : Respelled [] [] [] :=
  ⟨fun place ↦ ⟨[], place, by rw [scanFrom, List.nil_append], .nil⟩, by simp⟩

private theorem Respelled.layout (respelled : Respelled ts rest new) (layout : isLayout c = true) :
    Respelled ts (c :: rest) (c :: new) := by
  refine ⟨fun place ↦ ?_, fun x first ↦ .inl first⟩
  obtain ⟨us, last, scanned, respaced⟩ := respelled.scanned (place + 1)
  exact ⟨us, last, by rw [scanFrom, if_pos layout, scanned], respaced⟩

private theorem Respelled.lexeme {m : Munch} (respelled : Respelled ts m.rest new)
    (found : munch? c rest = some m) (other : m.kind ≠ .separator)
    (spelled : t.word = ⟨m.kind, String.ofList m.lexeme⟩) :
    Respelled (t :: ts) (c :: rest) (m.lexeme ++ new) := by
  obtain ⟨whole, lexeme, stops⟩ := munch?_eq_some_iff.mp found
  have lexical : Word.IsLexical ⟨m.kind, String.ofList m.lexeme⟩ := by
    rwa [Word.IsLexical, String.toList_ofList]
  have stays : ∀ x ∈ new.head?, m.kind.goesOn x = false := by
    intro x first
    obtain old | apart := respelled.head x first
    · exact stops x old
    · exact apart.goesOn m.kind
  constructor
  · intro place
    obtain ⟨us, last, scanned, respaced⟩ := respelled.scanned (place + m.lexeme.length)
    let token : Token :=
      ⟨m.kind, String.ofList m.lexeme, ⟨place, (place + m.lexeme.length : Nat)⟩⟩
    have cut := scanFrom_lexeme place lexical stays
    rw [String.toList_ofList, scanned] at cut
    have kind : t.kind = m.kind := (word_eq_iff.mp spelled).1
    exact ⟨token :: us, last, cut, .same (kind ▸ other) spelled respaced⟩
  · intro x first
    obtain ⟨y, others, shape⟩ := List.exists_cons_of_ne_nil (lexeme_ne_nil_of_munch? found)
    rw [shape, List.cons_append] at first whole
    rw [← whole]
    exact .inl first

private theorem scanFrom_separator (mark : markKind? c = some .separator) :
    scanFrom offset (c :: rest) = (scanFrom (offset + 1) rest).map
      (⟨.separator, String.ofList [c], ⟨offset, (offset + 1 : Nat)⟩⟩ :: ·) := by
  have found : munch? c rest = some ⟨.separator, [c], rest⟩ :=
    munch?_eq_some_iff.mpr ⟨rfl, isLexeme_of_markKind? mark, fun _ _ ↦ rfl⟩
  have noLayout : ¬ isLayout c = true := by
    rw [(markKind?_eq_some mark).1]
    exact Bool.false_ne_true
  exact scanFrom_cons noLayout found

private theorem scanFrom_gap {gap : List Char} (apart : ∀ x ∈ gap, SetsApart x) (offset : Nat) :
    ∃ seps : List Token, (∀ s ∈ seps, s.kind = .separator) ∧
      scanFrom offset (gap ++ rest) = (scanFrom (offset + gap.length) rest).map (seps ++ ·) := by
  induction gap generalizing offset with
  | nil =>
    refine ⟨[], by simp, ?_⟩
    rw [List.nil_append, List.length_nil, Nat.add_zero]
    cases scanFrom offset rest <;> rfl
  | cons c gap ih =>
    obtain ⟨first, others⟩ := List.forall_mem_cons.mp apart
    obtain ⟨seps, separators, scanned⟩ := ih others (offset + 1)
    have length : offset + 1 + gap.length = offset + (c :: gap).length := by
      rw [List.length_cons]
      omega
    rw [length] at scanned
    obtain layout | mark := first
    · refine ⟨seps, separators, ?_⟩
      rw [List.cons_append, scanFrom, if_pos layout, scanned]
    · let separator : Token := ⟨.separator, String.ofList [c], ⟨offset, (offset + 1 : Nat)⟩⟩
      refine ⟨separator :: seps, List.forall_mem_cons.mpr ⟨rfl, separators⟩, ?_⟩
      rw [List.cons_append, scanFrom_separator mark, scanned]
      cases scanFrom (offset + (c :: gap).length) rest <;> rfl

private theorem Respelled.gap {gap : List Char} (respelled : Respelled ts rest new)
    (separator : t.kind = .separator) (nonempty : gap ≠ []) (apart : ∀ x ∈ gap, SetsApart x) :
    Respelled (t :: ts) text (gap ++ new) := by
  constructor
  · intro place
    obtain ⟨seps, separators, cut⟩ := @scanFrom_gap new _ apart place
    obtain ⟨us, last, scanned, respaced⟩ := respelled.scanned (place + gap.length)
    refine ⟨seps ++ us, last, ?_, .separators separator separators respaced⟩
    rw [cut, scanned, List.append_assoc]
    rfl
  · intro x first
    obtain ⟨y, others, shape⟩ := List.exists_cons_of_ne_nil nonempty
    rw [shape, List.cons_append] at first
    cases first
    exact .inr (apart x (shape ▸ List.mem_cons_self))

end Respelled

section Marks

variable {fill : Nat → Char → List Char} {marked : Nat → Bool}

/-- Tokens are not found before the place where scanning starts. -/
theorem le_start_of_scanFrom {tokens : List Token} (scanned : scanFrom offset text = .ok tokens) :
    ∀ t ∈ tokens, (offset : Int) ≤ t.span.start := by
  fun_induction scanFrom offset text generalizing tokens with
  | case1 offset =>
    cases scanned
    intro t inside
    rw [List.mem_singleton.mp inside]
    exact Int.le_refl _
  | case2 offset c rest layout ih =>
    intro t inside
    have := ih scanned t inside
    omega
  | case3 offset c rest layout missing => cases scanned
  | case4 offset c rest layout m found =>
    rename_i after ih
    cases inner : scanFrom after m.rest with
    | error fault =>
      rw [inner] at scanned
      cases scanned
    | ok others =>
      rw [inner] at scanned
      cases scanned
      intro t inside
      obtain rfl | later := List.mem_cons.mp inside
      · exact Int.le_refl _
      · have := ih inner t later
        omega

private theorem separatesAt_of_lt {tokens : List Token} {place i : Nat}
    (later : ∀ t ∈ tokens, (place : Int) ≤ t.span.start) (before : i < place) :
    separatesAt tokens i = false := by
  refine List.any_eq_false.mpr fun t inside ↦ ?_
  have := later t inside
  simp only [decide_eq_true_eq, not_and]
  intro _ start
  omega

private theorem separatesAt_cons_self {t : Token} {i : Nat} (separator : t.kind = .separator)
    (start : t.span.start = i) : separatesAt (t :: ts) i = true := by
  rw [separatesAt, List.any_cons, decide_eq_true ⟨separator, start⟩, Bool.true_or]

private theorem separatesAt_cons_of_not {t : Token} {i : Nat}
    (other : ¬ (t.kind = .separator ∧ t.span.start = i)) :
    separatesAt (t :: ts) i = separatesAt ts i := by
  rw [separatesAt, List.any_cons, decide_eq_false other, Bool.false_or, ← separatesAt]

private theorem refill_append {front : List Char}
    (unmarked : ∀ i, offset ≤ i → i < offset + front.length → marked i = false) :
    refill fill marked offset (front ++ rest) =
      front ++ refill fill marked (offset + front.length) rest := by
  induction front generalizing offset with
  | nil => rfl
  | cons c front ih =>
    have here : marked offset = false := by
      apply unmarked
      · exact Nat.le_refl offset
      · rw [List.length_cons]
        omega
    have beyond : ∀ i, offset + 1 ≤ i → i < offset + 1 + front.length → marked i = false := by
      intro i later within
      apply unmarked
      · omega
      · rw [List.length_cons]
        omega
    have length : offset + 1 + front.length = offset + (c :: front).length := by
      rw [List.length_cons]
      omega
    rw [List.cons_append, refill, here, if_neg Bool.false_ne_true, ih beyond, length]
    rfl

/-- When every separator of a text gives way to what sets words apart, and nothing else changes,
the tokens are respaced. -/
theorem scanFrom_refill
    (fits : ∀ i c, markKind? c = some .separator →
      fill i c ≠ [] ∧ ∀ x ∈ fill i c, SetsApart x)
    (scanned : scanFrom offset text = .ok (ts ++ [stop]))
    (marks : ∀ i, offset ≤ i → marked i = separatesAt ts i) :
    Respelled ts text (refill fill marked offset text) := by
  fun_induction scanFrom offset text generalizing ts stop with
  | case1 offset =>
    have alone := (List.append_eq_singleton_iff.mp (Except.ok.inj scanned).symm).resolve_right
      (by simp)
    rw [alone.1]
    exact respelled_nil
  | case2 offset c rest layout ih =>
    have later : ∀ t ∈ ts, ((offset + 1 : Nat) : Int) ≤ t.span.start := by
      intro t inside
      exact le_start_of_scanFrom scanned t (List.mem_append_left _ inside)
    have here : marked offset = false := by
      rw [marks offset (Nat.le_refl _)]
      exact separatesAt_of_lt later (Nat.lt_succ_self offset)
    have marksRest : ∀ i, offset + 1 ≤ i → marked i = separatesAt ts i := by
      intro i beyond
      exact marks i (by omega)
    rw [refill, here, if_neg Bool.false_ne_true]
    exact (ih scanned marksRest).layout layout
  | case3 offset c rest layout missing => cases scanned
  | case4 offset c rest layout m found =>
    rename_i after ih
    cases inner : scanFrom after m.rest with
    | error fault =>
      rw [inner] at scanned
      cases scanned
    | ok others =>
      obtain ⟨os, rfl, -⟩ := scanFrom_eq_ok inner
      rw [inner, Except.map, Except.ok.injEq, ← List.cons_append] at scanned
      obtain ⟨rfl, -⟩ := List.append_inj' scanned rfl
      obtain ⟨whole, lexeme, -⟩ := munch?_eq_some_iff.mp found
      have positive := List.length_pos_iff.mpr (lexeme_ne_nil_of_munch? found)
      have later : ∀ t ∈ os, (after : Int) ≤ t.span.start := by
        intro t inside
        exact le_start_of_scanFrom inner t (List.mem_append_left _ inside)
      have marksRest : ∀ i, after ≤ i → marked i = separatesAt os i := by
        intro i beyond
        rw [marks i (by omega)]
        apply separatesAt_cons_of_not
        rintro ⟨-, start⟩
        dsimp only at start
        omega
      have respelled := ih inner marksRest
      by_cases separator : m.kind = .separator
      · rw [separator] at lexeme
        obtain ⟨mark, alone, kind⟩ := lexeme
        rw [alone, List.singleton_append] at whole
        obtain ⟨rfl, rest'⟩ := List.cons.inj whole
        have next : after = offset + 1 := congrArg (offset + ·) (congrArg List.length alone)
        have here : marked offset = true :=
          (marks offset (Nat.le_refl _)).trans (separatesAt_cons_self separator rfl)
        rw [refill, if_pos here, ← next, ← rest']
        exact respelled.gap separator (fits offset mark kind).1 (fits offset mark kind).2
      · have unmarked : ∀ i, offset ≤ i → i < offset + m.lexeme.length → marked i = false := by
          intro i from_ within
          rw [marks i from_, separatesAt_cons_of_not fun both ↦ separator both.1]
          exact separatesAt_of_lt later within
        have same : refill fill marked offset (c :: rest) =
            m.lexeme ++ refill fill marked after m.rest := by
          rw [← whole, refill_append unmarked]
        rw [same]
        exact respelled.lexeme found separator rfl

end Marks

end Manifest.Token
