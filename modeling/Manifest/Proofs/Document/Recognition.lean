import Manifest.Proofs.Document.Reading
import Manifest.Proofs.Number.Digits
import Manifest.Proofs.Token.Lexeme

/-!
# The documents of a text are those of the grammar

What is read is derived, and nests no deeper than the levels that were left (`Reads.derives`). What
is derived is read where its whole numbers are within the bound and its levels are left
(`Derives.reads`). The only place where reading looks at the token after a part is the end of an
integer, and no part starts with a point.

The documents of a list of tokens are therefore those that the grammar derives from the tokens and
closing brackets for the arrays that the end of the input closes (`ofTokens_eq_ok_iff`).
-/

namespace Manifest.Document

open Numeral (IsRun valueOf maxDigits)
open Validation (inRange)

/-- The tokens for integers are runs of digits that are not too long to be read. -/
def ShortRuns (ts : List Token) : Prop :=
  ∀ t ∈ ts, t.kind = .integer → IsRun t.lexeme.toList ∧ t.lexeme.toList.length ≤ maxDigits

/-- The tokens state whole numbers within the bound. -/
def Bounded (ws : List Token) : Prop := ∀ w ∈ ws, (valueOf w.lexeme.toList : Int) ≤ maxInteger

variable {d : Nat} {p : Phrase} {ts us ws xs : List Token}

section Runs

private theorem shortRuns_cons {t : Token} (runs : ShortRuns (t :: ts)) : ShortRuns ts :=
  fun u hu ↦ runs u (List.mem_cons_of_mem t hu)

private theorem shortRuns_append : ShortRuns (ts ++ us) ↔ ShortRuns ts ∧ ShortRuns us :=
  List.forall_mem_append

private theorem bounded_append : Bounded (ws ++ xs) ↔ Bounded ws ∧ Bounded xs :=
  List.forall_mem_append

end Runs

/-! ### Numbers -/

section Numbers

variable {digits whole fraction : Token} {v : Value}

private theorem admits_iff (run : IsRun digits.lexeme.toList)
    (short : digits.lexeme.toList.length ≤ maxDigits) :
    Admits digits ↔ (valueOf digits.lexeme.toList : Int) ≤ maxInteger := by
  rw [Admits, Numeral.readInteger_of_isRun run short]
  simp

/-- A run of digits within the bound is the 32-bit number that it denotes. -/
theorem integerValue_isRun (run : IsRun digits.lexeme.toList)
    (short : digits.lexeme.toList.length ≤ maxDigits)
    (small : (valueOf digits.lexeme.toList : Int) ≤ maxInteger) :
    integerValue digits = .ok (.number (Int32.ofInt (valueOf digits.lexeme.toList))) := by
  rw [maxInteger] at small
  have ranged : inRange (valueOf digits.lexeme.toList) = true := by
    simp only [inRange, Bool.and_eq_true, decide_eq_true_eq]
    omega
  rw [integerValue, Numeral.readInteger_of_isRun run short]
  dsimp only
  rw [Value.ofInt, if_pos ranged]
  rfl

private theorem integerValue_eq_ok_iff (run : IsRun digits.lexeme.toList)
    (short : digits.lexeme.toList.length ≤ maxDigits)
    (small : (valueOf digits.lexeme.toList : Int) ≤ maxInteger) :
    integerValue digits = .ok v ↔
      ∃ n : Int32, v = .number n ∧ n.toInt = valueOf digits.lexeme.toList := by
  have denoted : (Int32.ofInt (valueOf digits.lexeme.toList)).toInt =
      valueOf digits.lexeme.toList := by
    rw [maxInteger] at small
    exact Int32.toInt_ofInt_of_le (by omega) (by omega)
  rw [integerValue_isRun run short small, Except.ok.injEq]
  constructor
  · rintro rfl
    exact ⟨_, rfl, denoted⟩
  · rintro ⟨n, rfl, same⟩
    rw [← same, Int32.ofInt_toInt]

/-- Runs of digits around a point are the number that they denote. -/
theorem fractionValue_isRun (run : IsRun whole.lexeme.toList)
    (short : whole.lexeme.toList.length ≤ maxDigits) (after : IsRun fraction.lexeme.toList) :
    fractionValue whole fraction = .ok (.float (realOf whole fraction)) := by
  rw [fractionValue, Numeral.joinReal_of_isRun run short after]
  rfl

end Numbers

/-! ### What is read is derived -/

/-- What is read is derived from the tokens taken, its whole numbers are within the bound, and it
nests in the levels that were left. -/
theorem Reads.derives (read : Reads d p ts us) (runs : ShortRuns ts) (room : d ≤ maxDepth) :
    ∃ used ws, ts = used ++ us ∧ Derives p used ws ∧ Bounded ws ∧ d + p.nesting ≤ maxDepth := by
  induction read with
  | integer kind admits value noPoint =>
    obtain ⟨run, short⟩ := runs _ List.mem_cons_self kind
    have small := (admits_iff run short).mp admits
    obtain ⟨n, rfl, denoted⟩ := (integerValue_eq_ok_iff run short small).mp value
    exact ⟨[_], [_], rfl, .integer kind denoted, by simpa [Bounded] using small, room⟩
  | real kind admits point fraction value =>
    obtain ⟨run, short⟩ := runs _ List.mem_cons_self kind
    obtain ⟨after, -⟩ := runs _ (by simp) fraction
    rw [fractionValue_isRun run short after] at value
    cases value
    have small := (admits_iff run short).mp admits
    exact ⟨[_, _, _], [_], rfl, .real kind point fraction, by simpa [Bounded] using small, room⟩
  | quoted kind => exact ⟨[_], [], rfl, .quoted kind, by simp [Bounded], room⟩
  | object start free _ stop ih =>
    obtain ⟨used, ws, rfl, inner, small, levels⟩ := ih (shortRuns_cons runs) free
    refine ⟨_ :: (used ++ [_]), ws, by simp, .object start inner stop, small, ?_⟩
    simp only [Phrase.nesting, Value.nesting] at levels ⊢
    omega
  | array start free _ stop ih =>
    obtain ⟨used, ws, rfl, inner, small, levels⟩ := ih (shortRuns_cons runs) free
    refine ⟨_ :: (used ++ [_]), ws, by simp, .array start inner stop, small, ?_⟩
    simp only [Phrase.nesting, Value.nesting] at levels ⊢
    omega
  | call mark free name _ ih =>
    obtain ⟨used, ws, rfl, inner, small, levels⟩ :=
      ih (shortRuns_cons (shortRuns_cons runs)) free
    refine ⟨_ :: _ :: used, ws, rfl, .call mark name inner, small, ?_⟩
    simp only [Phrase.nesting, Value.nesting] at levels ⊢
    omega
  | noEntries => exact ⟨[], [], rfl, .noEntries, by simp [Bounded], room⟩
  | record id mark _ _ valueIh restIh =>
    obtain ⟨used, ws, rfl, value, small, levels⟩ :=
      valueIh (shortRuns_cons (shortRuns_cons runs)) room
    have after := (shortRuns_append.mp (shortRuns_cons (shortRuns_cons runs))).2
    obtain ⟨others, xs, rfl, rest, smallRest, levelsRest⟩ := restIh after room
    refine ⟨_ :: _ :: (used ++ others), ws ++ xs, by simp, .record id mark value rest,
      bounded_append.mpr ⟨small, smallRest⟩, ?_⟩
    simp only [Phrase.nesting, Value.entriesNesting] at levels levelsRest ⊢
    omega
  | recordCall mark name _ _ valueIh restIh =>
    obtain ⟨used, ws, rfl, value, small, levels⟩ :=
      valueIh (shortRuns_cons (shortRuns_cons runs)) room
    have after := (shortRuns_append.mp (shortRuns_cons (shortRuns_cons runs))).2
    obtain ⟨others, xs, rfl, rest, smallRest, levelsRest⟩ := restIh after room
    refine ⟨_ :: _ :: (used ++ others), ws ++ xs, by simp, .recordCall mark name value rest,
      bounded_append.mpr ⟨small, smallRest⟩, ?_⟩
    simp only [Phrase.nesting, Value.entriesNesting] at levels levelsRest ⊢
    omega
  | betweenEntries kind _ ih =>
    obtain ⟨used, ws, rfl, rest, small, levels⟩ := ih (shortRuns_cons runs) room
    exact ⟨_ :: used, ws, rfl, .betweenEntries kind rest, small, levels⟩
  | noItems => exact ⟨[], [], rfl, .noItems, by simp [Bounded], room⟩
  | item _ _ valueIh restIh =>
    obtain ⟨used, ws, rfl, value, small, levels⟩ := valueIh runs room
    obtain ⟨others, xs, rfl, rest, smallRest, levelsRest⟩ :=
      restIh (shortRuns_append.mp runs).2 room
    refine ⟨used ++ others, ws ++ xs, by simp, .item value rest,
      bounded_append.mpr ⟨small, smallRest⟩, ?_⟩
    simp only [Phrase.nesting, Value.itemsNesting] at levels levelsRest ⊢
    omega
  | betweenItems kind _ ih =>
    obtain ⟨used, ws, rfl, rest, small, levels⟩ := ih (shortRuns_cons runs) room
    exact ⟨_ :: used, ws, rfl, .betweenItems kind rest, small, levels⟩

/-! ### What is derived is read -/

private theorem Derives.noPoint (derived : Derives p ts ws) : NoPoint ts := by
  induction derived with
  | noEntries => simp [NoPoint]
  | noItems => simp [NoPoint]
  | item _ _ valueIh restIh => exact valueIh.append restIh
  | _ => simp_all [NoPoint]

/-- What is derived is read, where its whole numbers are within the bound, its levels are left, and
no point follows. -/
theorem Derives.reads (derived : Derives p ts ws) (runs : ShortRuns ts) (small : Bounded ws)
    (room : d + p.nesting ≤ maxDepth) {rest : List Token} (noPoint : NoPoint rest) :
    Reads d p (ts ++ rest) rest := by
  -- A value may end in an integer, so that what follows it must be known not to start with a
  -- point.
  induction derived generalizing d rest with
  | integer kind denoted =>
    obtain ⟨run, short⟩ := runs _ List.mem_cons_self kind
    have bound := small _ List.mem_cons_self
    exact .integer kind ((admits_iff run short).mpr bound)
      ((integerValue_eq_ok_iff run short bound).mpr ⟨_, rfl, denoted⟩) noPoint
  | real kind point fraction =>
    obtain ⟨run, short⟩ := runs _ List.mem_cons_self kind
    obtain ⟨after, -⟩ := runs _ (by simp) fraction
    exact .real kind ((admits_iff run short).mpr (small _ List.mem_cons_self)) point fraction
      (fractionValue_isRun run short after)
  | quoted kind => exact .quoted kind
  | @object start stop es ts ws startKind _ stopKind ih =>
    simp only [Phrase.nesting, Value.nesting] at room ih
    have stops : NoPoint (stop :: rest) := by simp [NoPoint, stopKind]
    have inner := ih (d := d + 1) (shortRuns_append.mp (shortRuns_cons runs)).1 small (by omega)
      stops
    rw [List.cons_append, List.append_assoc]
    exact .object startKind (by omega) inner stopKind
  | @array start stop vs ts ws startKind _ stopKind ih =>
    simp only [Phrase.nesting, Value.nesting] at room ih
    have stops : NoPoint (stop :: rest) := by simp [NoPoint, stopKind]
    have inner := ih (d := d + 1) (shortRuns_append.mp (shortRuns_cons runs)).1 small (by omega)
      stops
    rw [List.cons_append, List.append_assoc]
    exact .array startKind (by omega) inner stopKind
  | call mark name _ ih =>
    simp only [Phrase.nesting, Value.nesting] at room ih
    exact .call mark (by omega) name
      (ih (shortRuns_cons (shortRuns_cons runs)) small (by omega) noPoint)
  | noEntries => exact .noEntries
  | record id mark _ more valueIh restIh =>
    simp only [Phrase.nesting, Value.entriesNesting] at room valueIh restIh
    obtain ⟨runsValue, runsRest⟩ := shortRuns_append.mp (shortRuns_cons (shortRuns_cons runs))
    obtain ⟨smallValue, smallRest⟩ := bounded_append.mp small
    have others := restIh (d := d) runsRest smallRest (by omega) noPoint
    rw [List.cons_append, List.cons_append, List.append_assoc]
    exact .record id mark
      (valueIh runsValue smallValue (by omega) (more.noPoint.append noPoint)) others
  | recordCall mark name _ more valueIh restIh =>
    simp only [Phrase.nesting, Value.entriesNesting] at room valueIh restIh
    obtain ⟨runsValue, runsRest⟩ := shortRuns_append.mp (shortRuns_cons (shortRuns_cons runs))
    obtain ⟨smallValue, smallRest⟩ := bounded_append.mp small
    have others := restIh (d := d) runsRest smallRest (by omega) noPoint
    rw [List.cons_append, List.cons_append, List.append_assoc]
    exact .recordCall mark name
      (valueIh runsValue smallValue (by omega) (more.noPoint.append noPoint)) others
  | betweenEntries kind _ ih =>
    exact .betweenEntries kind (ih (shortRuns_cons runs) small room noPoint)
  | noItems => exact .noItems
  | item _ more valueIh restIh =>
    simp only [Phrase.nesting, Value.itemsNesting] at room valueIh restIh
    obtain ⟨runsValue, runsRest⟩ := shortRuns_append.mp runs
    obtain ⟨smallValue, smallRest⟩ := bounded_append.mp small
    have others := restIh (d := d) runsRest smallRest (by omega) noPoint
    rw [List.append_assoc]
    exact .item (valueIh runsValue smallValue (by omega) (more.noPoint.append noPoint))
      others
  | betweenItems kind _ ih =>
    exact .betweenItems kind (ih (shortRuns_cons runs) small room noPoint)

/-! ### Documents -/

/-- The documents of a list of tokens, as a scan makes it, are those that the grammar derives from
the tokens and any number of closing brackets, when all whole numbers are within the bound and no
more than `maxDepth` levels are nested in one another. -/
theorem ofTokens_eq_ok_iff {stop : Token} {root : Value} (lexical : ∀ t ∈ ts, t.IsLexical)
    (short : ∀ t ∈ ts, t.kind = .integer → t.lexeme.toList.length ≤ maxDigits)
    (ended : stop.kind = .endOfInput) :
    ofTokens (ts ++ [stop]) = .ok root ↔
      ∃ closers es ws, AreClosers closers ∧ root = .object es ∧
        Derives (.entries es) (ts ++ closers) ws ∧ Bounded ws ∧
        Value.entriesNesting es ≤ maxDepth := by
  have runs {closers : List Token} (closing : AreClosers closers) :
      ShortRuns (ts ++ closers) := by
    refine shortRuns_append.mpr ⟨fun t ht kind ↦ ⟨?_, short t ht kind⟩, fun c hc kind ↦ ?_⟩
    · have := lexical t ht
      rwa [Token.IsLexical, kind] at this
    · rw [closing c hc] at kind
      cases kind
  rw [ofTokens_eq_ok_iff_reads (fun t ht ↦ (lexical t ht).kind_ne) ended]
  constructor
  · rintro ⟨closers, es, closing, read, rfl⟩
    obtain ⟨used, ws, same, derived, small, levels⟩ := read.derives (runs closing) (by simp)
    rw [List.append_nil] at same
    rw [Nat.zero_add] at levels
    exact ⟨closers, es, ws, closing, rfl, same ▸ derived, small, levels⟩
  · rintro ⟨closers, es, ws, closing, rfl, derived, small, levels⟩
    have read := derived.reads (d := 0) (runs closing) small (by rwa [Nat.zero_add]) noPoint_nil
    rw [List.append_nil] at read
    exact ⟨closers, es, closing, read, rfl⟩

/-- An array that is open at the end of the text is closed by it. -/
theorem ofTokens_open_array :
    ofTokens ([⟨.identifier, "a", ⟨0, 1⟩⟩, ⟨.assign, "=", ⟨1, 2⟩⟩, ⟨.openBracket, "[", ⟨2, 3⟩⟩,
      ⟨.integer, "7", ⟨3, 4⟩⟩] ++ [Token.endAt 4]) =
        .ok (.object [.record "a" (.array [.number 7])]) := by
  have lexical : ∀ t ∈ ([⟨.identifier, "a", ⟨0, 1⟩⟩, ⟨.assign, "=", ⟨1, 2⟩⟩,
      ⟨.openBracket, "[", ⟨2, 3⟩⟩, ⟨.integer, "7", ⟨3, 4⟩⟩] : List Token), t.IsLexical := by
    simp only [List.forall_mem_cons, List.not_mem_nil, false_implies, implies_true, and_true]
    have digit : ∀ c ∈ ['7'], Numeral.isAsciiDigit c = true :=
      fun c hc ↦ List.mem_singleton.mp hc ▸ rfl
    exact ⟨⟨'a', [], rfl, rfl, rfl, by simp⟩, ⟨'=', rfl, rfl⟩, ⟨'[', rfl, rfl⟩,
      ⟨List.cons_ne_nil _ _, digit⟩⟩
  have item : Derives (.items [.number 7]) ([⟨.integer, "7", ⟨3, 4⟩⟩] ++ [])
      ([⟨.integer, "7", ⟨3, 4⟩⟩] ++ []) := .item (.integer rfl (by decide)) .noItems
  have array := @Derives.array ⟨.openBracket, "[", ⟨2, 3⟩⟩ ⟨.closeBracket, "]", ⟨4, 4⟩⟩ _ _ _ rfl
    item rfl
  have derived := @Derives.record ⟨.identifier, "a", ⟨0, 1⟩⟩ ⟨.assign, "=", ⟨1, 2⟩⟩ _ _ _ _ _ _
    rfl rfl array .noEntries
  refine (ofTokens_eq_ok_iff lexical (by decide) rfl).mpr ⟨[_], _, _, ?_, rfl, derived, ?_, ?_⟩
  · simp [AreClosers]
  · simp only [Bounded, List.append_nil, List.mem_singleton, forall_eq]
    decide
  · decide

end Manifest.Document
