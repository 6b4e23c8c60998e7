import Manifest.Proofs.Document.Growth
import Manifest.Proofs.Document.Reading
import Manifest.Proofs.Token.Lexeme

/-!
# Documents one after the other

A document in which every opening bracket is closed leaves nothing open at its end, so that another
may follow after a line break. The tokens of the two texts stay apart (`Token.scanFrom_append`);
reading comes back to where it started, with the entries of the first (`Reads.run_eq`); and the
rest is read as the second document alone, after those entries (`run_grows`). The document of both
texts has the entries of both, and where the second is faulty, its fault (`ofSource_append`).
-/

namespace Manifest.Document

/-- How many opening brackets are left open by tokens, with so many open before them. -/
def openBrackets (count : Nat) : List Token → Nat
  | [] => count
  | t :: ts =>
    match t.kind with
    | .openBracket => openBrackets (count + 1) ts
    | .closeBracket => openBrackets (count - 1) ts
    | _ => openBrackets count ts

/-! ### Brackets -/

section Brackets

variable {d : Nat} {p : Phrase} {ts us : List Token}

private def count (kind : Token.Kind) (ts : List Token) : Nat := ts.countP (·.kind = kind)

private theorem Reads.count_brackets (read : Reads d p ts us) :
    count .openBracket ts + count .closeBracket us =
      count .closeBracket ts + count .openBracket us := by
  induction read <;> simp_all [count] <;> omega

private theorem count_le_openBrackets (n : Nat) (ts : List Token) :
    n + count .openBracket ts ≤ openBrackets n ts + count .closeBracket ts := by
  induction ts generalizing n with
  | nil => simp [count, openBrackets]
  | cons t ts ih =>
    rw [openBrackets]
    split
    · next kind =>
      have := ih (n + 1)
      simp only [count, List.countP_cons, kind, decide_true, reduceCtorEq, decide_false, if_true,
        Bool.false_eq_true, if_false] at this ⊢
      omega
    · next kind =>
      have := ih (n - 1)
      simp only [count, List.countP_cons, kind, decide_true, reduceCtorEq, decide_false, if_true,
        Bool.false_eq_true, if_false] at this ⊢
      omega
    · next noOpen noClose =>
      have open_ : ¬ t.kind = .openBracket := noOpen
      have close : ¬ t.kind = .closeBracket := noClose
      have := ih n
      simp only [count, List.countP_cons, open_, close, decide_false, Bool.false_eq_true,
        if_false] at this ⊢
      omega

-- The end of the input closes no array when every bracket is closed.
private theorem Reads.closers_eq_nil {closers : List Token} (closing : AreClosers closers)
    (read : Reads d p (ts ++ closers) []) (closed : openBrackets 0 ts = 0) : closers = [] := by
  have counts : count .closeBracket closers = closers.length ∧ count .openBracket closers = 0 :=
    ⟨List.countP_eq_length.mpr fun c hc ↦ by simp [closing c hc],
      List.countP_eq_zero.mpr fun c hc ↦ by simp [closing c hc]⟩
  have balanced := read.count_brackets
  have left := count_le_openBrackets 0 ts
  simp only [count, List.countP_append, List.countP_nil] at balanced left counts
  exact List.length_eq_zero_iff.mp (by omega)

end Brackets

/-! ### Coming back -/

section Resume

variable {d : Nat} {p : Phrase} {ts us : List Token}

/-- What is read stays so when tokens are added that do not start with a point. -/
theorem Reads.append (read : Reads d p ts us) {more : List Token} (noPoint : NoPoint more) :
    Reads d p (ts ++ more) (us ++ more) := by
  induction read with
  | integer kind admits value first => exact .integer kind admits value (first.append noPoint)
  | real kind admits point fraction value => exact .real kind admits point fraction value
  | quoted kind => exact .quoted kind
  | object start room _ stop ih => exact .object start room ih stop
  | array start room _ stop ih => exact .array start room ih stop
  | call mark room name _ ih => exact .call mark room name ih
  | noEntries => exact .noEntries
  | record id mark _ _ valueIh restIh => exact .record id mark valueIh restIh
  | recordCall mark name _ _ valueIh restIh => exact .recordCall mark name valueIh restIh
  | betweenEntries kind _ ih => exact .betweenEntries kind ih
  | noItems => exact .noItems
  | item _ _ valueIh restIh => exact .item valueIh restIh
  | betweenItems kind _ ih => exact .betweenItems kind ih

-- The result of a run up to the end of the input.
private def resultOf (config : Config) (ts : List Token) : Except DocumentFault Value :=
  (run .endOfInput config ts).result

private theorem resultOf_next {config next : Config} {t : Token} (more : t.kind ≠ .endOfInput)
    (stepped : step .endOfInput config t = .next next) :
    resultOf config (t :: ts) = resultOf next ts := by
  simp only [resultOf, run, if_neg more, stepped]

-- Reading goes on after a part of a tree as it would have with the part in its place.
private def Resumes (d : Nat) (ts us : List Token) : Phrase → Prop
  | .value v => ∀ outer inner container e, deliver v d outer = .inside inner container e →
      resultOf ⟨outer, .value, d⟩ ts = resultOf ⟨inner, .inside container, e⟩ us
  | .entries es => ∀ outer before, resultOf ⟨outer, .inside (.entries before), d⟩ ts =
      resultOf ⟨outer, .inside (.entries (es.reverse ++ before)), d⟩ us
  | .items vs => ∀ outer before, resultOf ⟨outer, .inside (.items before), d⟩ ts =
      resultOf ⟨outer, .inside (.items (vs.reverse ++ before)), d⟩ us

private theorem finishValue_eq {v : Value} {outer inner : List Slot} {container : Container}
    {e : Nat} {t : Token} (goes : deliver v d outer = .inside inner container e) :
    finishValue .endOfInput t v d outer = finish .endOfInput ⟨inner, .inside container, e⟩ t := by
  induction outer generalizing v d with
  | nil => cases goes
  | cons slot outer ih =>
    cases slot with
    | entry before head =>
      cases goes
      rfl
    | item before =>
      cases goes
      rfl
    | argument f => exact ih goes

private theorem resultOf_integer {digits : Token} {v : Value} {outer inner : List Slot}
    {container : Container} {e : Nat} (value : integerValue digits = .ok v) (noPoint : NoPoint ts)
    (goes : deliver v d outer = .inside inner container e) :
    resultOf ⟨outer, .integer digits, d⟩ ts = resultOf ⟨inner, .inside container, e⟩ ts := by
  cases ts with
  | nil => rfl
  | cons t ts =>
    have other : ¬ t.kind = .point := noPoint t rfl
    simp only [resultOf, run]
    by_cases ended : t.kind = .endOfInput
    · rw [if_pos ended, if_pos ended, ← finishValue_eq goes]
      simp only [finish, value]
    · rw [if_neg ended, if_neg ended]
      simp only [step, if_neg other, value, goes]
      cases stepInside .endOfInput inner container e t <;> rfl

private theorem resultOf_item {v : Value} {outer : List Slot} {before : List Value}
    (read : Reads d (.value v) ts us) :
    resultOf ⟨outer, .inside (.items before), d⟩ ts =
      resultOf ⟨.item before :: outer, .value, d⟩ ts := by
  obtain ⟨⟨kind, lexeme, span⟩, xs, rfl, starts⟩ := read.startsValue
  cases kind <;> first | rfl | cases starts

private theorem not_isEmpty {v : Value} {outer inner : List Slot} {container : Container} {e : Nat}
    (goes : deliver v d outer = .inside inner container e) : outer.isEmpty = false := by
  cases outer with
  | nil => cases goes
  | cons slot outer => rfl

private theorem resultOf_integer_next {digits : Token} {outer : List Slot}
    (kind : digits.kind = .integer) (admits : Admits digits) :
    resultOf ⟨outer, .value, d⟩ (digits :: ts) = resultOf ⟨outer, .integer digits, d⟩ ts := by
  obtain ⟨n, number, small⟩ := admits
  apply resultOf_next (by simp [kind])
  simp only [step, stepValue, kind, number, if_neg (Int.not_lt.mpr small)]

private theorem resultOf_open {t : Token} {outer : List Slot} {state : State}
    (more : t.kind ≠ .endOfInput) (room : d < maxDepth)
    (opens : stepValue outer d t = stepOpen outer state d t) :
    resultOf ⟨outer, .value, d⟩ (t :: ts) = resultOf ⟨outer, state, d + 1⟩ ts := by
  apply resultOf_next more
  rw [step, opens, stepOpen, if_neg (Nat.not_le.mpr room)]

private theorem resultOf_complete {t : Token} {config : Config} {outer inner : List Slot}
    {container : Container} {e : Nat} {v : Value} (more : t.kind ≠ .endOfInput)
    (goes : deliver v d outer = .inside inner container e)
    (completes : step .endOfInput config t = (deliver v d outer).toStep) :
    resultOf config (t :: ts) = resultOf ⟨inner, .inside container, e⟩ ts := by
  apply resultOf_next more
  rw [completes, goes]
  rfl

private theorem Reads.resumes (read : Reads d p ts us) : Resumes d ts us p := by
  -- In each case the tokens of the part itself are taken one by one; what is inside is resumed.
  induction read with
  | integer kind admits value noPoint =>
    intro outer inner container e goes
    rw [resultOf_integer_next kind admits]
    exact resultOf_integer value noPoint goes
  | @real d whole point fraction v ts kind admits pointKind fractionKind value =>
    intro outer inner container e goes
    have onPoint : step .endOfInput ⟨outer, .integer whole, d⟩ point =
        .next ⟨outer, .fraction whole, d⟩ := by simp only [step, pointKind, if_true]
    rw [resultOf_integer_next kind admits, resultOf_next (by simp [pointKind]) onPoint]
    apply resultOf_complete (by simp [fractionKind]) goes
    simp only [step, fractionKind, if_true, value]
  | quoted kind =>
    intro outer inner container e goes
    apply resultOf_complete (by simp [kind]) goes
    simp only [step, stepValue, kind]
  | @object d start stop es ts us startKind room _ stopKind ih =>
    intro outer inner container e goes
    have opens : stepValue outer d start = stepOpen outer (.inside (.entries [])) d start := by
      simp only [stepValue, startKind]
    rw [resultOf_open (by simp [startKind]) room opens, ih]
    apply resultOf_complete (by simp [stopKind]) goes
    simp [step, stepInside, not_isEmpty goes, stopKind]
  | @array d start stop vs ts us startKind room _ stopKind ih =>
    intro outer inner container e goes
    have opens : stepValue outer d start = stepOpen outer (.inside (.items [])) d start := by
      simp only [stepValue, startKind]
    rw [resultOf_open (by simp [startKind]) room opens, ih]
    apply resultOf_complete (by simp [stopKind]) goes
    simp [step, stepInside, stopKind]
  | @call d mark name v ts us markKind room nameKind _ ih =>
    intro outer inner container e goes
    have opens : stepValue outer d mark = stepOpen outer .valueCall d mark := by
      simp only [stepValue, markKind]
    have onName : step .endOfInput ⟨outer, .valueCall, d + 1⟩ name =
        .next ⟨.argument name.lexeme :: outer, .value, d + 1⟩ := by
      simp only [step, nameKind, if_true]
    rw [resultOf_open (by simp [markKind]) room opens, resultOf_next (by simp [nameKind]) onName]
    exact ih _ inner container e goes
  | noEntries => exact fun outer before ↦ rfl
  | @record d id mark v es ts us xs idKind markKind _ _ valueIh restIh =>
    intro outer before
    have onId : step .endOfInput ⟨outer, .inside (.entries before), d⟩ id =
        .next ⟨outer, .assign before id.lexeme, d⟩ := by
      cases outer <;> simp [step, stepInside, idKind]
    have onMark : step .endOfInput ⟨outer, .assign before id.lexeme, d⟩ mark =
        .next ⟨.entry before (.record id.lexeme) :: outer, .value, d⟩ := by
      simp only [step, markKind, if_true]
    rw [resultOf_next (by simp [idKind]) onId, resultOf_next (by simp [markKind]) onMark,
      valueIh _ _ _ _ rfl, restIh, List.reverse_cons, List.append_assoc]
    rfl
  | @recordCall d mark name v es ts us xs markKind nameKind _ _ valueIh restIh =>
    intro outer before
    have onMark : step .endOfInput ⟨outer, .inside (.entries before), d⟩ mark =
        .next ⟨outer, .entryCall before, d⟩ := by
      cases outer <;> simp [step, stepInside, markKind]
    have onName : step .endOfInput ⟨outer, .entryCall before, d⟩ name =
        .next ⟨.entry before (.call name.lexeme) :: outer, .value, d⟩ := by
      simp only [step, nameKind, if_true]
    rw [resultOf_next (by simp [markKind]) onMark, resultOf_next (by simp [nameKind]) onName,
      valueIh _ _ _ _ rfl, restIh, List.reverse_cons, List.append_assoc]
    rfl
  | @betweenEntries d token es ts us kind _ ih =>
    intro outer before
    have skip : step .endOfInput ⟨outer, .inside (.entries before), d⟩ token =
        .next ⟨outer, .inside (.entries before), d⟩ := by
      cases outer <;> simp [step, stepInside, kind]
    rw [resultOf_next (by simp [kind]) skip, ih]
  | noItems => exact fun outer before ↦ rfl
  | item read _ valueIh restIh =>
    intro outer before
    rw [resultOf_item read, valueIh _ _ _ _ rfl, restIh, List.reverse_cons, List.append_assoc]
    rfl
  | @betweenItems d token vs ts us kind _ ih =>
    intro outer before
    have skip : step .endOfInput ⟨outer, .inside (.items before), d⟩ token =
        .next ⟨outer, .inside (.items before), d⟩ := by
      simp only [step, stepInside, kind]
    rw [resultOf_next (by simp [kind]) skip, ih]

/-- Reading comes back from entries to their list, with the entries in it. -/
theorem Reads.run_eq {es before : List Entry} {outer : List Slot}
    (read : Reads d (.entries es) ts us) :
    (run .endOfInput ⟨outer, .inside (.entries before), d⟩ ts).result =
      (run .endOfInput ⟨outer, .inside (.entries (es.reverse ++ before)), d⟩ us).result :=
  read.resumes outer before

end Resume

/-! ### Two documents -/

/-- After the tokens of a document in which every bracket is closed and a separator, tokens are
read as they are alone, after the entries of that document. -/
theorem ofTokens_append {ts : List Token} {stop separator : Token} {root : Value} {distance : Nat}
    (more : ∀ t ∈ ts, t.kind ≠ .endOfInput) (ended : stop.kind = .endOfInput)
    (read : ofTokens (ts ++ [stop]) = .ok root) (closed : openBrackets 0 ts = 0)
    (apart : separator.kind = .separator) (tokens : List Token) :
    ofTokens (ts ++ separator :: tokens.map (·.shift distance)) =
      continued root.entries distance (ofTokens tokens) := by
  obtain ⟨closers, es, closing, reads, rfl⟩ := (ofTokens_eq_ok_iff_reads more ended).mp read
  obtain rfl := reads.closers_eq_nil closing closed
  rw [List.append_nil] at reads
  have noPoint : NoPoint (separator :: tokens.map (·.shift distance)) := by
    simp [NoPoint, apart]
  -- The entries of the first document are complete at the separator, with no level open.
  have back := @Reads.run_eq _ _ _ _ [] [] (reads.append noPoint)
  have skip : step .endOfInput ⟨[], .inside (.entries (es.reverse ++ [])), 0⟩ separator =
      .next ⟨[], .inside (.entries ([] ++ es.reverse)), 0⟩ := by
    simp [step, stepInside, apart]
  rw [ofTokens_eq_run, ofTokens_eq_run, back, List.nil_append]
  simp only [run, if_neg (show ¬ separator.kind = .endOfInput by simp [apart]), skip]
  exact run_grows (.inside .outermost) tokens

private theorem openBrackets_append (n : Nat) (ts us : List Token) :
    openBrackets n (ts ++ us) = openBrackets (openBrackets n ts) us := by
  induction ts generalizing n with
  | nil => rfl
  | cons t ts ih =>
    rw [List.cons_append, openBrackets, openBrackets]
    split <;> exact ih _

/-- The document of two texts with a line break between them, when every bracket of the first is
closed: the entries of the first and then those of the second, or the fault of the second. -/
theorem ofSource_append {a : String} {tokens : List Token} {root : Value}
    (scanned : Token.scan a = .ok tokens) (read : ofTokens tokens = .ok root)
    (closed : openBrackets 0 tokens = 0) (b : String) :
    ofSource (a ++ "\n" ++ b) = continued root.entries (a.length + 1) (ofSource b) := by
  obtain ⟨ts, rfl, lexical⟩ := Token.scanFrom_eq_ok scanned
  rw [openBrackets_append] at closed
  have both : Token.scan (a ++ "\n" ++ b) = (Token.scanFrom (0 + (a.length + 1)) b.toList).map
      (fun others ↦ ts ++ ⟨.separator, "\n", ⟨a.length, (a.length + 1 : Nat)⟩⟩ :: others) := by
    have text : (a ++ "\n" ++ b).toList = a.toList ++ '\n' :: b.toList := by simp
    have lineBreak (offset : Nat) : Token.scanFrom offset ('\n' :: b.toList) =
        (Token.scanFrom (offset + 1) b.toList).map
          (⟨.separator, "\n", ⟨offset, (offset + 1 : Nat)⟩⟩ :: ·) :=
      @Token.scanFrom_cons offset '\n' b.toList ⟨.separator, ['\n'], b.toList⟩ (by decide) rfl
    rw [Token.scan, text, Token.scanFrom_append scanned (by simp; decide), Nat.zero_add,
      lineBreak, Nat.zero_add, String.length_toList]
    cases Token.scanFrom (a.length + 1) b.toList <;> rfl
  rw [Token.scanFrom_add] at both
  rw [ofSource, both, ofSource, Token.scan]
  cases Token.scanFrom 0 b.toList with
  | error fault => rfl
  | ok others =>
    exact ofTokens_append (fun t ht ↦ (lexical t ht).kind_ne) rfl read closed rfl others

end Manifest.Document
