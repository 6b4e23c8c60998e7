import Mathlib.Data.List.Nodup
import Manifest.Proofs.Json.Number
import Manifest.Proofs.Json.Text

/-!
# Data read back from JSON text

Data whose objects bind no name twice, and whose whole numbers are not too long to be read, are
read back from the text that they are written as, with any indentation (`read_text`).

Whatever stands at a place is read back from there if it is followed by something that no number
goes on with (`ReadsBack`). The parts of a container are read one after the other, with the spacing
between them skipped; the steps that reading takes are bounded by the length of the text.
-/

namespace Manifest.Json

variable {rest : List Char} {spacing : Spacing} {level : Nat}

/-! ### Data that can be read back -/

mutual

/-- No object binds a name twice, and no whole number is too long to be read. -/
def Readable : Json → Prop
  | null | bool _ | real _ | string _ => True
  | integer n => Numeral.width n.natAbs ≤ Numeral.maxDigits
  | array items => ItemsReadable items
  | object members => (Table.names members).Nodup ∧ MembersReadable members

/-- All of the items can be read back. -/
def ItemsReadable : List Json → Prop
  | [] => True
  | item :: rest => Readable item ∧ ItemsReadable rest

/-- What the members bind can be read back. -/
def MembersReadable : List (String × Json) → Prop
  | [] => True
  | (_, value) :: rest => Readable value ∧ MembersReadable rest

end

/-! ### Spacing -/

/-- Blanks are skipped up to what is none. -/
theorem skipSpace_append {gap text : List Char} (blank : ∀ c ∈ gap, isSpace c = true)
    (stop : ∀ c ∈ text.head?, isSpace c = false) (offset : Nat) :
    (⟨offset, gap ++ text⟩ : Rest).skipSpace = ⟨offset + gap.length, text⟩ := by
  rw [Rest.skipSpace, (Numeral.takeWhile_all blank text stop).1, Rest.skip, List.drop_left]

private theorem isSpace_lineStart : ∀ c ∈ spacing.lineStart level, isSpace c = true := by
  cases spacing with
  | inline => simp [Spacing.lineStart]
  | lines width =>
    refine List.forall_mem_cons.mpr ⟨rfl, fun c inside ↦ ?_⟩
    rw [(List.mem_replicate.mp inside).2]
    rfl

private theorem exists_between (spacing : Spacing) (level : Nat) :
    ∃ gap, spacing.between level = ',' :: gap ∧ ∀ c ∈ gap, isSpace c = true := by
  cases spacing with
  | inline => exact ⟨[' '], rfl, List.forall_mem_singleton.mpr rfl⟩
  | lines width => exact ⟨_, rfl, isSpace_lineStart⟩

private theorem endsNumber_cons {c : Char}
    (other : Numeral.isAsciiDigit c = false ∧ c ≠ '.' ∧ c ≠ 'e' ∧ c ≠ 'E') :
    EndsNumber (c :: rest) := by
  intro d first
  cases first
  exact other

private theorem endsNumber_comma : EndsNumber (',' :: rest) := endsNumber_cons (by decide)

private theorem endsNumber_close {close : Char} (ends : EndsNumber (close :: rest)) :
    EndsNumber (spacing.lineStart level ++ close :: rest) := by
  cases spacing with
  | inline => exact ends
  | lines width => exact endsNumber_cons (by decide)

/-! ### What data start with -/

/-- A text starts with a character that is no blank, no closing bracket and no byte order mark. -/
def StartsData (text : List Char) : Prop :=
  ∃ c more, text = c :: more ∧ isSpace c = false ∧ c ≠ ']' ∧ c ≠ '\ufeff'

private theorem StartsData.append {text : List Char} (starts : StartsData text)
    (more : List Char) : StartsData (text ++ more) := by
  obtain ⟨c, others, rfl, first⟩ := starts
  exact ⟨c, others ++ more, rfl, first⟩

private theorem StartsData.stop {text : List Char} (starts : StartsData text) :
    ∀ c ∈ text.head?, isSpace c = false := by
  obtain ⟨c, others, rfl, blank, -⟩ := starts
  intro d first
  cases first
  exact blank

private theorem ReadsNumber.startsData {text : List Char} {datum : Json}
    (reads : ReadsNumber text datum) : StartsData text := by
  obtain ⟨c, more, rfl, rfl | digit⟩ := reads.exists_cons
  · exact ⟨'-', more, rfl, rfl, by decide, by decide⟩
  · have other (d : Char) (noDigit : Numeral.isAsciiDigit d = false) : c ≠ d := by
      rintro rfl
      rw [digit] at noDigit
      cases noDigit
    refine ⟨c, more, rfl, ?_, other ']' rfl, other '\ufeff' rfl⟩
    simp [isSpace, other ' ' rfl, other '\t' rfl, other '\n' rfl, other '\r' rfl]

private theorem real_cases (x : Double) :
    x = .nan ∨ (∃ negative, x = .infinite negative ∧
      writeReal x = signOf negative ++ "Infinity".toList) ∨
        ReadsNumber (writeReal x) (.real x) := by
  cases x with
  | nan => exact .inl rfl
  | signed negative rank h =>
    by_cases infinite : rank = Format.double.infinity
    · subst infinite
      refine .inr (.inl ⟨negative, rfl, ?_⟩)
      rw [writeReal, if_pos rfl, signOf]
    · refine .inr (.inr ?_)
      rw [writeReal, if_neg infinite]
      exact readsNumber_text h infinite

private theorem startsData_write (spacing : Spacing) (level : Nat) {d : Json}
    (readable : d.Readable) : StartsData (write spacing level d) := by
  cases d with
  | null => exact ⟨'n', _, rfl, rfl, by decide, by decide⟩
  | bool b => cases b <;> exact ⟨_, _, rfl, rfl, by decide, by decide⟩
  | integer n => exact (readsNumber_ofInt readable).startsData
  | real x =>
    obtain rfl | ⟨negative, -, written⟩ | reads := real_cases x
    · exact ⟨'N', _, rfl, rfl, by decide, by decide⟩
    · rw [write, written]
      cases negative <;> exact ⟨_, _, rfl, rfl, by decide, by decide⟩
    · exact reads.startsData
  | string s => exact ⟨'"', _, rfl, rfl, by decide, by decide⟩
  | array items => cases items <;> exact ⟨'[', _, rfl, rfl, by decide, by decide⟩
  | object members =>
    cases members with
    | nil => exact ⟨'\x7b', _, rfl, rfl, by decide, by decide⟩
    | cons member members => exact ⟨'\x7b', _, rfl, rfl, by decide, by decide⟩

/-! ### Parts of containers -/

section Parts

variable {steps offset after : Nat} {r : Rest} {gap text : List Char}

private theorem skip_skipSpace (mark : Char) (blank : ∀ c ∈ gap, isSpace c = true)
    (starts : StartsData text) (offset : Nat) :
    ((⟨offset, mark :: (gap ++ text)⟩ : Rest).skip 1).skipSpace =
      ⟨offset + 1 + gap.length, text⟩ :=
  skipSpace_append blank starts.stop (offset + 1)

private theorem skipSpace_cons {c : Char} (noBlank : isSpace c = false) (offset : Nat) :
    (⟨offset, c :: rest⟩ : Rest).skipSpace = ⟨offset, c :: rest⟩ := by
  rw [Rest.skipSpace, List.takeWhile_cons_of_neg (by simp [noBlank])]
  rfl

private theorem readItems_last {item : Json}
    (read : readValue steps r = .ok (item, ⟨after, gap ++ ']' :: rest⟩))
    (blank : ∀ c ∈ gap, isSpace c = true) :
    ∃ after, readItems (steps + 1) r = .ok ([item], ⟨after, rest⟩) := by
  have skipped : (⟨after, gap ++ ']' :: rest⟩ : Rest).skipSpace =
      ⟨after + gap.length, ']' :: rest⟩ := skipSpace_append blank (by simp; rfl) after
  exact ⟨_, by simp only [readItems, bind, Except.bind, read, skipped]; rfl⟩

private theorem readItems_more {item : Json}
    (read : readValue steps r = .ok (item, ⟨after, ',' :: (gap ++ text)⟩))
    (blank : ∀ c ∈ gap, isSpace c = true) (starts : StartsData text) :
    ∃ next, readItems (steps + 1) r =
      (readItems steps ⟨next, text⟩).map fun (items, rest) ↦ (item :: items, rest) := by
  refine ⟨after + 1 + gap.length, ?_⟩
  simp only [readItems, bind, Except.bind, read,
    skipSpace_cons (show isSpace ',' = false from rfl), skip_skipSpace ',' blank starts]
  cases readItems steps ⟨after + 1 + gap.length, text⟩ <;> rfl

-- How reading members goes on after one of them.
private def afterMember (steps : Nat) (members : Table Json) (r : Rest) :
    Except ReadFault (Table Json × Rest) :=
  match r.text with
  | '\x7d' :: _ => .ok (members, r.skip 1)
  | ',' :: _ => readMembers steps members (r.skip 1).skipSpace
  | _ => r.fail .expectingComma

private theorem readMembers_cons (before : Table Json) (key : String) {value : Json}
    (starts : StartsData text)
    (read : ∀ offset, ∃ after, readValue steps ⟨offset, text⟩ = .ok (value, ⟨after, rest⟩)) :
    ∃ after, readMembers (steps + 1) before ⟨offset, writeString key ++ ':' :: ([' '] ++ text)⟩ =
      afterMember steps (before.set key value) (⟨after, rest⟩ : Rest).skipSpace := by
  obtain ⟨middle, keyRead⟩ := readString_writeString offset key (':' :: ([' '] ++ text))
  have blank : ∀ c ∈ [' '], isSpace c = true := List.forall_mem_singleton.mpr rfl
  obtain ⟨after, valueRead⟩ := read (middle + 1 + [' '].length)
  have quote : (writeString key ++ ':' :: ([' '] ++ text)).head? = some '"' := rfl
  refine ⟨after, ?_⟩
  simp only [readMembers, bind, Except.bind, quote, bne_self_eq_false, Bool.false_eq_true,
    if_false, keyRead, skipSpace_cons (show isSpace ':' = false from rfl), List.head?_cons,
    skip_skipSpace ':' blank starts, valueRead]
  rfl

private theorem readMembers_last (before : Table Json) (key : String) {value : Json}
    (starts : StartsData text) (blank : ∀ c ∈ gap, isSpace c = true)
    (read : ∀ offset, ∃ after,
      readValue steps ⟨offset, text⟩ = .ok (value, ⟨after, gap ++ '\x7d' :: rest⟩)) :
    ∃ after, readMembers (steps + 1) before ⟨offset, writeString key ++ ':' :: ([' '] ++ text)⟩ =
      .ok (before.set key value, ⟨after, rest⟩) := by
  obtain ⟨after, parts⟩ := @readMembers_cons _ steps offset _ before key _ starts read
  have skipped : (⟨after, gap ++ '\x7d' :: rest⟩ : Rest).skipSpace =
      ⟨after + gap.length, '\x7d' :: rest⟩ := skipSpace_append blank (by simp; rfl) after
  rw [parts, skipped]
  exact ⟨_, rfl⟩

private theorem readMembers_more (before : Table Json) (key : String) {value : Json}
    {others : List Char} (starts : StartsData text) (blank : ∀ c ∈ gap, isSpace c = true)
    (startsOthers : StartsData others)
    (read : ∀ offset, ∃ after,
      readValue steps ⟨offset, text⟩ = .ok (value, ⟨after, ',' :: (gap ++ others)⟩)) :
    ∃ next, readMembers (steps + 1) before ⟨offset, writeString key ++ ':' :: ([' '] ++ text)⟩ =
      readMembers steps (before.set key value) ⟨next, others⟩ := by
  obtain ⟨after, parts⟩ := @readMembers_cons _ steps offset _ before key _ starts read
  rw [parts, skipSpace_cons (show isSpace ',' = false from rfl)]
  exact ⟨_, congrArg (readMembers steps (before.set key value))
    (skip_skipSpace ',' blank startsOthers after)⟩

end Parts

/-! ### Containers -/

/-- What is written of a datum at a level starts as data do, and is read back, with something after
it that no number goes on with. -/
structure ReadsBack (spacing : Spacing) (level : Nat) (d : Json) : Prop where
  starts : StartsData (write spacing level d)
  read : ∀ steps rest, 2 * (write spacing level d).length ≤ steps → EndsNumber rest →
    ∀ offset, ∃ after,
      readValue steps ⟨offset, write spacing level d ++ rest⟩ = .ok (d, ⟨after, rest⟩)

private theorem readItems_write {close : List Char} (blank : ∀ c ∈ close, isSpace c = true)
    (ends : EndsNumber (close ++ ']' :: rest)) {items : List Json} {first : Json}
    (each : ∀ item ∈ first :: items, ReadsBack spacing level item) {steps : Nat}
    (enough : 2 * ((write spacing level first).length +
      (writeItems spacing level items).length) < steps) (offset : Nat) :
    ∃ after, readItems steps ⟨offset, write spacing level first ++
      (writeItems spacing level items ++ (close ++ ']' :: rest))⟩ =
        .ok (first :: items, ⟨after, rest⟩) := by
  induction items generalizing first steps offset with
  | nil =>
    obtain ⟨steps, rfl⟩ := Nat.exists_eq_succ_of_ne_zero (Nat.ne_zero_of_lt enough)
    obtain ⟨after, read⟩ := (each first List.mem_cons_self).read steps _ (by omega) ends offset
    exact readItems_last read blank
  | cons second items ih =>
    obtain ⟨steps, rfl⟩ := Nat.exists_eq_succ_of_ne_zero (Nat.ne_zero_of_lt enough)
    obtain ⟨firstReads, others⟩ := List.forall_mem_cons.mp each
    have starts := (others second List.mem_cons_self).starts
    obtain ⟨gap, between, gapBlank⟩ := exists_between spacing level
    have text : writeItems spacing level (second :: items) ++ (close ++ ']' :: rest) =
        ',' :: (gap ++ (write spacing level second ++
          (writeItems spacing level items ++ (close ++ ']' :: rest)))) := by
      rw [writeItems, between]
      simp only [List.cons_append, List.append_assoc]
    rw [writeItems, between] at enough
    simp only [List.length_append, List.length_cons] at enough
    -- The step for the first item is paid for by the comma before the second.
    have enoughOthers : 2 * ((write spacing level second).length +
        (writeItems spacing level items).length) < steps := by omega
    rw [text]
    obtain ⟨after, read⟩ := firstReads.read steps _ (by omega) endsNumber_comma offset
    obtain ⟨next, more⟩ := readItems_more read gapBlank (starts.append _)
    obtain ⟨last, readOthers⟩ := ih others enoughOthers next
    exact ⟨last, by rw [more, readOthers]; rfl⟩

private theorem not_mem_names {α : Type} {table more : Table α} {name : String} {x : α}
    (distinct : (Table.names (table ++ (name, x) :: more)).Nodup) : name ∉ table.names := by
  intro inside
  rw [Table.names, List.map_append] at distinct
  exact List.disjoint_of_nodup_append distinct inside List.mem_cons_self

private theorem readMembers_write {close : List Char} (blank : ∀ c ∈ close, isSpace c = true)
    (ends : EndsNumber (close ++ '\x7d' :: rest)) {members before : Table Json} {key : String}
    {first : Json} (each : ∀ member ∈ (key, first) :: members, ReadsBack spacing level member.2)
    (distinct : (Table.names (before ++ (key, first) :: members)).Nodup) {steps : Nat}
    (enough : 2 * ((write spacing level first).length +
      (writeMembers spacing level members).length) < steps) (offset : Nat) :
    ∃ after, readMembers steps before ⟨offset, writeString key ++ ':' :: ([' '] ++
      (write spacing level first ++
        (writeMembers spacing level members ++ (close ++ '\x7d' :: rest))))⟩ =
          .ok (before ++ (key, first) :: members, ⟨after, rest⟩) := by
  induction members generalizing before key first steps offset with
  | nil =>
    obtain ⟨steps, rfl⟩ := Nat.exists_eq_succ_of_ne_zero (Nat.ne_zero_of_lt enough)
    have firstReads : ReadsBack spacing level first := each _ List.mem_cons_self
    rw [← Table.set_of_not_mem first (not_mem_names distinct)]
    exact readMembers_last before key (firstReads.starts.append _) blank
      (firstReads.read steps _ (by omega) ends)
  | cons second members ih =>
    obtain ⟨steps, rfl⟩ := Nat.exists_eq_succ_of_ne_zero (Nat.ne_zero_of_lt enough)
    obtain ⟨name, value⟩ := second
    have firstReads : ReadsBack spacing level first := each _ List.mem_cons_self
    have others := fun member inside ↦ each member (List.mem_cons_of_mem _ inside)
    obtain ⟨gap, between, gapBlank⟩ := exists_between spacing level
    have text : writeMembers spacing level ((name, value) :: members) ++
        (close ++ '\x7d' :: rest) = ',' :: (gap ++ (writeString name ++ ':' :: ([' '] ++
          (write spacing level value ++
            (writeMembers spacing level members ++ (close ++ '\x7d' :: rest)))))) := by
      rw [writeMembers, between]
      simp only [List.cons_append, List.append_assoc, List.nil_append]
    rw [writeMembers, between] at enough
    simp only [List.length_append, List.length_cons] at enough
    have enoughOthers : 2 * ((write spacing level value).length +
        (writeMembers spacing level members).length) < steps := by omega
    have starts : StartsData (writeString name) := ⟨'"', _, rfl, rfl, by decide, by decide⟩
    have same : before ++ (key, first) :: (name, value) :: members =
        before.set key first ++ (name, value) :: members := by
      rw [Table.set_of_not_mem first (not_mem_names distinct), List.append_assoc,
        List.singleton_append]
    rw [text, same]
    rw [same] at distinct
    obtain ⟨next, more⟩ := readMembers_more before key (firstReads.starts.append _) gapBlank
      (starts.append _) (firstReads.read steps _ (by omega) endsNumber_comma)
    rw [more]
    exact ih others distinct enoughOthers next

private theorem readValue_bracket {gap text : List Char} (blank : ∀ c ∈ gap, isSpace c = true)
    (starts : StartsData text) (steps offset : Nat) :
    ∃ inside, readValue (steps + 1) ⟨offset, '[' :: (gap ++ text)⟩ =
      (readItems steps ⟨inside, text⟩).map fun (items, rest) ↦ (.array items, rest) := by
  have skipped := skip_skipSpace '[' blank starts offset
  obtain ⟨c, more, rfl, -, bracket, -⟩ := starts
  refine ⟨offset + 1 + gap.length, ?_⟩
  simp [readValue, skipped, bracket]

private theorem readValue_brace {gap : List Char} (blank : ∀ c ∈ gap, isSpace c = true)
    (key : String) (text : List Char) (steps offset : Nat) :
    ∃ inside, readValue (steps + 1) ⟨offset, '\x7b' :: (gap ++ (writeString key ++ text))⟩ =
      (readMembers steps [] ⟨inside, writeString key ++ text⟩).map fun (members, rest) ↦
        (.object members, rest) := by
  have starts : StartsData (writeString key ++ text) := ⟨'"', _, rfl, rfl, by decide, by decide⟩
  have skipped := skip_skipSpace '\x7b' blank starts offset
  have quote : (writeString key ++ text).head? = some '"' := rfl
  refine ⟨offset + 1 + gap.length, ?_⟩
  simp [readValue, skipped, quote]

private theorem readValue_array {items : List Json}
    (each : ∀ item ∈ items, ReadsBack spacing (level + 1) item) {steps : Nat}
    (enough : 2 * (write spacing level (.array items)).length ≤ steps + 1) (offset : Nat) :
    ∃ after, readValue (steps + 1) ⟨offset, write spacing level (.array items) ++ rest⟩ =
      .ok (.array items, ⟨after, rest⟩) := by
  cases items with
  | nil => exact ⟨_, rfl⟩
  | cons first items =>
    have text : write spacing level (.array (first :: items)) ++ rest =
        '[' :: (spacing.lineStart (level + 1) ++ (write spacing (level + 1) first ++
          (writeItems spacing (level + 1) items ++
            (spacing.lineStart level ++ ']' :: rest)))) := by
      simp only [write, List.cons_append, List.append_assoc, List.nil_append]
    rw [write] at enough
    simp only [List.length_append, List.length_cons] at enough
    have enoughItems : 2 * ((write spacing (level + 1) first).length +
        (writeItems spacing (level + 1) items).length) < steps := by omega
    obtain ⟨inside, read⟩ := readValue_bracket isSpace_lineStart
      ((each first List.mem_cons_self).starts.append _) steps offset
    obtain ⟨after, readAll⟩ := readItems_write isSpace_lineStart
      (endsNumber_close (endsNumber_cons (by decide))) each enoughItems inside
    exact ⟨after, by rw [text, read, readAll]; rfl⟩

private theorem readValue_object {members : Table Json} (distinct : members.names.Nodup)
    (each : ∀ member ∈ members, ReadsBack spacing (level + 1) member.2) {steps : Nat}
    (enough : 2 * (write spacing level (.object members)).length ≤ steps + 1) (offset : Nat) :
    ∃ after, readValue (steps + 1) ⟨offset, write spacing level (.object members) ++ rest⟩ =
      .ok (.object members, ⟨after, rest⟩) := by
  cases members with
  | nil => exact ⟨_, rfl⟩
  | cons member members =>
    obtain ⟨key, first⟩ := member
    have text : write spacing level (.object ((key, first) :: members)) ++ rest =
        '\x7b' :: (spacing.lineStart (level + 1) ++ (writeString key ++ ':' :: ([' '] ++
          (write spacing (level + 1) first ++ (writeMembers spacing (level + 1) members ++
            (spacing.lineStart level ++ '\x7d' :: rest)))))) := by
      simp only [write, List.cons_append, List.append_assoc, List.nil_append]
    rw [write] at enough
    simp only [List.length_append, List.length_cons] at enough
    have enoughMembers : 2 * ((write spacing (level + 1) first).length +
        (writeMembers spacing (level + 1) members).length) < steps := by omega
    obtain ⟨inside, read⟩ := readValue_brace isSpace_lineStart key _ steps offset
    obtain ⟨after, readAll⟩ := @readMembers_write _ _ _ _ isSpace_lineStart
      (endsNumber_close (endsNumber_cons (by decide))) members [] key first each distinct steps
      enoughMembers inside
    exact ⟨after, by rw [text, read, readAll]; rfl⟩

/-! ### Data -/

private theorem readValue_string (s : String) (steps offset : Nat) :
    ∃ after, readValue (steps + 1) ⟨offset, writeString s ++ rest⟩ =
      .ok (.string s, ⟨after, rest⟩) := by
  obtain ⟨after, read⟩ := readString_writeString offset s rest
  refine ⟨after, ?_⟩
  have quote : writeString s ++ rest = '"' :: (s.toList.flatMap escape ++ ['"'] ++ rest) := rfl
  rw [quote] at read ⊢
  simp only [readValue, read]
  rfl

private theorem readValue_real (x : Double) (ends : EndsNumber rest) (steps offset : Nat) :
    ∃ after, readValue (steps + 1) ⟨offset, writeReal x ++ rest⟩ =
      .ok (.real x, ⟨after, rest⟩) := by
  obtain rfl | ⟨negative, rfl, written⟩ | reads := real_cases x
  · exact ⟨_, rfl⟩
  · rw [written]
    cases negative <;> exact ⟨_, rfl⟩
  · exact reads.readValue ends steps offset

private theorem readsBack_of_succ {d : Json} (readable : d.Readable)
    (read : ∀ steps rest, 2 * (write spacing level d).length ≤ steps + 1 → EndsNumber rest →
      ∀ offset, ∃ after,
        readValue (steps + 1) ⟨offset, write spacing level d ++ rest⟩ = .ok (d, ⟨after, rest⟩)) :
    ReadsBack spacing level d := by
  have starts := startsData_write spacing level readable
  refine ⟨starts, fun steps rest enough ↦ ?_⟩
  obtain ⟨c, more, text, -⟩ := starts
  have positive : 0 < steps := by
    rw [text, List.length_cons] at enough
    omega
  obtain ⟨steps, rfl⟩ := Nat.exists_eq_succ_of_ne_zero positive.ne'
  exact read steps rest enough

mutual

/-- Data that can be read back are read back wherever they stand. -/
theorem readsBack_of_readable (spacing : Spacing) (level : Nat) :
    (d : Json) → d.Readable → ReadsBack spacing level d
  | null, readable => readsBack_of_succ readable fun _ _ _ _ _ ↦ ⟨_, rfl⟩
  | bool true, readable => readsBack_of_succ readable fun _ _ _ _ _ ↦ ⟨_, rfl⟩
  | bool false, readable => readsBack_of_succ readable fun _ _ _ _ _ ↦ ⟨_, rfl⟩
  | integer _, readable => readsBack_of_succ readable fun steps _ _ ends offset ↦
    (readsNumber_ofInt readable).readValue ends steps offset
  | real x, readable => readsBack_of_succ readable fun steps _ _ ends offset ↦
    readValue_real x ends steps offset
  | string s, readable => readsBack_of_succ readable fun steps _ _ _ offset ↦
    readValue_string s steps offset
  | array items, readable => readsBack_of_succ readable fun _ _ enough _ offset ↦
    readValue_array (itemsReadBack spacing (level + 1) items readable) enough offset
  | object members, readable => readsBack_of_succ readable fun _ _ enough _ offset ↦
    readValue_object readable.1 (membersReadBack spacing (level + 1) members readable.2) enough
      offset

private theorem itemsReadBack (spacing : Spacing) (level : Nat) :
    (items : List Json) → ItemsReadable items → ∀ item ∈ items, ReadsBack spacing level item
  | [], _ => by simp
  | item :: rest, readable =>
    List.forall_mem_cons.mpr ⟨readsBack_of_readable spacing level item readable.1,
      itemsReadBack spacing level rest readable.2⟩

private theorem membersReadBack (spacing : Spacing) (level : Nat) :
    (members : List (String × Json)) → MembersReadable members →
      ∀ member ∈ members, ReadsBack spacing level member.2
  | [], _ => by simp
  | (_, value) :: rest, readable =>
    List.forall_mem_cons.mpr ⟨readsBack_of_readable spacing level value readable.1,
      membersReadBack spacing level rest readable.2⟩

end

/-- Data are read back from their text, whatever its indentation. -/
theorem read_text {d : Json} (readable : d.Readable) (indent : Option Int) :
    read (text indent d) = .ok d := by
  have back := readsBack_of_readable (.ofIndent indent) 0 d readable
  have noMore : EndsNumber [] := by simp [EndsNumber]
  rw [read, text, String.toList_ofList, readChars]
  generalize written : write (.ofIndent indent) 0 d = chars
  obtain ⟨after, value⟩ := back.read (2 * chars.length + 2) [] (by rw [written]; omega) noMore 0
  have starts := back.starts
  rw [written] at starts value
  rw [List.append_nil] at value
  obtain ⟨c, more, rfl, noBlank, -, noMark⟩ := starts
  have head : ((c :: more).head? == some '\ufeff') = false := by simp [noMark]
  simp only [head, Bool.false_eq_true, if_false, skipSpace_cons noBlank, bind, Except.bind, value]
  rfl

end Manifest.Json
