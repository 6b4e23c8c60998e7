import Mathlib.Data.Nat.SuccPred
import Mathlib.Data.Prod.Lex
import Manifest.Proofs.Text.Lines

/-!
# Offsets and places

The lines of a text are what stands between its line feeds. A place is a line and a column, both
counted from one; in every line each character has one, and so has the end of the line (`places`).
The offset of a place is what stands in front of it (`offsetOf`), and a place further on has a
greater offset (`offsetOf_strictMonoOn`).

Locating an offset finds the one place whose offset it is (`locate_mem_places`), so that the places
of a text and its offsets correspond to one another and come in the same order (`locate_bijOn`).
-/

namespace Manifest.Text

/-- The lines of a text. -/
def lines (text : List Char) : List (List Char) := text.splitOn '\n'

/-- What the first lines take up, each with the line feed after it. -/
def startOf (lines : List (List Char)) (count : Nat) : Nat :=
  ((lines.take count).map List.length).sum + count

/-- The places of a text: a line by its number, and a column in it or at its end. -/
def places (text : List Char) : Set (ℕ ×ₗ ℕ) :=
  {place | ∃ line, 0 < (ofLex place).1 ∧ (lines text)[(ofLex place).1 - 1]? = some line ∧
    0 < (ofLex place).2 ∧ (ofLex place).2 ≤ line.length + 1}

/-- What stands in front of a place. -/
def offsetOf (text : List Char) (place : ℕ ×ₗ ℕ) : Nat :=
  startOf (lines text) ((ofLex place).1 - 1) + ((ofLex place).2 - 1)

/-- The line and the column of a location. -/
def Location.place (location : Location) : ℕ ×ₗ ℕ := toLex (location.line, location.column)

variable {text : List Char}

/-! ### Lines -/

/-- A text has one line more than line feeds, and consists of both. -/
theorem length_lines (text : List Char) :
    (lines text).length = text.count '\n' + 1 ∧
      ((lines text).map List.length).sum + text.count '\n' = text.length := by
  unfold lines
  induction text with
  | nil => simp
  | cons c rest ih =>
    obtain ⟨count, total⟩ := ih
    rw [List.splitOn_cons_eq_if_modifyHead]
    by_cases feed : c = '\n'
    · subst feed
      simp only [beq_self_eq_true, if_true, List.length_cons, List.map_cons, List.sum_cons,
        List.length_nil, List.count_cons_self]
      omega
    · -- The character stands in the first line, of which there is one.
      have other : (c == '\n') = false := beq_eq_false_iff_ne.mpr feed
      rw [if_neg (by simpa using feed), List.length_modifyHead, List.length_cons,
        List.count_cons_of_ne feed]
      cases found : rest.splitOn '\n' with
      | nil => exact absurd found (List.splitOn_ne_nil _ _)
      | cons first others =>
        rw [found] at count total
        simp only [List.modifyHead_cons, List.map_cons, List.sum_cons, List.length_cons] at total ⊢
        exact ⟨count, by omega⟩

/-- The next line starts after a line and its line feed. -/
theorem startOf_succ {lines : List (List Char)} {count : Nat} {line : List Char}
    (found : lines[count]? = some line) :
    startOf lines (count + 1) = startOf lines count + line.length + 1 := by
  rw [startOf, startOf, List.take_add_one, found, Option.toList_some, List.map_append,
    List.sum_append, List.map_singleton, List.sum_singleton]
  omega

/-- More lines take up more. -/
theorem startOf_mono (lines : List (List Char)) : Monotone (startOf lines) := by
  intro few many more
  obtain ⟨others, rfl⟩ := Nat.exists_eq_add_of_le more
  rw [startOf, startOf, List.take_add, List.map_append, List.sum_append]
  omega

/-- All lines take up one more than the text, since no line feed stands after the last. -/
theorem startOf_length (text : List Char) :
    startOf (lines text) (lines text).length = text.length + 1 := by
  obtain ⟨count, total⟩ := length_lines text
  rw [startOf, List.take_length]
  omega

/-- A line of a text stands after as many others as there are line feeds in front of it. -/
theorem LineAt.lines_eq {offset : Nat} {before line after : List Char}
    (at_ : LineAt text offset before line after) :
    (lines text)[before.count '\n']? = some line ∧
      startOf (lines text) (before.count '\n') = before.length := by
  have first : ∃ others, lines (line ++ after) = line :: others := by
    obtain rfl | feed := at_.ends
    · exact ⟨[], by rw [lines, List.append_nil, List.splitOn_eq_singleton at_.single]⟩
    · obtain ⟨rest, rfl⟩ := List.head?_eq_some_iff.mp feed
      exact ⟨lines rest, List.splitOn_append_cons_self_of_not_mem at_.single rest⟩
  obtain ⟨others, first⟩ := first
  obtain rfl | feed := at_.starts
  · rw [at_.whole, List.nil_append, first]
    simp [startOf]
  · obtain ⟨front, rfl⟩ := List.getLast?_eq_some_iff.mp feed
    obtain ⟨count, total⟩ := length_lines front
    have split : lines text = lines front ++ line :: others := by
      rw [at_.whole, ← first, List.append_assoc, List.singleton_append]
      exact List.splitOn_append_cons_self front (line ++ after)
    have feeds : (front ++ ['\n']).count '\n' = (lines front).length := by
      rw [count, List.count_append, List.count_singleton_self]
    rw [feeds, split]
    refine ⟨by simp, ?_⟩
    rw [startOf, List.take_left, List.length_append, List.length_singleton]
    omega

/-! ### Places -/

/-- A place further on has more in front of it. -/
theorem offsetOf_strictMonoOn (text : List Char) : StrictMonoOn (offsetOf text) (places text) := by
  rintro a ⟨line, number, found, first, column⟩ b ⟨-, -, -, -, -⟩ before
  rw [offsetOf, offsetOf]
  obtain earlier | ⟨same, within⟩ := Prod.Lex.lt_iff.mp before
  · have further : (ofLex a).1 - 1 + 1 ≤ (ofLex b).1 - 1 := by omega
    have next := startOf_mono (lines text) further
    rw [startOf_succ found] at next
    omega
  · rw [same]
    omega

/-- A place is within the text. -/
theorem offsetOf_le {place : ℕ ×ₗ ℕ} (inside : place ∈ places text) :
    offsetOf text place ≤ text.length := by
  obtain ⟨line, -, found, -, column⟩ := inside
  have last : (ofLex place).1 - 1 + 1 ≤ (lines text).length := by
    have := (List.getElem?_eq_some_iff.mp found).1
    omega
  have lines_le := startOf_mono (lines text) last
  rw [startOf_succ found, startOf_length] at lines_le
  rw [offsetOf]
  omega

/-- An offset is located at its place, in the line of that number. -/
theorem locate_mem_places {offset : Nat} (inside : offset ≤ text.length) :
    let location := locate text offset
    (lines text)[location.line - 1]? = some location.text ∧ location.place ∈ places text ∧
      offsetOf text location.place = offset := by
  obtain ⟨before, after, at_, line, column⟩ := lineAt_locate inside
  obtain ⟨found, start⟩ := at_.lines_eq
  have starts := at_.start_le
  have stops := at_.le_stop
  -- What of the line stands in front of the offset has no line feed.
  have feeds : (text.take offset).count '\n' = before.count '\n' := by
    have cut :
        text.take offset = before ++ (locate text offset).text.take (offset - before.length) := by
      conv_lhs => rw [at_.whole]
      rw [List.take_append, List.take_of_length_le starts,
        List.take_append_of_le_length (by omega)]
    have noFeed : '\n' ∉ (locate text offset).text.take (offset - before.length) :=
      fun feed ↦ at_.single (List.mem_of_mem_take feed)
    rw [cut, List.count_append, List.count_eq_zero.mpr noFeed, Nat.add_zero]
  rw [feeds] at line
  have found : (lines text)[(locate text offset).line - 1]? = some (locate text offset).text := by
    rw [line, Nat.add_sub_cancel, found]
  refine ⟨found, ⟨_, ?_, found, ?_, ?_⟩, ?_⟩
  · show 0 < (locate text offset).line
    omega
  · show 0 < (locate text offset).column
    omega
  · show (locate text offset).column ≤ _
    omega
  · show startOf (lines text) ((locate text offset).line - 1) + ((locate text offset).column - 1) =
      offset
    rw [line, Nat.add_sub_cancel, start]
    omega

/-- The offsets of a text, up to its end, correspond to its places in their order. The place of an
offset is a line of the text, by its number, and a column up to the end of that line; the lines in
front of it, their line feeds and the columns in front of it make the offset. An offset outside has
the place of the nearer end. -/
theorem locate_bijOn (text : List Char) :
    (∀ offset : Nat, offset ≤ text.length →
      let location := locate text offset
      0 < location.line ∧ (lines text)[location.line - 1]? = some location.text ∧
        1 ≤ location.column ∧ location.column ≤ location.text.length + 1 ∧
        offset = (((lines text).take (location.line - 1)).map List.length).sum +
          (location.line - 1) + (location.column - 1)) ∧
      Set.BijOn (fun offset : Nat ↦ (locate text offset).place) (Set.Iic text.length)
        (places text) ∧
      StrictMonoOn (fun offset : Nat ↦ (locate text offset).place) (Set.Iic text.length) ∧
      (∀ offset : Int, offset < 0 → locate text offset = locate text 0) ∧
      ∀ offset : Int, text.length < offset → locate text offset = locate text text.length := by
  have increasing : StrictMonoOn (fun offset : Nat ↦ (locate text offset).place)
      (Set.Iic text.length) := by
    intro a insideA b insideB less
    obtain ⟨-, placeA, offsetA⟩ := locate_mem_places insideA
    obtain ⟨-, placeB, offsetB⟩ := locate_mem_places insideB
    apply ((offsetOf_strictMonoOn text).lt_iff_lt placeA placeB).mp
    rw [offsetA, offsetB]
    exact less
  refine ⟨?_, ⟨?_, increasing.injOn, ?_⟩, increasing, ?_, ?_⟩
  · intro offset inside location
    obtain ⟨found, ⟨line, number, found', column, stop⟩, same⟩ := locate_mem_places inside
    obtain rfl := Option.some.inj (found'.symm.trans found)
    exact ⟨number, found, column, stop, same.symm⟩
  · intro offset inside
    exact (locate_mem_places inside).2.1
  · intro place inside
    obtain ⟨-, located, same⟩ := locate_mem_places (offsetOf_le inside)
    exact ⟨offsetOf text place, offsetOf_le inside,
      (offsetOf_strictMonoOn text).injOn located inside same⟩
  · intro offset outside
    have start : clampOffset text offset = clampOffset text 0 := by
      unfold clampOffset
      omega
    rw [locate, locate, start]
  · intro offset outside
    have stop : clampOffset text offset = clampOffset text text.length := by
      unfold clampOffset
      omega
    rw [locate, locate, stop]

/-- A line feed stands at the end of its line, and the line after it may be empty. -/
example : locate "a\n\nb".toList 1 = ⟨1, 2, ['a']⟩ ∧ locate "a\n\nb".toList 2 = ⟨2, 1, []⟩ := by
  decide

end Manifest.Text
