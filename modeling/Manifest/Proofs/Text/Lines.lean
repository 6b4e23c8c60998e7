import Manifest.Text.Line

/-!
# The line of an offset

A text is cut into lines at its line feeds. An offset belongs to the line that it stands in or at
the end of (`LineAt`), and `locate` finds that line: its number from the line feeds before the
offset, and the column from what of the line stands before it (`lineAt_locate`).
-/

namespace Manifest.Text

/-- A text is cut around the line of an offset: before the line there is nothing or a line feed,
after it likewise, and none in it. -/
structure LineAt (text : List Char) (offset : Nat) (before line after : List Char) : Prop where
  whole : text = before ++ (line ++ after)
  single : '\n' ∉ line
  starts : before = [] ∨ before.getLast? = some '\n'
  ends : after = [] ∨ after.head? = some '\n'
  start_le : before.length ≤ offset
  le_stop : offset ≤ before.length + line.length

/-- The characters up to the next line feed have none. -/
theorem not_mem_untilLineEnd (text : List Char) : '\n' ∉ untilLineEnd text := by
  intro inside
  have other := List.all_eq_true.mp List.all_takeWhile '\n' inside
  cases other

private theorem head_dropWhile (text : List Char) :
    text.dropWhile (· != '\n') = [] ∨ (text.dropWhile (· != '\n')).head? = some '\n' := by
  cases rest : text.dropWhile (· != '\n') with
  | nil => exact .inl rfl
  | cons c others =>
    have stop := List.head?_dropWhile_not (· != '\n') text
    rw [rest] at stop
    have same : c = '\n' := by simpa using stop
    exact .inr (congrArg some same)

/-- The place of an offset is that of its line, numbered by the line feeds before the offset, with
the column counted from the start of the line. -/
theorem lineAt_locate {text : List Char} {offset : Nat} (inside : offset ≤ text.length) :
    ∃ before after, LineAt text offset before (locate text offset).text after ∧
      (locate text offset).line = (text.take offset).count '\n' + 1 ∧
      (locate text offset).column = offset - before.length + 1 := by
  have clamped : clampOffset text offset = offset := by
    rw [clampOffset, Int.toNat_natCast, Nat.min_eq_left inside]
  obtain ⟨front, cut⟩ : ∃ front, front = text.take offset := ⟨_, rfl⟩
  obtain ⟨back, rest⟩ : ∃ back, back = text.drop offset := ⟨_, rfl⟩
  have length : front.length = offset := by rw [cut, List.length_take, Nat.min_eq_left inside]
  have located : locate text offset =
      ⟨front.count '\n' + 1, (untilLineEnd front.reverse).reverse.length + 1,
        (untilLineEnd front.reverse).reverse ++ untilLineEnd back⟩ := by
    rw [locate, clamped, ← cut, ← rest]
  let before := (front.reverse.dropWhile (· != '\n')).reverse
  -- The front of the text is cut at its last line feed, which is the first of its reverse.
  have parts : before ++ (untilLineEnd front.reverse).reverse = front := by
    rw [← List.reverse_append, untilLineEnd, List.takeWhile_append_dropWhile, List.reverse_reverse]
  have others : untilLineEnd back ++ back.dropWhile (· != '\n') = back :=
    List.takeWhile_append_dropWhile
  have both := congrArg List.length parts
  rw [List.length_append, length] at both
  refine ⟨before, back.dropWhile (· != '\n'), ?_, ?_, ?_⟩
  · rw [located]
    refine ⟨?_, ?_, ?_, head_dropWhile back, by omega, ?_⟩
    · rw [List.append_assoc, others, ← List.append_assoc, parts, cut, rest, List.take_append_drop]
    · rw [List.mem_append, List.mem_reverse, not_or]
      exact ⟨not_mem_untilLineEnd _, not_mem_untilLineEnd _⟩
    · rw [List.getLast?_reverse, List.reverse_eq_nil_iff]
      exact head_dropWhile front.reverse
    · dsimp only
      rw [List.length_append]
      omega
  · rw [located, cut]
  · rw [located]
    dsimp only
    omega

end Manifest.Text
