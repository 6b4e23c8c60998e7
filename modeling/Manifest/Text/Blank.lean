/-!
# Blank characters

Two classes of blank are in use. `isWhiteSpace` is the white space property of the character
database; `isBlank` adds the four information separators U+001C to U+001F. Layout between tokens
and the edges of a number's text are blank in the wider sense. Stripping removes blanks at both
ends and nothing inside.
-/

namespace Manifest.Text

/-- Membership of a character in a table of inclusive code point ranges. -/
def inRanges (ranges : List (Nat × Nat)) (c : Char) : Bool :=
  ranges.any fun (low, high) ↦ low ≤ c.toNat && c.toNat ≤ high

/-- The code point ranges with the white space property. -/
def whiteSpaceRanges : List (Nat × Nat) :=
  [(0x09, 0x0d), (0x20, 0x20), (0x85, 0x85), (0xa0, 0xa0), (0x1680, 0x1680), (0x2000, 0x200a),
    (0x2028, 0x2029), (0x202f, 0x202f), (0x205f, 0x205f), (0x3000, 0x3000)]

/-- The characters with the white space property. -/
def isWhiteSpace (c : Char) : Bool := inRanges whiteSpaceRanges c

/-- White space and the four information separators. -/
def isBlank (c : Char) : Bool := inRanges [(0x1c, 0x1f)] c || isWhiteSpace c

/-- The six blanks of plain ASCII text: space, tab, line feed, vertical tab, form feed, return. -/
def isAsciiBlank (c : Char) : Bool := inRanges [(0x09, 0x0d), (0x20, 0x20)] c

/-- Blank characters that do not end a line: they separate tokens and mean nothing else. -/
def isLayout (c : Char) : Bool := isBlank c && c != '\n'

/-- Remove the characters of a class at both ends. -/
def stripBy (drop : Char → Bool) (text : List Char) : List Char :=
  ((text.dropWhile drop).reverse.dropWhile drop).reverse

/-- Layout characters are blank. -/
theorem isBlank_of_isLayout {c : Char} (h : isLayout c = true) : isBlank c = true := by
  simp only [isLayout, Bool.and_eq_true] at h
  exact h.1

/-- Nothing is removed from a text without characters of the class. -/
theorem stripBy_eq_self {drop : Char → Bool} {text : List Char} (h : ∀ c ∈ text, drop c = false) :
    stripBy drop text = text := by
  have keep (others : List Char) (h : ∀ c ∈ others, drop c = false) : others.dropWhile drop =
      others := by
    cases others with
    | nil => rfl
    | cons c rest => exact List.dropWhile_cons_of_neg (by simp [h c List.mem_cons_self])
  rw [stripBy, keep text h, keep _ fun c inside ↦ h c (List.mem_reverse.mp inside),
    List.reverse_reverse]

end Manifest.Text
