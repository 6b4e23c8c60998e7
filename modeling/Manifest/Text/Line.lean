/-!
# Lines

Text read from outside has its line ends unified: a return, with or without a line feed after it,
becomes a line feed. `locate` finds the line and the column of an offset, both counted from one;
an offset outside the text stands for the nearer end.
-/

namespace Manifest.Text

/-- Turn every line end into a line feed. -/
def unifyLineEnds : List Char → List Char
  | [] => []
  | '\r' :: '\n' :: rest => '\n' :: unifyLineEnds rest
  | c :: rest => (if c = '\r' then '\n' else c) :: unifyLineEnds rest

/-- A place in a text: its line and column, counted from one, and the line itself. -/
structure Location where
  line : Nat
  column : Nat
  text : List Char
deriving DecidableEq, Repr

/-- The characters up to the next line feed. -/
def untilLineEnd (text : List Char) : List Char := text.takeWhile (· != '\n')

/-- An offset moved to the nearer end of a text when it lies outside. -/
def clampOffset (text : List Char) (offset : Int) : Nat := min offset.toNat text.length

/-- The place of an offset. -/
def locate (text : List Char) (offset : Int) : Location :=
  let before := text.take (clampOffset text offset)
  let after := text.drop (clampOffset text offset)
  let lineStart := (untilLineEnd before.reverse).reverse
  { line := before.count '\n' + 1
    column := lineStart.length + 1
    text := lineStart ++ untilLineEnd after }

end Manifest.Text
