/-!
# Abridged text

A text of more than fifty bytes in UTF-8 is abridged in the middle: at most 25 bytes from its
front and at most 24 from its end are kept, cut between characters.
-/

namespace Manifest.Text

/-- The number of bytes that a character takes in UTF-8. -/
def byteWidth (c : Char) : Nat := c.utf8Size

/-- The number of bytes that a text takes in UTF-8. -/
def byteLength (text : List Char) : Nat := text.foldr (fun c n ↦ byteWidth c + n) 0

/-- The longest prefix of at most `limit` bytes. -/
def takeBytes : (limit : Nat) → List Char → List Char
  | _, [] => []
  | limit, c :: rest =>
    if byteWidth c ≤ limit then c :: takeBytes (limit - byteWidth c) rest else []

/-- The longest suffix of at most `limit` bytes. -/
def takeBytesEnd (limit : Nat) (text : List Char) : List Char :=
  (takeBytes limit text.reverse).reverse

/-- A long text with its middle left out. -/
def abridge (text : String) : String :=
  let all := text.toList
  if byteLength all ≤ 50 then text
  else String.ofList (takeBytes 25 all ++ "...".toList ++ takeBytesEnd 24 all)

end Manifest.Text
