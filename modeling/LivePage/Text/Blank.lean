/-!
# Blank characters

White space is Unicode's `White_Space` property.  A text is trimmed by dropping
its blank characters at both ends; the ASCII class is kept apart for input that
is still bytes.
-/

namespace LivePage.Text

/-- The characters with Unicode's `White_Space` property.  The zero width space
and the byte order mark are not among them. -/
def isBlank (c : Char) : Bool :=
  let n := c.toNat
  (0x09 ≤ n && n ≤ 0x0D) || n == 0x20 || n == 0x85 || n == 0xA0 || n == 0x1680 ||
    (0x2000 ≤ n && n ≤ 0x200A) || n == 0x2028 || n == 0x2029 || n == 0x202F ||
    n == 0x205F || n == 0x3000

/-- The bytes that ASCII counts as white space: the vertical tab is not one. -/
def isBlankByte (b : UInt8) : Bool :=
  b == 0x20 || b == 0x09 || b == 0x0A || b == 0x0C || b == 0x0D

/-- Drops the blank characters in front. -/
def trimStart (cs : List Char) : List Char :=
  cs.dropWhile isBlank

/-- Drops the blank characters behind. -/
def trimEnd (cs : List Char) : List Char :=
  (trimStart cs.reverse).reverse

/-- Drops the blank characters at both ends. -/
def trim (cs : List Char) : List Char :=
  trimEnd (trimStart cs)

/-- Whether a text holds nothing but blank characters. -/
def allBlank (cs : List Char) : Bool :=
  cs.all isBlank

@[simp]
theorem trim_nil : trim [] = [] := rfl

end LivePage.Text

namespace String

/-- The text without the blank characters at its ends. -/
def trimmed (s : String) : String :=
  String.ofList (LivePage.Text.trim s.toList)

/-- Whether the text holds nothing but blank characters. -/
def isBlank (s : String) : Bool :=
  LivePage.Text.allBlank s.toList

end String
