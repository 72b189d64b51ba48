/-!
# Blank characters

The characters with the Unicode property `White_Space`, and trimming them off both ends of a text.
-/

namespace TreeProtocol.Text

/-- The characters with the Unicode property `White_Space`. -/
def isBlank (c : Char) : Bool :=
  let n := c.toNat
  (0x09 ≤ n && n ≤ 0x0d) || n == 0x20 || n == 0x85 || n == 0xa0 || n == 0x1680 ||
    (0x2000 ≤ n && n ≤ 0x200a) || n == 0x2028 || n == 0x2029 || n == 0x202f || n == 0x205f ||
    n == 0x3000

/-- The text without the blanks at its front. -/
def trimFront (s : List Char) : List Char := s.dropWhile isBlank

/-- The text without the blanks at either end. -/
def trim (s : List Char) : List Char := (trimFront (trimFront s).reverse).reverse

example : trim ['\u3000', 'a', ' ', 'b', '\n'] = ['a', ' ', 'b'] := by decide

end TreeProtocol.Text
