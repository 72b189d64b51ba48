/-!
# Characters and their places

The layout of a YAML text carries meaning, so its characters are numbered by line and column before
anything else is done with them. All ways to end a line are written as a line feed, except the
line and paragraph separators, which stay as they are.

The parts that several tokens have in common are split off here: names, numbers, the blanks behind
them and the end of a line with its comment.
-/

namespace TreeProtocol.Yaml

/-- A character of a text with its line and column, both from zero. -/
structure Placed where
  char : Char
  line : Nat
  column : Nat
  /-- The number of bytes before it in its line, in UTF-8. -/
  offset : Nat
  deriving DecidableEq, Inhabited

/-- The mark that may stand in front of a text. -/
def byteOrderMark : Char := '\ufeff'

/-- A character that may occur in a text. -/
def isAllowed (c : Char) : Bool :=
  let n := c.toNat
  n == 0x09 || n == 0x0a || n == 0x0d || (0x20 ≤ n && n ≤ 0x7e) || n == 0x85 ||
    (0xa0 ≤ n && n != 0xfffe && n != 0xffff)

/-- A character that ends a line. -/
def isBreak (c : Char) : Bool :=
  c == '\n' || c == '\r' || c == '\u0085' || c == '\u2028' || c == '\u2029'

/-- A blank inside a line. -/
def isSpace (c : Char) : Bool := c == ' ' || c == '\t'

/-- A character that separates words. -/
def isGap (c : Char) : Bool := isSpace c || isBreak c

/-- A character of a name. -/
def isNameChar (c : Char) : Bool := c.isAlphanum || c == '_' || c == '-'

/-- A text with uniform line ends. -/
def uniform : List Char → List Char
  | '\r' :: '\n' :: rest => '\n' :: uniform rest
  | '\r' :: rest => '\n' :: uniform rest
  | '\u0085' :: rest => '\n' :: uniform rest
  | c :: rest => c :: uniform rest
  | [] => []

/-- Numbers the characters of a text from a place on. -/
def number (line column offset : Nat) : List Char → List Placed
  | [] => []
  | c :: rest =>
    ⟨c, line, column, offset⟩ ::
      if isBreak c then number (line + 1) 0 0 rest
      else number line (column + 1) (offset + c.utf8Size) rest

/-- The characters of a text with their places, if all of them may occur. -/
def places (s : List Char) : Option (List Placed) :=
  if s.all isAllowed then some (number 0 0 0 (uniform s)) else none

/-- Whether a gap or the end of the text comes next. -/
def atGap : List Placed → Bool
  | [] => true
  | p :: _ => isGap p.char

/-- Whether a line of three equal characters and then a gap comes next, as it stands between
documents. -/
def atMarker (c : Char) : List Placed → Bool
  | p :: q :: r :: rest =>
    p.column == 0 && p.char == c && q.char == c && r.char == c && atGap rest
  | _ => false

/-- Whether the start or the end of a document comes next. -/
def atBoundary (s : List Placed) : Bool := atMarker '-' s || atMarker '.' s

/-! ### Common parts -/

/-- Splits a given character off. -/
def readChar (c : Char) : List Placed → Option (List Placed)
  | p :: rest => if p.char = c then some rest else none
  | [] => none

/-- Splits a name off, which may hold nothing. -/
def readName (s : List Placed) : String × List Placed :=
  let (name, rest) := s.span (isNameChar ·.char)
  (String.ofList (name.map (·.char)), rest)

/-- The greatest number of digits in a number. -/
def longestNumber : Nat := 9

/-- Splits a number off. -/
def readNumber (s : List Placed) : Option (Nat × List Placed) :=
  let (digits, rest) := s.span (·.char.isDigit)
  if digits.isEmpty || longestNumber < digits.length then none
  else some (digits.foldl (fun n p => 10 * n + (p.char.toNat - '0'.toNat)) 0, rest)

/-- What follows the blanks in front of a text. -/
def skipSpaces (s : List Placed) : List Placed := s.dropWhile (isSpace ·.char)

/-- What follows a line on which only blanks and a comment are left. -/
def skipLine (s : List Placed) : Option (List Placed) :=
  let isComment := (skipSpaces s).head?.any (·.char == '#')
  match (skipSpaces s).dropWhile fun p => isComment && !isBreak p.char with
  | [] => some []
  | p :: rest => if isBreak p.char then some rest else none

example : (places ['a', '\r', '\n', 'b']).map (·.map fun p => (p.char, p.line, p.column)) =
    some [('a', 0, 0), ('\n', 0, 1), ('b', 1, 0)] := by decide

end TreeProtocol.Yaml
