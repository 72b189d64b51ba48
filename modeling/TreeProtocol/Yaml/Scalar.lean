import TreeProtocol.Json.Reader
import TreeProtocol.Yaml.Place

/-!
# Scalars

The texts in a YAML document: plain ones, which end where the layout or an indicator ends them, and
ones between single or double quotation marks. A scalar may go over several lines; the line end
between two of its lines is folded into a blank, and every further one is kept. Texts marked off by
their indentation have a module of their own.
-/

namespace TreeProtocol.Yaml

/-- How a scalar is written. -/
inductive Style where
  | plain
  | quoted
  /-- Marked off by indentation, with its line ends. -/
  | literal
  /-- Marked off by indentation, with its line ends folded. -/
  | folded
  deriving DecidableEq, Inhabited

/-! ### Gaps inside a scalar -/

/-- What stands between two words of a scalar: blanks on one line, or line ends. -/
structure Gap where
  spaces : List Char := []
  breaks : List Char := []
  /-- Whether the first line end was escaped, so that it does not count. -/
  escaped : Bool := false

namespace Gap

/-- Whether a line ends in the gap. -/
def isBroken (g : Gap) : Bool := g.escaped || !g.breaks.isEmpty

/-- Whether the gap holds nothing. -/
def isEmpty (g : Gap) : Bool := !g.isBroken && g.spaces.isEmpty

/-- The gap with one more character; a blank counts only before the first line end. -/
def push (g : Gap) (c : Char) : Gap :=
  if isBreak c then { g with spaces := [], breaks := g.breaks ++ [c] }
  else if g.isBroken then g
  else { g with spaces := g.spaces ++ [c] }

/-- What a gap comes to in the text of a scalar. -/
def folded (g : Gap) : List Char :=
  if g.escaped then g.breaks
  else match g.breaks with
    | [] => g.spaces
    | ['\n'] => [' ']
    | '\n' :: more => more
    | breaks => breaks

example : (((({} : Gap).push ' ').push '\n').push ' ').folded = [' '] := by decide
example : ((({} : Gap).push '\n').push '\n').folded = ['\n'] := by decide

end Gap

/-! ### Plain scalars -/

/-- The brackets and the comma of flow collections. -/
def isFlowMark (c : Char) : Bool := c == ',' || c == '[' || c == ']' || c == '\x7b' || c == '\x7d'

/-- The other characters that mean something where a word begins. A dash, a question mark and a
colon do so only in front of a gap. -/
def isIndicator (c : Char) : Bool :=
  ['#', '&', '*', '!', '|', '>', '\'', '"', '%', '@', '\u0060'].contains c

/-- A plain scalar with what follows it. -/
structure PlainScalar where
  text : List Char
  /-- Whether a line ends between the scalar and what follows it. -/
  isBroken : Bool
  rest : List Placed

/-- One more character in front of a plain scalar. -/
def PlainScalar.prepend (front : List Char) (s : PlainScalar) : PlainScalar :=
  { s with text := front ++ s.text }

/-- Whether a plain scalar ends before the word that comes next, behind a gap. -/
def endsBehindGap (indent : Nat) (inFlow : Bool) (gap : Gap) (s : List Placed) : Bool :=
  match s with
  | [] => true
  | p :: _ => atBoundary s || p.char == '#' || (gap.isBroken && !inFlow && p.column < indent)

/-- Whether a plain scalar ends inside a word: before a colon with a gap behind it, and in a flow
collection before its marks. -/
def endsInWord (inFlow : Bool) : List Placed → Bool
  | [] => true
  | p :: rest => (p.char == ':' && atGap rest) || (inFlow && isFlowMark p.char)

/-- Whether a colon stands where a flow collection does not allow one in a plain scalar. -/
def hasStrayColon (inFlow : Bool) : List Placed → Bool
  | p :: q :: _ => inFlow && p.char == ':' && (isFlowMark q.char || q.char == '?')
  | _ => false

/-- Splits off what remains of a plain scalar whose lines are indented to at least `indent`, behind
a gap. Fails at a stray colon, and at a tab in the indentation. -/
def splitPlain (indent : Nat) (inFlow : Bool) (gap : Gap) : List Placed → Option PlainScalar
  | [] => some ⟨[], gap.isBroken, []⟩
  | p :: rest =>
    if isGap p.char then
      if p.char == '\t' && gap.isBroken && p.column < indent then none
      else splitPlain indent inFlow (gap.push p.char) rest
    else if !gap.isEmpty && endsBehindGap indent inFlow gap (p :: rest) then
      some ⟨[], gap.isBroken, p :: rest⟩
    else if hasStrayColon inFlow (p :: rest) then none
    else if endsInWord inFlow (p :: rest) then some ⟨[], gap.isBroken, p :: rest⟩
    else (splitPlain indent inFlow {} rest).map (·.prepend (gap.folded ++ [p.char]))

/-! ### Quoted scalars -/

/-- The quotation mark around a scalar. -/
inductive Quote where
  | single
  | double
  deriving DecidableEq

/-- A quotation mark as a character. -/
def Quote.char : Quote → Char
  | .single => '\''
  | .double => '"'

/-- What a character behind a backslash stands for. -/
def unescape? : Char → Option Char
  | '0' => some '\x00'
  | 'a' => some '\x07'
  | 'b' => some '\x08'
  | 't' => some '\t'
  | '\t' => some '\t'
  | 'n' => some '\n'
  | 'v' => some '\x0b'
  | 'f' => some '\x0c'
  | 'r' => some '\r'
  | 'e' => some '\x1b'
  | ' ' => some ' '
  | '"' => some '"'
  | '/' => some '/'
  | '\\' => some '\\'
  | 'N' => some '\u0085'
  | '_' => some '\u00a0'
  | 'L' => some '\u2028'
  | 'P' => some '\u2029'
  | _ => none

/-- The number of hexadecimal digits that follow a character behind a backslash. -/
def escapeLength? : Char → Option Nat
  | 'x' => some 2
  | 'u' => some 4
  | 'U' => some 8
  | _ => none

/-- The character of a number, if there is one. -/
def charOf? (n : Nat) : Option Char :=
  if n < 0xd800 ∨ (0xdfff < n ∧ n < 0x110000) then some (Char.ofNat n) else none

/-- How far the reading of a quoted scalar is inside a word. -/
inductive QuotedState where
  /-- Anywhere. -/
  | open
  /-- Behind a backslash. -/
  | escape
  /-- Inside a character number, with so many digits to come. -/
  | digits (left value : Nat)
  /-- Behind a single quotation mark, which a second one would make part of the text. -/
  | mark

/-- Splits off what remains of a quoted scalar. Fails if it is not closed before the end of the
document, or at an escape that means nothing. -/
def splitQuoted (quote : Quote) : QuotedState → Gap → List Placed → Option (List Char × List Placed)
  | .mark, _, [] => some ([], [])
  | _, _, [] => none
  | .mark, gap, p :: rest =>
    if p.char = quote.char then prepend [p.char] (splitQuoted quote .open gap rest)
    else some ([], p :: rest)
  | .escape, _, p :: rest =>
    if isBreak p.char then splitQuoted quote .open { escaped := true } rest
    else match unescape? p.char, escapeLength? p.char with
      | some c, _ => prepend [c] (splitQuoted quote .open {} rest)
      | none, some n => splitQuoted quote (.digits n 0) {} rest
      | none, none => none
  | .digits left value, gap, p :: rest =>
    match Json.hexDigit? p.char with
    | none => none
    | some d =>
      let value := 16 * value + d
      if left ≤ 1 then
        match charOf? value with
        | some c => prepend [c] (splitQuoted quote .open gap rest)
        | none => none
      else splitQuoted quote (.digits (left - 1) value) gap rest
  | .open, gap, p :: rest =>
    if isGap p.char then splitQuoted quote .open (gap.push p.char) rest
    else if atBoundary (p :: rest) then none
    else if p.char = quote.char then
      match quote with
      | .single => prepend gap.folded (splitQuoted quote .mark {} rest)
      | .double => some (gap.folded, rest)
    else if p.char = '\\' ∧ quote = .double then
      prepend gap.folded (splitQuoted quote .escape {} rest)
    else prepend (gap.folded ++ [p.char]) (splitQuoted quote .open {} rest)
where
  /-- More text in front. -/
  prepend (front : List Char) : Option (List Char × List Placed) → Option (List Char × List Placed)
    | some (text, rest) => some (front ++ text, rest)
    | none => none

/-- Splits off a quoted scalar behind its opening quotation mark. -/
def readQuoted (quote : Quote) (s : List Placed) : Option (List Char × List Placed) :=
  splitQuoted quote .open {} s

/-- The quoted scalar that a text holds behind its opening quotation mark. -/
def quotedText (quote : Quote) (s : String) : Option String :=
  ((places s.toList).bind (readQuoted quote)).map fun (text, _) => String.ofList text

example : quotedText .single "it''s'" = some "it's" := by decide +kernel
example : quotedText .double "a\\u00e9 \n  b\"" = some "aé b" := by decide +kernel
example : quotedText .double "a \\\n  b\"" = some "a b" := by decide +kernel
example : quotedText .double "\\ud800\"" = none := by decide +kernel

end TreeProtocol.Yaml
