import TreeProtocol.Yaml.Place

/-!
# Block scalars

Texts that are marked off by nothing but their indentation. Every line belongs to the text as it
is; the first one may show how far the lines are indented, or a digit behind the mark says it. In a
folded text, the line end between two lines is folded into a blank unless one of them begins with a
blank, and every further one is kept. The line ends behind the last line are a matter of their own.
-/

namespace TreeProtocol.Yaml

/-- What becomes of the line ends behind the last line. -/
inductive Chomping where
  /-- None is kept. -/
  | strip
  /-- One is kept. -/
  | clip
  /-- All are kept. -/
  | keep
  deriving DecidableEq

/-- How a block scalar is to be read. -/
structure BlockForm where
  isFolded : Bool
  chomping : Chomping
  /-- The column of the lines. -/
  indent : Nat

namespace BlockForm

/-! ### The line with the mark -/

/-- The sign of what becomes of the line ends. -/
def chomping? : Char → Option Chomping
  | '-' => some .strip
  | '+' => some .keep
  | _ => none

/-- Splits off the sign of what becomes of the line ends, if it is there. -/
def readChomping (s : List Placed) : Option Chomping × List Placed :=
  match s.head?.bind (chomping? ·.char) with
  | some c => (some c, s.tail)
  | none => (none, s)

/-- Splits off the digit that says how far the lines are indented, if it is there. Fails at a
zero. -/
def readStep (s : List Placed) : Option (Option Nat × List Placed) :=
  match s with
  | p :: rest =>
    if p.char = '0' then none
    else if p.char.isDigit then some (some (p.char.toNat - '0'.toNat), rest)
    else some (none, s)
  | [] => some (none, s)

/-- How far the spaces in front of the first word go, but `least` at least. Fails if a tab stands
there. -/
def foundIndent (least : Nat) : List Placed → Option Nat
  | [] => some least
  | p :: rest =>
    if p.char = '\t' then none
    else if p.char = ' ' then foundIndent (max least (p.column + 1)) rest
    else if isBreak p.char then foundIndent least rest
    else some least

/-- Splits off the line behind the mark. The two signs on it come in either order. `outer` is the
column of the block collection around the scalar. -/
def read (isFolded : Bool) (outer : Option Nat) (s : List Placed) :
    Option (BlockForm × List Placed) := do
  let (first, s) := readChomping s
  let (step, s) ← readStep s
  let (second, s) := if first.isNone then readChomping s else (none, s)
  let chomping := (first.or second).getD .clip
  let s ← skipLine s
  match step with
  | some n => some (⟨isFolded, chomping, outer.getD 0 + n⟩, s)
  | none =>
    let least := outer.elim 1 (· + 1)
    some (⟨isFolded, chomping, ← foundIndent least s⟩, s)

end BlockForm

/-! ### The text -/

/-- What stands between two lines of a block scalar with words. -/
structure Turn where
  /-- The end of the line before. -/
  lineEnd : Option Char := none
  /-- The further line ends. -/
  breaks : List Char := []
  /-- Whether the line before begins with a blank. -/
  isSpaced : Bool := false

namespace Turn

/-- What a turn comes to in the text, in front of a line that may begin with a blank. -/
def text (t : Turn) (isFolded isSpaced : Bool) : List Char :=
  if isFolded && t.lineEnd == some '\n' && !t.isSpaced && !isSpaced then
    if t.breaks.isEmpty then [' '] else t.breaks
  else t.lineEnd.toList ++ t.breaks

/-- What a turn comes to at the end of the text. -/
def lastText (t : Turn) : Chomping → List Char
  | .strip => []
  | .clip => t.lineEnd.toList
  | .keep => t.lineEnd.toList ++ t.breaks

end Turn

/-- How far the reading of a block scalar is. -/
inductive BlockState where
  /-- In front of the first word of a line. -/
  | margin (turn : Turn)
  /-- In a line, which may begin with a blank. -/
  | line (isSpaced : Bool)

/-- Splits off what remains of a block scalar. Fails at a tab in the indentation. -/
def splitBlock (form : BlockForm) : BlockState → List Placed → Option (List Char × List Placed)
  | .margin turn, [] => some (turn.lastText form.chomping, [])
  | .line _, [] => some ([], [])
  | .margin turn, p :: rest =>
    if isBreak p.char then
      splitBlock form (.margin { turn with breaks := turn.breaks ++ [p.char] }) rest
    else if p.column < form.indent then
      if p.char = ' ' then splitBlock form (.margin turn) rest
      else if p.char = '\t' then none
      else some (turn.lastText form.chomping, p :: rest)
    else
      let isSpaced := isSpace p.char
      prepend (turn.text form.isFolded isSpaced ++ [p.char]) (splitBlock form (.line isSpaced) rest)
  | .line isSpaced, p :: rest =>
    if isBreak p.char then splitBlock form (.margin ⟨some p.char, [], isSpaced⟩) rest
    else prepend [p.char] (splitBlock form (.line isSpaced) rest)
where
  /-- More text in front. -/
  prepend (front : List Char) : Option (List Char × List Placed) → Option (List Char × List Placed)
    | some (text, rest) => some (front ++ text, rest)
    | none => none

/-- Splits off a block scalar behind its mark, inside a block collection at a column. -/
def readBlock (isFolded : Bool) (outer : Option Nat) (s : List Placed) :
    Option (List Char × List Placed) := do
  let (form, s) ← BlockForm.read isFolded outer s
  splitBlock form (.margin {}) s

/-- The block scalar that a text holds behind its mark. -/
def blockText (isFolded : Bool) (s : String) : Option String :=
  ((places s.toList).bind (readBlock isFolded none)).map fun (text, _) => String.ofList text

example : blockText false "\n  a\n   b\n\n" = some "a\n b\n" := by decide +kernel
example : blockText true "-\n  a\n  b\n\n  c\n" = some "a b\nc" := by decide +kernel
example : blockText true "+1 # c\n a\n  b\n c\n\n" = some "a\n b\nc\n\n" := by decide +kernel
example : blockText false "0\n a\n" = none := by decide +kernel
example : blockText false "\n   " = some "" := by decide +kernel

end TreeProtocol.Yaml
