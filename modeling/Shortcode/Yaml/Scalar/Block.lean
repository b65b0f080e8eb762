import Shortcode.Yaml.Scalar.Gap

/-! # Block scalars

A block scalar holds the indented lines below its header. A literal one keeps the line ends, a
folded one joins lines that do not start with a space. The header says what becomes of the line
ends behind the last line. -/

namespace Shortcode.Yaml.Block

/-- What becomes of the line ends behind the last line. -/
inductive Chomping where
  | strip
  | clip
  | keep
deriving DecidableEq, Repr

/-- The header of a block scalar: the indentation that it gives relative to its surroundings is
zero if it leaves it open. -/
structure Header where
  chomping : Chomping := .clip
  indentation : Nat := 0
deriving DecidableEq, Repr

def chomping? : Char → Option Chomping
  | '-' => some .strip
  | '+' => some .keep
  | _ => none

/-- The signs of a header at the start of a text: a sign for the chomping and a digit for the
indentation, both optional and in any order. -/
def signs : List Glyph → Header × List Glyph
  | [] => ({}, [])
  | g :: rest =>
    match chomping? g.char, Text.digit? g.char, rest with
    | some chomping, _, g' :: rest =>
      match Text.digit? g'.char with
      | some indentation => (⟨chomping, indentation⟩, rest)
      | none => (⟨chomping, 0⟩, g' :: rest)
    | some chomping, _, [] => (⟨chomping, 0⟩, [])
    | none, some indentation, g' :: rest =>
      match chomping? g'.char with
      | some chomping => (⟨chomping, indentation⟩, rest)
      | none => (⟨.clip, indentation⟩, g' :: rest)
    | none, some indentation, [] => (⟨.clip, indentation⟩, [])
    | none, none, rest => ({}, g :: rest)

def writesZero (gs : List Glyph) : Bool :=
  match textOf (gs.take 2) with
  | '0' :: _ => true
  | [c, '0'] => (chomping? c).isSome
  | _ => false

/-- The column of the lines of a scalar that is found from the lines themselves: the widest of the
empty lines at the start and of the first other line, but at least `least`. -/
def findColumn? (least : Nat) : List Glyph → Option Nat
  | [] => some least
  | g :: rest =>
    if g.char = ' ' then findColumn? least rest
    else if g.char = '\t' then none
    else if isBreak g.char then findColumn? (max least g.mark.column) rest
    else some (max least g.mark.column)

/-- What stands between two lines of a scalar: the line end of the last one, the line ends after
it, and whether the last line starts with a space. -/
structure Break where
  last : Text := []
  more : Text := []
  afterSpace : Bool := false
deriving DecidableEq, Repr

def Break.text (literal startsWithSpace : Bool) (b : Break) : Text :=
  if !literal && !b.afterSpace && !startsWithSpace && b.last == ['\n'] then
    (Gap.lines (some '\n') b.more).text
  else b.last ++ b.more

def Break.tail (chomping : Chomping) (b : Break) : Text :=
  match chomping with
  | .strip => []
  | .clip => b.last
  | .keep => b.last ++ b.more

structure Layout where
  literal : Bool
  chomping : Chomping
  column : Nat

/-- The lines of a scalar: inside a line if there is no break, otherwise behind it. The flag says
whether the line starts with a space. -/
def lines? (l : Layout) : Bool → Option Break → GlyphReader Text
  | _, none, [] => some (Break.tail l.chomping {}, [])
  | _, some b, [] => some (b.tail l.chomping, [])
  | spaced, none, g :: rest =>
    if isBreak g.char then lines? l spaced (some ⟨[g.char], [], spaced⟩) rest
    else (lines? l spaced none rest).map fun (text, rest) => (g.char :: text, rest)
  | spaced, some b, g :: rest =>
    if g.mark.column < l.column ∧ g.char = ' ' then lines? l spaced (some b) rest
    else if g.mark.column < l.column ∧ g.char = '\t' then none
    else if isBreak g.char then lines? l spaced (some { b with more := b.more ++ [g.char] }) rest
    else if g.mark.column = l.column then
      (lines? l (isSpace g.char) none rest).map fun (text, rest) =>
        (b.text l.literal (isSpace g.char) ++ g.char :: text, rest)
    else some (b.tail l.chomping, g :: rest)

/-- A scalar behind its indicator, in surroundings whose entries start at `outer?`. -/
def read? (literal : Bool) (outer? : Option Nat) : GlyphReader Text := fun gs => do
  if writesZero gs then none else
  let (header, rest) := signs gs
  let rest ← afterLine? rest
  let column ←
    if header.indentation = 0 then findColumn? (max 1 (outer?.elim 0 (· + 1))) rest
    else some (outer?.getD 0 + header.indentation)
  lines? ⟨literal, header.chomping, column⟩ false (some {}) rest

end Shortcode.Yaml.Block
