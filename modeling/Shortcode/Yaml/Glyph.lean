import Shortcode.Scan

/-! # Characters of a YAML text

Indentation makes the position of a character matter, so a text is read as a list of characters
with their positions. Line ends of every spelling are one line feed there, except for the line and
paragraph separators, which stay what they are. -/

namespace Shortcode.Yaml

/-- A position: the number of bytes that the text before it takes in UTF-8, and its line and column
from zero. -/
structure Mark where
  offset : Nat := 0
  line : Nat := 0
  column : Nat := 0
deriving DecidableEq, Repr

structure Glyph where
  char : Char
  mark : Mark
deriving DecidableEq, Repr

def isBreak (c : Char) : Bool :=
  c == '\n' || c == '\r' || c == '\u0085' || c == '\u2028' || c == '\u2029'

def isSpace (c : Char) : Bool :=
  c == ' ' || c == '\t'

/-- Whether a character may stand in a text. Of the controls these are the tab and the line
ends. -/
def isPermitted (c : Char) : Bool :=
  c == '\t' || c == '\n' || c == '\r' || (' ' ≤ c && c ≤ '~') || c == '\u0085' ||
    ('\u00a0' ≤ c && c ≤ '\ufffd') || 0x10000 ≤ c.toNat

def isNameChar (c : Char) : Bool :=
  Text.isWordChar c || c == '-'

namespace Mark

def next (m : Mark) (c : Char) : Mark :=
  ⟨m.offset + c.utf8Size, m.line, m.column + 1⟩

def nextLine (m : Mark) (size : Nat) : Mark :=
  ⟨m.offset + size, m.line + 1, 0⟩

end Mark

def Glyph.ofTextAt : Mark → Text → List Glyph
  | _, [] => []
  | m, '\r' :: '\n' :: text => ⟨'\n', m⟩ :: ofTextAt (m.nextLine 2) text
  | m, c :: text =>
    if c = '\u2028' ∨ c = '\u2029' then ⟨c, m⟩ :: ofTextAt (m.nextLine c.utf8Size) text
    else if isBreak c then ⟨'\n', m⟩ :: ofTextAt (m.nextLine c.utf8Size) text
    else ⟨c, m⟩ :: ofTextAt (m.next c) text

/-- The characters of a text, unless one of them may not stand in a text. -/
def Glyph.ofText? (text : Text) : Option (List Glyph) :=
  if text.all isPermitted then some (ofTextAt {} text) else none

abbrev GlyphReader (α : Type) := List Glyph → Option (α × List Glyph)

def atGap : List Glyph → Bool
  | [] => true
  | g :: _ => isSpace g.char || isBreak g.char

def atLineEnd : List Glyph → Bool
  | [] => true
  | g :: _ => isBreak g.char

def atSpace : List Glyph → Bool
  | [] => false
  | g :: _ => isSpace g.char

/-- Whether a line starts here with a character that is written three times and set off. -/
def atMarker (c : Char) : List Glyph → Bool
  | ⟨c₁, m⟩ :: ⟨c₂, _⟩ :: ⟨c₃, _⟩ :: rest =>
    m.column == 0 && c₁ == c && c₂ == c && c₃ == c && atGap rest
  | _ => false

def atDocumentMarker (gs : List Glyph) : Bool :=
  atMarker '-' gs || atMarker '.' gs

def textOf (gs : List Glyph) : Text :=
  gs.map Glyph.char

def dropChars (p : Char → Bool) (gs : List Glyph) : List Glyph :=
  gs.dropWhile fun g => p g.char

def takeChars (p : Char → Bool) (gs : List Glyph) : Text :=
  textOf (gs.takeWhile fun g => p g.char)

def dropComment : List Glyph → List Glyph
  | ⟨'#', m⟩ :: rest => dropChars (! isBreak ·) (⟨'#', m⟩ :: rest)
  | gs => gs

def afterLine? (gs : List Glyph) : Option (List Glyph) :=
  match dropComment (dropChars isSpace gs) with
  | [] => some []
  | g :: rest => if isBreak g.char then some rest else none

end Shortcode.Yaml
