import Shortcode.Yaml.Scalar.Gap

/-! # Plain scalars

A plain scalar has no quotes. It goes on over lines as long as they are indented deeper than what
surrounds it, and ends at a colon that is set off, at a comment, and between brackets at a
bracket or a comma. -/

namespace Shortcode.Yaml.Plain

/-- Where a plain scalar stands: the column from which its lines may start, and whether it is
between brackets. -/
structure Context where
  column : Nat
  inFlow : Bool

def isFlowMark (c : Char) : Bool :=
  c == ',' || c == '[' || c == ']' || c == '{' || c == '}'

def startsAt (inFlow : Bool) : List Glyph → Bool
  | [] => false
  | g :: rest =>
    if g.char = '-' then !atSpace rest
    else if g.char = '?' ∨ g.char = ':' then !inFlow && !atGap rest
    else !atGap [g] && !isFlowMark g.char && !"#&*!|>'\"%@\x60".toList.contains g.char

def endsAfter (ctx : Context) (gap : Gap) (gs : List Glyph) : Bool :=
  match gs with
  | [] => true
  | g :: _ =>
    gap ≠ .none &&
      ((!ctx.inFlow && g.mark.column < ctx.column) || g.char == '#' || atDocumentMarker gs)

def endsBefore (inFlow : Bool) (c : Char) (rest : List Glyph) : Bool :=
  (c == ':' && atGap rest) || (inFlow && isFlowMark c)

/-- Whether between brackets a colon is followed by a mark that it has to be set off from. -/
def isStray (inFlow : Bool) (c : Char) (rest : List Glyph) : Bool :=
  inFlow && c == ':' &&
    match rest with
    | g :: _ => isFlowMark g.char || g.char == '?'
    | [] => false

/-- The rest of a scalar after a gap: its text, and the gap behind it. -/
def readFrom? (ctx : Context) : Gap → GlyphReader (Text × Gap)
  | gap, [] => some (([], gap), [])
  | gap, g :: rest =>
    if isSpace g.char then
      if g.char = '\t' ∧ gap.isLines ∧ g.mark.column < ctx.column then none
      else readFrom? ctx (gap.space g.char) rest
    else if isBreak g.char then readFrom? ctx (gap.line g.char) rest
    else if endsAfter ctx gap (g :: rest) then some (([], gap), g :: rest)
    else if isStray ctx.inFlow g.char rest then none
    else if endsBefore ctx.inFlow g.char rest then some (([], gap), g :: rest)
    else (readFrom? ctx .none rest).map fun ((text, last), rest) =>
      ((gap.text ++ g.char :: text, last), rest)

/-- A scalar, and whether a line end follows it. -/
def read? (ctx : Context) : GlyphReader (Text × Bool) := fun gs =>
  (readFrom? ctx .none gs).map fun ((text, gap), rest) => ((text, gap.isLines), rest)

end Shortcode.Yaml.Plain
