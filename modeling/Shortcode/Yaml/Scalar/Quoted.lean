import Shortcode.Yaml.Scalar.Gap

/-! # Quoted scalars

Between single quotes a quote is written twice, and all else stands for itself. Between double
quotes a backslash starts an escape. Both may go on over lines, which are folded. -/

namespace Shortcode.Yaml.Quoted

def escaped? : Char → Option Char
  | '0' => some '\x00'
  | 'a' => some '\x07'
  | 'b' => some '\x08'
  | 't' => some '\t'
  | '\t' => some '\t'
  | 'n' => some '\n'
  | 'v' => some '\x0b'
  | 'f' => some '\x0c'
  | 'r' => some '\r'
  | 'e' => some '\x1b'
  | ' ' => some ' '
  | '"' => some '"'
  | '/' => some '/'
  | '\\' => some '\\'
  | 'N' => some '\u0085'
  | '_' => some '\u00a0'
  | 'L' => some '\u2028'
  | 'P' => some '\u2029'
  | _ => none

def before (gap : Gap) (c? : Option Char) (read : Option (Text × List Glyph)) :
    Option (Text × List Glyph) := do
  let c ← c?
  let (text, rest) ← read
  return (gap.text ++ c :: text, rest)

def single? : Gap → GlyphReader Text
  | _, [] => none
  | gap, ⟨'\'', _⟩ :: ⟨'\'', _⟩ :: rest => before gap (some '\'') (single? .none rest)
  | gap, g :: rest =>
    if isSpace g.char then single? (gap.space g.char) rest
    else if isBreak g.char then single? (gap.line g.char) rest
    else if atDocumentMarker (g :: rest) then none
    else if g.char = '\'' then some (gap.text, rest)
    else before gap (some g.char) (single? .none rest)

def double? : Gap → GlyphReader Text
  | _, [] => none
  | gap, ⟨'\\', _⟩ :: ⟨'x', _⟩ :: a :: b :: rest =>
    before gap (Text.charOfHex? (textOf [a, b])) (double? .none rest)
  | gap, ⟨'\\', _⟩ :: ⟨'u', _⟩ :: a :: b :: c :: d :: rest =>
    before gap (Text.charOfHex? (textOf [a, b, c, d])) (double? .none rest)
  | gap, ⟨'\\', _⟩ :: ⟨'U', _⟩ :: a :: b :: c :: d :: e :: f :: g :: h :: rest =>
    before gap (Text.charOfHex? (textOf [a, b, c, d, e, f, g, h])) (double? .none rest)
  | gap, ⟨'\\', _⟩ :: e :: rest =>
    if isBreak e.char then
      (double? (.lines none []) rest).map fun (text, rest) => (gap.text ++ text, rest)
    else before gap (escaped? e.char) (double? .none rest)
  | gap, g :: rest =>
    if isSpace g.char then double? (gap.space g.char) rest
    else if isBreak g.char then double? (gap.line g.char) rest
    else if atDocumentMarker (g :: rest) then none
    else if g.char = '"' then some (gap.text, rest)
    else before gap (some g.char) (double? .none rest)

end Shortcode.Yaml.Quoted
