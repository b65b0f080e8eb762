import Shortcode.Yaml.Outline
import Shortcode.Yaml.Scalar.Block
import Shortcode.Yaml.Scalar.Plain
import Shortcode.Yaml.Scalar.Quoted
import Shortcode.Yaml.Tag

/-! # The tokens of a YAML text

A text is read token by token. Between tokens stand spaces, comments and line ends. A tab may not
stand where a key may start. -/

namespace Shortcode.Yaml

/-- The characters from the next token on, and whether a key may start there. The flag says that a
comment has begun. -/
def skipGap (inFlow : Bool) : Bool → Bool → List Glyph → Bool × List Glyph
  | _, allowed, [] => (allowed, [])
  | inComment, allowed, g :: rest =>
    if isBreak g.char then skipGap inFlow false (allowed || !inFlow) rest
    else if inComment then skipGap inFlow true allowed rest
    else if g.char = '#' then skipGap inFlow true allowed rest
    else if g.char = ' ' ∨ (g.char = '\t' ∧ (inFlow ∨ !allowed)) ∨
        (g.char = '\ufeff' ∧ g.mark.column = 0) then
      skipGap inFlow false allowed rest
    else (allowed, g :: rest)

namespace Outline

def scalar? (o : Outline) (m : Mark) (style : Style) (read? : Option (Text × List Glyph)) :
    Option (Outline × List Glyph) := do
  let (text, rest) ← read?
  return (← o.word? m (.scalar style text), rest)

/-- The outline behind a plain scalar. A key may start on a line below it. -/
def plain? (o : Outline) (m : Mark) (gs : List Glyph) : Option (Outline × List Glyph) := do
  if !Plain.startsAt o.inFlow gs then none else
  let ((text, endsLine), rest) ← Plain.read? ⟨o.columns.head?.elim 0 (· + 1), o.inFlow⟩ gs
  return ((← o.word? m (.scalar .plain text)).allowKey endsLine, rest)

/-- The outline behind a block scalar, whose indicator is gone. Between brackets there is none. -/
def block? (o : Outline) (literal : Bool) (gs : List Glyph) : Option (Outline × List Glyph) := do
  if o.inFlow then none else
  let (text, rest) ← Block.read? literal o.columns.head? gs
  return (← o.blockScalar? (.scalar (if literal then .literal else .folded) text), rest)

def next? (o : Outline) : List Glyph → Option (Outline × List Glyph)
  | [] => none
  | g :: rest => do
    if g.char = '%' ∧ g.mark.column = 0 then
      let (t, rest) ← Directive.read? rest
      return (← o.topLevel? t, rest)
    else if atMarker '-' (g :: rest) then return (← o.topLevel? .documentStart, rest.drop 2)
    else if atMarker '.' (g :: rest) then return (← o.topLevel? .documentEnd, rest.drop 2)
    else match g.char with
      | '[' => return (← o.openFlow? g.mark .flowSequenceStart, rest)
      | '{' => return (← o.openFlow? g.mark .flowMappingStart, rest)
      | ']' => return (← o.closeFlow? .flowSequenceEnd, rest)
      | '}' => return (← o.closeFlow? .flowMappingEnd, rest)
      | ',' => return (← o.comma?, rest)
      | '-' =>
        if atGap rest then return (← o.hyphen? g.mark, rest) else o.plain? g.mark (g :: rest)
      | '?' =>
        if o.inFlow || atGap rest then return (← o.questionMark? g.mark, rest)
        else o.plain? g.mark (g :: rest)
      | ':' =>
        if o.inFlow || atGap rest then return (← o.colon? g.mark, rest)
        else o.plain? g.mark (g :: rest)
      | '*' =>
        let (name, rest) ← name? rest
        return (← o.word? g.mark (.aliasOf name), rest)
      | '&' =>
        let (name, rest) ← name? rest
        return (← o.word? g.mark (.anchor name), rest)
      | '!' =>
        let (name, rest) ← TagName.read? o.inFlow rest
        return (← o.word? g.mark (.tag name), rest)
      | '|' => o.block? true rest
      | '>' => o.block? false rest
      | '\'' => o.scalar? g.mark .singleQuoted (Quoted.single? .none rest)
      | '"' => o.scalar? g.mark .doubleQuoted (Quoted.double? .none rest)
      | _ => o.plain? g.mark (g :: rest)

/-- The tokens of the characters that remain. At most `bound` of them are read. -/
def tokens? : Nat → Outline → List Glyph → Option (List Token)
  | 0, _, _ => none
  | bound + 1, o, gs =>
    match skipGap o.inFlow false o.keyAllowed gs with
    | (_, []) => o.finish?
    | (allowed, g :: rest) => do
      let o ← (o.allowKey allowed).dropStale? g.mark
      let (o, rest) ← (o.closeBlocks (some g.mark.column)).next? (g :: rest)
      tokens? bound o rest

end Outline

def tokens? (text : Text) : Option (List Token) :=
  (Glyph.ofText? text).bind fun gs => Outline.tokens? (gs.length + 1) {} gs

end Shortcode.Yaml
