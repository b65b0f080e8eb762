import Shortcode.Yaml.Glyph

/-! # Gaps in scalars

Between the words of a scalar stand spaces or line ends. Spaces on one line are kept. Where the
line ends the scalar is folded: a single line end becomes a space, and of several the first one is
dropped. -/

namespace Shortcode.Yaml

/-- What stands between the last word of a scalar and the next one. -/
inductive Gap where
  | none
  | spaces (text : Text)
  /-- A line end, or none if it was escaped, and the line ends after it. -/
  | lines (first? : Option Char) (more : Text)
deriving DecidableEq, Repr

namespace Gap

def text : Gap → Text
  | none => []
  | spaces text => text
  | lines (some '\n') [] => [' ']
  | lines (some '\n') more => more
  | lines first? more => first?.toList ++ more

@[simp] theorem text_none : Gap.none.text = [] := rfl

@[simp] theorem text_spaces (text : Text) : (spaces text).text = text := rfl

/-- The gap with a space or a tab after it. Spaces at the start of a line do not count. -/
def space (c : Char) : Gap → Gap
  | none => spaces [c]
  | spaces text => spaces (text ++ [c])
  | lines first? more => lines first? more

/-- The gap with a line end after it. Spaces at the end of a line do not count. -/
def line (c : Char) : Gap → Gap
  | lines first? more => lines first? (more ++ [c])
  | _ => lines (some c) []

def isLines : Gap → Bool
  | lines _ _ => true
  | _ => false

end Gap

end Shortcode.Yaml
