import Shortcode.Yaml.Glyph

/-! # YAML tokens

The words and marks that a text is made of. Indentation shows in tokens for the start and the end
of block sequences and mappings. -/

namespace Shortcode.Yaml

inductive Style where
  | plain
  | singleQuoted
  | doubleQuoted
  | literal
  | folded
deriving DecidableEq, Repr

/-- A tag as it is written: a handle that stands for the start of the tag, which is empty if the
tag is written in full, and the rest of the tag. -/
structure TagName where
  handle : Text
  rest : Text
deriving DecidableEq, Repr

/-- A token. The end of the text has none. -/
inductive Token where
  | version (major minor : Nat)
  | tagHandle (handle start : Text)
  | documentStart
  | documentEnd
  | blockSequenceStart
  | blockMappingStart
  | blockEnd
  | flowSequenceStart
  | flowSequenceEnd
  | flowMappingStart
  | flowMappingEnd
  | blockEntry
  | flowEntry
  | key
  | value
  | aliasOf (name : Text)
  | anchor (name : Text)
  | tag (name : TagName)
  | scalar (style : Style) (text : Text)
deriving DecidableEq, Repr

end Shortcode.Yaml
