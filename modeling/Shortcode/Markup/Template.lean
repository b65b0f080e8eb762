import Shortcode.Markup.Escape

/-! # Templates

Markup with slots. A template says where supplied values, passed-through bodies and the element ID
of a widget go; filling it needs an escaper and the ID. -/

namespace Shortcode.Markup

inductive Piece where
  | literal (text : Text)
  /-- A supplied value, which is escaped. -/
  | value (text : Text)
  /-- A further name in a class list. It is escaped and set off by a space, and left out if its
  escaped form is empty. -/
  | className (text : Text)
  /-- A body that is passed through as it is. -/
  | body (text : Text)
  | id
deriving DecidableEq, Repr

instance : Coe String Piece where
  coe s := .literal s

/-- Markup with slots: its pieces in order. -/
abbrev Template := List Piece

def Piece.fill (escape : Text → Text) (id : Text) : Piece → Text
  | literal text => text
  | value text => escape text
  | className text => if (escape text).isEmpty then [] else ' ' :: escape text
  | body text => text
  | .id => id

def Template.fill (escape : Text → Text) (id : Text) (t : Template) : Text :=
  t.flatMap (Piece.fill escape id)

end Shortcode.Markup
