import Shortcode.Text.Blank
import Shortcode.Text.Folding
import Shortcode.Kind
import Shortcode.Scan

/-! # Tags

The grammar of shortcodes. An opening tag is a bracket, a keyword and either the closing bracket
or blanks and raw attributes up to the first closing bracket. What may follow it depends on the
shape of the kind: nothing, a body without an opening bracket, or a body that reaches to the first
closing tag. Keywords are compared under case folding. -/

namespace Shortcode

namespace Tag

def opening? (keyword : Text) : Reader Text := fun text =>
  match Text.afterFolded? ('[' :: keyword) text with
  | some (']' :: rest) => some ([], rest)
  | some (c :: rest) =>
    if Text.isBlank c then
      let attributes := Text.trimStart rest
      match attributes.dropWhile (· ≠ ']') with
      | _ :: rest' => some (attributes.takeWhile (· ≠ ']'), rest')
      | [] => none
    else none
  | _ => none

def afterClosing? (keyword : Text) (text : Text) : Option Text :=
  Text.afterFolded? ('[' :: '/' :: (keyword ++ [']'])) text

/-- A body without an opening bracket, up to a closing tag. -/
def bracketFree? (keyword : Text) : Reader Text := fun text =>
  (afterClosing? keyword (text.dropWhile (· ≠ '['))).map (text.takeWhile (· ≠ '['), ·)

/-- A body that ends at the first closing tag. -/
def upToClosing? (keyword : Text) : Reader Text
  | [] => none
  | c :: text =>
    match afterClosing? keyword (c :: text) with
    | some rest => some ([], rest)
    | none => (upToClosing? keyword text).map fun (body, rest) => (c :: body, rest)

end Tag

inductive Shape where
  | lone
  | leaf
  /-- A body with children, whose tags have the keyword `child`. -/
  | container (child : Text)
deriving DecidableEq, Repr

def Kind.shape : Kind → Shape
  | .button => .leaf
  | .alert => .leaf
  | .gallery => .lone
  | .tabs => .container "tab"
  | .accordion => .container "item"
  | .countdown => .lone
  | .contactForm => .lone

/-- A shortcode in a text: its raw attributes and its body, which is empty where the kind has
none. -/
structure Occurrence where
  raw : Text
  body : Text
deriving DecidableEq, Repr

def Kind.occurrence? (k : Kind) : Reader Occurrence := fun text => do
  let (raw, rest) ← Tag.opening? k.name text
  match k.shape with
  | .lone => return (⟨raw, []⟩, rest)
  | .leaf =>
    let (body, rest) ← Tag.bracketFree? k.name rest
    return (⟨raw, body⟩, rest)
  | .container _ =>
    let (body, rest) ← Tag.upToClosing? k.name rest
    return (⟨raw, body⟩, rest)

structure Child where
  title : Text
  body : Text
deriving DecidableEq, Repr

namespace Child

/-- The title and the rest of the text behind the opening tag of a child. The tag holds a title
and nothing else, and the title is not empty. -/
def opening? (keyword : Text) : Reader Text := fun text =>
  match Text.afterFolded? ('[' :: keyword) text with
  | some (c :: rest) =>
    if Text.isBlank c then
      match Text.afterFolded? "title=\"" (Text.trimStart rest) with
      | some value =>
        match value.takeWhile (· ≠ '"'), value.dropWhile (· ≠ '"') with
        | c :: title, '"' :: ']' :: rest' => some (c :: title, rest')
        | _, _ => none
      | none => none
    else none
  | _ => none

def read? (keyword : Text) : Reader Child := fun text => do
  let (title, rest) ← opening? keyword text
  let (body, rest) ← Tag.upToClosing? keyword rest
  return (⟨title, body⟩, rest)

end Child

/-- The children in the body of an occurrence, from left to right. A child is not searched for
further children. -/
def Occurrence.children (o : Occurrence) (keyword : Text) : List Child :=
  Scan.hits (Child.read? keyword) o.body

end Shortcode
