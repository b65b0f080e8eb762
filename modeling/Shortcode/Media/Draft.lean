import Shortcode.Media.Record

/-! # Drafts of media records

A record is read from a manifest field by field. A field may be given once, and a record is
complete when its ID, name and path are given. -/

namespace Shortcode

/-- The fields of a record that have been read. An optional field may be given as unset. -/
structure Draft where
  id? : Option MediaId := none
  name? : Option Text := none
  path? : Option Text := none
  altText? : Option (Option Text) := none
  caption? : Option (Option Text) := none
deriving DecidableEq, Repr

namespace Draft

inductive Field where
  | id
  | name
  | path
  | altText
  | caption
deriving DecidableEq, Repr

def Field.all : List Field :=
  [id, name, path, altText, caption]

def Field.key : Field → Text
  | id => "id"
  | name => "name"
  | path => "path"
  | altText => "alt_text"
  | caption => "caption"

def Field.ofKey? (key : Text) : Option Field :=
  all.find? (·.key = key)

/-- How the values of a manifest are read as the values of fields. -/
structure Readers (α : Type) where
  id? : α → Option MediaId
  text? : α → Option Text
  optional? : α → Option (Option Text)

/-- The value of a field that has none yet. -/
def fill? {α : Type} (old : Option α) (new : Option α) : Option (Option α) :=
  match old with
  | none => new.map some
  | some _ => none

def set? {α : Type} (r : Readers α) (d : Draft) (f : Field) (v : α) : Option Draft :=
  match f with
  | .id => (fill? d.id? (r.id? v)).map fun id? => { d with id? }
  | .name => (fill? d.name? (r.text? v)).map fun name? => { d with name? }
  | .path => (fill? d.path? (r.text? v)).map fun path? => { d with path? }
  | .altText => (fill? d.altText? (r.optional? v)).map fun altText? => { d with altText? }
  | .caption => (fill? d.caption? (r.optional? v)).map fun caption? => { d with caption? }

def finish? (d : Draft) : Option MediaRecord := do
  return {
    id := ← d.id?
    name := ← d.name?
    path := ← d.path?
    altText? := d.altText?.join
    caption? := d.caption?.join }

end Draft

end Shortcode
