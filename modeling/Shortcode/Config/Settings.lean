import Shortcode.Config.Basic
import Shortcode.Toml.Document

/-! # Settings files

What a TOML document says about the configuration. Settings that are missing have their defaults
and unknown ones are ignored, but a setting of the wrong type makes the whole document malformed.
A group of settings may also be written as an array of its values in their order. -/

namespace Shortcode

/-- The settings of a file as they are written. -/
structure Settings where
  switches : Switches := {}
  disable : List Text := []
  manifest? : Option Text := none
  baseUrl : Text := []
  actionUrl : Text := []
  token : Text := []
  labels : Labels := {}
deriving DecidableEq, Repr

namespace Settings

open Toml (Value Entries)

def fits (bits : Nat) : Int → Bool
  | .ofNat n => n < Nat.pow 2 bits
  | .negSucc n => n < Nat.pow 2 (bits - 1)

/-- Whether every number in an ignored value can be read: integers fit into a word and
floating-point numbers do not overflow. -/
def isReadable (bits : Nat) : Value → Bool
  | .integer n => fits bits n
  | .float overflows => ! overflows
  | .array items => all items
  | .table _ entries => allEntries entries
  | .tables items => allTables items
  | _ => true
where
  all : List Value → Bool
    | [] => true
    | v :: vs => isReadable bits v && all vs
  allEntries : List (Text × Value) → Bool
    | [] => true
    | (_, v) :: rest => isReadable bits v && allEntries rest
  allTables : List (List (Text × Value)) → Bool
    | [] => true
    | t :: ts => allEntries t && allTables ts

def isIgnorable (v : Value) : Bool :=
  isReadable 128 v

def isIgnorableSwitch (v : Value) : Bool :=
  isReadable 64 v

/-- The settings with one of them read into a field. -/
abbrev Setter (α : Type) := α → Value → Option α

def text {α : Type} (set : α → Text → α) : Setter α
  | a, .string t => some (set a t)
  | _, _ => none

/-- The settings of a group, read into `a` by the setters of its fields. -/
def group {α : Type} (fields : List (Text × Setter α)) (a : α) : Value → Option α
  | .table _ entries => fromEntries entries a
  | .array items => fromItems fields items a
  | .tables items => fromItems fields (items.map (.table .header)) a
  | .datetime => some a
  | _ => none
where
  fromEntries : Entries → α → Option α
    | [], a => some a
    | (key, v) :: rest, a =>
      match fields.lookup key with
      | some set => (set a v).bind (fromEntries rest)
      | none => if isIgnorable v then fromEntries rest a else none
  fromItems : List (Text × Setter α) → List Value → α → Option α
    | (_, set) :: fields, v :: vs, a => (set a v).bind (fromItems fields vs)
    | _, _, a => some a

def setLabels : Setter Settings := fun s v =>
  let field (l : FormLabel) : Text × Setter Labels := (l.key, text fun ls t => ls.set l t)
  (group (FormLabel.all.map field) {} v).map fun labels => { s with labels }

def setMedia : Setter Settings :=
  group [("manifest", text fun s t => { s with manifest? := some t }),
    ("base_url", text fun s t => { s with baseUrl := t })]

def setContactForm : Setter Settings :=
  group [("action_url", text fun s t => { s with actionUrl := t }),
    ("token", text fun s t => { s with token := t }),
    ("labels", setLabels)]

def texts? : List Value → Option (List Text)
  | [] => some []
  | .string t :: rest => (texts? rest).map (t :: ·)
  | _ :: _ => none

def setShortcodes : Setter Settings
  | s, .table _ entries => fromEntries entries s
  | s, .datetime => some s
  | _, _ => none
where
  fromEntries : Entries → Settings → Option Settings
    | [], s => some s
    | (key, v) :: rest, s =>
      if key = "disable" then
        match v with
        | .array items =>
          (texts? items).bind fun disable => fromEntries rest { s with disable }
        | _ => none
      else
        match Switches.ofLabel? key, v with
        | some k, .boolean on => fromEntries rest { s with switches := s.switches.set k on }
        | some _, _ => none
        | none, v => if isIgnorableSwitch v then fromEntries rest s else none

def ofEntries? (root : Entries) : Option Settings :=
  group [("shortcodes", setShortcodes), ("media", setMedia), ("contact_form", setContactForm)] {}
    (.table .header root)

def read? (text : Text) : Option Settings :=
  (Toml.read? text).bind ofEntries?

end Settings

end Shortcode
