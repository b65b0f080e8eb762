import Shortcode.Text.Blank

/-! # Kinds of shortcodes

The seven kinds, their names and the order in which they are expanded. -/

namespace Shortcode

inductive Kind where
  | button
  | alert
  | gallery
  | tabs
  | accordion
  | countdown
  | contactForm
deriving DecidableEq, Repr

namespace Kind

/-- The kinds in the order in which they are expanded. Buttons come before alerts, so that a
button inside an alert is markup by the time the alert is read. -/
def pipeline : List Kind :=
  [button, alert, gallery, tabs, accordion, countdown, contactForm]

theorem mem_pipeline (k : Kind) : k ∈ pipeline := by
  cases k <;> decide

/-- The name of a kind, which is also the keyword of its tag. -/
def name : Kind → Text
  | button => "button"
  | alert => "alert"
  | gallery => "gallery"
  | tabs => "tabs"
  | accordion => "accordion"
  | countdown => "countdown"
  | contactForm => "contact_form"

def index (k : Kind) : Nat :=
  pipeline.idxOf k

/-- The kind with the name `text`, where blanks around it, its ASCII case and a hyphen for an
underscore do not count. -/
def ofText? (text : Text) : Option Kind :=
  let spelled := ((Text.trim text).toLower).map fun c => if c = '-' then '_' else c
  pipeline.find? (·.name = spelled)

theorem ofText?_name (k : Kind) : ofText? k.name = some k := by
  cases k <;> decide

end Kind

/-- A name that no kind has, as it was written. -/
structure UnknownKind where
  written : Text
deriving DecidableEq, Repr

def UnknownKind.message (e : UnknownKind) : Text :=
  "unknown shortcode kind: " ++ e.written

def Kind.read (text : Text) : Except UnknownKind Kind :=
  match ofText? text with
  | some k => .ok k
  | none => .error ⟨text⟩

end Shortcode
