import Shortcode.Media.Draft
import Shortcode.Yaml.Aliases

/-! # YAML manifests

A manifest is a sequence of mappings, one for each record. Any scalar is a text; an ID is a plain
integer in base ten, or in another base after a mark; an optional field is unset if it is empty or a
plain null. -/

namespace Shortcode.Manifest.Yaml

open Shortcode.Yaml (Node Style Document Following)

def integerTag : Text := "tag:yaml.org,2002:int"

def nullTag : Text := "tag:yaml.org,2002:null"

def nulls : List Text :=
  ["null", "Null", "NULL", "~"]

/-- Whether a text is a decimal number with a leading zero, apart from zero itself. -/
def hasLeadingZero : Text → Bool
  | '0' :: c :: rest => (c :: rest).all fun c => (Text.digit? c).isSome
  | _ => false

def natural? (text : Text) : Option Nat :=
  match (Text.after? "+" text).getD text with
  | '0' :: 'x' :: digits => Text.numeral? 16 Text.hexDigit? digits
  | '0' :: 'o' :: digits =>
    Text.numeral? 8 (fun c => (Text.digit? c).bind fun n => if n < 8 then some n else none) digits
  | '0' :: 'b' :: digits =>
    Text.numeral? 2 (fun c => (Text.digit? c).bind fun n => if n < 2 then some n else none) digits
  | digits => if hasLeadingZero digits then none else Text.numeral? 10 Text.digit? digits

def text? : Node Nat → Option Text
  | .scalar _ _ text => some text
  | _ => none

/-- The ID that a scalar gives, which has to be plain, or literal with the tag of integers. -/
def id? : Node Nat → Option MediaId
  | .scalar p style text =>
    if style = .plain ∨ (style = .literal ∧ p.tag? = some integerTag) then
      (natural? text).bind MediaId.ofNat?
    else none
  | _ => none

def optional? : Node Nat → Option (Option Text)
  | .scalar p style text =>
    if style ≠ .plain then some (some text)
    else match p.tag? with
      | some tag =>
        if tag ≠ nullTag then some (some text)
        else if nulls.contains text then some none
        else none
      | none => if text.isEmpty || nulls.contains text then some none else some (some text)
  | _ => none

def readers : Draft.Readers (Node Nat) :=
  ⟨id?, text?, optional?⟩

/-- A draft with one more entry of a mapping. Entries with other keys are left alone. -/
def addEntry (doc : Document) (d : Draft) (entry : Node Nat × Node Nat) : Following Draft := do
  match Draft.Field.ofKey? (← text? (← doc.follow entry.1)) with
  | some field => d.set? readers field (← doc.follow entry.2)
  | none => return d

def record (doc : Document) (node : Node Nat) : Following MediaRecord := do
  match ← doc.follow node with
  | .mapping _ entries => (← entries.foldlM (addEntry doc) {}).finish?
  | _ => failure

/-- The records of a document. An empty one has none. -/
def records? (doc : Document) : Option (List MediaRecord) :=
  match doc.root with
  | .sequence _ items => doc.find? (items.mapM (record doc))
  | .scalar _ .plain [] => some []
  | _ => none

def read? (text : Text) : Option (List MediaRecord) :=
  (Shortcode.Yaml.read? text).bind fun root => records? (.ofRoot root)

end Shortcode.Manifest.Yaml
