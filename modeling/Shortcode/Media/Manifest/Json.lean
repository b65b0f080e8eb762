import Shortcode.Json.Value
import Shortcode.Media.Draft

/-! # JSON manifests

A manifest is an array of records. A record is an object, or an array of its fields in order, of
which the optional ones may be left out at the end. -/

namespace Shortcode.Manifest.Json

open Shortcode.Json (Value)

def id? : Value → Option MediaId
  | .natural n => MediaId.ofNat? n
  | _ => none

def text? : Value → Option Text
  | .string text? => text?
  | _ => none

def optional? : Value → Option (Option Text)
  | .null => some none
  | v => (text? v).map some

def readers : Draft.Readers Value :=
  ⟨id?, text?, optional?⟩

/-- A draft with one more member of an object. Members with other keys are left alone. -/
def addMember? (d : Draft) (member : Option Text × Value) : Option Draft := do
  match Draft.Field.ofKey? (← member.1) with
  | some field => d.set? readers field member.2
  | none => return d

/-- A draft with the first of the given fields read from the items of an array. -/
def addItems? (d : Draft) : List Draft.Field → List Value → Option Draft
  | _, [] => some d
  | [], _ :: _ => none
  | field :: fields, item :: items => do
    addItems? (← d.set? readers field item) fields items

def record? : Value → Option MediaRecord
  | .object members => do (← members.foldlM addMember? {}).finish?
  | .array items => do (← addItems? {} Draft.Field.all items).finish?
  | _ => none

def read? (text : Text) : Option (List MediaRecord) :=
  match Shortcode.Json.read? text with
  | some (.array items) => items.mapM record?
  | _ => none

end Shortcode.Manifest.Json
