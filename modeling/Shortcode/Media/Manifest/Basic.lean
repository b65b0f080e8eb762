import Shortcode.Media.Library
import Shortcode.Media.Manifest.Json
import Shortcode.Media.Manifest.Yaml
import Shortcode.System

/-! # Manifests

A manifest is a file with the records of a media library. Its format is taken from the extension of
its path before it is read. -/

namespace Shortcode.Manifest

inductive Format where
  | yaml
  | json
deriving DecidableEq, Repr

def Format.name : Format → Text
  | yaml => "YAML"
  | json => "JSON"

/-- The format of the file at a path. The case of the extension does not count. -/
def Format.ofPath? (path : Text) : Option Format :=
  match (Path.extension? path).map Text.toLower with
  | some extension =>
    if extension = "yaml" ∨ extension = "yml" then some yaml
    else if extension = "json" then some json
    else none
  | none => none

inductive Error where
  | file (e : FileError)
  | malformed (format : Format)
  | unsupported (path : Text)
  | repeated (e : RepeatedId)
deriving DecidableEq, Repr

def Error.message : Error → Text
  | file e => "I/O error: " ++ e.message
  | malformed format => "Invalid " ++ format.name ++ " manifest"
  | unsupported path => "Unsupported manifest format: " ++ path
  | repeated e => e.message

/-- The records of a text in a format. Blanks around a YAML text do not count, also where they
indent its first line. -/
def records? : Format → Text → Option (List MediaRecord)
  | .yaml, text => Yaml.read? (Text.trim text)
  | .json, text => Json.read? text

def parse (format : Format) (baseUrl text : Text) : Except Error MediaLibrary :=
  match records? format text with
  | none => .error (.malformed format)
  | some records => (MediaLibrary.ofRecords baseUrl records).mapError .repeated

def load {m : Type → Type} [Monad m] [MonadSystem m] (path baseUrl : Text) :
    m (Except Error MediaLibrary) := do
  match Format.ofPath? path with
  | none => return .error (.unsupported path)
  | some format =>
    match ← MonadSystem.readFile path with
    | .error e => return .error (.file e)
    | .ok text => return parse format baseUrl text

end Shortcode.Manifest
