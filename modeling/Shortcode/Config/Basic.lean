import Shortcode.Environment
import Shortcode.Config.Labels
import Shortcode.Files.Error
import Shortcode.Switches

/-! # Configurations

The settings of a run, the ways in which obtaining them fails, and the checks that every
configuration in use has passed. -/

namespace Shortcode

structure Config where
  switches : Switches := {}
  manifest? : Option Text := none
  baseUrl : Text := []
  actionUrl : Text := []
  /-- The token of contact forms; an empty one counts as none. -/
  token : Text := []
  labels : Labels := {}
  /-- The path of the file that the settings come from. -/
  path? : Option Text := none
deriving DecidableEq, Repr

namespace Config

def token? (c : Config) : Option Text :=
  if c.token.isEmpty then none else some c.token

/-- A setting whose value may refer to environment variables. -/
inductive Field where
  | baseUrl
  | actionUrl
  | token
deriving DecidableEq, Repr

def Field.name : Field → Text
  | baseUrl => "media.base_url"
  | actionUrl => "contact_form.action_url"
  | token => "contact_form.token"

inductive Fault where
  | baseUrl
  | emptyLabel (l : FormLabel)
deriving DecidableEq, Repr

def Fault.message : Fault → Text
  | baseUrl => Field.baseUrl.name ++ " must start with http://, https:// or /"
  | emptyLabel l => "contact_form.labels." ++ l.key ++ " cannot be empty"

inductive Error where
  | notFound (path : Text)
  | file (e : FileError)
  /-- The file is no TOML document, or a setting in it has the wrong type. -/
  | malformed
  | fault (f : Fault)
  | unset (field : Field) (e : Environment.Unset)
  | unknownShortcode (name : Text)
deriving DecidableEq, Repr

/-- The message of an error. What is wrong with a malformed file is left out. -/
def Error.message : Error → Text
  | notFound path => "Configuration file not found: " ++ path
  | file e => "I/O error: " ++ e.message
  | malformed => "TOML parse error"
  | fault f => "Configuration error: " ++ f.message
  | unset field e => "Environment variable error in " ++ field.name ++ ": " ++ e.message
  | unknownShortcode name => "Unknown shortcode in shortcodes.disable: " ++ name

def urlBeginnings : List Text :=
  ["http://", "https://", "/"]

def isAcceptedUrl (url : Text) : Bool :=
  url.isEmpty || urlBeginnings.any (·.isPrefixOf url)

/-- The first fault of a configuration: its base URL comes before its labels. -/
def fault? (c : Config) : Option Fault :=
  if ! isAcceptedUrl c.baseUrl then some .baseUrl else c.labels.firstEmpty?.map .emptyLabel

def validate (c : Config) : Except Error Config :=
  match c.fault? with
  | some f => .error (.fault f)
  | none => .ok c

/-- Settings that take precedence over the configuration file. -/
structure Overrides where
  disable : List Kind := []
  manifest? : Option Text := none
  baseUrl? : Option Text := none
  actionUrl? : Option Text := none
deriving DecidableEq, Repr

def override (c : Config) (o : Overrides) : Config :=
  { c with
    switches := c.switches.disable o.disable
    manifest? := o.manifest?.or c.manifest?
    baseUrl := o.baseUrl?.getD c.baseUrl
    actionUrl := o.actionUrl?.getD c.actionUrl }

end Config

end Shortcode
