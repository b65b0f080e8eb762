import Shortcode.Config.Settings
import Shortcode.System

/-! # Loading configurations

A configuration comes from the file at a given path, or else from the nearest file of the standard
name in the working directory and the directories above it, or else it is the default one.
Overriding settings are put into it afterwards. A configuration from a file is checked before and
after that. -/

namespace Shortcode.Config

def fileName : Text :=
  "sc.toml"

def expand (env : Environment) (field : Field) (text : Text) : Except Error Text :=
  (env.expand text).mapError (.unset field)

def readKinds (names : List Text) : Except Error (List Kind) :=
  names.mapM fun name => (Kind.read name).mapError fun _ => .unknownShortcode name

/-- The configuration that the settings of a file make. The path of the manifest is seen from the
directory of the file. -/
def ofSettings (env : Environment) (path : Text) (s : Settings) : Except Error Config := do
  let baseUrl ← expand env .baseUrl s.baseUrl
  let actionUrl ← expand env .actionUrl s.actionUrl
  let token ← expand env .token s.token
  let disabled ← readKinds s.disable
  validate
    { switches := s.switches.disable disabled
      manifest? := s.manifest?.map (Path.join ((Path.parent? path).getD "."))
      baseUrl, actionUrl, token
      labels := s.labels
      path? := some path }

def readSettings (text : Text) : Except Error Settings :=
  match Settings.read? text with
  | some s => .ok s
  | none => .error .malformed

def mentioned (s : Settings) : List Text :=
  [s.baseUrl, s.actionUrl, s.token].flatMap Environment.names

def finish (overrides? : Option Overrides) (c : Config) : Except Error Config :=
  match overrides? with
  | some o => (c.override o).validate
  | none => .ok c

/-- The paths at which a configuration file is searched for from a directory. -/
def candidates (directory : Place) : List Text :=
  (Path.ancestors directory).map fun names => Path.absolute (names ++ [fileName])

section System

variable {m : Type → Type} [Monad m] [MonadSystem m]

def firstPresent? : List Text → m (Option Text)
  | [] => return none
  | path :: rest => do
    if ← MonadSystem.isPresent path then return some path else firstPresent? rest

/-- The path of the configuration file, if there is one. A path that is asked for has to lead to
something. -/
def locate (path? : Option Text) : m (Except Error (Option Text)) := do
  match path? with
  | some path =>
    if ← MonadSystem.isPresent path then return .ok (some path)
    else return .error (.notFound path)
  | none => return .ok (← firstPresent? (candidates (← MonadSystem.workingDirectory)))

def ofFile (path : Text) : m (Except Error Config) := do
  match (← MonadSystem.readFile path).mapError Error.file >>= readSettings with
  | .error e => return .error e
  | .ok s => return ofSettings (← MonadSystem.environment (mentioned s)) path s

def load (path? : Option Text) (overrides? : Option Overrides) : m (Except Error Config) := do
  match ← locate path? with
  | .error e => return .error e
  | .ok none => return finish overrides? {}
  | .ok (some path) => return (← ofFile path) >>= finish overrides?

end System

end Shortcode.Config
