import Shortcode.Command.Arguments
import Shortcode.Config.Load
import Shortcode.Engine
import Shortcode.Media.Manifest.Basic

/-! # Running the program

A run ends with an exit code and what goes to the standard output and the standard error. Either
it succeeds, or it neither prints a result nor writes a file. -/

namespace Shortcode.Command

structure Outcome where
  exit : UInt8 := 0
  output : Text := []
  notes : List Text := []
deriving DecidableEq, Repr

def Outcome.failed (message : Text) (notes : List Text := []) : Outcome where
  exit := 1
  notes := notes ++ ["Error: " ++ message]

def Outcome.misused (e : UsageError) : Outcome where
  exit := 2
  notes := ["error: " ++ e.message]

def versionText : Text := "sc 0.1.24\n"

def helpText : Text :=
  "Expands shortcodes.\n\n" ++
  "sc render [INPUT] [-o FILE] [-c FILE] [--disable KIND]... [--media FILE] [--base-url URL]\n" ++
  "          [--action-url URL] [-v]\n" ++
  "sc kinds [-c FILE]\n"

/-- The settings on the command line, which take precedence over the configuration file. -/
def RenderArguments.overrides (a : RenderArguments) : Config.Overrides where
  disable := a.disable
  manifest? := a.media?
  baseUrl? := a.baseUrl?
  actionUrl? := a.actionUrl?

/-- The engine of a configuration and its library. The first draw of entropy makes the token, if the
configuration has none, and the other draws make the IDs. -/
def engine (config : Config) (library? : Option MediaLibrary) (entropy : Nat → Entropy) :
    Engine where
  switches := config.switches
  ids := Ids.random fun n => entropy (n + 1)
  host :=
    { image := fun id => .ok (library?.bind (·.image? id))
      token := config.token?.getD (entropy 0).uuid
      url := config.actionUrl
      label := config.labels.resolve }

def kindLine (s : Switches) (k : Kind) : Text :=
  if s.isOn k then k.name ++ ['\n'] else k.name ++ " (disabled)\n"

section System

variable {m : Type → Type} [Monad m] [MonadSystem m]

/-- A step of a run, whose error ends it with a message. -/
def step {ε α : Type} (message : ε → Text) (x : m (Except ε α)) : ExceptT Text m α :=
  ExceptT.mk do return (← x).mapError message

def library? (config : Config) : m (Except Manifest.Error (Option MediaLibrary)) := do
  match config.manifest? with
  | some path => return (← Manifest.load path config.baseUrl).map some
  | none => return .ok none

/-- The text at a path, or of the standard input. -/
def input (path? : Option Text) : m (Except FileError Text) :=
  match path? with
  | some path => MonadSystem.readFile path
  | none => MonadSystem.readInput

def rendering (a : RenderArguments) : ExceptT Text m Rendering := do
  let config ← step Config.Error.message (Config.load a.config? (some a.overrides))
  let library? ← step Manifest.Error.message (library? config)
  let text ← step FileError.message (input a.input?)
  let entropy ← ExceptT.lift (MonadSystem.entropy (m := m))
  return (engine config library? entropy).render [] text

def warningLine (w : Warning) : Text :=
  "Warning: " ++ w.message

def render (a : RenderArguments) : m Outcome := do
  match ← (rendering a).run with
  | .error message => return .failed message
  | .ok r =>
    let warnings := r.warnings.map warningLine
    match a.output? with
    | none => return { output := r.text, notes := warnings }
    | some path =>
      match ← MonadSystem.writeFile path r.text with
      | .error e => return .failed e.message warnings
      | .ok () => return { notes := warnings ++ ["Wrote " ++ path] }

def kinds (config? : Option Text) : m Outcome := do
  match ← Config.load config? none with
  | .error e => return .failed e.message
  | .ok config => return { output := Kind.pipeline.flatMap (kindLine config.switches) }

def Request.run : Request → m Outcome
  | render a => Command.render a
  | kinds config? => Command.kinds config?
  | help => return { output := helpText }
  | version => return { output := versionText }

def run (arguments : List Text) : m Outcome := do
  match parse (← MonadSystem.environment [mediaVariable]) arguments with
  | .error e => return .misused e
  | .ok request => request.run

end System

end Shortcode.Command
