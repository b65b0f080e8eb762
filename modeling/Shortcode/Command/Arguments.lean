import Shortcode.Command.Options
import Shortcode.Environment
import Shortcode.Kind

/-! # Arguments of the program

The program renders a text or lists the kinds. What is given is taken from left to right: the first
thing that makes no sense spoils the command line, unless help was asked for before it. -/

namespace Shortcode.Command

structure RenderArguments where
  /-- The path of the text, which otherwise is the standard input. -/
  input? : Option Text := none
  /-- The path for the result, which otherwise goes to the standard output. -/
  output? : Option Text := none
  config? : Option Text := none
  disable : List Kind := []
  media? : Option Text := none
  baseUrl? : Option Text := none
  actionUrl? : Option Text := none
  /-- Asks for a log of the run, which is no part of its outcome here. -/
  verbose : Bool := false
deriving DecidableEq, Repr

inductive Request where
  | render (a : RenderArguments)
  | kinds (config? : Option Text)
  | help
  | version
deriving DecidableEq, Repr

inductive UsageError where
  | noCommand
  | unknownCommand (name : Text)
  /-- An option is unknown, lacks its value or has one that it does not take. -/
  | malformed
  | repeated
  | emptyPath
  | unknownKind (e : UnknownKind)
deriving DecidableEq, Repr

def UsageError.message : UsageError → Text
  | noCommand => "a command is required: render or kinds"
  | unknownCommand name => "unknown command: " ++ name
  | malformed => "unexpected option or missing value"
  | repeated => "an argument is given more than once"
  | emptyPath => "a path is empty"
  | unknownKind e => e.message

/-- The value of what has none yet. -/
def once {α : Type} (old? : Option α) (new : α) : Except UsageError (Option α) :=
  match old? with
  | none => .ok (some new)
  | some _ => .error .repeated

def oncePath (old? : Option Text) (path : Text) : Except UsageError (Option Text) :=
  if path.isEmpty then .error .emptyPath else once old? path

def kind (name : Text) : Except UsageError Kind :=
  (Kind.read name).mapError .unknownKind

/-- Takes what is given until it is complete or help is asked for. -/
def takeAll {α : Type} (make : α → Request) (take : α → Given → Except UsageError α) :
    α → List Given → Except UsageError Request
  | a, [] => .ok (make a)
  | _, .flag .help :: _ => .ok .help
  | a, g :: rest => do takeAll make take (← take a g) rest

namespace RenderArguments

def take (a : RenderArguments) : Given → Except UsageError RenderArguments
  | .operand path => do return { a with input? := ← oncePath a.input? path }
  | .value .output path => do return { a with output? := ← oncePath a.output? path }
  | .value .config path => do return { a with config? := ← oncePath a.config? path }
  | .value .media path => do return { a with media? := ← oncePath a.media? path }
  | .value .baseUrl url => do return { a with baseUrl? := ← once a.baseUrl? url }
  | .value .actionUrl url => do return { a with actionUrl? := ← once a.actionUrl? url }
  | .value .disable name => do return { a with disable := a.disable ++ [← kind name] }
  | .flag .verbose => if a.verbose then .error .repeated else .ok { a with verbose := true }
  | _ => .error .malformed

end RenderArguments

def takeKinds (config? : Option Text) : Given → Except UsageError (Option Text)
  | .value .config path => oncePath config? path
  | _ => .error .malformed

/-- The environment variable that stands in for the path of the media manifest. -/
def mediaVariable : Text := "SC_MEDIA"

/-- The request with what the environment gives and the command line does not. -/
def Request.complete (env : Environment) : Request → Except UsageError Request
  | render a =>
    match a.media?, env mediaVariable with
    | none, some path => do return .render { a with media? := ← oncePath none path }
    | _, _ => .ok (.render a)
  | request => .ok request

def commands : List Text :=
  ["render", "kinds", "help"]

/-- The request for help that names follow, of which there is at most that of a command. -/
def parseHelp : List Text → Except UsageError Request
  | [] => .ok .help
  | [name] => if commands.contains name then .ok .help else .error (.unknownCommand name)
  | _ :: name :: _ => .error (.unknownCommand name)

def parse (env : Environment) : List Text → Except UsageError Request
  | [] => .error .noCommand
  | name :: rest => do
    if looksLikeOption name then
      match (readOption Opt.top name).1 with
      | .flag .version :: _ => return .version
      | .flag .help :: _ => return .help
      | _ => throw .malformed
    else if name = "render" then
      (← takeAll .render RenderArguments.take {} (read Opt.render none rest)).complete env
    else if name = "kinds" then takeAll .kinds takeKinds none (read Opt.kinds none rest)
    else if name = "help" then parseHelp rest
    else throw (.unknownCommand name)

end Shortcode.Command
