import Shortcode.Text.Basic

/-! # Options of a command line

The words of a command line are options and operands. An option has a long name after two hyphens
and may have a letter after one. Its value is the next word, or stands in the same word behind an
equals sign or behind the letter. Letters may share a hyphen. Behind two lone hyphens every word is
an operand. -/

namespace Shortcode.Command

inductive Opt where
  | output
  | config
  | disable
  | media
  | baseUrl
  | actionUrl
  | verbose
  | help
  | version
deriving DecidableEq, Repr

namespace Opt

def long : Opt → Text
  | output => "output"
  | config => "config"
  | disable => "disable"
  | media => "media"
  | baseUrl => "base-url"
  | actionUrl => "action-url"
  | verbose => "verbose"
  | help => "help"
  | version => "version"

def letter? : Opt → Option Char
  | output => some 'o'
  | config => some 'c'
  | verbose => some 'v'
  | help => some 'h'
  | version => some 'V'
  | _ => none

def takesValue : Opt → Bool
  | verbose => false
  | help => false
  | version => false
  | _ => true

def top : List Opt :=
  [help, version]

def render : List Opt :=
  [output, config, disable, media, baseUrl, actionUrl, verbose, help]

def kinds : List Opt :=
  [config, help]

end Opt

inductive Given where
  | flag (o : Opt)
  | value (o : Opt) (text : Text)
  | operand (text : Text)
  /-- From here on the command line makes no sense. -/
  | malformed
deriving DecidableEq, Repr

/-- Whether a word starts like an option. A lone hyphen does not. -/
def looksLikeOption (word : Text) : Bool :=
  match word with
  | '-' :: _ :: _ => true
  | _ => false

/-- The letters behind one hyphen: what they give, and the option that still lacks its value. -/
def readLetters (allowed : List Opt) : Text → List Given × Option Opt
  | [] => ([], none)
  | c :: rest =>
    match allowed.find? (·.letter? = some c) with
    | none => ([.malformed], none)
    | some o =>
      if !o.takesValue then
        let (given, o?) := readLetters allowed rest
        (.flag o :: given, o?)
      else match rest with
        | [] => ([], some o)
        | '=' :: text => ([.value o text], none)
        | text => ([.value o text], none)

def readLong (allowed : List Opt) (word : Text) : List Given × Option Opt :=
  match allowed.find? (·.long = word.takeWhile (· ≠ '=')), word.dropWhile (· ≠ '=') with
  | none, _ => ([.malformed], none)
  | some o, [] => if o.takesValue then ([], some o) else ([.flag o], none)
  | some o, _ :: text => if o.takesValue then ([.value o text], none) else ([.malformed], none)

def readOption (allowed : List Opt) (word : Text) : List Given × Option Opt :=
  match word with
  | '-' :: '-' :: name => readLong allowed name
  | _ :: letters => readLetters allowed letters
  | [] => ([.malformed], none)

/-- What words give. The option is one that lacks its value, which cannot start like an option
itself. -/
def read (allowed : List Opt) : Option Opt → List Text → List Given
  | some _, [] => [.malformed]
  | none, [] => []
  | some o, word :: rest =>
    if looksLikeOption word then [.malformed] else .value o word :: read allowed none rest
  | none, word :: rest =>
    if word = ['-', '-'] then rest.map .operand
    else if looksLikeOption word then
      (readOption allowed word).1 ++ read allowed (readOption allowed word).2 rest
    else .operand word :: read allowed none rest

end Shortcode.Command
