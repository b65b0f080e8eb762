import Shortcode.Expansion.ContactForm
import Shortcode.Expansion.Countdown
import Shortcode.Expansion.Gallery
import Shortcode.Expansion.Panels
import Shortcode.Expansion.Plain
import Shortcode.Switches

/-! # The engine

A text passes through one stage per enabled kind, in the order of the pipeline. A stage replaces
every shortcode of its kind by its expansion and keeps everything else, and the next stage reads
the text that it leaves. -/

namespace Shortcode

def Kind.expand (k : Kind) (h : Host) (o : Occurrence) : Expansion :=
  match k with
  | .button => .button o
  | .alert => .alert o
  | .gallery => .gallery h o
  | .tabs => .tabs o
  | .accordion => .accordion o
  | .countdown => .countdown o
  | .contactForm => .contactForm h o

namespace Rendering

def start (drawn : List Text) (text : Text) : Rendering :=
  { text, drawn }

/-- A rendering with the text of another one that continues it, and the warnings and calls of
both. -/
def andThen (r s : Rendering) : Rendering :=
  { s with warnings := r.warnings ++ s.warnings, calls := r.calls ++ s.calls }

end Rendering

/-- What expands shortcodes: the switches, the host and the source of element IDs. -/
structure Engine where
  switches : Switches := {}
  host : Host
  ids : Ids

namespace Engine

def renderSegments (e : Engine) (k : Kind) : List Text → List (Segment Occurrence) → Rendering
  | drawn, [] => .start drawn []
  | drawn, .gap c :: rest =>
    let r := renderSegments e k drawn rest
    { r with text := c :: r.text }
  | drawn, .hit o :: rest =>
    let r := (k.expand e.host o).settle e.host.escape e.ids drawn
    let s := renderSegments e k r.drawn rest
    { r.andThen s with text := r.text ++ s.text }

/-- The rendering of a text by the stage of one kind, or `none` if no shortcode of the kind occurs
in it. -/
def stage? (e : Engine) (k : Kind) (drawn : List Text) (text : Text) : Option Rendering :=
  let segments := Scan.segments k.occurrence? text
  if segments.any (·.value?.isSome) then some (e.renderSegments k drawn segments) else none

def advance (e : Engine) (r : Rendering) (k : Kind) : Rendering :=
  match e.stage? k r.drawn r.text with
  | some s => r.andThen s
  | none => r

/-- The rendering of a text, where IDs with the given stems were drawn before. -/
def render (e : Engine) (drawn : List Text) (text : Text) : Rendering :=
  e.switches.enabled.foldl e.advance (.start drawn text)

end Engine

end Shortcode
