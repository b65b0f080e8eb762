import Shortcode.Attributes
import Shortcode.Host
import Shortcode.Ids
import Shortcode.Markup.Template
import Shortcode.Tag.Basic

/-! # Expansions

What a shortcode becomes: a warning, plain markup, or a widget with an element ID of its own. An
expansion is settled by an escaper and a source of IDs, which gives its markup together with the
warnings and the calls that it makes. -/

namespace Shortcode

inductive Warning where
  | noImages
  | noTabs
  | noItems
  | noDate
deriving DecidableEq, Repr

def Warning.message : Warning → Text
  | noImages => "Gallery shortcode: No images specified"
  | noTabs => "Tabs shortcode: No valid tabs found"
  | noItems => "Accordion shortcode: No valid items found"
  | noDate => "Countdown shortcode: No date specified"

def Warning.block (w : Warning) : Text :=
  "<div class=\"alert alert-warning\">" ++ w.message ++ "</div>"

inductive Expansion where
  | warning (w : Warning)
  | plain (markup : Markup.Template)
  /-- Markup around an ID with the given stem, and the calls that follow the drawing of it. -/
  | widget (stem : Text) (markup : Markup.Template) (calls : List Call)
deriving DecidableEq, Repr

/-- Markup around an ID, which is drawn before the questions for the markup are asked. -/
def Expansion.ofAsked (stem : Text) (markup : Asked Markup.Template) : Expansion :=
  .widget stem markup.answer markup.calls

/-- The outcome of expanding: the text, the warnings and calls in their order, and the stems of
all IDs drawn so far, latest first. -/
structure Rendering where
  text : Text
  warnings : List Warning := []
  calls : List Call := []
  drawn : List Text
deriving DecidableEq, Repr

def Expansion.settle (escape : Text → Text) (ids : Ids) (drawn : List Text) : Expansion → Rendering
  | warning w => { text := w.block, warnings := [w], drawn }
  | plain markup => { text := markup.fill escape [], drawn }
  | widget stem markup calls =>
    { text := markup.fill escape (ids.next drawn stem)
      calls := .id stem :: calls
      drawn := stem :: drawn }

end Shortcode
