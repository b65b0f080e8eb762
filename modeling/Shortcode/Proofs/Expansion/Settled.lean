import Shortcode.Engine

/-! # Settled expansions

Every expansion fills a template: a warning fills one without slots, and only a widget draws an
element ID, whose stem its kind fixes. -/

namespace Shortcode

namespace Expansion

/-- The template of an expansion. The block of a warning is a literal. -/
def template : Expansion → Markup.Template
  | warning w => [.literal w.block]
  | plain markup => markup
  | widget _ markup _ => markup

/-- The stem of the ID that an expansion draws. -/
def stem? : Expansion → Option Text
  | widget stem _ _ => some stem
  | _ => none

/-- The ID that an expansion draws, and the empty text if it draws none. -/
def id (ids : Ids) (drawn : List Text) (x : Expansion) : Text :=
  (x.stem?.map (ids.next drawn)).getD []

@[simp] theorem template_ofAsked (stem : Text) (markup : Asked Markup.Template) :
    (ofAsked stem markup).template = markup.answer := rfl

variable (escape : Text → Text) (ids : Ids) (drawn : List Text) (x : Expansion)

theorem settle_text : (x.settle escape ids drawn).text = x.template.fill escape (x.id ids drawn) := by
  cases x with
  | warning w => exact (List.append_nil _).symm
  | plain markup => rfl
  | widget stem markup calls => rfl

theorem settle_drawn : (x.settle escape ids drawn).drawn = x.stem?.toList ++ drawn := by
  cases x <;> rfl

end Expansion

/-- The stem of the IDs of a kind's widgets. -/
def Kind.stem : Kind → Text
  | .contactForm => "contact-form"
  | k => k.name

theorem Kind.stem?_expand {k : Kind} {h : Host} {o : Occurrence} {stem : Text}
    (hx : (k.expand h o).stem? = some stem) : stem = k.stem := by
  cases k with
  | button => cases hx
  | alert => cases hx
  | gallery =>
    simp only [expand, Expansion.gallery_eq, Expansion.galleryMarkup] at hx
    split at hx <;> cases hx
    rfl
  | tabs =>
    simp only [expand, Expansion.tabs] at hx
    split at hx <;> cases hx
    rfl
  | accordion =>
    simp only [expand, Expansion.accordion] at hx
    split at hx <;> cases hx
    rfl
  | countdown =>
    simp only [expand, Expansion.countdown] at hx
    split at hx <;> cases hx
    rfl
  | contactForm =>
    cases hx
    rfl

end Shortcode
