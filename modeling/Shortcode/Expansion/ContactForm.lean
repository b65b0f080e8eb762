import Shortcode.Expansion.Basic

/-! # Contact forms

A form that is posted to the URL of the request, with a token of the host among its hidden
fields. -/

namespace Shortcode.Expansion

def hidden (name value : Markup.Piece) : Markup.Template :=
  [r#"<input type="hidden" name=""#, name, r#"" value=""#, value, r#"">"#]

def hiddenUnlessEmpty (name : String) (value : Text) : Markup.Template :=
  if value.isEmpty then [] else hidden name (.value value)

/-- A labelled field. The input is its markup from the element name on, up to the ID, and from
there to its end. -/
def labelled (field : String) (label : Text) (opening closing : String) : Markup.Template :=
  [r#"<div class="mb-3"><label for=""#, .id, "-", field, r#"" class="form-label">"#, .value label,
    " *</label>", opening, r#" class="form-control" id=""#, .id, "-", field, r#"" name=""#, field,
    closing, "</div>"]

def contactForm (h : Host) (o : Occurrence) : Expansion :=
  let a := Attributes.parse o.raw
  .ofAsked "contact-form" do
    let opening : Markup.Template :=
      [r#"<form id=""#, .id, r#"" class="content-shortcodes-contact-form"#,
        .className (a.getD "class" ""), r#"" method="post" action=""#, .value (← h.askUrl), r#"">"#]
    let token := hidden (.value (← h.askToken)) "1"
    let name := labelled "name" (← h.askLabel .name) r#"<input type="text""# r#"" required>"#
    let email := labelled "email" (← h.askLabel .email) r#"<input type="email""# r#"" required>"#
    let message := labelled "message" (← h.askLabel .message) "<textarea"
      r#"" rows="5" required></textarea>"#
    let closing : Markup.Template :=
      [r#"<button type="submit" class="btn btn-primary">"#, .value (← h.askLabel .send),
        "</button></form>"]
    return List.flatten [opening,
      hidden "task" "contactform.submit",
      hidden "form_id" .id,
      token,
      hiddenUnlessEmpty "to_email" (a.getD "email" ""),
      hiddenUnlessEmpty "subject" (a.getD "subject" "Contact Form Submission"),
      hiddenUnlessEmpty "redirect" (a.getD "redirect" ""),
      name, email, message, closing]

end Shortcode.Expansion
