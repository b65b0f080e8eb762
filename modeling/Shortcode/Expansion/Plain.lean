import Shortcode.Expansion.Basic

/-! # Buttons and alerts

The two kinds that draw no ID. A button escapes its label, since a label is text; an alert passes
its body through, since the body may hold markup. -/

namespace Shortcode.Expansion

def button (o : Occurrence) : Expansion :=
  let a := Attributes.parse o.raw
  let size := a.getD "size" ""
  .plain <| List.flatten [
    [r#"<a href=""#, .value (a.getD "url" "#"), r#"" class="btn btn-"#,
      .value (a.getD "style" "primary")],
    if size.isEmpty then [] else [" btn-", .value size],
    [.className (a.getD "class" ""), r#"" target=""#, .value (a.getD "target" "_self"), r#"">"#,
      .value (Text.trim o.body), "</a>"]]

def dismissControl : Markup.Piece :=
  r#"<button type="button" class="btn-close" data-bs-dismiss="alert" aria-label="Close"></button>"#

/-- A box around its body. It can be dismissed unless an attribute says other than `true`. -/
def alert (o : Occurrence) : Expansion :=
  let a := Attributes.parse o.raw
  let dismissible := a.getD "dismissible" "true" == ("true" : Text)
  .plain <| List.flatten [
    [r#"<div class="alert alert-"#, .value (a.getD "type" "info")],
    if dismissible then [" alert-dismissible fade show"] else [],
    [.className (a.getD "class" ""), r#"" role="alert">"#, .body (Text.trim o.body)],
    if dismissible then [dismissControl] else [],
    ["</div>"]]

end Shortcode.Expansion
