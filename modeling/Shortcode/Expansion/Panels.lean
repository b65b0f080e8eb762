import Shortcode.Expansion.Basic

/-! # Tabs and accordions

Both turn the children of a container into toggles and panels, of which the first is shown. The
title of a child is escaped and its body is passed through. The panels are numbered from zero, and
a toggle names its panel by the ID of the widget and the number. -/

namespace Shortcode.Expansion

def number (i : Nat) : Markup.Piece :=
  .literal (Text.decimal i)

def numbered (item : Nat → Child → Markup.Template) (children : List Child) : Markup.Template :=
  (children.zipIdx.map fun (child, i) => item i child).flatten

def tabToggle (i : Nat) (child : Child) : Markup.Template :=
  [r#"<li class="nav-item" role="presentation"><button class="nav-link"#,
    if i = 0 then " active" else "",
    r#"" id=""#, .id, "-tab-", number i, r##"-tab" data-bs-toggle="tab" data-bs-target="#"##,
    .id, "-tab-", number i, r#"" type="button" role="tab">"#, .value child.title,
    "</button></li>"]

def tabPane (i : Nat) (child : Child) : Markup.Template :=
  [r#"<div class="tab-pane fade"#, if i = 0 then " active show" else "",
    r#"" id=""#, .id, "-tab-", number i, r#"" role="tabpanel">"#, .body child.body, "</div>"]

/-- Toggles in a row above their panes, or a warning if there is no tab. -/
def tabs (o : Occurrence) : Expansion :=
  match o.children "tab" with
  | [] => .warning .noTabs
  | children =>
    .widget "tabs"
      (List.flatten [
        [r#"<div class="content-shortcodes-tabs"#,
          .className ((Attributes.parse o.raw).getD "class" ""),
          r#""><ul class="nav nav-tabs" id=""#, .id, r#"-nav" role="tablist">"#],
        numbered tabToggle children,
        [r#"</ul><div class="tab-content" id=""#, .id, r#"-content">"#],
        numbered tabPane children,
        ["</div></div>"]])
      []

def accordionItem (i : Nat) (child : Child) : Markup.Template :=
  [r#"<div class="accordion-item"><h2 class="accordion-header" id="heading-"#,
    .id, "-item-", number i, r#""><button class="accordion-button"#,
    if i = 0 then "" else " collapsed",
    r##"" type="button" data-bs-toggle="collapse" data-bs-target="#"##,
    .id, "-item-", number i, r#"">"#, .value child.title,
    r#"</button></h2><div id=""#, .id, "-item-", number i,
    r#"" class="accordion-collapse collapse"#, if i = 0 then " show" else "",
    r##"" data-bs-parent="#"##, .id, r#""><div class="accordion-body">"#, .body child.body,
    "</div></div></div>"]

/-- Panels below their headings, or a warning if there is no item. -/
def accordion (o : Occurrence) : Expansion :=
  match o.children "item" with
  | [] => .warning .noItems
  | children =>
    .widget "accordion"
      (List.flatten [
        [r#"<div class="content-shortcodes-accordion accordion"#,
          .className ((Attributes.parse o.raw).getD "class" ""), r#"" id=""#, .id, r#"">"#],
        numbered accordionItem children,
        ["</div>"]])
      []

end Shortcode.Expansion
