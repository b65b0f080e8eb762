import Shortcode.Expansion.Basic

/-! # Galleries

A gallery names its images by ID, separated by commas. Every piece that is not blank is looked up,
once per repetition; an ID without an image leaves no trace in the markup. -/

namespace Shortcode.Expansion

/-- The image IDs of a list: its pieces between commas, trimmed, without the blank ones. -/
def imageIds (images : Text) : List Text :=
  ((images.splitOn ',').map Text.trim).filter (! ·.isEmpty)

def galleryItem (image : Image) : Markup.Template :=
  List.flatten [
    [r#"<div class="gallery-item"><img src=""#, .value image.url, r#"" alt=""#, .value image.alt,
      r#"" class="img-fluid">"#],
    if image.caption.isEmpty then []
    else [r#"<div class="gallery-caption">"#, .value image.caption, "</div>"],
    ["</div>"]]

def galleryMarkup (a : Attributes) (images : List Image) : Markup.Template :=
  List.flatten [
    [r#"<div id=""#, .id, r#"" class="content-shortcodes-gallery gallery-"#,
      .value (a.getD "layout" "grid"), .className (a.getD "class" ""),
      r#"" data-columns=""#, .value (a.getD "columns" "3"), r#"">"#],
    images.flatMap galleryItem,
    ["</div>"]]

/-- The images of a list, or a warning if the list is not given. -/
def gallery (h : Host) (o : Occurrence) : Expansion :=
  let a := Attributes.parse o.raw
  let images := a.getD "images" ""
  if images.isEmpty then .warning .noImages
  else
    .ofAsked "gallery" do
      let found ← h.askImages (imageIds images)
      return galleryMarkup a found

theorem gallery_eq (h : Host) (o : Occurrence) :
    gallery h o =
      let a := Attributes.parse o.raw
      let images := a.getD "images" ""
      if images.isEmpty then .warning .noImages
      else
        .widget "gallery" (galleryMarkup a ((imageIds images).filterMap h.image?))
          ((imageIds images).map .image) := by
  simp [gallery, Host.askImages_eq, Expansion.ofAsked, bind, pure]

end Shortcode.Expansion
