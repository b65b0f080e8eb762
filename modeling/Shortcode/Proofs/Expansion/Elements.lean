import Shortcode.Proofs.Markup.Tree
import Shortcode.Proofs.Text.Words

/-! # Alerts and galleries as elements

What an alert and a gallery become, as trees of markup. The items of a gallery are read back from its
container: escaped values end neither the attributes nor the captions that they stand in. -/

namespace Shortcode

/-! ### Alerts as elements -/

namespace Expansion

open Markup

def dismissNode : Node :=
  .element "button"
    ⟨[("type", "button"), ("class", "btn-close"), ("data-bs-dismiss", "alert"),
      ("aria-label", "Close")]⟩ []

/-- The element of an alert. Its classes and whether it has the control that dismisses it come from
the attributes. -/
def alertNode (escape : Text → Text) (a : Attributes) (content : Text) : Node :=
  let dismissible := a.getD "dismissible" "true" == ("true" : Text)
  .element "div"
    ⟨[("class", "alert alert-" ++ escape (a.getD "type" "info") ++
        (if dismissible then " alert-dismissible fade show" else "") ++
        (Piece.className (a.getD "class" "")).fill escape []), ("role", "alert")]⟩
    (.text content :: if dismissible then [dismissNode] else [])

/-- An alert is written as its element. -/
theorem alert_settle (escape : Text → Text) (ids : Ids) (drawn : List Text) (o : Occurrence) :
    (alert o).settle escape ids drawn =
      .start drawn (alertNode escape (Attributes.parse o.raw) (Text.trim o.body)).write := by
  refine congrArg (Rendering.start drawn) ?_
  simp only [alertNode, dismissNode, dismissControl]
  generalize Text.trim o.body = content
  generalize Attributes.parse o.raw = a
  generalize a.getD "type" "info" = kind
  generalize a.getD "class" "" = name
  generalize (a.getD "dismissible" "true" == ("true" : Text)) = dismissible
  cases dismissible
  all_goals
    simp only [if_true, Template.fill, Node.write, Node.writeAll, List.flatten_cons,
      List.flatten_nil, List.flatMap_append, List.flatMap_cons, List.flatMap_nil, Attributes.write,
      List.append_assoc, List.cons_append, List.nil_append, List.append_nil]
    generalize (Piece.className name).fill escape [] = classes
    simp only [Piece.fill]
    repeat rw [String.toList_ofList]
    cbv

end Expansion

/-! ### Galleries as elements -/

/-- An image as a gallery shows it. -/
structure Shown where
  source : Text
  alt : Text
  caption : Option Text
deriving DecidableEq, Repr

namespace Shown

open Markup

/-- The values of an image are escaped, and an empty caption is left out. -/
def ofImage (escape : Text → Text) (image : Image) : Shown where
  source := escape image.url
  alt := escape image.alt
  caption := if image.caption = [] then none else some (escape image.caption)

def captionNode (caption : Text) : Node :=
  .element "div" ⟨[("class", "gallery-caption")]⟩ [.text caption]

def node (s : Shown) : Node :=
  .element "div" ⟨[("class", "gallery-item")]⟩
    (.text ("<img src=\"" ++ s.source ++ "\" alt=\"" ++ s.alt ++ "\" class=\"img-fluid\">") ::
      s.caption.toList.map captionNode)

/-- No value ends the attribute or the text that it stands in. -/
def Fits (s : Shown) : Prop :=
  '"' ∉ s.source ∧ '"' ∉ s.alt ∧ ∀ caption ∈ s.caption, '<' ∉ caption

end Shown

namespace Expansion

open Markup

/-- The container of a gallery. -/
def galleryNode (escape : Text → Text) (id : Text) (a : Attributes) (items : List Shown) : Node :=
  .element "div"
    ⟨[("id", id), ("class", "content-shortcodes-gallery gallery-" ++ escape (a.getD "layout" "grid") ++
        (Piece.className (a.getD "class" "")).fill escape []),
      ("data-columns", escape (a.getD "columns" "3"))]⟩
    (items.map Shown.node)

theorem galleryItem_fill (escape : Text → Text) (id : Text) (image : Image) :
    Template.fill escape id (galleryItem image) = (Shown.ofImage escape image).node.write := by
  obtain ⟨name, url, alt, caption⟩ := image
  cases caption
  all_goals
    simp only [galleryItem, Shown.ofImage, Shown.node, Shown.captionNode, List.isEmpty_nil,
      List.isEmpty_cons, reduceCtorEq, if_true, if_false, Bool.false_eq_true, Option.toList_none,
      Option.toList_some, List.map_nil, List.map_cons, Template.fill, Node.write, Node.writeAll,
      List.flatten_cons, List.flatten_nil, List.flatMap_cons, List.flatMap_nil,
      Attributes.write, List.append_assoc, List.cons_append, List.nil_append, List.append_nil]
    simp only [Piece.fill]
    repeat rw [String.toList_ofList]
    cbv

theorem galleryItems_fill (escape : Text → Text) (id : Text) (images : List Image) :
    Template.fill escape id (images.flatMap galleryItem) =
      Node.writeAll ((images.map (Shown.ofImage escape)).map Shown.node) := by
  induction images with
  | nil => rfl
  | cons image images ih =>
    rw [List.flatMap_cons, List.map_cons, List.map_cons, Node.writeAll, ← ih, ← galleryItem_fill]
    exact List.flatMap_append

/-- A gallery with a list is written as its container. -/
theorem gallery_settle (h : Host) (ids : Ids) (drawn : List Text) {o : Occurrence} {images : Text}
    (himages : (Attributes.parse o.raw).getD "images" "" = images) (hgiven : images ≠ []) :
    (gallery h o).settle h.escape ids drawn =
      { text := (galleryNode h.escape (ids.next drawn "gallery") (Attributes.parse o.raw)
          (((imageIds images).filterMap h.image?).map (Shown.ofImage h.escape))).write
        warnings := []
        calls := .id "gallery" :: (imageIds images).map .image
        drawn := "gallery" :: drawn } := by
  have hempty : ¬ images.isEmpty = true := by rwa [List.isEmpty_iff]
  have hitems := galleryItems_fill h.escape (ids.next drawn "gallery")
    ((imageIds images).filterMap h.image?)
  simp only [gallery_eq, galleryMarkup, himages, if_neg hempty, settle, Rendering.mk.injEq, and_true, galleryNode]
  generalize (imageIds images).filterMap h.image? = found at hitems ⊢
  generalize (Attributes.parse o.raw).getD "layout" "grid" = layout
  generalize (Attributes.parse o.raw).getD "class" "" = name
  generalize (Attributes.parse o.raw).getD "columns" "3" = columns
  generalize ids.next drawn "gallery" = id at hitems ⊢
  rw [Template.fill] at hitems
  simp only [Template.fill, List.flatten_cons, List.flatten_nil, List.flatMap_append, hitems,
    Node.write, Attributes.write, List.flatMap_cons, List.flatMap_nil, List.append_assoc,
    List.cons_append, List.nil_append, List.append_nil]
  generalize Node.writeAll _ = items
  simp only [Piece.fill]
  generalize (if (h.escape name).isEmpty then [] else ' ' :: h.escape name) = classes
  repeat rw [String.toList_ofList]
  cbv

end Expansion

/-! ### Containers read back -/

namespace Shown

open Markup

theorem captionNode_write (caption rest : Text) :
    (captionNode caption).write ++ rest =
      "<div class=\"gallery-caption\">" ++ (caption ++ '<' :: ("/div>" ++ rest)) := by
  simp only [captionNode, Node.write, Node.writeAll, Attributes.write, List.flatMap_cons,
    List.flatMap_nil, List.append_assoc, List.cons_append, List.nil_append, List.append_nil]
  repeat rw [String.toList_ofList]
  cbv

theorem node_write (s : Shown) (rest : Text) :
    s.node.write ++ rest =
      "<div class=\"gallery-item\"><img src=\"" ++ (s.source ++ '"' :: (" alt=\"" ++ (s.alt ++
        '"' :: (" class=\"img-fluid\">" ++ (Node.writeAll (s.caption.toList.map captionNode) ++
          ("</div>" ++ rest)))))) := by
  simp only [node, Node.write, Node.writeAll, Attributes.write, List.flatMap_cons,
    List.flatMap_nil, List.append_assoc, List.cons_append, List.nil_append, List.append_nil]
  generalize Node.writeAll _ = captions
  repeat rw [String.toList_ofList]
  cbv

/-- Where an element ends, none begins. -/
theorem end_ne_of_begins {x : Text} (h : x[1]? = some 'd') (rest : Text) : "</div>" ++ rest ≠ x := by
  rintro rfl
  simp at h

theorem captions_append_inj {c c' : Option Text} (h : ∀ caption ∈ c, '<' ∉ caption)
    (h' : ∀ caption ∈ c', '<' ∉ caption) {rest rest' : Text}
    (heq : Node.writeAll (c.toList.map captionNode) ++ ("</div>" ++ rest) =
      Node.writeAll (c'.toList.map captionNode) ++ ("</div>" ++ rest')) :
    c = c' ∧ rest = rest' := by
  have hwrite : ∀ caption after, Node.writeAll [captionNode caption] ++ ("</div>" ++ after) =
      "<div class=\"gallery-caption\">" ++ (caption ++ '<' :: ("/div>" ++ ("</div>" ++ after))) := by
    intro caption after
    rw [Node.writeAll, Node.writeAll, List.append_nil, captionNode_write]
  have hbegins : ∀ caption after,
      (Node.writeAll [captionNode caption] ++ ("</div>" ++ after))[1]? = some 'd' := by
    intro caption after
    rw [hwrite]
    simp
  cases c with
  | none =>
    cases c' with
    | none => exact ⟨rfl, List.append_cancel_left heq⟩
    | some caption' => exact absurd heq (end_ne_of_begins (hbegins caption' rest') rest)
  | some caption =>
    cases c' with
    | none => exact absurd heq.symm (end_ne_of_begins (hbegins caption rest) rest')
    | some caption' =>
      simp only [Option.toList_some, List.map_cons, List.map_nil, hwrite] at heq
      obtain ⟨rfl, htail⟩ := Text.append_cons_inj (h caption rfl) (h' caption' rfl)
        (List.append_cancel_left heq)
      exact ⟨rfl, List.append_cancel_left (List.append_cancel_left htail)⟩

/-- An item divides from what follows it in one way. -/
theorem node_append_inj {s s' : Shown} (h : s.Fits) (h' : s'.Fits) {rest rest' : Text}
    (heq : s.node.write ++ rest = s'.node.write ++ rest') : s = s' ∧ rest = rest' := by
  obtain ⟨hsource, halt, hcaption⟩ := h
  obtain ⟨hsource', halt', hcaption'⟩ := h'
  rw [node_write, node_write] at heq
  obtain ⟨hsources, htail⟩ :=
    Text.append_cons_inj hsource hsource' (List.append_cancel_left heq)
  obtain ⟨halts, htail⟩ := Text.append_cons_inj halt halt' (List.append_cancel_left htail)
  obtain ⟨hcaptions, hrest⟩ := captions_append_inj hcaption hcaption' (List.append_cancel_left htail)
  refine ⟨?_, hrest⟩
  cases s
  cases s'
  rw [Shown.mk.injEq]
  exact ⟨hsources, halts, hcaptions⟩

/-- Items in front of the end of the container are read back one after the other. -/
theorem nodes_inj {items items' : List Shown} (h : ∀ s ∈ items, s.Fits) (h' : ∀ s ∈ items', s.Fits)
    {rest rest' : Text}
    (heq : Node.writeAll (items.map node) ++ ("</div>" ++ rest) =
      Node.writeAll (items'.map node) ++ ("</div>" ++ rest')) : items = items' := by
  have hbegins : ∀ (s : Shown) after, (s.node.write ++ after)[1]? = some 'd' := by
    intro s after
    rw [node_write]
    simp
  induction items generalizing items' with
  | nil =>
    cases items' with
    | nil => rfl
    | cons s' items' =>
      rw [List.map_cons, Node.writeAll, List.append_assoc] at heq
      exact absurd heq (end_ne_of_begins (hbegins s' _) rest)
  | cons s items ih =>
    rw [List.map_cons, Node.writeAll, List.append_assoc] at heq
    cases items' with
    | nil => exact absurd heq.symm (end_ne_of_begins (hbegins s _) rest')
    | cons s' items' =>
      rw [List.map_cons, Node.writeAll, List.append_assoc] at heq
      obtain ⟨hs, hitems⟩ := List.forall_mem_cons.mp h
      obtain ⟨hs', hitems'⟩ := List.forall_mem_cons.mp h'
      obtain ⟨rfl, htail⟩ := node_append_inj hs hs' heq
      rw [ih hitems hitems' htail]

theorem fits_ofImage {escape : Text → Text}
    (h : ∀ text, '"' ∉ escape text ∧ '<' ∉ escape text) (image : Image) :
    (ofImage escape image).Fits := by
  refine ⟨(h image.url).1, (h image.alt).1, ?_⟩
  intro caption hcaption
  simp only [ofImage] at hcaption
  split at hcaption
  · cases hcaption
  · obtain rfl := Option.some.inj hcaption
    exact (h image.caption).2

end Shown

/-- A container holds one list of items. -/
theorem Expansion.galleryNode_inj {escape : Text → Text} {id : Text} {a : Attributes}
    {items items' : List Shown} (h : ∀ s ∈ items, s.Fits) (h' : ∀ s ∈ items', s.Fits)
    (heq : (galleryNode escape id a items).write = (galleryNode escape id a items').write) :
    items = items' := by
  have hend : '<' :: '/' :: (("div" : Text) ++ ['>']) = ("</div>" : Text) ++ [] := by decide
  simp only [galleryNode, Markup.Node.write, hend] at heq
  have hinside := List.append_cancel_left (List.append_cancel_left (List.cons.inj heq).2)
  exact Shown.nodes_inj h h' (List.cons.inj hinside).2

end Shortcode
