import Shortcode.Proofs.Expansion.Bodies
import Shortcode.Proofs.Text.Digits

/-! # Layouts

The layout of an expansion is what its markup is made of once the values and bodies are left out. A
few features of a shortcode decide it: whether it becomes a warning, how many children or images it
has and which of them are captioned, and which optional parts are given. No supplied value adds a
delimiter to it or takes one away. -/

namespace Shortcode

/-- The features of a shortcode that decide what its markup is made of. -/
inductive Layout where
  | warning
  | button
  | alert (dismissible : Bool)
  /-- For each image that is shown, whether it has a caption. -/
  | gallery (captioned : List Bool)
  | tabs (count : Nat)
  | accordion (count : Nat)
  | countdown
  /-- Which of the optional fields are given. -/
  | contactForm (email subject redirect : Bool)
deriving DecidableEq, Repr

namespace Layout

open Markup

/-- An image and its caption, if it has one. -/
def item (captioned : Bool) : Template :=
  List.flatten [[r#"<div class=""><img src="" alt="" class="">"#],
    if captioned then [r#"<div class=""></div>"#] else [], ["</div>"]]

/-- The toggle of a tab. -/
def toggle : Template :=
  [r#"<li class="" role=""><button class="" id="" data-bs-toggle="" data-bs-target="" type="""#,
    r#" role=""></button></li>"#]

/-- The pane of a tab. -/
def pane : Template :=
  [r#"<div class="" id="" role=""></div>"#]

/-- A heading and the panel that it toggles. -/
def panel : Template :=
  [r#"<div class=""><h2 class="" id=""><button class="" type="" data-bs-toggle="""#,
    r#" data-bs-target=""></button></h2><div id="" class="" data-bs-parent=""><div class="""#,
    "></div></div></div>"]

/-- The display of a unit of time. -/
def unit : Template :=
  [r#"<div class=""><span class="" data-type=""></span><span class=""></span></div>"#]

/-- A hidden field. -/
def hidden : Template :=
  [r#"<input type="" name="" value="">"#]

/-- A labelled field of one line. -/
def line : Template :=
  [r#"<div class=""><label for="" class=""></label><input type="" class="" id="" name="""#,
    " required></div>"]

/-- A labelled field of several lines. -/
def area : Template :=
  [r#"<div class=""><label for="" class=""></label><textarea class="" id="" name="" rows="""#,
    " required></textarea></div>"]

/-- What the markup of a layout is made of: a template in which every slot is empty. -/
def template : Layout → Template
  | warning => [r#"<div class=""></div>"#]
  | button => [r#"<a href="" class="" target=""></a>"#]
  | alert dismissible =>
    List.flatten [[r#"<div class="" role="">"#],
      if dismissible then [r#"<button type="" class="" data-bs-dismiss="" aria-label=""></button>"#]
      else [],
      ["</div>"]]
  | gallery captioned =>
    List.flatten [[r#"<div id="" class="" data-columns="">"#], captioned.flatMap item, ["</div>"]]
  | tabs count =>
    List.flatten [[r#"<div class=""><ul class="" id="" role="">"#],
      (List.replicate count toggle).flatten, [r#"</ul><div class="" id="">"#],
      (List.replicate count pane).flatten, ["</div></div>"]]
  | accordion count =>
    List.flatten [[r#"<div class="" id="">"#], (List.replicate count panel).flatten, ["</div>"]]
  | countdown =>
    List.flatten [[r#"<div id="" class="" data-target="" data-format="" data-message="">"#,
      r#"<div class="">"#], unit, unit, unit, unit, [r#"</div><div class="" style=""></div></div>"#]]
  | contactForm email subject redirect =>
    List.flatten [[r#"<form id="" class="" method="" action="">"#], hidden, hidden, hidden,
      if email then hidden else [], if subject then hidden else [], if redirect then hidden else [],
      line, line, area, [r#"<button type="" class=""></button></form>"#]]

end Layout

/-- The layout of a shortcode. -/
def Kind.layout (k : Kind) (h : Host) (o : Occurrence) : Layout :=
  let a := Attributes.parse o.raw
  match k with
  | .button => .button
  | .alert => .alert (a.getD "dismissible" "true" == ("true" : Text))
  | .gallery =>
    let images := a.getD "images" ""
    if images.isEmpty then .warning
    else .gallery (((Expansion.imageIds images).filterMap h.image?).map (! ·.caption.isEmpty))
  | .tabs =>
    match o.children "tab" with
    | [] => .warning
    | children => .tabs children.length
  | .accordion =>
    match o.children "item" with
    | [] => .warning
    | children => .accordion children.length
  | .countdown => if (a.getD "date" "").isEmpty then .warning else .countdown
  | .contactForm =>
    .contactForm (! (a.getD "email" "").isEmpty)
      (! (a.getD "subject" "Contact Form Submission").isEmpty) (! (a.getD "redirect" "").isEmpty)

/-! ### The marks of the templates -/

namespace Markup

theorem marks_decimal (n : Nat) : marks (Text.decimal n) = [] := by
  refine List.filter_eq_nil_iff.mpr ?_
  intro c hc hmark
  have hdigit := Text.isDigit_of_mem_decimal hc
  have hcases : c = '&' ∨ ((c = '<' ∨ c = '>') ∨ c = '"') ∨ c = '\'' := by
    simpa [isDelimiter] using hmark
  rcases hcases with rfl | ((rfl | rfl) | rfl) | rfl <;> exact absurd hdigit (by decide)

end Markup

namespace Expansion

open Markup

/- What remains of a template without its slots is a closed text. Its literals are turned into lists
first, since the characters of a string literal are slow to compute. -/

theorem marks_parts (i : Nat) (child : Child) :
    (tabToggle i child).marks = Layout.toggle.marks ∧
      (tabPane i child).marks = Layout.pane.marks ∧
      (accordionItem i child).marks = Layout.panel.marks := by
  unfold tabToggle tabPane accordionItem Layout.toggle Layout.pane Layout.panel
  repeat rw [String.toList_ofList]
  by_cases hi : i = 0
  · simp only [if_pos hi, Template.marks_cons, Piece.fixed, number, marks_decimal]
    decide
  · simp only [if_neg hi, Template.marks_cons, Piece.fixed, number, marks_decimal]
    decide

theorem marks_numbered {item : Nat → Child → Template} {block : Template}
    (h : ∀ i child, (item i child).marks = block.marks) (children : List Child) :
    (numbered item children).marks = Template.marks (List.replicate children.length block).flatten := by
  unfold numbered
  generalize 0 = start
  induction children generalizing start with
  | nil => rfl
  | cons child children ih =>
    simp only [List.zipIdx_cons, List.map_cons, List.flatten_cons, Template.marks_append, h, ih,
      List.length_cons, List.replicate_succ]

theorem marks_galleryItem (image : Image) :
    (galleryItem image).marks = (Layout.item (! image.caption.isEmpty)).marks := by
  unfold galleryItem Layout.item
  repeat rw [String.toList_ofList]
  cases image.caption.isEmpty <;> rfl

theorem marks_button (o : Occurrence) : (button o).template.marks = Layout.button.template.marks := by
  simp only [button, Layout.template, template]
  repeat rw [String.toList_ofList]
  split <;> rfl

theorem marks_alert (o : Occurrence) :
    (alert o).template.marks = (Layout.alert
      ((Attributes.parse o.raw).getD "dismissible" "true" == ("true" : Text))).template.marks := by
  simp only [alert, dismissControl, Layout.template, template]
  repeat rw [String.toList_ofList]
  split <;> rfl

theorem marks_flatMap_galleryItem (images : List Image) :
    Template.marks (images.flatMap galleryItem) =
      Template.marks ((images.map (! ·.caption.isEmpty)).flatMap Layout.item) := by
  induction images with
  | nil => rfl
  | cons image images ih =>
    simp only [List.flatMap_cons, List.map_cons, Template.marks_append, marks_galleryItem, ih]

theorem marks_gallery (h : Host) (o : Occurrence) :
    (gallery h o).template.marks = (Kind.gallery.layout h o).template.marks := by
  simp only [gallery_eq, galleryMarkup, Kind.layout]
  split
  · rfl
  · simp only [template, Layout.template, List.flatten_cons, List.flatten_nil,
      Template.marks_append, marks_flatMap_galleryItem]
    repeat rw [String.toList_ofList]
    rfl

theorem marks_tabs (h : Host) (o : Occurrence) :
    (tabs o).template.marks = (Kind.tabs.layout h o).template.marks := by
  simp only [tabs, Kind.layout]
  generalize o.children "tab" = children
  cases children with
  | nil => rfl
  | cons child children =>
    simp only [template, Layout.template, List.flatten_cons, List.flatten_nil,
      Template.marks_append, marks_numbered fun i child => (marks_parts i child).1,
      marks_numbered fun i child => (marks_parts i child).2.1]
    repeat rw [String.toList_ofList]
    rfl

theorem marks_accordion (h : Host) (o : Occurrence) :
    (accordion o).template.marks = (Kind.accordion.layout h o).template.marks := by
  simp only [accordion, Kind.layout]
  generalize o.children "item" = children
  cases children with
  | nil => rfl
  | cons child children =>
    simp only [template, Layout.template, List.flatten_cons, List.flatten_nil,
      Template.marks_append, marks_numbered fun i child => (marks_parts i child).2.2]
    repeat rw [String.toList_ofList]
    rfl

theorem marks_countdownUnit {unit label : Text} (hunit : marks unit = []) (hlabel : marks label = []) :
    (countdownUnit unit label).marks = Layout.unit.marks := by
  unfold countdownUnit Layout.unit
  repeat rw [String.toList_ofList]
  simp only [Template.marks_cons, Piece.fixed, hunit, hlabel]
  decide

theorem marks_countdown (h : Host) (o : Occurrence) :
    (countdown o).template.marks = (Kind.countdown.layout h o).template.marks := by
  simp only [countdown, Kind.layout]
  split
  · rfl
  · simp only [template, Layout.template, List.flatten_cons, List.flatten_nil, Template.marks_append]
    repeat rw [marks_countdownUnit (by decide) (by decide)]
    repeat rw [String.toList_ofList]
    simp only [Template.marks_cons, Piece.fixed]
    decide

theorem marks_hidden {name value : Piece} (hname : marks name.fixed = [])
    (hvalue : marks value.fixed = []) : (hidden name value).marks = Layout.hidden.marks := by
  unfold hidden Layout.hidden
  repeat rw [String.toList_ofList]
  simp only [Template.marks_cons, Piece.fixed_literal, hname, hvalue]
  decide

theorem marks_hiddenUnlessEmpty {name : String} (hname : marks name = []) (value : Text) :
    (hiddenUnlessEmpty name value).marks =
      Template.marks (if ! value.isEmpty then Layout.hidden else []) := by
  unfold hiddenUnlessEmpty
  cases value.isEmpty with
  | true => rfl
  | false => exact marks_hidden hname rfl

theorem marks_line {field type : String} (hfield : marks field = []) (label : Text)
    (htype : marks type = "<\"\"") :
    (labelled field label type r#"" required>"#).marks = Layout.line.marks := by
  unfold labelled Layout.line
  repeat rw [String.toList_ofList]
  simp only [Template.marks_cons, Piece.fixed, hfield, htype]
  decide

theorem marks_contactForm (h : Host) (o : Occurrence) :
    (contactForm h o).template.marks = (Kind.contactForm.layout h o).template.marks := by
  have hto : marks ("to_email" : String) = [] := by decide
  have hsubject : marks ("subject" : String) = [] := by decide
  have hredirect : marks ("redirect" : String) = [] := by decide
  simp only [contactForm, template_ofAsked, Asked.answer_bind, Asked.answer_pure, Kind.layout,
    Layout.template, List.flatten_cons, List.flatten_nil, Template.marks_append, marks_hiddenUnlessEmpty hto,
    marks_hiddenUnlessEmpty hsubject, marks_hiddenUnlessEmpty hredirect]
  rw [marks_hidden (by decide) (by decide), marks_hidden (by decide) rfl, marks_hidden rfl (by decide),
    marks_line (by decide) _ (by decide), marks_line (by decide) _ (by decide)]
  unfold labelled Layout.area
  repeat rw [String.toList_ofList]
  simp only [Template.marks_cons, Piece.fixed]
  rfl

end Expansion

theorem Kind.marks_expand (k : Kind) (h : Host) (o : Occurrence) :
    (k.expand h o).template.marks = (k.layout h o).template.marks := by
  cases k with
  | button => exact Expansion.marks_button o
  | alert => exact Expansion.marks_alert o
  | gallery => exact Expansion.marks_gallery h o
  | tabs => exact Expansion.marks_tabs h o
  | accordion => exact Expansion.marks_accordion h o
  | countdown => exact Expansion.marks_countdown h o
  | contactForm => exact Expansion.marks_contactForm h o

/-! ### No ampersand is the template's own -/

namespace Layout

open Markup

theorem ampersand_not_mem_flatten {ts : List Template} (h : ∀ t ∈ ts, '&' ∉ t.marks) :
    '&' ∉ Template.marks ts.flatten := by
  induction ts with
  | nil => simp
  | cons t ts ih =>
    rw [List.flatten_cons, Template.marks_append, List.mem_append, not_or]
    exact ⟨h t (List.mem_cons_self ..), ih fun u hu => h u (List.mem_cons_of_mem t hu)⟩

theorem ampersand_not_mem_replicate {block : Template} (h : '&' ∉ block.marks) (n : Nat) :
    '&' ∉ Template.marks (List.replicate n block).flatten := by
  refine ampersand_not_mem_flatten ?_
  intro t ht
  rw [List.eq_of_mem_replicate ht]
  exact h

theorem ampersand_not_mem_item (captioned : Bool) : '&' ∉ (item captioned).marks := by
  unfold item
  repeat rw [String.toList_ofList]
  cases captioned <;> decide

theorem ampersand_not_mem_fields :
    '&' ∉ hidden.marks ∧ '&' ∉ line.marks ∧ '&' ∉ area.marks := by
  unfold hidden line area
  repeat rw [String.toList_ofList]
  decide

theorem ampersand_not_mem_parts :
    '&' ∉ toggle.marks ∧ '&' ∉ pane.marks ∧ '&' ∉ panel.marks ∧ '&' ∉ unit.marks := by
  unfold toggle pane panel unit
  repeat rw [String.toList_ofList]
  decide

theorem ampersand_not_mem (l : Layout) : '&' ∉ l.template.marks := by
  obtain ⟨htoggle, hpane, hpanel, hunit⟩ := ampersand_not_mem_parts
  obtain ⟨hhidden, hline, harea⟩ := ampersand_not_mem_fields
  have hnil : '&' ∉ Template.marks [] := by simp
  unfold template
  repeat rw [String.toList_ofList]
  cases l with
  | warning => decide
  | button => decide
  | alert dismissible => cases dismissible <;> decide
  | gallery captioned =>
    refine ampersand_not_mem_flatten ?_
    simp only [List.forall_mem_cons]
    refine ⟨by decide, ampersand_not_mem_flatten ?_, by decide, by simp⟩
    intro t ht
    obtain ⟨b, -, rfl⟩ := List.mem_map.mp ht
    exact ampersand_not_mem_item b
  | tabs count =>
    refine ampersand_not_mem_flatten ?_
    simp only [List.forall_mem_cons]
    exact ⟨by decide, ampersand_not_mem_replicate htoggle count, by decide,
      ampersand_not_mem_replicate hpane count, by decide, by simp⟩
  | accordion count =>
    refine ampersand_not_mem_flatten ?_
    simp only [List.forall_mem_cons]
    exact ⟨by decide, ampersand_not_mem_replicate hpanel count, by decide, by simp⟩
  | countdown =>
    refine ampersand_not_mem_flatten ?_
    simp only [List.forall_mem_cons]
    exact ⟨by decide, hunit, hunit, hunit, hunit, by decide, by simp⟩
  | contactForm email subject redirect =>
    have hoptional : ∀ given : Bool, '&' ∉ Template.marks (if given then hidden else []) := by
      intro given
      cases given
      · exact hnil
      · exact hhidden
    refine ampersand_not_mem_flatten ?_
    simp only [List.forall_mem_cons]
    exact ⟨by decide, hhidden, hhidden, hhidden, hoptional email, hoptional subject,
      hoptional redirect, hline, hline, harea, by decide, by simp⟩

end Layout

/-! ### Every expansion -/

open Markup

theorem Kind.marks_id (k : Kind) (h : Host) (o : Occurrence) (drawn : List Text) :
    marks ((k.expand h o).id .sequential drawn) = [] := by
  have hstem : marks k.stem = [] := by cases k <;> decide
  have hdash : marks ['-'] = [] := by decide
  cases hx : (k.expand h o).stem? with
  | none => simp only [Expansion.id, hx]; rfl
  | some stem =>
    have hid : (k.expand h o).id .sequential drawn =
        k.stem ++ (['-'] ++ Text.decimal (drawn.length + 1)) := by
      simp only [Expansion.id, hx, Kind.stem?_expand hx]
      rfl
    rw [hid, marks_append, marks_append, hstem, hdash, marks_decimal]
    rfl

/-- An expansion is the bodies that its shortcode passes through, with gaps around them. The delimiters
in the gaps are those of the layout, whatever values are supplied, and every ampersand in them begins
an entity. Only alerts, tabs and accordions pass bodies through. -/
theorem Kind.expansion_follows_layout (k : Kind) (h : Host) (o : Occurrence) (drawn : List Text) :
    let x := k.expand h o
    let cut := (x.withoutBodies.settle escape .sequential drawn).text
    delimiters cut = delimiters (k.layout h o).template.frame ∧ AmpersandsBeginEntities cut ∧
      x.template.bodies = k.bodies o ∧
      (∃ gaps : List Text, gaps.length = (k.bodies o).length + 1 ∧ gaps.flatten = cut ∧
        (x.settle escape .sequential drawn).text = interleave gaps (k.bodies o)) ∧
      (k ∉ [Kind.alert, .tabs, .accordion] → x.withoutBodies = x) := by
  intro x cut
  have hcut : cut = x.template.withoutBodies.fill escape (x.id .sequential drawn) := by
    simp only [cut, Expansion.settle_text, Expansion.template_withoutBodies,
      Expansion.id_withoutBodies]
  have hmarks : x.template.marks = (k.layout h o).template.marks := k.marks_expand h o
  have hid : marks (x.id .sequential drawn) = [] := k.marks_id h o drawn
  refine ⟨?_, ?_, k.bodies_expand h o, ?_, ?_⟩
  · have hplain : delimiters (x.id .sequential drawn) = [] :=
      delimiters_eq_of_marks_eq (y := []) hid
    rw [hcut, Template.delimiters_fill hplain]
    exact delimiters_eq_of_marks_eq hmarks
  · have hframe : '&' ∉ x.template.frame := by
      rw [← mem_marks_ampersand]
      have hlayout := (k.layout h o).ampersand_not_mem
      rw [← hmarks] at hlayout
      exact hlayout
    have hplain : '&' ∉ x.id .sequential drawn := by
      rw [← mem_marks_ampersand, hid]
      simp
    rw [hcut]
    exact Template.ampersandsBeginEntities_fill hframe hplain
  · rw [hcut, Expansion.settle_text, ← k.bodies_expand h o]
    exact Template.exists_gaps escape (x.id .sequential drawn) x.template
  · exact fun hk => Expansion.withoutBodies_eq_self (Kind.hasNoBody_expand hk h o)

/-- Markup in the token, in the URL, in a label or in an address changes nothing. -/
theorem Kind.contactForm_follows_layout :
    let h : Host := { token := "\"><script>", url := "' x='", label := fun _ => "<b>&</b>" }
    let o : Occurrence := ⟨"email=\"<a>&amp;\" redirect=\"\"", []⟩
    Kind.contactForm ∉ [Kind.alert, .tabs, .accordion] ∧
      Kind.contactForm.layout h o = .contactForm true true false ∧
      delimiters ((Kind.contactForm.expand h o).settle escape .sequential []).text =
        delimiters (Layout.contactForm true true false).template.frame := by
  intro h o
  have hk : Kind.contactForm ∉ [Kind.alert, .tabs, .accordion] := by decide
  have hlayout : Kind.contactForm.layout h o = .contactForm true true false := by decide
  obtain ⟨hdelimiters, -, -, -, hbodies⟩ := Kind.contactForm.expansion_follows_layout h o []
  rw [hbodies hk, hlayout] at hdelimiters
  exact ⟨hk, hlayout, hdelimiters⟩

end Shortcode
