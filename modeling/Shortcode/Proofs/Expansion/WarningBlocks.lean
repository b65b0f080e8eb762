import Shortcode.Proofs.Expansion.Layout
import Shortcode.Proofs.Tag.Parts
import Shortcode.Proofs.Text.Digits
import Shortcode.Proofs.Text.Places

/-! # Warning blocks in expansions

A warning block is known by its opening tag. No expansion but a warning writes that tag by itself:
the literals of the templates differ from it, escaped values hold no angle bracket, and a body stands
between two tags. So the blocks in an expansion are those in the bodies that it passes through. -/

namespace Shortcode

/-- The opening tag of a warning block. -/
def Warning.opening : Text :=
  "<div class=\"alert alert-warning\">"

theorem Warning.opening_eq_cons : ∃ rest, opening = '<' :: rest ∧ '<' ∉ rest :=
  ⟨_, rfl, by decide⟩

namespace Markup

namespace Template

/-- Whether a template begins with a tag. -/
def beginsTag : Template → Bool
  | .literal (c :: _) :: _ => c == '<'
  | _ => false

/-- Whether no literal of a template begins the tag of a warning block and a tag stands behind every
body. -/
def sparesWarnings : Template → Bool
  | [] => true
  | .literal text :: rest => Text.keepsApart Warning.opening text && sparesWarnings rest
  | .body _ :: rest => beginsTag rest && sparesWarnings rest
  | _ :: rest => sparesWarnings rest

variable {t u : Template} {id rest : Text}

theorem beginsTag_append (h : t.beginsTag = true) : (t ++ u).beginsTag = true := by
  cases t with
  | nil => cases h
  | cons p t =>
    cases p with
    | literal text =>
      cases text with
      | nil => cases h
      | cons c text => exact h
    | _ => cases h

theorem exists_eq_cons_of_beginsTag (h : t.beginsTag = true) (id rest : Text) :
    ∃ y, t.fill escape id ++ rest = '<' :: y := by
  cases t with
  | nil => cases h
  | cons p t =>
    cases p with
    | literal text =>
      cases text with
      | nil => cases h
      | cons c text =>
        have hc : c = '<' := beq_iff_eq.mp h
        subst hc
        exact ⟨_, rfl⟩
    | _ => cases h

theorem sparesWarnings_append (ht : t.sparesWarnings = true) (hu : u.sparesWarnings = true) :
    (t ++ u).sparesWarnings = true := by
  induction t with
  | nil => exact hu
  | cons p t ih =>
    cases p with
    | literal text =>
      obtain ⟨htext, ht⟩ := Bool.and_eq_true_iff.mp ht
      exact Bool.and_eq_true_iff.mpr ⟨htext, ih ht⟩
    | body text =>
      obtain ⟨htag, ht⟩ := Bool.and_eq_true_iff.mp ht
      exact Bool.and_eq_true_iff.mpr ⟨beginsTag_append htag, ih ht⟩
    | _ => exact ih ht

theorem sparesWarnings_flatten {ts : List Template} (h : ∀ t ∈ ts, t.sparesWarnings = true) :
    sparesWarnings ts.flatten = true := by
  induction ts with
  | nil => rfl
  | cons t ts ih =>
    rw [List.flatten_cons]
    exact sparesWarnings_append (h t (List.mem_cons_self ..))
      (ih fun u hu => h u (List.mem_cons_of_mem t hu))

end Template

theorem not_mem_of_delimiters_eq_nil {c : Char} (hc : isDelimiter c = true) {text : Text}
    (h : delimiters text = []) : c ∉ text :=
  fun hmem => List.filter_eq_nil_iff.mp h c hmem hc

theorem not_mem_escape {c : Char} (hc : isDelimiter c = true) (text : Text) : c ∉ escape text :=
  not_mem_of_delimiters_eq_nil hc (delimiters_escape text)

theorem Piece.not_mem_fill {c : Char} (hc : isDelimiter c = true) {p : Piece} {id : Text}
    (hid : c ∉ id) (hfixed : c ∉ p.fixed) (hbody : p.isBody = false) : c ∉ p.fill escape id := by
  cases p with
  | literal text => exact hfixed
  | value text => exact not_mem_escape hc text
  | className text =>
    have hblank : c ≠ ' ' := by
      rintro rfl
      cases hc
    simp only [fill]
    split
    · simp
    · simp [hblank, not_mem_escape hc text]
  | body text => cases hbody
  | id => exact hid

namespace Template

variable {t : Template} {id : Text}

theorem not_mem_fill {c : Char} (hc : isDelimiter c = true) (hid : c ∉ id)
    (ht : ∀ p ∈ t, c ∉ p.fixed ∧ p.isBody = false) : c ∉ t.fill escape id := by
  rw [fill, List.mem_flatMap]
  rintro ⟨p, hp, hmem⟩
  obtain ⟨hfixed, hbody⟩ := ht p hp
  exact Piece.not_mem_fill hc hid hfixed hbody hmem

/-- In a filled template the tags of warning blocks are those in its bodies. -/
theorem placesOf_fill (ht : t.sparesWarnings = true) (hid : '<' ∉ id) (rest : Text) :
    Text.placesOf Warning.opening (t.fill escape id ++ rest) =
      Text.placesIn Warning.opening t.bodies + Text.placesOf Warning.opening rest := by
  obtain ⟨word, hopening, hword⟩ := Warning.opening_eq_cons
  induction t with
  | nil => exact (Nat.zero_add _).symm
  | cons p t ih =>
    have hfill : fill escape id (p :: t) ++ rest = p.fill escape id ++ (fill escape id t ++ rest) := by
      simp [fill]
    have hslot : ∀ {x : Text}, '<' ∉ x →
        Text.placesOf Warning.opening (x ++ (fill escape id t ++ rest)) =
          Text.placesOf Warning.opening (fill escape id t ++ rest) := by
      intro x hx
      rw [hopening]
      exact Text.placesOf_append_of_not_mem hx _
    rw [hfill]
    cases p with
    | literal text =>
      obtain ⟨htext, ht⟩ := Bool.and_eq_true_iff.mp ht
      exact (Text.placesOf_append_of_keepsApart htext _).trans (ih ht)
    | body text =>
      obtain ⟨htag, ht⟩ := Bool.and_eq_true_iff.mp ht
      obtain ⟨y, hy⟩ := exists_eq_cons_of_beginsTag htag id rest
      have hrest := ih ht
      have hjoin := Text.placesOf_append_cons hword text y
      rw [← hopening, ← hy] at hjoin
      show Text.placesOf Warning.opening (text ++ (fill escape id t ++ rest)) =
        Text.placesOf Warning.opening text + Text.placesIn Warning.opening (bodies t) +
          Text.placesOf Warning.opening rest
      omega
    | value text => exact (hslot (Piece.not_mem_fill rfl hid List.not_mem_nil rfl)).trans (ih ht)
    | className text => exact (hslot (Piece.not_mem_fill rfl hid List.not_mem_nil rfl)).trans (ih ht)
    | id => exact (hslot hid).trans (ih ht)

end Template

end Markup

/-! ### The templates -/

theorem Text.keepsApart_decimal (n : Nat) :
    Text.keepsApart Warning.opening (Text.decimal n) = true := by
  obtain ⟨word, hopening, -⟩ := Warning.opening_eq_cons
  rw [hopening]
  exact Text.keepsApart_of_not_mem (Text.not_mem_decimal (by decide))

namespace Expansion

open Markup

theorem sparesWarnings_numbered {item : Nat → Child → Template}
    (h : ∀ i child, (item i child).sparesWarnings = true) (children : List Child) :
    (numbered item children).sparesWarnings = true := by
  apply Template.sparesWarnings_flatten
  intro t ht
  obtain ⟨⟨child, i⟩, -, rfl⟩ := List.mem_map.mp ht
  exact h i child

theorem sparesWarnings_parts (i : Nat) (child : Child) :
    (tabToggle i child).sparesWarnings = true ∧ (tabPane i child).sparesWarnings = true ∧
      (accordionItem i child).sparesWarnings = true := by
  have hnumber := Text.keepsApart_decimal i
  unfold tabToggle tabPane accordionItem
  repeat rw [String.toList_ofList]
  by_cases hi : i = 0
  · subst hi
    exact ⟨rfl, rfl, rfl⟩
  · simp only [if_neg hi, number, Template.sparesWarnings, hnumber]
    exact ⟨rfl, rfl, rfl⟩

theorem sparesWarnings_galleryItem (image : Image) : (galleryItem image).sparesWarnings = true := by
  unfold galleryItem
  repeat rw [String.toList_ofList]
  split <;> rfl

theorem sparesWarnings_hiddenUnlessEmpty {name : String}
    (hname : Text.keepsApart Warning.opening name.toList = true) (value : Text) :
    (hiddenUnlessEmpty name value).sparesWarnings = true := by
  unfold hiddenUnlessEmpty hidden
  repeat rw [String.toList_ofList]
  split
  · rfl
  · simp only [Template.sparesWarnings, hname]
    rfl

theorem sparesWarnings_button (o : Occurrence) : (button o).template.sparesWarnings = true := by
  simp only [button, template]
  repeat rw [String.toList_ofList]
  split <;> rfl

theorem sparesWarnings_countdown {o : Occurrence} (h : ∀ w, countdown o ≠ .warning w) :
    (countdown o).template.sparesWarnings = true := by
  simp only [countdown, countdownUnit] at h ⊢
  split
  · rename_i hempty
    rw [if_pos hempty] at h
    exact absurd rfl (h _)
  · repeat rw [String.toList_ofList]
    rfl

theorem sparesWarnings_gallery {h : Host} {o : Occurrence} (hx : ∀ w, gallery h o ≠ .warning w) :
    (gallery h o).template.sparesWarnings = true := by
  simp only [gallery_eq, galleryMarkup] at hx ⊢
  split
  · rename_i hempty
    rw [if_pos hempty] at hx
    exact absurd rfl (hx _)
  · apply Template.sparesWarnings_flatten
    repeat rw [String.toList_ofList]
    simp only [List.forall_mem_cons]
    refine ⟨rfl, ?_, rfl, by simp⟩
    apply Template.sparesWarnings_flatten
    intro t ht
    obtain ⟨image, -, rfl⟩ := List.mem_map.mp ht
    exact sparesWarnings_galleryItem image

theorem sparesWarnings_tabs {o : Occurrence} (hx : ∀ w, tabs o ≠ .warning w) :
    (tabs o).template.sparesWarnings = true := by
  unfold tabs at hx ⊢
  split
  · rename_i hnil
    rw [hnil] at hx
    exact absurd rfl (hx _)
  · apply Template.sparesWarnings_flatten
    repeat rw [String.toList_ofList]
    simp only [List.forall_mem_cons]
    exact ⟨rfl, sparesWarnings_numbered (fun i child => (sparesWarnings_parts i child).1) _, rfl,
      sparesWarnings_numbered (fun i child => (sparesWarnings_parts i child).2.1) _, rfl, by simp⟩

theorem sparesWarnings_accordion {o : Occurrence} (hx : ∀ w, accordion o ≠ .warning w) :
    (accordion o).template.sparesWarnings = true := by
  unfold accordion at hx ⊢
  split
  · rename_i hnil
    rw [hnil] at hx
    exact absurd rfl (hx _)
  · apply Template.sparesWarnings_flatten
    repeat rw [String.toList_ofList]
    simp only [List.forall_mem_cons]
    exact ⟨rfl, sparesWarnings_numbered (fun i child => (sparesWarnings_parts i child).2.2) _, rfl,
      by simp⟩

theorem sparesWarnings_contactForm (h : Host) (o : Occurrence) :
    (contactForm h o).template.sparesWarnings = true := by
  apply Template.sparesWarnings_flatten
  unfold hidden labelled
  repeat rw [String.toList_ofList]
  simp only [List.forall_mem_cons]
  exact ⟨rfl, rfl, rfl, rfl, sparesWarnings_hiddenUnlessEmpty rfl _,
    sparesWarnings_hiddenUnlessEmpty rfl _, sparesWarnings_hiddenUnlessEmpty rfl _, rfl, rfl, rfl,
    rfl, by simp⟩

/-! ### Alerts

The class list of an alert begins like that of a warning block. It is told apart by what stands behind
its first quote. -/

/-- How the tags of alerts and of warning blocks begin. -/
def alertFront : Text :=
  "<div class=\"alert alert-"

theorem placesOf_alertFront {classes : Text} (h : '"' ∉ classes) (rest : Text) :
    Text.placesOf Warning.opening (alertFront ++ (classes ++ '"' :: ' ' :: rest)) =
      Text.placesOf Warning.opening (classes ++ '"' :: ' ' :: rest) := by
  have hopening : Warning.opening = alertFront ++ ("warning" ++ '"' :: ['>']) := by decide
  have hnot : ¬ Warning.opening <+: alertFront ++ (classes ++ '"' :: ' ' :: rest) := by
    rw [hopening, List.prefix_append_right_inj]
    rintro ⟨behind, hbehind⟩
    rw [List.append_assoc, List.cons_append] at hbehind
    obtain ⟨-, htail⟩ := Text.append_cons_inj (by decide) h hbehind
    cases htail
  obtain ⟨word, hword, -⟩ := Warning.opening_eq_cons
  have hfront : alertFront = '<' :: alertFront.tail := by decide
  rw [hfront, List.cons_append] at hnot ⊢
  rw [Text.placesOf_cons_of_not_prefix hnot, hword]
  exact Text.placesOf_append_of_not_mem (by decide) _

theorem exists_alert_template (o : Occurrence) : ∃ classes rest,
    (alert o).template = .literal alertFront :: (classes ++ .literal "\" role=\"alert\">" :: rest) ∧
      (∀ p ∈ classes, '"' ∉ p.fixed ∧ p.isBody = false) ∧
      Template.sparesWarnings (classes ++ .literal "\" role=\"alert\">" :: rest) = true := by
  let type : Piece := .value ((Attributes.parse o.raw).getD "type" "info")
  let name : Piece := .className ((Attributes.parse o.raw).getD "class" "")
  simp only [alert, template]
  cases (Attributes.parse o.raw).getD "dismissible" "true" == ("true" : Text) with
  | true =>
    refine ⟨[type, .literal " alert-dismissible fade show", name],
      [.body (Text.trim o.body), dismissControl, "</div>"], rfl, ?_, ?_⟩
    · simp only [List.forall_mem_cons]
      exact ⟨⟨List.not_mem_nil, rfl⟩, ⟨by decide, rfl⟩, ⟨List.not_mem_nil, rfl⟩, by simp⟩
    · unfold dismissControl
      repeat rw [String.toList_ofList]
      rfl
  | false =>
    refine ⟨[type, name], [.body (Text.trim o.body), "</div>"], rfl, ?_, ?_⟩
    · simp only [List.forall_mem_cons]
      exact ⟨⟨List.not_mem_nil, rfl⟩, ⟨List.not_mem_nil, rfl⟩, by simp⟩
    · repeat rw [String.toList_ofList]
      rfl

theorem placesOf_alert (o : Occurrence) {id : Text} (hid : '<' ∉ id) (hquote : '"' ∉ id)
    (rest : Text) :
    Text.placesOf Warning.opening ((alert o).template.fill escape id ++ rest) =
      Text.placesIn Warning.opening (alert o).template.bodies +
        Text.placesOf Warning.opening rest := by
  obtain ⟨classes, tail, htemplate, hclasses, hspares⟩ := exists_alert_template o
  obtain ⟨behind, hrole⟩ : ∃ behind, Template.fill escape id (.literal "\" role=\"alert\">" :: tail) ++
      rest = '"' :: ' ' :: behind := ⟨_, rfl⟩
  have hfree : '"' ∉ Template.fill escape id classes := Template.not_mem_fill rfl hquote hclasses
  have hfill : (alert o).template.fill escape id ++ rest =
      alertFront ++ (Template.fill escape id classes ++ '"' :: ' ' :: behind) := by
    rw [htemplate, ← hrole]
    simp [Template.fill, Piece.fill]
  have hspared := Template.placesOf_fill hspares hid rest
  have hbodies : Template.bodies (alert o).template =
      Template.bodies (classes ++ .literal "\" role=\"alert\">" :: tail) := by
    rw [htemplate]
    rfl
  rw [hfill, placesOf_alertFront hfree, hbodies, ← hspared, ← hrole]
  simp [Template.fill, List.flatMap_append]

end Expansion

namespace Expansion

/-- The children of a body lie apart. -/
theorem placesIn_children_le {keyword : Text} (hk : '[' ∉ keyword) (o : Occurrence) (word : Text) :
    Text.placesIn word ((o.children keyword).map Child.body) ≤ Text.placesOf word o.body := by
  obtain ⟨cut, hcut⟩ := Cut.exists_isLeftmostOf (Child.reads_read hk) o.body
  rw [Occurrence.children_eq_values hk hcut, ← hcut.1]
  exact cut.placesIn_le hcut.2 (fun part child h => (Child.isInfix_of_grammar h).2) word

end Expansion

/-! ### Every expansion -/

theorem Warning.block_eq_append (w : Warning) : w.block = opening ++ (w.message ++ "</div>") :=
  List.append_assoc ..

/-- The block of a warning holds one such tag, and none begins at its end. -/
theorem Warning.placesOf_block (w : Warning) (rest : Text) :
    Text.placesOf opening (w.block ++ rest) = Text.placesOf opening rest + 1 := by
  obtain ⟨word, hword, hmark⟩ := opening_eq_cons
  have hbehind : '<' ∉ w.message := by
    cases w <;> decide
  have hend : Text.keepsApart opening ("</div>" : Text) = true := by
    unfold opening
    repeat rw [String.toList_ofList]
    rfl
  have hopening : opening.isPrefixOf (w.block ++ rest) = true := by
    rw [List.isPrefixOf_iff_prefix, block_eq_append, List.append_assoc]
    exact List.prefix_append ..
  have hblock : w.block ++ rest = '<' :: ((word ++ w.message) ++ ("</div>" ++ rest)) := by
    rw [block_eq_append, hword]
    simp only [List.cons_append, List.append_assoc]
  have hfront : '<' ∉ word ++ w.message := by
    rw [List.mem_append, not_or]
    exact ⟨hmark, hbehind⟩
  rw [hblock] at hopening ⊢
  rw [Text.placesOf_cons, hopening]
  have hrest : Text.placesOf opening ((word ++ w.message) ++ ("</div>" ++ rest)) =
      Text.placesOf opening rest := by
    rw [← Text.placesOf_append_of_keepsApart hend rest, hword]
    exact Text.placesOf_append_of_not_mem hfront _
  rw [hrest]
  rfl

namespace Kind

open Expansion Markup

variable {k : Kind} {h : Host} {o : Occurrence}

/-- In the markup of a shortcode that lacks nothing, the tags of warning blocks are those in its
bodies. -/
theorem placesOf_fill (hx : ∀ w, k.expand h o ≠ .warning w) {id : Text} (hid : '<' ∉ id)
    (hquote : '"' ∉ id) (rest : Text) :
    Text.placesOf Warning.opening ((k.expand h o).template.fill escape id ++ rest) =
      Text.placesIn Warning.opening (k.expand h o).template.bodies +
        Text.placesOf Warning.opening rest := by
  cases k with
  | button => exact Template.placesOf_fill (sparesWarnings_button o) hid rest
  | alert => exact placesOf_alert o hid hquote rest
  | gallery => exact Template.placesOf_fill (sparesWarnings_gallery hx) hid rest
  | tabs => exact Template.placesOf_fill (sparesWarnings_tabs hx) hid rest
  | accordion => exact Template.placesOf_fill (sparesWarnings_accordion hx) hid rest
  | countdown => exact Template.placesOf_fill (sparesWarnings_countdown hx) hid rest
  | contactForm => exact Template.placesOf_fill (sparesWarnings_contactForm h o) hid rest

/-- The bodies that a shortcode passes through stand apart in its own body. -/
theorem placesIn_bodies_le (k : Kind) (h : Host) (o : Occurrence) (word : Text) :
    Text.placesIn word (k.expand h o).template.bodies ≤ Text.placesOf word o.body := by
  rw [k.bodies_expand h o]
  cases k with
  | alert => exact Text.placesOf_le_of_infix word (Text.trim_isInfix o.body)
  | tabs => exact placesIn_children_le (by decide) o word
  | accordion => exact placesIn_children_le (by decide) o word
  | button | gallery | countdown | contactForm => exact Nat.zero_le _

theorem not_mem_id {c : Char} (hc : isDelimiter c = true) (k : Kind) (h : Host) (o : Occurrence)
    (drawn : List Text) : c ∉ (k.expand h o).id .sequential drawn :=
  not_mem_of_delimiters_eq_nil hc (delimiters_eq_of_marks_eq (y := []) (k.marks_id h o drawn))

/-- What stands in place of a shortcode holds the tag of its own warning, if it is one, and else none
that the shortcode does not hold. -/
theorem placesOf_settle_le {part : Text} (hpart : k.grammar part o) (h : Host) (drawn : List Text)
    (rest : Text) :
    let r := (k.expand h o).settle escape .sequential drawn
    Text.placesOf Warning.opening (r.text ++ rest) ≤
      Text.placesOf Warning.opening part + r.warnings.length +
        Text.placesOf Warning.opening rest := by
  intro r
  by_cases hx : ∃ w, k.expand h o = .warning w
  · obtain ⟨w, hw⟩ := hx
    have hr : r = { text := w.block, warnings := [w], drawn } := by
      simp only [r, hw]
      rfl
    have hblock := w.placesOf_block rest
    rw [hr]
    simp only [List.length_singleton]
    omega
  · rw [not_exists] at hx
    have hfill := placesOf_fill hx (not_mem_id rfl k h o drawn) (not_mem_id rfl k h o drawn) rest
    have hbodies := placesIn_bodies_le k h o Warning.opening
    have hbody := Text.placesOf_le_of_infix Warning.opening (isInfix_of_grammar hpart).2
    rw [← settle_text] at hfill
    show Text.placesOf Warning.opening (((k.expand h o).settle escape .sequential drawn).text ++ rest) ≤ _
    omega

end Kind

end Shortcode
