import Shortcode.Proofs.Markup.Frame

/-! # Bodies in expansions

Three kinds pass bodies through as they are: an alert its own, without the blanks around it, and tabs
and accordions those of their children. Everything else in their markup stands in the gaps around the
bodies, and with the bodies cut out the markup is these gaps. -/

namespace Shortcode

namespace Markup

/-- The body that a piece passes through. -/
def Piece.body? : Piece → Option Text
  | body text => some text
  | _ => none

/-- Bodies between gaps, of which there is one more. -/
def interleave : List Text → List Text → Text
  | gap :: gaps, body :: bodies => gap ++ (body ++ interleave gaps bodies)
  | gaps, _ => gaps.flatten

theorem interleave_append_cons (x gap : Text) (gaps bodies : List Text) :
    interleave ((x ++ gap) :: gaps) bodies = x ++ interleave (gap :: gaps) bodies := by
  cases bodies with
  | nil => simp [interleave]
  | cons body bodies => simp only [interleave, List.append_assoc]

namespace Template

/-- The bodies that a template passes through. -/
def bodies (t : Template) : List Text :=
  t.filterMap Piece.body?

/-- Whether no body is passed through. -/
def hasNoBody (t : Template) : Bool :=
  t.all (! ·.isBody)

variable {t : Template} {p : Piece} {escape : Text → Text} {id : Text}

theorem bodies_append (t u : Template) : bodies (t ++ u) = bodies t ++ bodies u :=
  List.filterMap_append

theorem bodies_flatten (ts : List Template) : bodies ts.flatten = ts.flatMap bodies := by
  induction ts with
  | nil => rfl
  | cons t ts ih => rw [List.flatten_cons, bodies_append, ih, List.flatMap_cons]

theorem bodies_cons_of_not_isBody (hp : p.isBody = false) : bodies (p :: t) = bodies t := by
  cases p with
  | body text => cases hp
  | _ => rfl

theorem withoutBodies_cons_of_not_isBody (hp : p.isBody = false) :
    withoutBodies (p :: t) = p :: withoutBodies t :=
  List.filter_cons_of_pos (by simpa using hp)

theorem bodies_eq_nil (h : t.hasNoBody = true) : t.bodies = [] := by
  induction t with
  | nil => rfl
  | cons p t ih =>
    obtain ⟨hp, ht⟩ := Bool.and_eq_true_iff.mp h
    rw [bodies_cons_of_not_isBody (by simpa using hp)]
    exact ih ht

theorem withoutBodies_eq_self (h : t.hasNoBody = true) : t.withoutBodies = t :=
  List.filter_eq_self.mpr (List.all_eq_true.mp h)

theorem hasNoBody_flatten {ts : List Template} (h : ∀ t ∈ ts, t.hasNoBody = true) :
    hasNoBody ts.flatten = true := by
  rw [hasNoBody, List.all_flatten]
  exact List.all_eq_true.mpr h

/-- A filled template is its bodies between the gaps that are left when they are cut out. -/
theorem exists_gaps (escape : Text → Text) (id : Text) (t : Template) :
    ∃ gaps : List Text, gaps.length = t.bodies.length + 1 ∧
      gaps.flatten = t.withoutBodies.fill escape id ∧
        t.fill escape id = interleave gaps t.bodies := by
  induction t with
  | nil => exact ⟨[[]], rfl, rfl, rfl⟩
  | cons p t ih =>
    obtain ⟨gaps, hlength, hcut, hfill⟩ := ih
    have hsplit : fill escape id (p :: t) = p.fill escape id ++ fill escape id t :=
      List.flatMap_cons
    by_cases hp : p.isBody = true
    · cases p with
      | body text =>
        refine ⟨[] :: gaps, congrArg (· + 1) hlength, hcut, ?_⟩
        rw [hsplit, hfill]
        rfl
      | _ => cases hp
    · -- What the piece writes belongs to the first gap of what follows.
      rw [Bool.not_eq_true] at hp
      cases gaps with
      | nil => cases hlength
      | cons gap gaps =>
        refine ⟨(p.fill escape id ++ gap) :: gaps, ?_, ?_, ?_⟩
        · rw [bodies_cons_of_not_isBody hp, List.length_cons, ← hlength, List.length_cons]
        · rw [withoutBodies_cons_of_not_isBody hp, List.flatten_cons, List.append_assoc,
            ← List.flatten_cons, hcut]
          rfl
        · rw [bodies_cons_of_not_isBody hp, interleave_append_cons, ← hfill, hsplit]

end Template

end Markup

namespace Expansion

open Markup

/-- The expansion with the bodies cut out that it passes through. -/
def withoutBodies : Expansion → Expansion
  | plain markup => .plain markup.withoutBodies
  | widget stem markup calls => .widget stem markup.withoutBodies calls
  | warning w => .warning w

theorem template_withoutBodies (x : Expansion) :
    x.withoutBodies.template = x.template.withoutBodies := by
  cases x <;> rfl

theorem id_withoutBodies (ids : Ids) (drawn : List Text) (x : Expansion) :
    x.withoutBodies.id ids drawn = x.id ids drawn := by
  cases x <;> rfl

theorem withoutBodies_eq_self {x : Expansion} (h : x.template.hasNoBody = true) :
    x.withoutBodies = x := by
  cases x with
  | warning w => rfl
  | plain markup => exact congrArg plain (Template.withoutBodies_eq_self h)
  | widget stem markup calls =>
    exact congrArg (widget stem · calls) (Template.withoutBodies_eq_self h)

/-! ### Kinds that pass nothing through -/

theorem hasNoBody_button (o : Occurrence) : (button o).template.hasNoBody = true := by
  simp only [button]
  split <;> rfl

theorem hasNoBody_galleryItem (image : Image) : (galleryItem image).hasNoBody = true := by
  unfold galleryItem
  split <;> rfl

theorem hasNoBody_gallery (h : Host) (o : Occurrence) :
    (gallery h o).template.hasNoBody = true := by
  simp only [gallery_eq, galleryMarkup]
  split
  · rfl
  · refine Template.hasNoBody_flatten ?_
    simp only [List.forall_mem_cons]
    refine ⟨rfl, Template.hasNoBody_flatten ?_, rfl, by simp⟩
    intro t ht
    obtain ⟨image, -, rfl⟩ := List.mem_map.mp ht
    exact hasNoBody_galleryItem image

theorem hasNoBody_countdown (o : Occurrence) : (countdown o).template.hasNoBody = true := by
  simp only [countdown]
  split <;> rfl

theorem hasNoBody_contactForm (h : Host) (o : Occurrence) :
    (contactForm h o).template.hasNoBody = true := by
  have hoptional : ∀ name value, (hiddenUnlessEmpty name value).hasNoBody = true := by
    intro name value
    unfold hiddenUnlessEmpty
    split <;> rfl
  refine Template.hasNoBody_flatten ?_
  simp only [List.forall_mem_cons]
  exact ⟨rfl, rfl, rfl, rfl, hoptional _ _, hoptional _ _, hoptional _ _, rfl, rfl, rfl, rfl,
    by simp⟩

/-! ### Kinds that pass bodies through -/

theorem bodies_alert (o : Occurrence) : (alert o).template.bodies = [Text.trim o.body] := by
  simp only [alert]
  split <;> rfl

theorem bodies_numbered {item : Nat → Child → Template} {part : Child → List Text}
    (h : ∀ i child, (item i child).bodies = part child) (children : List Child) :
    (numbered item children).bodies = children.flatMap part := by
  have hitem : ∀ p : Child × Nat, Template.bodies (item p.2 p.1) = part p.1 := fun p => h p.2 p.1
  rw [numbered, Template.bodies_flatten, List.flatMap_map]
  simp only [hitem]
  rw [← List.flatMap_map Prod.fst part, List.zipIdx_map_fst]

theorem bodies_parts (i : Nat) (child : Child) :
    (tabToggle i child).bodies = [] ∧ (tabPane i child).bodies = [child.body] ∧
      (accordionItem i child).bodies = [child.body] := by
  unfold tabToggle tabPane accordionItem
  split <;> exact ⟨rfl, rfl, rfl⟩

theorem bodies_tabs (o : Occurrence) :
    (tabs o).template.bodies = (o.children "tab").map Child.body := by
  have htoggles : (numbered tabToggle (o.children "tab")).bodies = [] :=
    (bodies_numbered (fun i child => (bodies_parts i child).1) _).trans (by simp)
  have hpanes := bodies_numbered (fun i child => (bodies_parts i child).2.1) (o.children "tab")
  rw [← List.map_eq_flatMap] at hpanes
  unfold tabs
  split
  · next hnil =>
    rw [hnil]
    rfl
  · rw [template, Template.bodies_flatten, ← hpanes]
    show (numbered tabToggle _).bodies ++ ((numbered tabPane _).bodies ++ []) = _
    rw [htoggles]
    exact List.append_nil _

theorem bodies_accordion (o : Occurrence) :
    (accordion o).template.bodies = (o.children "item").map Child.body := by
  have hitems := bodies_numbered (fun i child => (bodies_parts i child).2.2) (o.children "item")
  rw [← List.map_eq_flatMap] at hitems
  unfold accordion
  split
  · next hnil =>
    rw [hnil]
    rfl
  · rw [template, Template.bodies_flatten, ← hitems]
    exact List.append_nil _

end Expansion

namespace Kind

/-- The bodies that a shortcode passes through. -/
def bodies (k : Kind) (o : Occurrence) : List Text :=
  match k with
  | .alert => [Text.trim o.body]
  | .tabs => (o.children "tab").map Child.body
  | .accordion => (o.children "item").map Child.body
  | .button | .gallery | .countdown | .contactForm => []

variable {k : Kind}

theorem hasNoBody_expand (hk : k ∉ [alert, tabs, accordion]) (h : Host) (o : Occurrence) :
    (k.expand h o).template.hasNoBody = true := by
  cases k with
  | button => exact Expansion.hasNoBody_button o
  | gallery => exact Expansion.hasNoBody_gallery h o
  | countdown => exact Expansion.hasNoBody_countdown o
  | contactForm => exact Expansion.hasNoBody_contactForm h o
  | alert => simp at hk
  | tabs => simp at hk
  | accordion => simp at hk

theorem bodies_expand (k : Kind) (h : Host) (o : Occurrence) :
    (k.expand h o).template.bodies = k.bodies o := by
  have hnone : k ∉ [alert, tabs, accordion] → (k.expand h o).template.bodies = [] :=
    fun hk => Markup.Template.bodies_eq_nil (hasNoBody_expand hk h o)
  cases k with
  | alert => exact Expansion.bodies_alert o
  | tabs => exact Expansion.bodies_tabs o
  | accordion => exact Expansion.bodies_accordion o
  | button | gallery | countdown | contactForm => exact hnone (by decide)

end Kind

end Shortcode
