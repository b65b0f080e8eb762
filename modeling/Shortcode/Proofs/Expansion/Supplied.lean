import Shortcode.Proofs.Attributes
import Shortcode.Proofs.Expansion.Settled
import Shortcode.Proofs.Markup.Slots
import Shortcode.Proofs.Tag.Parts

/-! # Where supplied values come from

The values in an expansion are attributes, parts of the body, answers of the host and the element
ID; a date and a time are joined by a blank. So a property of texts that their parts inherit holds
of every supplied value if it holds of the shortcode, the answers and the ID. -/

namespace Shortcode

/-- A property that parts of a text inherit, that texts without brackets have, and that is kept
where two texts are joined by a blank. -/
structure Inherited (P : Text → Prop) : Prop where
  part : ∀ {x y}, x <:+: y → P y → P x
  bracketFree : ∀ {x}, Text.isBracketFree x = true → P x
  joined : ∀ {x y}, P x → P y → P (x ++ ' ' :: y)

/-- Everything that a host answers has a property. -/
structure Host.Answers (h : Host) (P : Text → Prop) : Prop where
  image : ∀ id image, h.image? id = some image → P image.url ∧ P image.alt ∧ P image.caption
  token : P h.token
  url : P h.url
  label : ∀ l, P (h.label l)

theorem Inherited.not_mem {b : Char} (hb : IsBracket b) : Inherited (b ∉ ·) where
  part := fun hwithin hy hmem => hy (hwithin.subset hmem)
  bracketFree := fun hx => Text.not_mem_of_isBracketFree hx hb
  joined := by
    intro x y hx hy hmem
    rcases List.mem_append.mp hmem with hmem | hmem
    · exact hx hmem
    · rcases List.mem_cons.mp hmem with rfl | hmem
      · rcases hb with hb | hb <;> exact absurd hb (by decide)
      · exact hy hmem

theorem Host.Answers.mono {h : Host} {P Q : Text → Prop} (hh : h.Answers P) (hPQ : ∀ x, P x → Q x) :
    h.Answers Q where
  image := by
    intro id image hfound
    obtain ⟨hurl, halt, hcaption⟩ := hh.image id image hfound
    exact ⟨hPQ _ hurl, hPQ _ halt, hPQ _ hcaption⟩
  token := hPQ _ hh.token
  url := hPQ _ hh.url
  label := fun l => hPQ _ (hh.label l)

namespace Markup.Template

variable {P : Text → Prop} {id : Text} {text : Text} {t u : Template}

/-- Every value that is supplied for a template has a property. -/
def Supplies (P : Text → Prop) (id : Text) (t : Template) : Prop :=
  ∀ v ∈ t.supplied id, P v

@[simp] theorem supplies_nil : Supplies P id [] := by
  simp [Supplies, supplied]

@[simp] theorem supplies_literal : Supplies P id (.literal text :: t) ↔ t.Supplies P id := by
  simp [Supplies, supplied, Piece.supplied?]

@[simp] theorem supplies_ite_literal {c : Prop} [Decidable c] {other : Text} :
    Supplies P id ((if c then .literal text else .literal other) :: t) ↔ t.Supplies P id := by
  split <;> exact supplies_literal

@[simp] theorem supplies_value : Supplies P id (.value text :: t) ↔ P text ∧ t.Supplies P id := by
  simp [Supplies, supplied, Piece.supplied?]

@[simp] theorem supplies_className :
    Supplies P id (.className text :: t) ↔ P text ∧ t.Supplies P id := by
  simp [Supplies, supplied, Piece.supplied?]

@[simp] theorem supplies_body : Supplies P id (.body text :: t) ↔ P text ∧ t.Supplies P id := by
  simp [Supplies, supplied, Piece.supplied?]

@[simp] theorem supplies_id : Supplies P id (.id :: t) ↔ P id ∧ t.Supplies P id := by
  simp [Supplies, supplied, Piece.supplied?]

@[simp] theorem supplies_append : (t ++ u).Supplies P id ↔ t.Supplies P id ∧ u.Supplies P id := by
  simp only [Supplies, supplied, List.filterMap_append, List.forall_mem_append]

theorem supplies_flatten {ts : List Template} (h : ∀ t ∈ ts, t.Supplies P id) :
    Supplies P id ts.flatten := by
  induction ts with
  | nil => exact supplies_nil
  | cons t ts ih =>
    rw [List.flatten_cons, supplies_append]
    exact ⟨h t (List.mem_cons_self ..), ih fun u hu => h u (List.mem_cons_of_mem t hu)⟩

end Markup.Template

namespace Expansion

open Markup

variable {P : Text → Prop} {h : Host} {o : Occurrence} {id : Text}

theorem attribute_inherits (hP : Inherited P) (hraw : P o.raw) {name fallback : Text}
    (hfallback : Text.isBracketFree fallback = true) :
    P ((Attributes.parse o.raw).getD name fallback) := by
  rcases Attributes.getD_eq_or o.raw name fallback with heq | hwithin
  · rw [heq]
    exact hP.bracketFree hfallback
  · exact hP.part hwithin hraw

theorem supplies_numbered {item : Nat → Child → Template} {children : List Child}
    (h : ∀ child ∈ children, ∀ i, (item i child).Supplies P id) :
    (numbered item children).Supplies P id := by
  refine Template.supplies_flatten ?_
  intro t ht
  obtain ⟨⟨child, i⟩, hmem, rfl⟩ := List.mem_map.mp ht
  exact h child (List.fst_mem_of_mem_zipIdx hmem) i

theorem supplies_button (hP : Inherited P) (hraw : P o.raw) (hbody : P o.body) :
    (button o).template.Supplies P id := by
  have hlabel : P (Text.trim o.body) := hP.part (Text.trim_isInfix o.body) hbody
  refine Template.supplies_flatten ?_
  simp only [List.forall_mem_cons]
  refine ⟨?_, ?_, ?_, by simp⟩
  · simp only [Template.supplies_literal, Template.supplies_value]
    exact ⟨attribute_inherits hP hraw rfl, attribute_inherits hP hraw rfl, Template.supplies_nil⟩
  · split
    · exact Template.supplies_nil
    · simp only [Template.supplies_literal, Template.supplies_value]
      exact ⟨attribute_inherits hP hraw rfl, Template.supplies_nil⟩
  · simp only [Template.supplies_literal, Template.supplies_value, Template.supplies_className]
    exact ⟨attribute_inherits hP hraw rfl, attribute_inherits hP hraw rfl, hlabel,
      Template.supplies_nil⟩

theorem supplies_alert (hP : Inherited P) (hraw : P o.raw) (hbody : P o.body) :
    (alert o).template.Supplies P id := by
  have htext : P (Text.trim o.body) := hP.part (Text.trim_isInfix o.body) hbody
  refine Template.supplies_flatten ?_
  simp only [List.forall_mem_cons]
  refine ⟨?_, ?_, ?_, ?_, ?_, by simp⟩
  · simp only [Template.supplies_literal, Template.supplies_value]
    exact ⟨attribute_inherits hP hraw rfl, Template.supplies_nil⟩
  · split
    · simp only [Template.supplies_literal, Template.supplies_nil]
    · exact Template.supplies_nil
  · simp only [Template.supplies_literal, Template.supplies_className, Template.supplies_body]
    exact ⟨attribute_inherits hP hraw rfl, htext, Template.supplies_nil⟩
  · split
    · simp only [dismissControl, Template.supplies_literal, Template.supplies_nil]
    · exact Template.supplies_nil
  · simp only [Template.supplies_literal, Template.supplies_nil]

theorem supplies_galleryItem {image : Image} (hurl : P image.url) (halt : P image.alt)
    (hcaption : P image.caption) : (galleryItem image).Supplies P id := by
  refine Template.supplies_flatten ?_
  simp only [List.forall_mem_cons]
  refine ⟨?_, ?_, ?_, by simp⟩
  · simp only [Template.supplies_literal, Template.supplies_value]
    exact ⟨hurl, halt, Template.supplies_nil⟩
  · split
    · exact Template.supplies_nil
    · simp only [Template.supplies_literal, Template.supplies_value]
      exact ⟨hcaption, Template.supplies_nil⟩
  · simp only [Template.supplies_literal, Template.supplies_nil]

theorem supplies_gallery (hP : Inherited P) (hraw : P o.raw) (hid : P id)
    (himage : ∀ id image, h.image? id = some image → P image.url ∧ P image.alt ∧ P image.caption) :
    (gallery h o).template.Supplies P id := by
  simp only [gallery_eq, galleryMarkup]
  split
  · simp only [template, Template.supplies_literal, Template.supplies_nil]
  · refine Template.supplies_flatten ?_
    simp only [List.forall_mem_cons]
    refine ⟨?_, Template.supplies_flatten ?_, ?_, by simp⟩
    · simp only [Template.supplies_literal, Template.supplies_value, Template.supplies_className,
        Template.supplies_id]
      exact ⟨hid, attribute_inherits hP hraw rfl, attribute_inherits hP hraw rfl,
        attribute_inherits hP hraw rfl, Template.supplies_nil⟩
    · intro t ht
      obtain ⟨image, hmem, rfl⟩ := List.mem_map.mp ht
      obtain ⟨imageId, -, hfound⟩ := List.mem_filterMap.mp hmem
      obtain ⟨hurl, halt, hcaption⟩ := himage imageId image hfound
      exact supplies_galleryItem hurl halt hcaption
    · simp only [Template.supplies_literal, Template.supplies_nil]

theorem supplies_tabs (hP : Inherited P) (hraw : P o.raw) (hbody : P o.body) (hid : P id) :
    (tabs o).template.Supplies P id := by
  have hchild : ∀ child ∈ o.children "tab", P child.title ∧ P child.body := by
    intro child hmem
    obtain ⟨htitle, hinner⟩ := Occurrence.isInfix_of_mem_children (by decide) hmem
    exact ⟨hP.part htitle hbody, hP.part hinner hbody⟩
  unfold tabs
  split
  · simp only [template, Template.supplies_literal, Template.supplies_nil]
  · refine Template.supplies_flatten ?_
    simp only [List.forall_mem_cons]
    refine ⟨?_, supplies_numbered ?_, ?_, supplies_numbered ?_, ?_, by simp⟩
    · simp only [Template.supplies_literal, Template.supplies_className, Template.supplies_id]
      exact ⟨attribute_inherits hP hraw rfl, hid, Template.supplies_nil⟩
    · intro child hmem i
      simp only [tabToggle, number, Template.supplies_literal, Template.supplies_ite_literal,
        Template.supplies_id, Template.supplies_value]
      exact ⟨hid, hid, (hchild child hmem).1, Template.supplies_nil⟩
    · simp only [Template.supplies_literal, Template.supplies_id]
      exact ⟨hid, Template.supplies_nil⟩
    · intro child hmem i
      simp only [tabPane, number, Template.supplies_literal, Template.supplies_ite_literal,
        Template.supplies_id, Template.supplies_body]
      exact ⟨hid, (hchild child hmem).2, Template.supplies_nil⟩
    · simp only [Template.supplies_literal, Template.supplies_nil]

theorem supplies_accordion (hP : Inherited P) (hraw : P o.raw) (hbody : P o.body) (hid : P id) :
    (accordion o).template.Supplies P id := by
  have hchild : ∀ child ∈ o.children "item", P child.title ∧ P child.body := by
    intro child hmem
    obtain ⟨htitle, hinner⟩ := Occurrence.isInfix_of_mem_children (by decide) hmem
    exact ⟨hP.part htitle hbody, hP.part hinner hbody⟩
  unfold accordion
  split
  · simp only [template, Template.supplies_literal, Template.supplies_nil]
  · refine Template.supplies_flatten ?_
    simp only [List.forall_mem_cons]
    refine ⟨?_, supplies_numbered ?_, ?_, by simp⟩
    · simp only [Template.supplies_literal, Template.supplies_className, Template.supplies_id]
      exact ⟨attribute_inherits hP hraw rfl, hid, Template.supplies_nil⟩
    · intro child hmem i
      simp only [accordionItem, number, Template.supplies_literal, Template.supplies_ite_literal,
        Template.supplies_id, Template.supplies_value, Template.supplies_body]
      exact ⟨hid, hid, (hchild child hmem).1, hid, hid, (hchild child hmem).2,
        Template.supplies_nil⟩
    · simp only [Template.supplies_literal, Template.supplies_nil]

theorem supplies_countdown (hP : Inherited P) (hraw : P o.raw) (hid : P id) :
    (countdown o).template.Supplies P id := by
  have hmessage : P ((Attributes.parse o.raw).getD "message" "Countdown finished!") :=
    attribute_inherits hP hraw rfl
  have htarget : P ((Attributes.parse o.raw).getD "date" "" ++
      ' ' :: (Attributes.parse o.raw).getD "time" "00:00:00") :=
    hP.joined (attribute_inherits hP hraw rfl) (attribute_inherits hP hraw rfl)
  have hunit : ∀ unit label, (countdownUnit unit label).Supplies P id := by
    intro unit label
    simp only [countdownUnit, Template.supplies_literal, Template.supplies_nil]
  simp only [countdown]
  split
  · simp only [template, Template.supplies_literal, Template.supplies_nil]
  · refine Template.supplies_flatten ?_
    simp only [List.forall_mem_cons]
    refine ⟨?_, hunit _ _, hunit _ _, hunit _ _, hunit _ _, ?_, by simp⟩
    · simp only [Template.supplies_literal, Template.supplies_value, Template.supplies_className,
        Template.supplies_id]
      exact ⟨hid, attribute_inherits hP hraw rfl, htarget, attribute_inherits hP hraw rfl, hmessage,
        Template.supplies_nil⟩
    · simp only [Template.supplies_literal, Template.supplies_value]
      exact ⟨hmessage, Template.supplies_nil⟩

theorem supplies_hiddenUnlessEmpty {name : String} {value : Text} (hvalue : P value) :
    (hiddenUnlessEmpty name value).Supplies P id := by
  unfold hiddenUnlessEmpty hidden
  split
  · exact Template.supplies_nil
  · simp only [Template.supplies_literal, Template.supplies_value]
    exact ⟨hvalue, Template.supplies_nil⟩

theorem supplies_labelled {field opening closing : String} {label : Text} (hlabel : P label)
    (hid : P id) : (labelled field label opening closing).Supplies P id := by
  simp only [labelled, Template.supplies_literal, Template.supplies_value, Template.supplies_id]
  exact ⟨hid, hlabel, hid, Template.supplies_nil⟩

theorem supplies_contactForm (hP : Inherited P) (hh : h.Answers P) (hraw : P o.raw) (hid : P id) :
    (contactForm h o).template.Supplies P id := by
  refine Template.supplies_flatten ?_
  simp only [List.forall_mem_cons]
  refine ⟨?_, ?_, ?_, ?_, ?_, ?_, ?_, ?_, ?_, ?_, ?_, by simp⟩
  · simp only [Template.supplies_literal, Template.supplies_value, Template.supplies_className,
      Template.supplies_id]
    exact ⟨hid, attribute_inherits hP hraw rfl, hh.url, Template.supplies_nil⟩
  · simp only [hidden, Template.supplies_literal, Template.supplies_nil]
  · simp only [hidden, Template.supplies_literal, Template.supplies_id]
    exact ⟨hid, Template.supplies_nil⟩
  · simp only [hidden, Template.supplies_literal, Template.supplies_value]
    exact ⟨hh.token, Template.supplies_nil⟩
  · exact supplies_hiddenUnlessEmpty (attribute_inherits hP hraw rfl)
  · exact supplies_hiddenUnlessEmpty (attribute_inherits hP hraw rfl)
  · exact supplies_hiddenUnlessEmpty (attribute_inherits hP hraw rfl)
  · exact supplies_labelled (hh.label .name) hid
  · exact supplies_labelled (hh.label .email) hid
  · exact supplies_labelled (hh.label .message) hid
  · simp only [Template.supplies_literal, Template.supplies_value]
    exact ⟨hh.label .send, Template.supplies_nil⟩

end Expansion

/-- What an inherited property holds of comes out of an expansion as it went in. -/
theorem Kind.supplies_expand {P : Text → Prop} (hP : Inherited P) (k : Kind) {h : Host}
    (hh : h.Answers P) {o : Occurrence} (hraw : P o.raw) (hbody : P o.body) {id : Text}
    (hid : P id) : (k.expand h o).template.Supplies P id := by
  cases k with
  | button => exact Expansion.supplies_button hP hraw hbody
  | alert => exact Expansion.supplies_alert hP hraw hbody
  | gallery => exact Expansion.supplies_gallery hP hraw hid hh.image
  | tabs => exact Expansion.supplies_tabs hP hraw hbody hid
  | accordion => exact Expansion.supplies_accordion hP hraw hbody hid
  | countdown => exact Expansion.supplies_countdown hP hraw hid
  | contactForm => exact Expansion.supplies_contactForm hP hh hraw hid

/-! ### Square brackets in a button and in a gallery -/

namespace Expansion

variable {b : Char} {o : Occurrence} {ids : Ids} {drawn : List Text}

theorem not_mem_supplied_button (hb : IsBracket b) (hraw : b ∉ o.raw) (hbody : b ∉ o.body) :
    ∀ v ∈ (button o).supplied ids drawn, b ∉ v :=
  supplies_button (Inherited.not_mem hb) hraw hbody

theorem not_mem_supplied_gallery (hb : IsBracket b) {h : Host} (hraw : b ∉ o.raw)
    (hid : b ∉ ids.next drawn "gallery")
    (himage : ∀ id image, h.image? id = some image →
      b ∉ image.url ∧ b ∉ image.alt ∧ b ∉ image.caption) :
    ∀ v ∈ (gallery h o).supplied ids drawn, b ∉ v := by
  have hsupplies := supplies_gallery (Inherited.not_mem hb) hraw hid himage
  simp only [gallery_eq, galleryMarkup] at hsupplies ⊢
  split
  · intro v hv
    cases hv
  · rename_i hgiven
    rw [if_neg hgiven] at hsupplies
    exact hsupplies

end Expansion

end Shortcode
