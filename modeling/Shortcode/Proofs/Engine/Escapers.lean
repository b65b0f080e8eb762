import Shortcode.Proofs.Engine.Rescan

/-! # Escapers

A host may supply any escaper. What an expansion is made of is fixed before its values are escaped, apart
from one place: whether a class is left out is decided by its escaped form. So the markup is one template
for all escapers that give the empty text for the class exactly if the class is empty. -/

namespace Shortcode

namespace Markup

/-- The class name of a piece that is one. -/
def Piece.className? : Piece → Option Text
  | className text => some text
  | _ => none

/-- The pieces that a piece stands for if a class is left out exactly if it is empty: the space in front
of a class is markup, and the class is a value like any other. -/
def Piece.decided : Piece → Template
  | className text => if text = [] then [] else [.literal [' '], .value text]
  | p => [p]

namespace Template

/-- The class names of a template. -/
def classNames (t : Template) : List Text :=
  t.filterMap Piece.className?

/-- The template in which classes are left out by what was supplied and not by what becomes of it. -/
def decided (t : Template) : Template :=
  t.flatMap Piece.decided

/-- The number of values in a template. -/
def valueCount (t : Template) : Nat :=
  t.countP fun p => match p with
    | .value _ => true
    | _ => false

variable {t : Template}

theorem classNames_append (t u : Template) : classNames (t ++ u) = t.classNames ++ u.classNames :=
  List.filterMap_append

theorem classNames_flatten_eq_nil {ts : List Template} (h : ∀ t ∈ ts, t.classNames = []) :
    classNames ts.flatten = [] := by
  induction ts with
  | nil => rfl
  | cons t ts ih =>
    obtain ⟨ht, hts⟩ := List.forall_mem_cons.mp h
    rw [List.flatten_cons, classNames_append, ht, ih hts, List.append_nil]

theorem decided_eq_self (h : t.classNames = []) : t.decided = t := by
  induction t with
  | nil => rfl
  | cons p t ih =>
    cases p with
    | className text => cases h
    | literal text | value text | body text | id => exact congrArg (_ :: ·) (ih h)

theorem classNames_decided (t : Template) : t.decided.classNames = [] := by
  induction t with
  | nil => rfl
  | cons p t ih =>
    have hp : classNames p.decided = [] := by
      cases p with
      | className text =>
        rw [Piece.decided]
        split <;> rfl
      | literal text | value text | body text | id => rfl
    rw [decided, List.flatMap_cons, classNames_append, hp, List.nil_append]
    exact ih

/-- With one class, a template is filled as the one that leaves out empty classes if and only if the
escaped class is empty exactly if the class is. -/
theorem fill_eq_fill_decided_iff (escape : Text → Text) (id : Text) {name : Text}
    (h : t.classNames = [name]) :
    t.fill escape id = t.decided.fill escape id ↔ (escape name = [] ↔ name = []) := by
  obtain ⟨front, p, back, rfl, hfront, hp, hback⟩ := List.filterMap_eq_cons_iff.mp h
  have hclear : decided front = front := decided_eq_self (List.filterMap_eq_nil_iff.mpr hfront)
  have hclear' : decided back = back := decided_eq_self hback
  cases p with
  | literal text | value text | body text | id => cases hp
  | className text =>
    obtain rfl := Option.some.inj hp
    have hdecided : decided (front ++ .className text :: back) =
        front ++ ((Piece.className text).decided ++ back) := by
      rw [decided, List.flatMap_append, List.flatMap_cons]
      exact congrArg₂ (fun x y => x ++ (Piece.decided (.className text) ++ y)) hclear hclear'
    rw [hdecided, fill, fill, List.flatMap_append, List.flatMap_append, List.flatMap_cons,
      List.flatMap_append, List.append_cancel_left_eq, List.append_cancel_right_eq, Piece.fill,
      Piece.decided]
    by_cases hname : text = [] <;> by_cases hescaped : escape text = [] <;>
      simp [hname, hescaped, Piece.fill]

/-- If every value becomes the same text then each of them adds the length of this text to the
markup. -/
theorem length_fill_const (h : t.classNames = []) (s id : Text) :
    (t.fill (fun _ => s) id).length =
      (t.fill (fun _ => []) id).length + t.valueCount * s.length := by
  induction t with
  | nil => simp [fill, valueCount]
  | cons p t ih =>
    cases p with
    | className text => cases h
    | literal text | body text | id =>
      have hrest := ih h
      simp only [fill, List.flatMap_cons, List.length_append, Piece.fill] at hrest ⊢
      rw [hrest, Nat.add_assoc]
      rfl
    | value text =>
      have hrest := ih h
      have hcount : valueCount (.value text :: t) = valueCount t + 1 := List.countP_cons_of_pos rfl
      simp only [fill, List.flatMap_cons, List.length_append, Piece.fill] at hrest ⊢
      rw [hrest, hcount, Nat.add_mul, List.length_nil]
      omega

end Template

end Markup

namespace Expansion

open Markup

/-! ### One class for each widget -/

theorem classNames_numbered {item : Nat → Child → Template}
    (h : ∀ i child, (item i child).classNames = []) (children : List Child) :
    (numbered item children).classNames = [] := by
  refine Template.classNames_flatten_eq_nil ?_
  intro t ht
  obtain ⟨⟨child, i⟩, -, rfl⟩ := List.mem_map.mp ht
  exact h i child

theorem classNames_parts (i : Nat) (child : Child) :
    (tabToggle i child).classNames = [] ∧ (tabPane i child).classNames = [] ∧
      (accordionItem i child).classNames = [] := by
  unfold tabToggle tabPane accordionItem
  split <;> exact ⟨rfl, rfl, rfl⟩

theorem classNames_galleryItem (image : Image) : (galleryItem image).classNames = [] := by
  unfold galleryItem
  split <;> rfl

theorem classNames_hiddenUnlessEmpty (name : String) (value : Text) :
    (hiddenUnlessEmpty name value).classNames = [] := by
  unfold hiddenUnlessEmpty
  split <;> rfl

end Expansion

/-- The markup of an expansion that is no warning. -/
def Expansion.markup? : Expansion → Option Markup.Template
  | warning _ => none
  | plain markup => some markup
  | widget _ markup _ => some markup

open Markup in
/-- Unless a warning is shown, the markup has the class from the attributes and no other. -/
theorem Kind.classNames_expand {k : Kind} {h : Host} {o : Occurrence} {markup : Template}
    (hmarkup : (k.expand h o).markup? = some markup) :
    markup.classNames = [(Attributes.parse o.raw).getD "class" ""] := by
  cases k with
  | button =>
    obtain rfl := Option.some.inj hmarkup
    simp only [List.flatten_cons, List.flatten_nil, Template.classNames_append]
    split <;> rfl
  | alert =>
    obtain rfl := Option.some.inj hmarkup
    simp only [List.flatten_cons, List.flatten_nil, Template.classNames_append]
    split <;> rfl
  | gallery =>
    have hitems : ∀ images : List Image,
        Template.classNames (images.flatMap Expansion.galleryItem) = [] := by
      intro images
      rw [List.flatMap_def]
      refine Template.classNames_flatten_eq_nil ?_
      intro t ht
      obtain ⟨image, -, rfl⟩ := List.mem_map.mp ht
      exact Expansion.classNames_galleryItem image
    simp only [expand, Expansion.gallery_eq, Expansion.galleryMarkup] at hmarkup
    split at hmarkup
    · cases hmarkup
    · obtain rfl := Option.some.inj hmarkup
      simp only [List.flatten_cons, List.flatten_nil, Template.classNames_append, hitems]
      rfl
  | tabs =>
    have htoggles := Expansion.classNames_numbered fun i child =>
      (Expansion.classNames_parts i child).1
    have hpanes := Expansion.classNames_numbered fun i child =>
      (Expansion.classNames_parts i child).2.1
    simp only [expand, Expansion.tabs] at hmarkup
    split at hmarkup
    · cases hmarkup
    · obtain rfl := Option.some.inj hmarkup
      simp only [List.flatten_cons, List.flatten_nil, Template.classNames_append, htoggles, hpanes]
      rfl
  | accordion =>
    have hitems := Expansion.classNames_numbered fun i child =>
      (Expansion.classNames_parts i child).2.2
    simp only [expand, Expansion.accordion] at hmarkup
    split at hmarkup
    · cases hmarkup
    · obtain rfl := Option.some.inj hmarkup
      simp only [List.flatten_cons, List.flatten_nil, Template.classNames_append, hitems]
      rfl
  | countdown =>
    simp only [expand, Expansion.countdown] at hmarkup
    split at hmarkup
    · cases hmarkup
    · obtain rfl := Option.some.inj hmarkup
      rfl
  | contactForm =>
    obtain rfl := Option.some.inj hmarkup
    simp only [Asked.answer_bind, Asked.answer_pure, List.flatten_cons, List.flatten_nil,
      Template.classNames_append, Expansion.classNames_hiddenUnlessEmpty]
    rfl

/-! ### One template for all escapers -/

namespace Engine

open Markup

/-- The engine with another escaper. -/
def escaping (e : Engine) (escape : Text → Text) : Engine :=
  { e with host := { e.host with escape } }

variable {k : Kind} {part : Text} {o : Occurrence}

/-- What a shortcode becomes is fixed before anything is escaped. -/
theorem renderOnly_escaping (e : Engine) (escape : Text → Text) (hpart : k.grammar part o)
    (drawn : List Text) :
    (e.escaping escape).renderOnly k drawn part = (k.expand e.host o).settle escape e.ids drawn := by
  have hexpand : k.expand (e.escaping escape).host o = k.expand e.host o := by
    cases k with
    | gallery =>
      simp only [Kind.expand, Expansion.gallery_eq]
      rfl
    | _ => rfl
  rw [renderOnly_of_grammar _ drawn hpart, hexpand]
  rfl

/-- A shortcode makes the same warnings, calls and draws with every escaper. There is one template, which
every escaper fills with the escaped values, apart from those that make an empty class into a text or a
class into the empty text: a class is left out by its escaped form. -/
theorem expansion_fills_one_template_iff (e : Engine) (hpart : k.grammar part o) (drawn : List Text) :
    let name := (Attributes.parse o.raw).getD "class" ""
    let r := e.renderOnly k drawn part
    ∃ t : Template, t.classNames = [] ∧ ∀ escape : Text → Text,
      let r' := (e.escaping escape).renderOnly k drawn part
      r'.warnings = r.warnings ∧ r'.calls = r.calls ∧ r'.drawn = r.drawn ∧
        (r'.text = t.fill escape ((k.expand e.host o).id e.ids drawn) ↔
          (r.warnings = [] → (escape name = [] ↔ name = []))) := by
  intro name r
  have hsettle : r = (k.expand e.host o).settle e.host.escape e.ids drawn :=
    e.renderOnly_of_grammar drawn hpart
  have hclass : ∀ markup, (k.expand e.host o).markup? = some markup → markup.classNames = [name] :=
    fun _ => Kind.classNames_expand
  refine ⟨(k.expand e.host o).template.decided, Template.classNames_decided _, fun escape => ?_⟩
  simp only [renderOnly_escaping e escape hpart drawn, hsettle, Expansion.settle_text]
  generalize k.expand e.host o = x at hclass
  cases x with
  | warning w => exact ⟨rfl, rfl, rfl, by simp [Expansion.settle], fun _ => rfl⟩
  | plain markup | widget stem markup calls =>
    refine ⟨rfl, rfl, rfl, (Template.fill_eq_fill_decided_iff escape _ (hclass markup rfl)).trans ?_⟩
    exact ⟨fun h _ => h, fun h => h rfl⟩

/-- An escaper that marks every value, also an empty one, for a gallery with a class. -/
theorem gallery_with_class_fills_template :
    let e : Engine := { host := { token := [] }, ids := .sequential }
    let part : Text := "[gallery images=\"5\" class=\"wide\"]"
    let o : Occurrence := ⟨"images=\"5\" class=\"wide\"", []⟩
    let mark : Text → Text := fun text => '«' :: (text ++ ['»'])
    Kind.gallery.grammar part o ∧
      ∃ t : Template, t.classNames = [] ∧
        ((e.escaping mark).renderOnly .gallery [] part).text = t.fill mark "gallery-1" ∧
        (e.renderOnly .gallery [] part).text = t.fill Markup.escape "gallery-1" := by
  intro e part o mark
  have hpart : Kind.gallery.grammar part o :=
    (Kind.reads_occurrence .gallery).grammar_of_read (by decide +kernel)
  have hname : (Attributes.parse o.raw).getD "class" "" = "wide" := by decide +kernel
  obtain ⟨t, ht, hfill⟩ := e.expansion_fills_one_template_iff hpart []
  have hid : (Kind.gallery.expand e.host o).id e.ids [] = "gallery-1" := by decide +kernel
  rw [hid, hname] at hfill
  refine ⟨hpart, t, ht, (hfill mark).2.2.2.mpr fun _ => by simp [mark], ?_⟩
  exact (hfill Markup.escape).2.2.2.mpr fun _ => by decide

/-- A button without a class has one in its list if the escaper makes it from the empty text. No template
covers all escapers: with every value becoming a text of one character the markup is six characters longer
than without any, and with two characters it is only eleven characters longer. -/
theorem no_template_for_all_escapers :
    let e : Engine := { host := { token := [] }, ids := .sequential }
    let mark : Text → Text := fun text => '«' :: (text ++ ['»'])
    ((e.escaping mark).renderOnly .button [] "[button]Go[/button]").text =
        "<a href=\"«#»\" class=\"btn btn-«primary» «»\" target=\"«_self»\">«Go»</a>" ∧
      ¬ ∀ (e : Engine) (k : Kind) (part : Text) (o : Occurrence) (drawn : List Text),
        k.grammar part o → ∃ (t : Template) (id : Text), t.classNames = [] ∧
          ∀ escape, ((e.escaping escape).renderOnly k drawn part).text = t.fill escape id := by
  intro e mark
  refine ⟨by decide +kernel, ?_⟩
  intro hclaim
  have hpart : Kind.button.grammar "[button]Go[/button]" ⟨[], "Go"⟩ :=
    (Kind.reads_occurrence .button).grammar_of_read (by decide +kernel)
  obtain ⟨t, id, ht, hfill⟩ := hclaim e .button _ _ [] hpart
  let button (s : Text) : Text :=
    ((e.escaping fun _ => s).renderOnly .button [] "[button]Go[/button]").text
  have hlength : ∀ s, (button s).length =
      (t.fill (fun _ => []) id).length + t.valueCount * s.length := by
    intro s
    rw [show button s = t.fill (fun _ => s) id from hfill _, Template.length_fill_const ht]
  have hnone : (button []).length = 42 := by decide +kernel
  have hone : (button ['x']).length = 48 := by decide +kernel
  have htwo : (button ['x', 'x']).length = 53 := by decide +kernel
  rw [hlength, List.length_nil] at hnone
  rw [hlength, List.length_singleton] at hone
  rw [hlength, List.length_cons, List.length_singleton] at htwo
  omega

end Engine

end Shortcode
