import Shortcode.Kind

/-! # Switches

Which kinds of shortcodes are expanded. Every kind is on unless it is switched off. -/

namespace Shortcode

structure Switches where
  button : Bool := true
  alert : Bool := true
  gallery : Bool := true
  tabs : Bool := true
  accordion : Bool := true
  countdown : Bool := true
  contactForm : Bool := true
deriving DecidableEq, Repr

namespace Switches

def isOn (s : Switches) : Kind → Bool
  | .button => s.button
  | .alert => s.alert
  | .gallery => s.gallery
  | .tabs => s.tabs
  | .accordion => s.accordion
  | .countdown => s.countdown
  | .contactForm => s.contactForm

def set (s : Switches) (k : Kind) (on : Bool) : Switches :=
  match k with
  | .button => { s with button := on }
  | .alert => { s with alert := on }
  | .gallery => { s with gallery := on }
  | .tabs => { s with tabs := on }
  | .accordion => { s with accordion := on }
  | .countdown => { s with countdown := on }
  | .contactForm => { s with contactForm := on }

def ofFn (on : Kind → Bool) : Switches where
  button := on .button
  alert := on .alert
  gallery := on .gallery
  tabs := on .tabs
  accordion := on .accordion
  countdown := on .countdown
  contactForm := on .contactForm

def allOn : Switches := {}

def allOff : Switches :=
  ofFn fun _ => false

def only (kinds : List Kind) : Switches :=
  ofFn fun k => k ∈ kinds

def disable (s : Switches) (kinds : List Kind) : Switches :=
  kinds.foldl (fun s k => s.set k false) s

def enabled (s : Switches) : List Kind :=
  Kind.pipeline.filter s.isOn

@[simp] theorem isOn_set (s : Switches) (k l : Kind) (on : Bool) :
    (s.set k on).isOn l = if l = k then on else s.isOn l := by
  cases k <;> cases l <;> rfl

@[simp] theorem isOn_ofFn (on : Kind → Bool) (k : Kind) : (ofFn on).isOn k = on k := by
  cases k <;> rfl

theorem ext_isOn {s t : Switches} (h : ∀ k, s.isOn k = t.isOn k) : s = t := by
  have := h .button; have := h .alert; have := h .gallery; have := h .tabs
  have := h .accordion; have := h .countdown; have := h .contactForm
  cases s; cases t; simp_all [isOn]

@[simp] theorem isOn_disable (s : Switches) (kinds : List Kind) (k : Kind) :
    (s.disable kinds).isOn k = (s.isOn k && !kinds.contains k) := by
  induction kinds generalizing s with
  | nil => simp [disable]
  | cons l kinds ih =>
    have hstep : s.disable (l :: kinds) = (s.set l false).disable kinds := rfl
    rw [hstep, ih, isOn_set]
    by_cases h : k = l <;> simp [h]

/-- The name of a kind's switch in a configuration. -/
def label : Kind → Text
  | .button => "enable_buttons"
  | .alert => "enable_alerts"
  | .gallery => "enable_gallery"
  | .tabs => "enable_tabs"
  | .accordion => "enable_accordion"
  | .countdown => "enable_countdown"
  | .contactForm => "enable_contact_form"

def ofLabel? (text : Text) : Option Kind :=
  Kind.pipeline.find? (label · = text)

def positions (s : Switches) : List (Text × Bool) :=
  Kind.pipeline.map fun k => (label k, s.isOn k)

end Switches

end Shortcode
