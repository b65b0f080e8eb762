import Shortcode.Markup.Escape

/-! # The host

What the surroundings of the engine supply: images for galleries, and for contact forms the token,
the request URL and the labels; and the escaper for supplied values. -/

namespace Shortcode

structure Image where
  id : Text
  url : Text
  alt : Text
  caption : Text
deriving DecidableEq, Repr

structure LookupError where
  id : Text
  reason : Text
deriving DecidableEq, Repr

def LookupError.message (e : LookupError) : Text :=
  "image lookup failed for " ++ e.id ++ ": " ++ e.reason

inductive FormLabel where
  | name
  | email
  | message
  | send
deriving DecidableEq, Repr

namespace FormLabel

/-- The labels in the order in which the form asks for them. -/
def all : List FormLabel :=
  [name, email, message, send]

def key : FormLabel → Text
  | name => "name"
  | email => "email"
  | message => "message"
  | send => "send"

def standard : FormLabel → Text
  | name => "Name"
  | email => "Email"
  | message => "Message"
  | send => "Send Message"

end FormLabel

/-- The surroundings of the engine. -/
structure Host where
  /-- Looks up an image; an unknown ID has none. -/
  image : Text → Except LookupError (Option Image) := fun _ => .ok none
  token : Text
  url : Text := []
  label : FormLabel → Text := FormLabel.standard
  /-- Makes a supplied value harmless. -/
  escape : Text → Text := Markup.escape

/-- The image with an ID. A lookup that fails counts as one that finds nothing. -/
def Host.image? (h : Host) (id : Text) : Option Image :=
  match h.image id with
  | .ok image? => image?
  | .error _ => none

/-- A question that the engine puts to its surroundings. -/
inductive Call where
  /-- An element ID is drawn. -/
  | id (stem : Text)
  | image (id : Text)
  | token
  | url
  | label (l : FormLabel)
deriving DecidableEq, Repr

/-- What is made of the answers of a host, and the questions that it took, in their order. -/
structure Asked (α : Type) where
  answer : α
  calls : List Call := []

instance : Monad Asked where
  pure a := { answer := a }
  bind x f :=
    let y := f x.answer
    { y with calls := x.calls ++ y.calls }

namespace Asked

variable {α β : Type}

@[simp] theorem answer_pure (a : α) : (pure a : Asked α).answer = a := rfl

@[simp] theorem answer_bind (x : Asked α) (f : α → Asked β) :
    (x >>= f).answer = (f x.answer).answer := rfl

end Asked

namespace Host

def askImage (h : Host) (id : Text) : Asked (Option Image) where
  answer := h.image? id
  calls := [.image id]

/-- Looks up some images, of which those that are found count. -/
def askImages (h : Host) : List Text → Asked (List Image)
  | [] => return []
  | id :: ids => do
    let image? ← h.askImage id
    let images ← h.askImages ids
    return image?.toList ++ images

def askToken (h : Host) : Asked Text where
  answer := h.token
  calls := [.token]

def askUrl (h : Host) : Asked Text where
  answer := h.url
  calls := [.url]

def askLabel (h : Host) (l : FormLabel) : Asked Text where
  answer := h.label l
  calls := [.label l]

theorem askImages_eq (h : Host) (ids : List Text) :
    h.askImages ids = { answer := ids.filterMap h.image?, calls := ids.map .image } := by
  induction ids with
  | nil => rfl
  | cons id ids ih =>
    rw [askImages, ih]
    cases himage : h.image? id <;> simp [askImage, bind, pure, himage]

end Host

end Shortcode
