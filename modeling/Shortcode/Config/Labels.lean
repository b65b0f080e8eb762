import Shortcode.Host

/-! # Label overrides

A configuration may give the contact form other labels than the standard ones. -/

namespace Shortcode

structure Labels where
  name : Option Text := none
  email : Option Text := none
  message : Option Text := none
  send : Option Text := none
deriving DecidableEq, Repr

namespace Labels

def get? (ls : Labels) : FormLabel → Option Text
  | .name => ls.name
  | .email => ls.email
  | .message => ls.message
  | .send => ls.send

def set (ls : Labels) (l : FormLabel) (text : Text) : Labels :=
  match l with
  | .name => { ls with name := some text }
  | .email => { ls with email := some text }
  | .message => { ls with message := some text }
  | .send => { ls with send := some text }

def resolve (ls : Labels) (l : FormLabel) : Text :=
  (ls.get? l).getD l.standard

/-- The first label that is given and empty. -/
def firstEmpty? (ls : Labels) : Option FormLabel :=
  FormLabel.all.find? fun l => ls.get? l = some []

@[simp] theorem get?_set (ls : Labels) (l m : FormLabel) (text : Text) :
    (ls.set l text).get? m = if m = l then some text else ls.get? m := by
  cases l <;> cases m <;> rfl

end Labels

end Shortcode
