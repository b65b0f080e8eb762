import Mathlib.Data.List.Basic
import Shortcode.Config.Load
import Shortcode.Proofs.Text.Runs
import Shortcode.Proofs.Text.Words

/-! # References in settings

A setting is written as text that stands for itself and references in braces. One pass from left to
right puts the variables in their places; what a variable holds is not searched again. A variable
that is set to nothing counts as set. -/

namespace Shortcode

namespace Environment

/-- A part of a setting: text that stands for itself, or a reference in braces with the text that
stands for a variable which is not set. -/
inductive Part where
  | literal (text : Text)
  | reference (name : Text) (fallback? : Option Text)
deriving DecidableEq, Repr

namespace Part

/-- The part as it is written. -/
def write : Part → Text
  | literal text => text
  | reference name none => '$' :: '{' :: (name ++ ['}'])
  | reference name (some fallback) => '$' :: '{' :: (name ++ ':' :: '-' :: (fallback ++ ['}']))

/-- What can be written as a part: text without a dollar sign, or a reference to an identifier whose
fallback does not close the braces. -/
def Fits : Part → Prop
  | literal text => '$' ∉ text
  | reference name fallback? =>
    name ≠ [] ∧ name.all isNameChar = true ∧ ∀ fallback ∈ fallback?, '}' ∉ fallback

instance : (p : Part) → Decidable p.Fits
  | literal text => inferInstanceAs (Decidable ('$' ∉ text))
  | reference _ _ => inferInstanceAs (Decidable (_ ∧ _ ∧ _))

/-- What the part stands for. Without a value and a fallback this is nothing. -/
def value (env : Environment) : Part → Text
  | literal text => text
  | reference name fallback? => (env name).getD (fallback?.getD [])

/-- The variable that a part needs and that is not set. -/
def missing? (env : Environment) : Part → Option Text
  | literal _ => none
  | reference name fallback? =>
    if env name = none ∧ fallback? = none then some name else none

end Part

variable {env : Environment}

/-! ### Reading what is written -/

theorem reference?_of_ne {c : Char} (h : c ≠ '$') (text : Text) : reference? (c :: text) = none := by
  unfold reference?
  split
  · rename_i heq
    exact absurd (List.cons.inj heq).1 h
  · rename_i heq
    exact absurd (List.cons.inj heq).1 h
  · rename_i heq
    exact absurd (List.cons.inj heq).1 h
  · rfl

theorem segments_literal {text : Text} (h : '$' ∉ text) (rest : Text) :
    Scan.segments reference? (text ++ rest) = text.map .gap ++ Scan.segments reference? rest := by
  induction text with
  | nil => rfl
  | cons c text ih =>
    rw [List.mem_cons, not_or] at h
    have hnone := reference?_of_ne (Ne.symm h.1) (text ++ rest)
    rw [List.cons_append, Scan.segments_cons_of_none hnone, ih h.2]
    rfl

theorem not_mem_name {name : Text} (h : name.all isNameChar = true) {c : Char}
    (hc : isNameChar c = false) : c ∉ name := by
  intro hmem
  rw [List.all_eq_true.mp h c hmem] at hc
  cases hc

theorem splitFallback?_cons {c : Char} (h : c ≠ ':') (text : Text) :
    splitFallback? (c :: text) =
      (splitFallback? text).map fun (name, fallback) => (c :: name, fallback) := by
  rw [splitFallback?]
  intro rest hc
  exact absurd hc h

theorem splitFallback?_of_not_mem {name : Text} (h : ':' ∉ name) (fallback : Text) :
    splitFallback? (name ++ ':' :: '-' :: fallback) = some (name, fallback) := by
  induction name with
  | nil => rfl
  | cons c name ih =>
    rw [List.mem_cons, not_or] at h
    rw [List.cons_append, splitFallback?_cons (Ne.symm h.1), ih h.2]
    rfl

theorem splitFallback?_eq_none {name : Text} (h : ':' ∉ name) : splitFallback? name = none := by
  induction name with
  | nil => rfl
  | cons c name ih =>
    rw [List.mem_cons, not_or] at h
    rw [splitFallback?_cons (Ne.symm h.1), ih h.2]
    rfl

theorem reference?_of_closed {inner : Text} (h : '}' ∉ inner) (rest : Text) :
    reference? ('$' :: '{' :: (inner ++ '}' :: rest)) = some (.ofBraces inner, rest) := by
  rw [reference?, Text.dropWhile_ne_append h, Text.takeWhile_ne_append h]

theorem reference?_write {name : Text} {fallback? : Option Text}
    (h : (Part.reference name fallback?).Fits) (rest : Text) :
    reference? ((Part.reference name fallback?).write ++ rest) =
      some (.braced name fallback?, rest) := by
  obtain ⟨hne, hname, hfallback⟩ := h
  have hcolon : ':' ∉ name := not_mem_name hname (by decide +kernel)
  have hbrace : '}' ∉ name := not_mem_name hname (by decide +kernel)
  obtain ⟨c, name, rfl⟩ := List.exists_cons_of_ne_nil hne
  cases fallback? with
  | none =>
    have hread := reference?_of_closed hbrace rest
    have hsplit := splitFallback?_eq_none hcolon
    rw [Reference.ofBraces, hsplit] at hread
    rw [Part.write, List.cons_append, List.cons_append, List.append_assoc]
    exact hread
  | some fallback =>
    have hclosed : '}' ∉ c :: name ++ ':' :: '-' :: fallback := by
      simp only [List.mem_append, List.mem_cons, not_or] at hbrace ⊢
      exact ⟨hbrace, by decide, by decide, hfallback fallback rfl⟩
    have hread := reference?_of_closed hclosed rest
    have hsplit := splitFallback?_of_not_mem hcolon fallback
    rw [Reference.ofBraces, hsplit] at hread
    have htext : (Part.reference (c :: name) (some fallback)).write ++ rest =
        '$' :: '{' :: (c :: name ++ ':' :: '-' :: fallback ++ '}' :: rest) := by
      simp [Part.write]
    rw [htext]
    exact hread

theorem segments_reference {name : Text} {fallback? : Option Text}
    (h : (Part.reference name fallback?).Fits) (rest : Text) :
    Scan.segments reference? ((Part.reference name fallback?).write ++ rest) =
      .hit (.braced name fallback?) :: Scan.segments reference? rest := by
  refine Scan.segments_of_some ?_ (reference?_write h rest)
  cases fallback? <;> exact List.cons_ne_nil _ _

/-! ### Resolving what is written -/

theorem resolveAll_literal (text : Text) (segments : List (Segment Reference)) :
    env.resolveAll (text.map .gap ++ segments) =
      (env.resolveAll segments).map (text ++ ·) := by
  induction text with
  | nil => cases hrest : env.resolveAll segments <;> simp [hrest, Except.map]
  | cons c text ih =>
    rw [List.map_cons, List.cons_append, resolveAll, ih]
    cases env.resolveAll segments <;> rfl

theorem resolve_braced (name : Text) (fallback? : Option Text) :
    env.resolve (.braced name fallback?) =
      match (Part.reference name fallback?).missing? env with
      | some name => .error ⟨name⟩
      | none => .ok ((Part.reference name fallback?).value env) := by
  simp only [resolve, Part.missing?, Part.value]
  cases env name <;> cases fallback? <;> simp

theorem resolveAll_written {parts : List Part} (h : ∀ p ∈ parts, p.Fits) :
    env.resolveAll (Scan.segments reference? (parts.flatMap Part.write)) =
      match parts.findSome? (Part.missing? env) with
      | some name => .error ⟨name⟩
      | none => .ok (parts.flatMap (Part.value env)) := by
  induction parts with
  | nil => rfl
  | cons p parts ih =>
    obtain ⟨hp, hparts⟩ := List.forall_mem_cons.mp h
    rw [List.flatMap_cons, List.findSome?_cons, List.flatMap_cons]
    cases p with
    | literal text =>
      have hsegments := segments_literal hp (parts.flatMap Part.write)
      rw [Part.write, hsegments, resolveAll_literal, ih hparts]
      simp only [Part.missing?, Part.value]
      cases parts.findSome? (Part.missing? env) <;> rfl
    | reference name fallback? =>
      rw [segments_reference hp, resolveAll, ih hparts, resolve_braced]
      cases (Part.reference name fallback?).missing? env with
      | some name => rfl
      | none => cases parts.findSome? (Part.missing? env) <;> rfl

theorem occursIn_of_mem {parts : List Part} {name : Text} {fallback? : Option Text}
    (h : Part.reference name fallback? ∈ parts) :
    Text.occursIn "$\x7b" (parts.flatMap Part.write) = true := by
  rw [Text.occursIn_eq_true_iff]
  obtain ⟨front, rest, rfl⟩ := List.append_of_mem h
  have hwithin : ("$\x7b" : Text) <:+: (Part.reference name fallback?).write := by
    cases fallback? with
    | none => exact ⟨[], name ++ ['}'], rfl⟩
    | some fallback => exact ⟨[], name ++ ':' :: '-' :: (fallback ++ ['}']), rfl⟩
  refine hwithin.trans ⟨front.flatMap Part.write, rest.flatMap Part.write, ?_⟩
  simp

/-- Where no reference is written, nothing is missing and every part stands for itself. -/
theorem eq_write_of_not_occursIn (env : Environment) {parts : List Part}
    (h : Text.occursIn "$\x7b" (parts.flatMap Part.write) = false) :
    parts.findSome? (Part.missing? env) = none ∧
      parts.flatMap (Part.value env) = parts.flatMap Part.write := by
  have hliteral : ∀ p ∈ parts, p.missing? env = none ∧ p.value env = p.write := by
    intro p hp
    cases p with
    | literal text => exact ⟨rfl, rfl⟩
    | reference name fallback? =>
      rw [occursIn_of_mem hp] at h
      cases h
  refine ⟨List.findSome?_eq_none_iff.mpr fun p hp => (hliteral p hp).1, ?_⟩
  exact List.flatMap_congr fun p hp => (hliteral p hp).2

end Environment

namespace Config

open Environment

/-- A setting with references to variables is read in one pass. If every variable without a fallback
is set, each reference gives way to the value of its variable, the empty one included, or to its
fallback if the variable is not set, and all other text stays; values are put in as they are. Else
the error names the setting and the first variable that is missing. -/
theorem expand_written (env : Environment) (field : Field) {parts : List Part}
    (h : ∀ p ∈ parts, p.Fits) :
    expand env field (parts.flatMap Part.write) =
      match parts.findSome? (Part.missing? env) with
      | some name => .error (.unset field ⟨name⟩)
      | none => .ok (parts.flatMap (Part.value env)) := by
  have hpass : env.expand (parts.flatMap Part.write) =
      match parts.findSome? (Part.missing? env) with
      | some name => .error ⟨name⟩
      | none => .ok (parts.flatMap (Part.value env)) := by
    unfold Environment.expand
    cases hoccurs : Text.occursIn "$\x7b" (parts.flatMap Part.write) with
    | true =>
      rw [if_pos rfl]
      exact resolveAll_written h
    | false =>
      obtain ⟨hmissing, hvalue⟩ := eq_write_of_not_occursIn env hoccurs
      rw [hmissing, hvalue]
      rfl
  rw [expand, hpass]
  cases parts.findSome? (Part.missing? env) <;> rfl

/-- Variables with a value, with an empty one, with one that looks like a reference, and without
one. -/
theorem expand_written_every_state :
    let env : Environment := fun name =>
      if name = "HOST".toList then some "h.test".toList
      else if name = "EMPTY".toList then some []
      else if name = "LIKE".toList then some "$\x7bHOST\x7d".toList
      else none
    let parts : List Part := [.literal "//", .reference "HOST" none, .reference "EMPTY" none,
      .reference "EMPTY" (some "d"), .reference "NONE" (some "a:-$\x7bb"), .reference "LIKE" none]
    let more : List Part := parts ++ [.reference "NONE" none, .reference "OTHER" none]
    (∀ p ∈ parts, p.Fits) ∧ (∀ p ∈ more, p.Fits) ∧
      parts.flatMap Part.write = "//$\x7bHOST\x7d$\x7bEMPTY\x7d$\x7bEMPTY:-d\x7d".toList ++
        "$\x7bNONE:-a:-$\x7bb\x7d$\x7bLIKE\x7d".toList ∧
      expand env .token (parts.flatMap Part.write) =
        .ok "//h.testa:-$\x7bb$\x7bHOST\x7d".toList ∧
      expand env .token (more.flatMap Part.write) = .error (.unset .token ⟨"NONE"⟩) := by
  intro env parts more
  have hparts : ∀ p ∈ parts, p.Fits := by decide +kernel
  have hmore : ∀ p ∈ more, p.Fits := by decide +kernel
  refine ⟨hparts, hmore, by decide +kernel, ?_, ?_⟩
  · rw [expand_written env .token hparts]
    decide +kernel
  · rw [expand_written env .token hmore]
    decide +kernel

end Config

end Shortcode
