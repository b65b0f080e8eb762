import Mathlib.Data.List.Forall2
import Shortcode.Proofs.Naming.Woven
import Shortcode.Proofs.Scan.Cut

/-! # Scanning woven texts

A grammar is steady if the parts that begin in one of two woven texts begin in the other as well and
stand for values that are alike. Scans of woven texts then find the same hits. -/

namespace Shortcode

open Markup

variable {α β γ : Type} {names : Text → Text → Prop}

/-- Where one of two woven texts begins with a part, so does the other, and their values are alike. -/
def Grammar.Steady (names : Text → Text → Prop) (grammar : Grammar α) (Alike : α → α → Prop) :
    Prop :=
  ∀ ⦃part rest z a⦄, Woven names (part ++ rest) z → grammar part a →
    ∃ part' rest' a', z = part' ++ rest' ∧ Woven names rest rest' ∧ grammar part' a' ∧ Alike a a'

theorem Grammar.Steady.seq {make : α → β → γ} {first : Grammar α} {second : Grammar β}
    {R : α → α → Prop} {S : β → β → Prop} {T : γ → γ → Prop} (hfirst : first.Steady names R)
    (hsecond : second.Steady names S)
    (hmake : ∀ {a a' b b'}, R a a' → S b b' → T (make a b) (make a' b')) :
    (Grammar.seq make first second).Steady names T := by
  rintro part rest z c h ⟨head, tail, a, b, rfl, hhead, htail, rfl⟩
  rw [List.append_assoc] at h
  obtain ⟨head', rest₁, a', rfl, hrest₁, hhead', ha⟩ := hfirst h hhead
  obtain ⟨tail', rest₂, b', rfl, hrest₂, htail', hb⟩ := hsecond hrest₁ htail
  exact ⟨head' ++ tail', rest₂, make a' b', by rw [List.append_assoc], hrest₂,
    ⟨head', tail', a', b', rfl, hhead', htail', rfl⟩, hmake ha hb⟩

/-- Segments with woven gaps and hits that are alike. -/
inductive Scan.Alike (names : Text → Text → Prop) (R : α → α → Prop) :
    List (Segment α) → List (Segment α) → Prop where
  | nil : Alike names R [] []
  | gap {x y : Text} {s s' : List (Segment α)} (hgap : Woven names x y) (h : Alike names R s s') :
      Alike names R (x.map .gap ++ s) (y.map .gap ++ s')
  | hit {a a' : α} {s s' : List (Segment α)} (ha : R a a') (h : Alike names R s s') :
      Alike names R (.hit a :: s) (.hit a' :: s')

theorem Scan.Alike.forall₂_hits {R : α → α → Prop} {s s' : List (Segment α)}
    (h : Scan.Alike names R s s') :
    List.Forall₂ R (s.filterMap Segment.value?) (s'.filterMap Segment.value?) := by
  induction h with
  | nil => exact .nil
  | gap _ _ ih =>
    rw [List.filterMap_append, List.filterMap_append, Cut.filterMap_value?_gap,
      Cut.filterMap_value?_gap]
    exact ih
  | hit ha _ ih => exact .cons ha ih

namespace Reads

variable {read? : Reader α} {grammar : Grammar α}

/-- What begins with a bracket does not begin in a gap without brackets. -/
theorem segments_append_of_not_mem (hr : Reads read? grammar)
    (hopening : ∀ {part a}, grammar part a → ∃ inner, part = '[' :: inner) {gap : Text} (hgap : '[' ∉ gap)
    (after : Text) :
    Scan.segments read? (gap ++ after) = gap.map .gap ++ Scan.segments read? after := by
  refine Cut.Clear.segments_append hr ?_
  rintro before inside part rest a rfl hne htext hpart
  obtain ⟨c, inside, rfl⟩ := List.exists_cons_of_ne_nil hne
  obtain ⟨inner, rfl⟩ := hopening hpart
  obtain ⟨rfl, -⟩ := List.cons.inj htext
  simp at hgap

theorem segments_alike (hr : Reads read? grammar)
    (hopening : ∀ {part a}, grammar part a → ∃ inner, part = '[' :: inner) (hplain : PlainNames names)
    {R R' : α → α → Prop} (hsteady : grammar.Steady names R)
    (hsteady' : grammar.Steady (flip names) R') {x y : Text} (h : Woven names x y) :
    Scan.Alike names R (Scan.segments read? x) (Scan.segments read? y) := by
  -- A hit and an anchor are passed over as a whole, so the induction is on the length.
  generalize hn : x.length = n
  induction n using Nat.strongRecOn generalizing x y with
  | ind n ih =>
    subst hn
    cases hread : read? x with
    | some found =>
      obtain ⟨a, rest⟩ := found
      obtain ⟨part, rfl, hpart⟩ := hr.sound hread
      obtain ⟨part', rest', a', rfl, hrest, hpart', ha⟩ := hsteady h hpart
      have hpos := List.length_pos_iff.mpr (hr.ne_nil hpart)
      rw [Scan.segments_of_some (hr.ne_nil hpart) (hr.complete hpart rest),
        Scan.segments_of_some (hr.ne_nil hpart') (hr.complete hpart' rest')]
      exact .hit ha (ih rest.length (by simp; omega) hrest rfl)
    | none =>
      -- What the other text begins with would begin this one as well.
      have hread' : read? y = none := by
        refine hr.eq_none_iff.mpr ?_
        rintro part' rest' a' rfl hpart'
        obtain ⟨part, rest, a, rfl, -, hpart, -⟩ := hsteady' h.flip hpart'
        exact hr.eq_none_iff.mp hread part rest a rfl hpart
      cases h with
      | nil => exact .nil
      | @char x y c h =>
        rw [Scan.segments_cons_of_none hread, Scan.segments_cons_of_none hread']
        exact .gap (.char c .nil) (ih x.length (by simp) h rfl)
      | @anchor x y u v a closing ha hname hclosing h =>
        obtain ⟨hu, hv⟩ := hplain u v hname
        rw [hr.segments_append_of_not_mem hopening (Anchor.not_mem_around ha hu hclosing (by decide)),
          hr.segments_append_of_not_mem hopening (Anchor.not_mem_around ha hv hclosing (by decide))]
        have hanchor : Woven names (a.around u closing) (a.around v closing) := by
          simpa using Woven.anchor ha hname hclosing .nil
        refine .gap hanchor (ih x.length ?_ h rfl)
        simp [Anchor.around]
        omega

end Reads

end Shortcode
