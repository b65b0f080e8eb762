import Shortcode.Proofs.Config.References

/-! # Dollar signs in settings

A dollar sign that begins no reference in braces. In a setting without such references it stays, whatever
stands behind it. In a setting with one it only stays in front of a character that is neither a dollar
sign nor part of a name: two dollar signs are read as one, and a bare name is replaced as well. -/

namespace Shortcode

namespace Environment

/-- A reference in braces and the text in front of it. -/
structure Stretch where
  text : Text
  name : Text
  fallback? : Option Text
deriving DecidableEq, Repr

namespace Stretch

def reference (s : Stretch) : Part :=
  .reference s.name s.fallback?

/-- The stretch as it is written. -/
def write (s : Stretch) : Text :=
  s.text ++ s.reference.write

/-- No reference in braces begins in the text in front. -/
def Fits (s : Stretch) : Prop :=
  Text.occursIn "$\x7b" s.text = false ∧ s.reference.Fits

instance (s : Stretch) : Decidable s.Fits :=
  inferInstanceAs (Decidable (_ ∧ _))

/-- The variable holds some text, or there is one that stands for it. -/
def HasValue (env : Environment) (s : Stretch) : Prop :=
  (∃ c value, env s.name = some (c :: value)) ∨ s.fallback?.isSome = true

/-- The text in front as it is, and what the reference stands for. -/
def kept (env : Environment) (s : Stretch) : Text :=
  s.text ++ s.reference.value env

theorem HasValue.missing?_eq_none {env : Environment} {s : Stretch} (h : s.HasValue env) :
    s.reference.missing? env = none := by
  rw [reference, Part.missing?, if_neg]
  rintro ⟨hunset, hnone⟩
  rcases h with ⟨c, value, hset⟩ | hsome
  · rw [hunset] at hset
    cases hset
  · rw [hnone] at hsome
    cases hsome

theorem exists_write_eq (s : Stretch) : ∃ inner, s.reference.write = '$' :: '{' :: inner := by
  obtain ⟨text, name, fallback?⟩ := s
  cases fallback? <;> exact ⟨_, rfl⟩

end Stretch

/-- Whether no dollar sign of a text stands in front of another one or of a name, where `next?` is the
character behind the text. -/
def dollarsAlone (next? : Option Char) : Text → Bool
  | [] => true
  | c :: text =>
    (c ≠ '$' || (text.head?.or next?).all fun d => d ≠ '$' && ! isNameChar d) &&
      dollarsAlone next? text

variable {text after rest last : Text} {stretches : List Stretch}

theorem dollarsAlone_cons_iff {c : Char} {next? : Option Char} :
    dollarsAlone next? (c :: text) = true ↔
      (c = '$' → ∀ d ∈ text.head?.or next?, d ≠ '$' ∧ isNameChar d = false) ∧
        dollarsAlone next? text = true := by
  simp [dollarsAlone, Option.all_eq_true, imp_iff_not_or]

theorem not_occursIn_tail {c : Char} (h : Text.occursIn "$\x7b" (c :: text) = false) :
    Text.occursIn "$\x7b" text = false := by
  rw [Text.occursIn, Bool.or_eq_false_iff] at h
  exact h.2

/-! ### Dollar signs that stay -/

theorem reference?_dollar_eq_none (hbrace : text.head? ≠ some '{')
    (h : ∀ d ∈ text.head?, d ≠ '$' ∧ isNameChar d = false) : reference? ('$' :: text) = none := by
  cases text with
  | nil => rfl
  | cons d text =>
    obtain ⟨hdollar, hname⟩ := h d rfl
    have hd : d ≠ '{' := fun heq => hbrace (congrArg some heq)
    rw [reference?]
    · simp [hname]
    · rintro rest heq
      exact hd (List.cons.inj heq).1
    · rintro rest heq
      exact hdollar (List.cons.inj heq).1

/-- A dollar sign in front of no brace. -/
theorem head?_append_ne_brace (hbrace : Text.occursIn "$\x7b" ('$' :: text) = false)
    (hafter : after.head? ≠ some '{') : (text ++ after).head? ≠ some '{' := by
  cases text with
  | nil => exact hafter
  | cons d text =>
    intro hhead
    obtain rfl := Option.some.inj hhead
    simp [Text.occursIn] at hbrace

theorem segments_alone (hbrace : Text.occursIn "$\x7b" text = false)
    (hafter : after.head? ≠ some '{') (h : dollarsAlone after.head? text = true) :
    Scan.segments reference? (text ++ after) = text.map .gap ++ Scan.segments reference? after := by
  induction text with
  | nil => rfl
  | cons c text ih =>
    obtain ⟨hc, htext⟩ := dollarsAlone_cons_iff.mp h
    have hrest := ih (not_occursIn_tail hbrace) htext
    have hnone : reference? (c :: (text ++ after)) = none := by
      by_cases hdollar : c = '$'
      · subst hdollar
        have hnext : (text ++ after).head? = text.head?.or after.head? := List.head?_append
        exact reference?_dollar_eq_none (head?_append_ne_brace hbrace hafter) (hnext ▸ hc rfl)
      · exact reference?_of_ne hdollar _
    rw [List.cons_append, Scan.segments_cons_of_none hnone, hrest]
    rfl

theorem resolveAll_kept {env : Environment} (hfits : ∀ s ∈ stretches, s.Fits)
    (hvalue : ∀ s ∈ stretches, s.HasValue env) (hlast : Text.occursIn "$\x7b" last = false)
    (halone : ∀ s ∈ stretches, dollarsAlone (some '$') s.text = true)
    (hend : dollarsAlone none last = true) :
    env.resolveAll (Scan.segments reference? (stretches.flatMap Stretch.write ++ last)) =
      .ok (stretches.flatMap (Stretch.kept env) ++ last) := by
  induction stretches with
  | nil =>
    have hgap : Scan.segments reference? (last ++ []) = last.map .gap ++ [] :=
      segments_alone hlast (by simp) hend
    have hliteral : env.resolveAll (last.map .gap ++ []) = .ok (last ++ []) :=
      resolveAll_literal last []
    rw [List.append_nil] at hgap
    rw [← hgap, List.append_nil] at hliteral
    exact hliteral
  | cons s stretches ih =>
    obtain ⟨⟨hbrace, hreference⟩, hfits⟩ := List.forall_mem_cons.mp hfits
    obtain ⟨hs, hvalue⟩ := List.forall_mem_cons.mp hvalue
    obtain ⟨htext, halone⟩ := List.forall_mem_cons.mp halone
    let behind := stretches.flatMap Stretch.write ++ last
    have hsplit : (s :: stretches).flatMap Stretch.write ++ last =
        s.text ++ (s.reference.write ++ behind) := by
      simp [Stretch.write, behind]
    obtain ⟨inner, hinner⟩ := s.exists_write_eq
    have hhead : (s.reference.write ++ behind).head? = some '$' := by rw [hinner]; rfl
    have hgap : Scan.segments reference? (s.text ++ (s.reference.write ++ behind)) = _ :=
      segments_alone hbrace (by rw [hhead]; decide) (by rw [hhead]; exact htext)
    have hhit : Scan.segments reference? (s.reference.write ++ behind) = _ :=
      segments_reference hreference behind
    have hresolve : env.resolve (.braced s.name s.fallback?) = .ok (s.reference.value env) := by
      have hmissing := hs.missing?_eq_none
      rw [Stretch.reference] at hmissing
      rw [resolve_braced, hmissing]
      rfl
    rw [hsplit, hgap, resolveAll_literal, hhit, resolveAll, hresolve, ih hfits hvalue halone]
    refine congrArg Except.ok ?_
    simp [Stretch.kept]

/-! ### Dollar signs that are dropped -/

/-- The environment in which every variable is set to one letter. -/
def everySet : Environment :=
  fun _ => some ['x']

/-- The text of a segment where every variable is set to one letter. -/
def marks : Segment Reference → Text
  | .gap c => [c]
  | .hit .dollar => ['$']
  | .hit _ => ['x']

/-- The text with its references resolved where every variable is set to one letter. -/
def marked (text : Text) : Text :=
  (Scan.segments reference? text).flatMap marks

theorem resolveAll_everySet (segments : List (Segment Reference)) :
    everySet.resolveAll segments = .ok (segments.flatMap marks) := by
  induction segments with
  | nil => rfl
  | cons segment segments ih =>
    cases segment with
    | gap c =>
      rw [resolveAll, ih]
      rfl
    | hit r =>
      rw [resolveAll, ih]
      cases r <;> rfl

theorem marked_cons_of_none {c : Char} (h : reference? (c :: text) = none) :
    marked (c :: text) = c :: marked text := by
  rw [marked, Scan.segments_cons_of_none h]
  rfl

theorem marked_cons_of_ne {c : Char} (h : c ≠ '$') (text : Text) :
    marked (c :: text) = c :: marked text :=
  marked_cons_of_none (reference?_of_ne h text)

theorem marked_pair (text : Text) : marked ('$' :: '$' :: text) = '$' :: marked text := by
  have hread : reference? (['$', '$'] ++ text) = some (.dollar, text) := by simp [reference?]
  have hhit := Scan.segments_of_some (List.cons_ne_nil _ _) hread
  show List.flatMap marks (Scan.segments reference? (['$', '$'] ++ text)) = _
  rw [hhit]
  rfl

theorem marked_name {d : Char} (hname : isNameChar d = true) (text : Text) :
    ∃ rest, marked ('$' :: d :: text) = 'x' :: rest := by
  have hdollar : d ≠ '$' := by
    rintro rfl
    exact absurd hname (by decide +kernel)
  have hbrace : d ≠ '{' := by
    rintro rfl
    exact absurd hname (by decide +kernel)
  have hread : reference? ('$' :: d :: text) =
      some (.bare (d :: text.takeWhile isNameChar), text.dropWhile isNameChar) := by
    rw [reference?]
    · simp [hname]
    · rintro rest heq
      exact hbrace (List.cons.inj heq).1
    · rintro rest heq
      exact hdollar (List.cons.inj heq).1
  rw [marked, Scan.segments, Scan.segmentsFrom, hread]
  exact ⟨_, rfl⟩

theorem marked_reference {s : Stretch} (h : s.reference.Fits) (rest : Text) :
    marked (s.reference.write ++ rest) = 'x' :: marked rest := by
  rw [marked, Stretch.reference, segments_reference h]
  rfl

theorem head?_marked (h : text.head? ≠ some '$') : (marked text).head? = text.head? := by
  cases text with
  | nil => rfl
  | cons c text =>
    have hc : c ≠ '$' := fun heq => h (congrArg some heq)
    rw [marked_cons_of_ne hc]
    rfl

/-- What becomes of a dollar sign that begins no reference in braces. -/
theorem marked_dollar (hbrace : text.head? ≠ some '{') :
    (∃ rest, marked ('$' :: text) = 'x' :: rest) ∨
      (∃ behind, text = '$' :: behind ∧ marked ('$' :: text) = '$' :: marked behind) ∨
      (∀ d ∈ text.head?, d ≠ '$' ∧ isNameChar d = false) ∧
        marked ('$' :: text) = '$' :: marked text := by
  by_cases halone : ∀ d ∈ text.head?, d ≠ '$' ∧ isNameChar d = false
  · exact .inr (.inr ⟨halone, marked_cons_of_none (reference?_dollar_eq_none hbrace halone)⟩)
  · cases text with
    | nil => exact absurd (by simp) halone
    | cons d text =>
      by_cases hdollar : d = '$'
      · subst hdollar
        exact .inr (.inl ⟨text, rfl, marked_pair text⟩)
      · have hname : isNameChar d = true := by
          by_contra hname
          refine halone ?_
          intro d' hd'
          obtain rfl := Option.some.inj hd'
          exact ⟨hdollar, Bool.eq_false_iff.mpr hname⟩
        exact .inl (marked_name hname text)

/-- What stands behind a text, and what is to become of it: nothing, or a reference that gives way to its
value. -/
inductive Behind : Text → Text → Prop
  | nothing : Behind [] []
  | reference {inner rest rest' : Text} (h : marked ('$' :: '{' :: inner) = 'x' :: rest') :
      Behind ('$' :: '{' :: inner) ('x' :: rest)

theorem Behind.head?_ne_brace (h : Behind after rest) : after.head? ≠ some '{' := by
  cases h <;> simp

/-- A dollar sign in front of what stands behind a text is in the text, or a reference begins there. -/
theorem Behind.of_dollar {behind : Text} (h : Behind after rest) (heq : text ++ after = '$' :: behind) :
    (∃ text', text = '$' :: text' ∧ behind = text' ++ after) ∨
      text = [] ∧ ∃ inner rest', behind = '{' :: inner ∧ rest = 'x' :: rest' := by
  cases text with
  | nil =>
    cases h with
    | nothing => cases heq
    | reference h =>
      obtain ⟨-, rfl⟩ := List.cons.inj heq
      exact .inr ⟨rfl, _, _, rfl, rfl⟩
  | cons c text =>
    obtain ⟨rfl, rfl⟩ := List.cons.inj heq
    exact .inl ⟨text, rfl, rfl⟩

theorem replicate_append_dollar (n : Nat) (text : Text) :
    List.replicate n '$' ++ '$' :: text = '$' :: (List.replicate n '$' ++ text) := by
  induction n with
  | zero => rfl
  | succ n ih => rw [List.replicate_succ, List.cons_append, ih, List.cons_append]

/-- Two dollar signs give one, so a run of them does not become longer. -/
theorem marked_ne_replicate (hbehind : Behind after rest)
    (hbrace : Text.occursIn "$\x7b" text = false) (n : Nat) :
    marked (text ++ after) ≠ List.replicate (n + 1) '$' ++ (text ++ rest) := by
  induction hlength : text.length using Nat.strongRecOn generalizing text n with
  | ind length ih =>
    intro heq
    rw [List.replicate_succ, List.cons_append] at heq
    cases text with
    | nil =>
      cases hbehind with
      | nothing => simp [marked] at heq
      | reference h =>
        rw [List.nil_append, h] at heq
        exact absurd (List.cons.inj heq).1 (by decide)
    | cons c text =>
      by_cases hc : c = '$'
      · subst hc
        have hhead := head?_append_ne_brace hbrace hbehind.head?_ne_brace
        rw [List.cons_append, List.cons_append, replicate_append_dollar] at heq
        rcases marked_dollar hhead with ⟨rest', hmarked⟩ | ⟨behind, hpair, hmarked⟩ | ⟨halone, hmarked⟩
        all_goals rw [hmarked] at heq
        · exact absurd (List.cons.inj heq).1 (by decide)
        · have htail := (List.cons.inj heq).2
          rcases hbehind.of_dollar hpair with ⟨text', rfl, rfl⟩ | ⟨-, inner, -, rfl, -⟩
          -- The rest of the run lags behind by one more dollar sign.
          · simp only [List.length_cons] at hlength
            refine ih text'.length (by omega) (not_occursIn_tail (not_occursIn_tail hbrace))
              (n + 1) rfl (htail.trans ?_)
            rw [List.cons_append, replicate_append_dollar, List.replicate_succ,
              List.replicate_succ, List.cons_append, List.cons_append]
          · rw [marked_cons_of_ne (by decide)] at htail
            exact absurd (List.cons.inj htail).1 (by decide)
        · have hne : (text ++ after).head? ≠ some '$' := fun hd => (halone '$' hd).1 rfl
          have hfirst := head?_marked hne
          rw [(List.cons.inj heq).2] at hfirst
          exact hne hfirst.symm
      · rw [List.cons_append, marked_cons_of_ne hc] at heq
        exact hc (List.cons.inj heq).1

/-- Where nothing but the references is replaced, every dollar sign stands alone. -/
theorem alone_of_marked_eq (hbehind : Behind after rest)
    (hbrace : Text.occursIn "$\x7b" text = false) (h : marked (text ++ after) = text ++ rest) :
    dollarsAlone after.head? text = true ∧ marked after = rest := by
  induction text with
  | nil => exact ⟨rfl, h⟩
  | cons c text ih =>
    have htail := not_occursIn_tail hbrace
    rw [dollarsAlone_cons_iff]
    by_cases hc : c = '$'
    · subst hc
      rw [List.cons_append, List.cons_append] at h
      have hnext : (text ++ after).head? = text.head?.or after.head? := List.head?_append
      have hhead := head?_append_ne_brace hbrace hbehind.head?_ne_brace
      rcases marked_dollar hhead with ⟨rest', hmarked⟩ | ⟨behind, hpair, hmarked⟩ | ⟨halone, hmarked⟩
      all_goals rw [hmarked] at h
      · exact absurd (List.cons.inj h).1 (by decide)
      · have hrest := (List.cons.inj h).2
        rcases hbehind.of_dollar hpair with ⟨text', rfl, rfl⟩ | ⟨rfl, inner, rest', rfl, rfl⟩
        · exact absurd hrest (marked_ne_replicate hbehind (not_occursIn_tail htail) 0)
        · rw [marked_cons_of_ne (by decide)] at hrest
          exact absurd (List.cons.inj hrest).1 (by decide)
      · obtain ⟨hdollars, hafter⟩ := ih htail (List.cons.inj h).2
        rw [hnext] at halone
        exact ⟨⟨fun _ => halone, hdollars⟩, hafter⟩
    · rw [List.cons_append, marked_cons_of_ne hc] at h
      obtain ⟨hdollars, hafter⟩ := ih htail (List.cons.inj h).2
      exact ⟨⟨fun heq => absurd heq hc, hdollars⟩, hafter⟩

theorem alone_of_kept (hfits : ∀ s ∈ stretches, s.Fits) (hlast : Text.occursIn "$\x7b" last = false)
    (h : marked (stretches.flatMap Stretch.write ++ last) =
      stretches.flatMap (Stretch.kept everySet) ++ last) :
    (∀ s ∈ stretches, dollarsAlone (some '$') s.text = true) ∧ dollarsAlone none last = true := by
  induction stretches with
  | nil =>
    have hend : marked (last ++ []) = last ++ [] := by simpa using h
    exact ⟨by simp, (alone_of_marked_eq .nothing hlast hend).1⟩
  | cons s stretches ih =>
    obtain ⟨⟨hbrace, hreference⟩, hfits⟩ := List.forall_mem_cons.mp hfits
    let behind := stretches.flatMap Stretch.write ++ last
    let kept := stretches.flatMap (Stretch.kept everySet) ++ last
    have hmarked := marked_reference hreference behind
    have hsplit : marked (s.text ++ (s.reference.write ++ behind)) = s.text ++ 'x' :: kept := by
      have hvalue : s.reference.value everySet = ['x'] := rfl
      simpa [Stretch.write, Stretch.kept, hvalue, behind, kept] using h
    obtain ⟨inner, hinner⟩ := s.exists_write_eq
    rw [hinner] at hmarked hsplit
    obtain ⟨htext, hrest⟩ := alone_of_marked_eq (.reference hmarked) hbrace hsplit
    obtain ⟨halone, hend⟩ := ih hfits (List.cons.inj (hmarked.symm.trans hrest)).2
    exact ⟨List.forall_mem_cons.mpr ⟨htext, halone⟩, hend⟩

theorem occursIn_written (h : stretches ≠ []) :
    Text.occursIn "$\x7b" (stretches.flatMap Stretch.write ++ last) = true := by
  obtain ⟨s, stretches, rfl⟩ := List.exists_cons_of_ne_nil h
  obtain ⟨inner, hinner⟩ := s.exists_write_eq
  rw [Text.occursIn_eq_true_iff]
  exact ⟨s.text, inner ++ (stretches.flatMap Stretch.write ++ last), by simp [Stretch.write, hinner]⟩

end Environment

namespace Config

open Environment

/-- A setting keeps all text but its references, whatever the variables hold, if and only if it has no
reference in braces or each of its other dollar signs stands in front of a character that is neither a
dollar sign nor part of a name. -/
theorem expand_keeps_dollars_iff (field : Field) {stretches : List Stretch} {last : Text}
    (hfits : ∀ s ∈ stretches, s.Fits) (hlast : Text.occursIn "$\x7b" last = false) :
    (∀ env, (∀ s ∈ stretches, s.HasValue env) →
      expand env field (stretches.flatMap Stretch.write ++ last) =
        .ok (stretches.flatMap (Stretch.kept env) ++ last)) ↔
      stretches = [] ∨
        (∀ s ∈ stretches, dollarsAlone (some '$') s.text = true) ∧ dollarsAlone none last = true := by
  have hpass : ∀ env : Environment, stretches ≠ [] →
      expand env field (stretches.flatMap Stretch.write ++ last) =
        (env.resolveAll (Scan.segments reference? (stretches.flatMap Stretch.write ++ last))).mapError
          (Error.unset field) := by
    intro env hne
    rw [expand, Environment.expand, occursIn_written hne, if_pos rfl]
  constructor
  · intro h
    by_cases hne : stretches = []
    · exact .inl hne
    · have hkept := h everySet fun s _ => .inl ⟨'x', [], rfl⟩
      rw [hpass everySet hne, resolveAll_everySet] at hkept
      exact .inr (alone_of_kept hfits hlast (Except.ok.inj hkept))
  · intro h env hvalue
    by_cases hne : stretches = []
    · subst hne
      show (Environment.expand env last).mapError (Error.unset field) = .ok last
      rw [Environment.expand, hlast]
      rfl
    · obtain ⟨halone, hend⟩ := h.resolve_left hne
      rw [hpass env hne, resolveAll_kept hfits hvalue hlast halone hend]
      rfl

/-- Dollar signs in front of blanks, of signs and at the end, and some that a variable and a fallback
bring in. -/
theorem expand_keeps_lone_dollars :
    let env : Environment := fun name => if name = "HOST".toList then some "h$$" else none
    let stretches : List Stretch := [⟨"5 $ $.", "HOST", none⟩, ⟨"/$-", "NONE", some "$x"⟩]
    (∀ s ∈ stretches, s.Fits) ∧ Text.occursIn "$\x7b" (" $" : Text) = false ∧
      ((∀ s ∈ stretches, dollarsAlone (some '$') s.text = true) ∧ dollarsAlone none " $" = true) ∧
      (∀ s ∈ stretches, s.HasValue env) ∧
      expand env .token "5 $ $.$\x7bHOST\x7d/$-$\x7bNONE:-$x\x7d $" = .ok "5 $ $.h$$/$-$x $" := by
  intro env stretches
  have hfits : ∀ s ∈ stretches, s.Fits := by decide +kernel
  have hlast : Text.occursIn "$\x7b" (" $" : Text) = false := by decide
  have halone : (∀ s ∈ stretches, dollarsAlone (some '$') s.text = true) ∧
      dollarsAlone none " $" = true := by decide +kernel
  have hvalue : ∀ s ∈ stretches, s.HasValue env := by
    simp only [stretches, List.forall_mem_cons]
    exact ⟨.inl ⟨'h', "$$", by decide⟩, .inr rfl, by simp⟩
  have hkept := (expand_keeps_dollars_iff .token hfits hlast).mpr (.inr halone) env hvalue
  exact ⟨hfits, hlast, halone, hvalue, hkept.trans (congrArg Except.ok (by decide))⟩

/-- Beside a reference two dollar signs become one. -/
theorem expand_drops_dollar_sign :
    ¬ ∀ (env : Environment) (field : Field) (stretches : List Stretch) (last : Text),
      (∀ s ∈ stretches, s.Fits) → Text.occursIn "$\x7b" last = false →
      (∀ s ∈ stretches, s.HasValue env) →
        expand env field (stretches.flatMap Stretch.write ++ last) =
          .ok (stretches.flatMap (Stretch.kept env) ++ last) := by
  intro hclaim
  let env : Environment := fun _ => some ['1']
  have hkept := hclaim env .token [⟨"pa$$word-", "X", none⟩] [] (by decide +kernel) rfl
    (List.forall_mem_singleton.mpr (.inl ⟨'1', [], rfl⟩))
  exact absurd hkept (by decide +kernel)

end Config

end Shortcode
