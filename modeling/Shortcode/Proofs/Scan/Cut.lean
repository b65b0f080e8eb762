import Shortcode.Scan

/-! # Leftmost cuts

What a scan finds, said without a reader. A grammar tells which texts stand for which values. A
cut divides a text into parts and the gaps around them; it is leftmost if every part is in the
grammar and nothing in the grammar starts inside a gap. A reader that reads the grammar makes the
leftmost cut of a text unique, and scanning finds it. -/

namespace Shortcode

/-- Which texts stand for which values. -/
abbrev Grammar (α : Type) := Text → α → Prop

/-- Something in the grammar stands somewhere in the text. -/
def Grammar.OccursIn {α : Type} (grammar : Grammar α) (text : Text) : Prop :=
  ∃ before part rest a, text = before ++ part ++ rest ∧ grammar part a

/-- A text in one grammar and behind it a text in another, which stand for a value together. -/
def Grammar.seq {α β γ : Type} (make : α → β → γ) (first : Grammar α) (second : Grammar β) :
    Grammar γ := fun part c =>
  ∃ head tail a b, part = head ++ tail ∧ first head a ∧ second tail b ∧ c = make a b

/-- A reader recognises at the start of a text what the grammar allows there, and nothing else. -/
structure Reads {α : Type} (read? : Reader α) (grammar : Grammar α) : Prop where
  ne_nil : ∀ {part a}, grammar part a → part ≠ []
  sound : ∀ {text a rest}, read? text = some (a, rest) → ∃ part, text = part ++ rest ∧ grammar part a
  complete : ∀ {part a}, grammar part a → ∀ rest, read? (part ++ rest) = some (a, rest)

/-- A text cut into gaps and parts, where each part stands for a value. -/
inductive Cut (α : Type) where
  /-- No part is left. -/
  | last (gap : Text)
  /-- A gap, the part behind it, and what follows. -/
  | next (gap part : Text) (value : α) (rest : Cut α)
deriving DecidableEq, Repr

namespace Cut

variable {α : Type}

def text : Cut α → Text
  | last gap => gap
  | next gap part _ rest => gap ++ part ++ rest.text

def values : Cut α → List α
  | last _ => []
  | next _ _ a rest => a :: rest.values

/-- The segments that a scan makes of the cut. -/
def segments : Cut α → List (Segment α)
  | last gap => gap.map .gap
  | next gap _ a rest => gap.map .gap ++ .hit a :: rest.segments

/-- Nothing in the grammar starts inside `gap` where `after` follows it. -/
def Clear (grammar : Grammar α) (gap after : Text) : Prop :=
  ∀ before inside part rest a, gap = before ++ inside → inside ≠ [] →
    inside ++ after = part ++ rest → ¬ grammar part a

/-- Every part is in the grammar, and nothing in the grammar starts inside a gap. -/
def IsLeftmost (grammar : Grammar α) : Cut α → Prop
  | last gap => Clear grammar gap []
  | next gap part a rest =>
    Clear grammar gap (part ++ rest.text) ∧ grammar part a ∧ rest.IsLeftmost grammar

/-- The cut divides the text, and its parts are those that are found from the left. -/
def IsLeftmostOf (grammar : Grammar α) (text : Text) (cut : Cut α) : Prop :=
  cut.text = text ∧ cut.IsLeftmost grammar

/-- The cut of a text with one more character in front. -/
def cons (c : Char) : Cut α → Cut α
  | last gap => last (c :: gap)
  | next gap part a rest => .next (c :: gap) part a rest

@[simp] theorem text_cons (c : Char) (cut : Cut α) : (cut.cons c).text = c :: cut.text := by
  cases cut <;> simp [cons, text]

end Cut

namespace Reads

variable {α : Type} {read? : Reader α} {grammar : Grammar α}

theorem eq_none_iff (hr : Reads read? grammar) {text : Text} :
    read? text = none ↔ ∀ part rest a, text = part ++ rest → ¬ grammar part a := by
  constructor
  · intro h part rest a htext hpart
    rw [htext, hr.complete hpart] at h
    simp at h
  · intro h
    cases hread : read? text with
    | none => rfl
    | some hit =>
      obtain ⟨part, htext, hpart⟩ := hr.sound hread
      exact absurd hpart (h part hit.2 hit.1 htext)

theorem grammar_of_read (hr : Reads read? grammar) {text : Text} {a : α}
    (h : read? text = some (a, [])) : grammar text a := by
  obtain ⟨part, htext, hpart⟩ := hr.sound h
  rw [List.append_nil] at htext
  rw [htext]
  exact hpart

theorem grammar_iff (hr : Reads read? grammar) {text : Text} {a : α} :
    read? text = some (a, []) ↔ grammar text a := by
  constructor
  · exact hr.grammar_of_read
  · intro h
    have hread := hr.complete h []
    rwa [List.append_nil] at hread

theorem unique (hr : Reads read? grammar) {part part' rest rest' : Text} {a a' : α}
    (h : grammar part a) (h' : grammar part' a') (heq : part ++ rest = part' ++ rest') :
    part = part' ∧ a = a' ∧ rest = rest' := by
  have hread := hr.complete h rest
  rw [heq, hr.complete h' rest'] at hread
  injection hread with hread
  injection hread with ha hrest
  subst hrest
  exact ⟨List.append_cancel_right heq, ha.symm, rfl⟩

/-- Two readers after each other read one grammar after the other. -/
theorem seq {β γ : Type} {readNext? : Reader β} {next : Grammar β} (make : α → β → γ)
    (hr : Reads read? grammar) (hnext : Reads readNext? next) :
    Reads (fun text => do
      let (a, rest) ← read? text
      let (b, rest) ← readNext? rest
      return (make a b, rest)) (.seq make grammar next) where
  ne_nil := by
    rintro part c ⟨head, tail, a, b, rfl, hhead, -⟩ hnil
    exact hr.ne_nil hhead (List.append_eq_nil_iff.mp hnil).1
  sound := by
    intro text c rest h
    obtain ⟨⟨a, rest'⟩, hread, hbind⟩ := Option.bind_eq_some_iff.mp h
    obtain ⟨⟨b, rest''⟩, hread', hpure⟩ := Option.bind_eq_some_iff.mp hbind
    obtain ⟨head, rfl, hhead⟩ := hr.sound hread
    obtain ⟨tail, rfl, htail⟩ := hnext.sound hread'
    obtain ⟨rfl, rfl⟩ := Prod.mk.inj (Option.some.inj hpure)
    exact ⟨head ++ tail, (List.append_assoc ..).symm, head, tail, a, b, rfl, hhead, htail, rfl⟩
  complete := by
    rintro part c ⟨head, tail, a, b, rfl, hhead, htail, rfl⟩ rest
    have hread := hr.complete hhead (tail ++ rest)
    have hread' := hnext.complete htail rest
    rw [List.append_assoc]
    simp only [hread, hread', Option.bind_eq_bind, Option.bind_some, Option.pure_def]

/-- Induction along a scan: a character at which nothing is read, or a part. -/
theorem scanInduction (hr : Reads read? grammar) {motive : Text → Prop} (nil : motive [])
    (gap : ∀ c text, read? (c :: text) = none → motive text → motive (c :: text))
    (hit : ∀ part a rest, grammar part a → motive rest → motive (part ++ rest)) (text : Text) :
    motive text := by
  have key : ∀ n (text : Text), text.length = n → motive text := by
    intro n
    induction n using Nat.strongRecOn with
    | ind n ih =>
      intro text hn
      cases text with
      | nil => exact nil
      | cons c text =>
        cases hread : read? (c :: text) with
        | none =>
          simp only [List.length_cons] at hn
          exact gap c text hread (ih text.length (by omega) text rfl)
        | some found =>
          obtain ⟨part, htext, hpart⟩ := hr.sound hread
          have hpos := List.length_pos_iff.mpr (hr.ne_nil hpart)
          have hlen := congrArg List.length htext
          simp only [List.length_append] at hlen
          rw [htext]
          exact hit part found.1 found.2 hpart (ih found.2.length (by omega) found.2 rfl)
  exact key text.length text rfl

end Reads

namespace Cut

variable {α : Type} {read? : Reader α} {grammar : Grammar α}

theorem clear_nil (after : Text) : Clear grammar [] after := by
  intro before inside part rest a h hne
  exact absurd (List.append_eq_nil_iff.mp h.symm).2 hne

theorem clear_cons_iff (hr : Reads read? grammar) {c : Char} {gap after : Text} :
    Clear grammar (c :: gap) after ↔
      read? (c :: (gap ++ after)) = none ∧ Clear grammar gap after := by
  rw [hr.eq_none_iff]
  constructor
  · intro h
    constructor
    · intro part rest a htext
      exact h [] (c :: gap) part rest a rfl (by simp) htext
    · intro before inside part rest a hgap
      exact h (c :: before) inside part rest a (by rw [hgap, List.cons_append])
  · rintro ⟨hhead, htail⟩ before inside part rest a hgap hne htext
    cases before with
    | nil =>
      rw [List.nil_append] at hgap
      subst hgap
      exact hhead part rest a htext
    | cons b before =>
      rw [List.cons_append] at hgap
      exact htail before inside part rest a (List.cons.inj hgap).2 hne htext

theorem Clear.eq_nil {gap inside after part rest : Text} {a : α}
    (h : Clear grammar (gap ++ inside) after) (htext : inside ++ after = part ++ rest)
    (hpart : grammar part a) : inside = [] := by
  by_cases hne : inside = []
  · exact hne
  · exact absurd hpart (h gap inside part rest a rfl hne htext)

theorem Clear.segments_append (hr : Reads read? grammar) {gap after : Text}
    (h : Clear grammar gap after) :
    Scan.segments read? (gap ++ after) = gap.map .gap ++ Scan.segments read? after := by
  induction gap with
  | nil => rfl
  | cons c gap ih =>
    obtain ⟨hhead, htail⟩ := (clear_cons_iff hr).mp h
    rw [List.cons_append, Scan.segments_cons_of_none hhead, ih htail]
    rfl

/-- Scanning a text finds the parts of its leftmost cut and keeps the gaps. -/
theorem IsLeftmost.segments_text (hr : Reads read? grammar) {cut : Cut α}
    (h : cut.IsLeftmost grammar) : Scan.segments read? cut.text = cut.segments := by
  induction cut with
  | last gap =>
    have hgap := Clear.segments_append hr h
    simpa [text, segments] using hgap
  | next gap part a rest ih =>
    obtain ⟨hgap, hpart, hrest⟩ := h
    have hread := hr.complete hpart rest.text
    simp only [text, segments]
    rw [List.append_assoc, hgap.segments_append hr,
      Scan.segments_of_some (hr.ne_nil hpart) hread, ih hrest]

theorem filterMap_value?_gap (gap : Text) :
    (gap.map (Segment.gap (α := α))).filterMap Segment.value? = [] := by
  simp [Segment.value?]

theorem filterMap_value?_segments (cut : Cut α) :
    cut.segments.filterMap Segment.value? = cut.values := by
  induction cut with
  | last gap => exact filterMap_value?_gap gap
  | next gap part a rest ih =>
    rw [segments, values, List.filterMap_append, filterMap_value?_gap, List.nil_append, ← ih]
    rfl

theorem IsLeftmost.hits_text (hr : Reads read? grammar) {cut : Cut α}
    (h : cut.IsLeftmost grammar) : Scan.hits read? cut.text = cut.values := by
  rw [Scan.hits, h.segments_text hr, filterMap_value?_segments]

theorem isLeftmostOf_next_nil {part : Text} {a : α} (h : grammar part a) :
    (Cut.next [] part a (.last [])).IsLeftmostOf grammar part :=
  ⟨by simp [text], clear_nil _, h, clear_nil _⟩

theorem IsLeftmostOf.hits_eq_values (hr : Reads read? grammar) {text : Text} {cut : Cut α}
    (h : cut.IsLeftmostOf grammar text) : Scan.hits read? text = cut.values := by
  rw [← h.1, h.2.hits_text hr]

theorem IsLeftmost.grammar_of_mem {cut : Cut α} (h : cut.IsLeftmost grammar) {a : α}
    (ha : a ∈ cut.values) : ∃ part, part <:+: cut.text ∧ grammar part a := by
  induction cut with
  | last gap => simp [values] at ha
  | next gap part b rest ih =>
    obtain ⟨-, hpart, hrest⟩ := h
    rcases List.mem_cons.mp ha with rfl | ha
    · exact ⟨part, ⟨gap, rest.text, rfl⟩, hpart⟩
    · obtain ⟨part', hwithin, hpart'⟩ := ih hrest ha
      exact ⟨part', hwithin.trans (List.suffix_append _ _).isInfix, hpart'⟩

theorem IsLeftmost.cons (hr : Reads read? grammar) {c : Char} {cut : Cut α}
    (h : cut.IsLeftmost grammar) (hread : read? (c :: cut.text) = none) :
    (cut.cons c).IsLeftmost grammar := by
  cases cut with
  | last gap =>
    refine (clear_cons_iff hr).mpr ⟨?_, h⟩
    simpa [text] using hread
  | next gap part a rest =>
    obtain ⟨hgap, hpart, hrest⟩ := h
    refine ⟨(clear_cons_iff hr).mpr ⟨?_, hgap⟩, hpart, hrest⟩
    simpa [text, List.append_assoc] using hread

/-- Where every occurrence ends in front of `after`, a scan passes over `after`. -/
theorem segments_append (hr : Reads read? grammar) {text after : Text}
    (h : ∀ before part rest a, text ++ after = before ++ (part ++ rest) → grammar part a →
      before.length + part.length ≤ text.length) :
    Scan.segments read? (text ++ after) = Scan.segments read? text ++ after.map .gap := by
  induction text using hr.scanInduction with
  | nil =>
    have hclear : Clear grammar after [] := by
      intro before inside part rest a hafter hne htext hpart
      have hle := h before part rest a (by rw [hafter, ← htext]; simp) hpart
      have hpos := List.length_pos_iff.mpr (hr.ne_nil hpart)
      simp only [List.length_nil] at hle
      omega
    have hgap := hclear.segments_append hr
    rw [List.append_nil] at hgap
    exact hgap.trans (List.append_nil _)
  | gap c text hread ih =>
    have hnone : read? (c :: (text ++ after)) = none := by
      refine hr.eq_none_iff.mpr ?_
      intro part rest a htext hpart
      have hle := h [] part rest a htext hpart
      rw [← List.cons_append] at htext
      obtain ⟨inside, hinside⟩ := List.prefix_of_prefix_length_le ⟨rest, htext.symm⟩
        ⟨after, rfl⟩ (by simpa using hle)
      rw [← hinside, hr.complete hpart] at hread
      simp at hread
    have hrest := ih (by
      intro before part rest a htext hpart
      have hle := h (c :: before) part rest a (by rw [List.cons_append, htext]; rfl) hpart
      simp only [List.length_cons] at hle
      omega)
    rw [List.cons_append, Scan.segments_cons_of_none hnone, Scan.segments_cons_of_none hread, hrest]
    rfl
  | hit part a rest hpart ih =>
    have hrest := ih (by
      intro before part' rest' a' htext hpart'
      have hle := h (part ++ before) part' rest' a' (by simp only [List.append_assoc, htext]) hpart'
      simp only [List.length_append] at hle
      omega)
    rw [List.append_assoc, Scan.segments_of_some (hr.ne_nil hpart) (hr.complete hpart _),
      Scan.segments_of_some (hr.ne_nil hpart) (hr.complete hpart _), hrest]
    rfl

theorem exists_isLeftmostOf (hr : Reads read? grammar) (text : Text) :
    ∃ cut : Cut α, cut.IsLeftmostOf grammar text := by
  induction text using hr.scanInduction with
  | nil => exact ⟨.last [], rfl, clear_nil []⟩
  | gap c text hread ih =>
    obtain ⟨cut, rfl, hcut⟩ := ih
    exact ⟨cut.cons c, cut.text_cons c, hcut.cons hr hread⟩
  | hit part a rest hpart ih =>
    obtain ⟨cut, rfl, hcut⟩ := ih
    exact ⟨.next [] part a cut, rfl, clear_nil _, hpart, hcut⟩

/-- A part of one cut does not start inside a clear gap of another cut. -/
theorem Clear.length_le {gap gap' part after after' : Text} {a : α}
    (h : Clear grammar gap after) (hpart : grammar part a)
    (heq : gap' ++ (part ++ after') = gap ++ after) : gap.length ≤ gap'.length := by
  rcases List.append_eq_append_iff.mp heq with ⟨inside, hgap, htext⟩ | ⟨inside, hgap, -⟩
  · rw [hgap] at h
    have hinside := h.eq_nil htext.symm hpart
    rw [hinside, List.append_nil] at hgap
    exact Nat.le_of_eq (congrArg List.length hgap)
  · have hlen := congrArg List.length hgap
    rw [List.length_append] at hlen
    omega

theorem IsLeftmost.last_text_ne (hr : Reads read? grammar) {gap gap' part : Text} {a : α}
    {rest : Cut α} (h : (last gap).IsLeftmost grammar)
    (h' : (next gap' part a rest).IsLeftmost grammar) :
    (last gap : Cut α).text ≠ (next gap' part a rest).text := by
  intro heq
  obtain ⟨-, hpart, -⟩ := h'
  simp only [text, List.append_assoc] at heq
  have hle := Clear.length_le h hpart (by rw [← heq, List.append_nil])
  have hpos := List.length_pos_iff.mpr (hr.ne_nil hpart)
  have hlen := congrArg List.length heq
  simp only [List.length_append] at hlen
  omega

theorem IsLeftmost.unique (hr : Reads read? grammar) {cut other : Cut α}
    (h : cut.IsLeftmost grammar) (h' : other.IsLeftmost grammar) (heq : cut.text = other.text) :
    cut = other := by
  induction cut generalizing other with
  | last gap =>
    cases other with
    | last gap' => exact congrArg last heq
    | next gap' part' a' rest' => exact absurd heq (h.last_text_ne hr h')
  | next gap part a rest ih =>
    cases other with
    | last gap' => exact absurd heq.symm (h'.last_text_ne hr h)
    | next gap' part' a' rest' =>
      obtain ⟨hgap, hpart, hrest⟩ := h
      obtain ⟨hgap', hpart', hrest'⟩ := h'
      simp only [text, List.append_assoc] at heq
      have hle := hgap'.length_le hpart heq
      have hle' := hgap.length_le hpart' heq.symm
      obtain ⟨hgaps, hparts⟩ := List.append_inj heq (by omega)
      obtain ⟨hpart_eq, ha, htext⟩ := hr.unique hpart hpart' hparts
      rw [hgaps, hpart_eq, ha, ih hrest hrest' htext]

/-- The leftmost cut of a text has a part where something in the grammar stands in the text. -/
theorem IsLeftmostOf.values_ne_nil_iff (hr : Reads read? grammar) {text : Text} {cut : Cut α}
    (h : cut.IsLeftmostOf grammar text) : cut.values ≠ [] ↔ grammar.OccursIn text := by
  obtain ⟨rfl, hcut⟩ := h
  cases cut with
  | last gap =>
    simp only [values, ne_eq, not_true_eq_false, false_iff]
    rintro ⟨before, part, rest, a, htext, hpart⟩
    have hne : part ++ rest ≠ [] := fun hnil =>
      hr.ne_nil hpart (List.append_eq_nil_iff.mp hnil).1
    refine hcut before (part ++ rest) part rest a ?_ hne (List.append_nil _) hpart
    rw [← List.append_assoc]
    exact htext
  | next gap part a rest =>
    obtain ⟨-, hpart, -⟩ := hcut
    exact iff_of_true (List.cons_ne_nil _ _) ⟨gap, part, rest.text, a, rfl, hpart⟩

theorem IsLeftmostOf.values_eq_nil (hr : Reads read? grammar) {text : Text} {cut : Cut α}
    (h : cut.IsLeftmostOf grammar text) (hnone : ¬ grammar.OccursIn text) : cut.values = [] := by
  by_cases hvalues : cut.values = []
  · exact hvalues
  · exact absurd ((h.values_ne_nil_iff hr).mp hvalues) hnone

theorem exists_unique_isLeftmostOf (hr : Reads read? grammar) (text : Text) :
    ∃ cut : Cut α, cut.IsLeftmostOf grammar text ∧
      ∀ other : Cut α, other.IsLeftmostOf grammar text → other = cut := by
  obtain ⟨cut, htext, hcut⟩ := exists_isLeftmostOf hr text
  refine ⟨cut, ⟨htext, hcut⟩, ?_⟩
  rintro other ⟨htext', hother⟩
  exact hother.unique hr hcut (htext'.trans htext.symm)

end Cut

end Shortcode
