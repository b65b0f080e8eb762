import Shortcode.Proofs.Engine.Forging
import Shortcode.Proofs.Engine.Unchanged

/-! # Rendering an output again

Every stage reads its text once, from left to right. An output is therefore stable unless a stage
leaves a tag of its own kind behind, as it does with a shortcode inside a shortcode of one kind or
around one of a later kind. -/

namespace Shortcode

theorem suffix_append_cases {s x y : Text} (h : s <:+ x ++ y) :
    s <:+ y ∨ ∃ z, z ≠ [] ∧ z <:+ x ∧ s = z ++ y := by
  obtain ⟨before, hs⟩ := h
  rcases List.append_eq_append_iff.mp hs with ⟨z, rfl, rfl⟩ | ⟨z, rfl, rfl⟩
  · by_cases hz : z = []
    · rw [hz]
      exact .inl List.suffix_rfl
    · exact .inr ⟨z, hz, List.suffix_append before z, rfl⟩
  · exact .inl (List.suffix_append z s)

namespace Tag

variable {keyword x y z : Text}

/-- Behind a text that begins no tag with anything, only what follows it starts with one. -/
theorem Starts.suffix_of_append (hbracket : '[' ∉ keyword)
    (hx : ∀ rest, ¬ BegunIn keyword rest → ¬ BegunIn keyword (x ++ rest)) {s : Text}
    (h : Starts keyword s) (hs : s <:+ x ++ y) : s <:+ y := by
  rcases suffix_append_cases hs with hs | ⟨z, hz, ⟨before, hbefore⟩, rfl⟩
  · exact hs
  · obtain ⟨word, hword, after, hafter⟩ := h
    rcases List.append_eq_append_iff.mp hafter with ⟨inside, hinside, -⟩ | ⟨inside, hinside, -⟩
    -- The tag ends in `x`.
    · have hnone : ¬ BegunIn keyword (x ++ []) := hx [] (BegunIn.not_of_not_mem (by simp))
      exact absurd ⟨word, hword, before, inside, by simp [← hbefore, hinside]⟩ hnone
    -- The end of the word stands in `y`, and no bracket is in it.
    · obtain ⟨c, z, rfl⟩ := List.exists_cons_of_ne_nil hz
      obtain ⟨rfl, hsplit⟩ := List.cons.inj hinside
      have hfree : '[' ∉ inside := by
        intro hmem
        apply hword.not_mem (by decide) hbracket
        rw [hsplit]
        exact List.mem_append_right z hmem
      have hnone := hx inside (BegunIn.not_of_not_mem hfree)
      exact absurd ⟨word, hword, before, [], by simp [← hbefore, hsplit]⟩ hnone

theorem Starts.of_append_angle (hangle : '<' ∉ keyword)
    (h : Starts keyword (x ++ '<' :: y)) : Starts keyword x := by
  obtain ⟨word, hword, after, hafter⟩ := h
  refine ⟨word, hword, ?_⟩
  rcases List.append_eq_append_iff.mp hafter with ⟨inside, hinside, -⟩ | ⟨inside, hinside, hrest⟩
  · exact ⟨inside, hinside.symm⟩
  · cases inside with
    | nil =>
      rw [List.append_nil] at hinside
      rw [hinside]
    | cons c inside =>
      obtain ⟨rfl, -⟩ := List.cons.inj hrest
      have hmem : '<' ∈ '[' :: word := by
        rw [hinside]
        simp
      have hword := hword.not_mem (by decide) hangle
      simp [hword] at hmem

end Tag

/-- Wherever a tag of the kinds begins, there is a shortcode of its kind, in which no further tag of
the kinds begins. -/
def Unnested (kinds : List Kind) (text : Text) : Prop :=
  ∀ k ∈ kinds, ∀ s, s <:+ text → Tag.Starts k.name s →
    ∃ part after o, s = part ++ after ∧ k.grammar part o ∧
      ∀ l ∈ kinds, ¬ Tag.BegunIn l.name part.tail

theorem unnested_iff {kinds : List Kind} {text : Text} :
    Unnested kinds text ↔ ∀ k ∈ kinds, ∀ s ∈ text.tails, Tag.Starts k.name s →
      (k.occurrence? s).any (fun hit => decide (∀ l ∈ kinds,
        ¬ Tag.BegunIn l.name (s.take (s.length - hit.2.length)).tail)) = true := by
  have htake : ∀ part after : Text,
      (part ++ after).take ((part ++ after).length - after.length) = part := by
    intro part after
    rw [List.length_append, Nat.add_sub_cancel, List.take_left]
  simp only [Unnested, List.mem_tails, Option.any_eq_true, decide_eq_true_eq]
  constructor
  · intro h k hk s hs hstart
    obtain ⟨part, after, o, rfl, hpart, hfree⟩ := h k hk s hs hstart
    refine ⟨(o, after), k.reads_occurrence.complete hpart after, ?_⟩
    rw [htake]
    exact hfree
  · intro h k hk s hs hstart
    obtain ⟨⟨o, after⟩, hread, hfree⟩ := h k hk s hs hstart
    obtain ⟨part, rfl, hpart⟩ := k.reads_occurrence.sound hread
    rw [htake] at hfree
    exact ⟨part, after, o, rfl, hpart, hfree⟩

instance (kinds : List Kind) (text : Text) : Decidable (Unnested kinds text) :=
  decidable_of_iff _ unnested_iff.symm

namespace Unnested

variable {k : Kind} {kinds : List Kind} {text : Text}

theorem of_suffix {rest : Text} (h : Unnested kinds text) (hrest : rest <:+ text) :
    Unnested kinds rest :=
  fun k hk s hs hstart => h k hk s (hs.trans hrest) hstart

theorem of_cons (h : Unnested (k :: kinds) text) : Unnested kinds text := by
  intro l hl s hs hstart
  obtain ⟨part, after, o, rfl, hpart, hfree⟩ := h l (List.mem_cons_of_mem k hl) s hs hstart
  exact ⟨part, after, o, rfl, hpart, fun l hl => hfree l (List.mem_cons_of_mem k hl)⟩

theorem not_begunIn_tail (h : Unnested kinds text) (hk : k ∈ kinds) {part after : Text}
    {o : Occurrence} (hwithin : part ++ after <:+ text) (hpart : k.grammar part o) :
    ∀ l ∈ kinds, ¬ Tag.BegunIn l.name part.tail := by
  have hstart := (Kind.starts_of_grammar hpart).append after
  obtain ⟨part', after', o', heq, hpart', hfree⟩ := h k hk _ hwithin hstart
  obtain ⟨rfl, -, -⟩ := k.reads_occurrence.unique hpart hpart' heq
  exact hfree

theorem not_begunIn_gap {gap after : Text} (hclear : Cut.Clear k.grammar gap after)
    (h : Unnested kinds (gap ++ after)) (hk : k ∈ kinds) : ¬ Tag.BegunIn k.name gap := by
  intro hbegun
  obtain ⟨s, ⟨before, hgap⟩, hstart⟩ := Tag.begunIn_iff_exists_suffix.mp hbegun
  have hwithin : s ++ after <:+ gap ++ after := ⟨before, by rw [← hgap, List.append_assoc]⟩
  obtain ⟨part, rest, o, heq, hpart, -⟩ := h k hk _ hwithin (hstart.append after)
  exact hclear before s part rest o hgap.symm hstart.ne_nil heq hpart

/-- The stage of a kind finds every tag of it that begins. -/
theorem freeOf {cut : Cut Occurrence} (hcut : cut.IsLeftmost k.grammar)
    (h : Unnested kinds cut.text) (hk : k ∈ kinds) : cut.FreeOf k.name := by
  induction cut with
  | last gap =>
    rw [Cut.text, ← List.append_nil gap] at h
    exact not_begunIn_gap hcut h hk
  | next gap part o rest ih =>
    obtain ⟨hclear, hpart, hrest⟩ := hcut
    rw [Cut.text, List.append_assoc] at h
    have hfree := h.not_begunIn_tail hk (List.suffix_append gap _) hpart k hk
    obtain ⟨hraw, hbody⟩ := Kind.isInfix_tail_of_grammar hpart
    have hbehind : rest.text <:+ gap ++ (part ++ rest.text) :=
      ⟨gap ++ part, by rw [List.append_assoc]⟩
    refine ⟨not_begunIn_gap hclear h hk, ?_, ?_, ih hrest (h.of_suffix hbehind)⟩
    · exact fun hbegun => hfree (hbegun.mono hraw)
    · exact fun hbegun => hfree (hbegun.mono hbody)

/-- A shortcode in which no tag of the kind `k` begins ends in front of the next one of that kind. -/
theorem exists_of_gap {l : Kind} {gap x part after : Text} {o : Occurrence} (hgap : gap ≠ [])
    (hx : Tag.Starts k.name x) (hpart : l.grammar part o) (hfree : ¬ Tag.BegunIn k.name part.tail)
    (heq : gap ++ x = part ++ after) : ∃ z, gap = part ++ z := by
  rcases List.append_eq_append_iff.mp heq with ⟨z, hz, hrest⟩ | ⟨z, hz, -⟩
  · by_cases hnil : z = []
    · exact ⟨[], by rw [hz, hnil, List.append_nil, List.append_nil]⟩
    · obtain ⟨word, hword, hprefix⟩ := hx
      rcases List.prefix_or_prefix_of_prefix hprefix ⟨after, hrest.symm⟩ with hin | hover
      -- The tag of the kind `k` begins inside the shortcode.
      · obtain ⟨c, gap, rfl⟩ := List.exists_cons_of_ne_nil hgap
        rw [hz] at hfree
        exact absurd ⟨word, hword, hin.isInfix.trans (List.suffix_append gap z).isInfix⟩ hfree
      -- The shortcode would end inside that tag, which holds no closing bracket.
      · obtain ⟨inner, hinner⟩ := l.bracketed_of_grammar hpart
        obtain ⟨front, c, rfl⟩ := (List.eq_nil_or_concat' z).resolve_left hnil
        have hlast : (gap ++ front) ++ [c] = ('[' :: inner) ++ [']'] := by
          rw [List.append_assoc, ← hz, hinner]
          rfl
        obtain ⟨-, hc⟩ := List.append_inj' hlast rfl
        obtain ⟨rfl, -⟩ := List.cons.inj hc
        have hmem : ']' ∈ '[' :: word := hover.subset (by simp)
        have hclosing := hword.not_mem (by decide) k.closing_not_mem_name
        simp [hclosing] at hmem
  · exact ⟨z, hz⟩

end Unnested

namespace Engine

variable (e : Engine) {k : Kind} {kinds : List Kind} {drawn : List Text}

section Bracketless

variable (hescape : e.host.escape = Markup.escape)
  (hids : ∀ drawn (l : Kind), '[' ∉ e.ids.next drawn l.stem)

include hescape hids

theorem unnested_renderCut (hhost : ∀ l ∈ kinds, e.host.Answers fun x => ¬ Tag.BegunIn l.name x)
    {cut : Cut Occurrence} (hcut : cut.IsLeftmost k.grammar) (h : Unnested (k :: kinds) cut.text) :
    Unnested kinds (e.renderCut k drawn cut).text := by
  induction cut generalizing drawn with
  | last gap => exact h.of_cons
  | next gap part o rest ih =>
    obtain ⟨hclear, hpart, hrest⟩ := hcut
    rw [Cut.text, List.append_assoc] at h
    have hbehind : rest.text <:+ gap ++ (part ++ rest.text) :=
      ⟨gap ++ part, by rw [List.append_assoc]⟩
    let r := (k.expand e.host o).settle e.host.escape e.ids drawn
    have htail : Unnested kinds (e.renderCut k r.drawn rest).text :=
      ih hrest (h.of_suffix hbehind)
    have hfree := h.not_begunIn_tail (List.mem_cons_self ..) (List.suffix_append gap _) hpart
    obtain ⟨hraw, hbody⟩ := Kind.isInfix_tail_of_grammar hpart
    intro l hl s hs hstart
    have hmem : l ∈ k :: kinds := List.mem_cons_of_mem k hl
    have hjoined : (e.renderCut k drawn (.next gap part o rest)).text =
        gap ++ (r.text ++ (e.renderCut k r.drawn rest).text) := List.append_assoc ..
    rw [hjoined] at hs
    rcases suffix_append_cases hs with hs | ⟨z, hz, ⟨before, hgap⟩, rfl⟩
    · have hseals : ∀ y, ¬ Tag.BegunIn l.name y → ¬ Tag.BegunIn l.name (r.text ++ y) := by
        intro y hy
        exact e.not_begunIn_settle_append hescape hids (hhost l hl) k
          (fun hbegun => hfree l hmem (hbegun.mono hraw))
          (fun hbegun => hfree l hmem (hbegun.mono hbody)) hy
      exact htail l hl s (hstart.suffix_of_append l.opening_not_mem_name hseals hs) hstart
    · -- The tag begins in the gap, and its shortcode stood there in the text as well.
      obtain ⟨tail, hangle⟩ := k.expand_text_eq_cons e.host e.host.escape e.ids drawn o
      have hangle : r.text = '<' :: tail := hangle
      rw [hangle, List.cons_append] at hstart
      have hbegins := (hstart.of_append_angle (by cases l <;> decide)).append (part ++ rest.text)
      have hwithin : z ++ (part ++ rest.text) <:+ gap ++ (part ++ rest.text) :=
        ⟨before, by rw [← hgap, List.append_assoc]⟩
      obtain ⟨part', after, o', heq, hpart', hfree'⟩ := h l hmem _ hwithin hbegins
      have hnext := (Kind.starts_of_grammar hpart).append rest.text
      obtain ⟨z', rfl⟩ :=
        Unnested.exists_of_gap hz hnext hpart' (hfree' k (List.mem_cons_self ..)) heq
      refine ⟨part', _, o', List.append_assoc .., hpart', ?_⟩
      exact fun l hl => hfree' l (List.mem_cons_of_mem k hl)

/-- A stage expands all tags of its kind and keeps the others in their shortcodes. -/
theorem unnested_advance
    (hhost : ∀ l ∈ k :: kinds, e.host.Answers fun x => ¬ Tag.BegunIn l.name x) {r : Rendering}
    (h : Unnested (k :: kinds) r.text) :
    ¬ Tag.BegunIn k.name (e.advance r k).text ∧ Unnested kinds (e.advance r k).text := by
  obtain ⟨cut, htext, hcut⟩ := Cut.exists_isLeftmostOf k.reads_occurrence r.text
  have hmem : k ∈ k :: kinds := List.mem_cons_self ..
  have hstage := e.stage?_eq_renderCut k ⟨htext, hcut⟩ r.drawn
  rw [← htext] at h
  have hk : ¬ Tag.BegunIn k.name (e.renderCut k r.drawn cut).text :=
    e.not_begunIn_renderCut hescape hids (hhost k hmem) k (h.freeOf hcut hmem)
  have hkinds : Unnested kinds (e.renderCut k r.drawn cut).text :=
    e.unnested_renderCut hescape hids (fun l hl => hhost l (List.mem_cons_of_mem k hl)) hcut h
  have hrendered : (e.advance r k).text = (e.renderCut k r.drawn cut).text := by
    simp only [advance, hstage]
    cases cut with
    | last gap => exact htext.symm
    | next gap part o rest => rfl
  rw [hrendered]
  exact ⟨hk, hkinds⟩

theorem not_begunIn_of_unnested
    (hhost : ∀ l ∈ kinds, e.host.Answers fun x => ¬ Tag.BegunIn l.name x) {r : Rendering}
    (h : Unnested kinds r.text) :
    ∀ k ∈ kinds, ¬ Tag.BegunIn k.name (kinds.foldl e.advance r).text := by
  induction kinds generalizing r with
  | nil => simp
  | cons k kinds ih =>
    obtain ⟨hk, hkinds⟩ := e.unnested_advance hescape hids hhost h
    intro l hl
    rcases List.mem_cons.mp hl with rfl | hl
    · exact e.not_begunIn_foldl_advance hescape hids (hhost l (List.mem_cons_self ..)) kinds hk
    · exact ih (fun l hl => hhost l (List.mem_cons_of_mem k hl)) hkinds l hl

end Bracketless

/-- The stage of every enabled kind leaves no tag of its own kind begun. -/
def LeavesNone (drawn : List Text) (text : Text) : Prop :=
  ∀ kinds k, kinds ++ [k] <+: e.switches.enabled →
    ¬ Tag.BegunIn k.name ((kinds ++ [k]).foldl e.advance (.start drawn text)).text

/-- Rendering an output again changes nothing if and only if no shortcode of an enabled kind stands in
it. With the standard escaper that is so where the stage of every enabled kind leaves no tag of its
own kind begun, and where the tags of a text are not nested in each other. -/
theorem render_again (e : Engine) (drawn drawn' : List Text) (text : Text) :
    let out := (e.render drawn text).text
    ((e.render drawn' out).text = out ↔
      ∀ k, e.switches.isOn k = true → ¬ k.grammar.OccursIn out) ∧
    (e.host.escape = Markup.escape → (∀ drawn (l : Kind), '[' ∉ e.ids.next drawn l.stem) →
      (∀ k, e.switches.isOn k = true → e.host.Answers fun x => ¬ Tag.BegunIn k.name x) →
      e.LeavesNone drawn text ∨ Unnested e.switches.enabled text →
      e.render drawn' out = .start drawn' out) := by
  intro out
  refine ⟨⟨?_, ?_⟩, ?_⟩
  · intro hsame k hk hoccurs
    exact e.render_text_ne drawn' hk hoccurs hsame
  · intro h
    rw [e.render_eq_start drawn' h]
    rfl
  · intro hescape hids hhost htext
    have hout : ∀ k ∈ e.switches.enabled, ¬ Tag.BegunIn k.name out := by
      rcases htext with hleft | hunnested
      · intro k hk
        obtain ⟨earlier, later, heq⟩ := List.append_of_mem hk
        have hsplit : e.switches.enabled = (earlier ++ [k]) ++ later := by
          rw [heq, List.append_assoc, List.singleton_append]
        have hlater := e.not_begunIn_foldl_advance hescape hids
          (hhost k (Switches.mem_enabled.mp hk)) later (hleft earlier k ⟨later, hsplit.symm⟩)
        rw [← List.foldl_append, ← hsplit] at hlater
        exact hlater
      · have hanswers : ∀ k ∈ e.switches.enabled,
            e.host.Answers fun x => ¬ Tag.BegunIn k.name x :=
          fun k hk => hhost k (Switches.mem_enabled.mp hk)
        exact e.not_begunIn_of_unnested hescape hids hanswers hunnested
    apply e.render_eq_start
    intro k hk hoccurs
    exact hout k (Switches.mem_enabled.mpr hk) (Kind.begunIn_of_occursIn hoccurs)

/-- An alert and a button side by side, and a button in an alert. -/
theorem render_again_of_alert_and_button :
    let e : Engine := { host := { token := [] }, ids := .sequential }
    let apart : Text := "[alert]Note[/alert] and [button]Go[/button]"
    let nested : Text := "[alert]Note [button]Go[/button][/alert]"
    Unnested e.switches.enabled apart ∧
      e.render [] (e.render [] apart).text = .start [] (e.render [] apart).text ∧
      e.LeavesNone [] nested ∧
      e.render [] (e.render [] nested).text = .start [] (e.render [] nested).text := by
  intro e apart nested
  have hhost : ∀ k, e.switches.isOn k = true → e.host.Answers fun x => ¬ Tag.BegunIn k.name x :=
    fun k _ => answers_bare.mono fun _ hx => Tag.BegunIn.not_of_not_mem hx
  have hapart : Unnested e.switches.enabled apart := by decide +kernel
  have hstages : ∀ kinds ∈ e.switches.enabled.inits, ∀ k ∈ kinds.getLast?,
      ¬ Tag.BegunIn k.name (kinds.foldl e.advance (.start [] nested)).text := by decide +kernel
  have hnested : e.LeavesNone [] nested := by
    intro kinds k hkinds
    exact hstages (kinds ++ [k]) ((List.mem_inits ..).mpr hkinds) k (by simp)
  obtain ⟨-, hstable⟩ := e.render_again [] [] apart
  obtain ⟨-, hstable'⟩ := e.render_again [] [] nested
  exact ⟨hapart, hstable rfl opening_not_mem_sequential hhost (.inr hapart),
    hnested, hstable' rfl opening_not_mem_sequential hhost (.inl hnested)⟩

/-- An alert around an alert is a shortcode only after the inner one is expanded. -/
theorem render_again_expands_outer_alert :
    ¬ ∀ (e : Engine) (drawn : List Text) (text : Text), e.ids = .sequential →
      (e.render drawn (e.render drawn text).text).text = (e.render drawn text).text := by
  intro hclaim
  have hsame := hclaim { host := { token := [] }, ids := .sequential } []
    "[alert][alert]x[/alert][/alert]" rfl
  revert hsame
  decide +kernel

end Engine

end Shortcode
