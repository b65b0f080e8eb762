import Shortcode.Proofs.Engine.Locality
import Shortcode.Proofs.Engine.WrittenTags
import Shortcode.Proofs.Expansion.Elements
import Shortcode.Proofs.Tag.Begun

/-! # Buttons inside an alert

The body of an alert holds no opening bracket, so an alert around a button is no shortcode at first.
Buttons come before alerts in the pipeline. Their stage removes every bracket of theirs and brings in no
other, and the next stage then finds the alert around what they have become. -/

namespace Shortcode

/-! ### Buttons between texts -/

/-- A button and the text in front of it. -/
structure PlacedButton where
  front : Text
  raw : Text
  label : Text
deriving DecidableEq, Repr

namespace PlacedButton

def tag (b : PlacedButton) : Text :=
  Tag.opening Kind.button.name b.raw ++ (b.label ++ Tag.closing Kind.button.name)

/-- The button as it is written behind the text in front of it. -/
def write (b : PlacedButton) : Text :=
  b.front ++ b.tag

/-- No bracket stands where it would disturb the tag. The label and the text may close brackets. -/
def Fits (b : PlacedButton) : Prop :=
  '[' ∉ b.front ∧ Tag.IsRaw b.raw ∧ '[' ∉ b.label

instance (b : PlacedButton) : Decidable b.Fits :=
  inferInstanceAs (Decidable (_ ∧ _))

theorem grammar_tag {b : PlacedButton} (h : b.Fits) :
    Kind.button.grammar b.tag ⟨Text.trimStart b.raw, b.label⟩ := by
  obtain ⟨-, hraw, hlabel⟩ := h
  have hname := Kind.button.spells_name
  exact Kind.grammar_of_completes (Tag.opens_opening hname hraw)
    (.intro hlabel (Tag.closes_closing hname))

end PlacedButton

namespace Kind

variable {k : Kind} {text after : Text}

/-- No shortcode of a kind starts inside a text that opens one bracket, unless it starts with that
bracket. -/
theorem clear_bracket (h : '[' ∉ text) (hstart : ¬ Tag.Starts k.name ('[' :: (text ++ after))) :
    Cut.Clear k.grammar ('[' :: text) after := by
  refine (Cut.clear_cons_iff k.reads_occurrence).mpr ⟨?_, k.clear_of_not_mem h after⟩
  refine k.reads_occurrence.eq_none_iff.mpr ?_
  intro part rest o htext hpart
  rw [htext] at hstart
  exact hstart ((starts_of_grammar hpart).append rest)

/-- The markup of a button or an alert holds no opening bracket if the tag and the body hold none. -/
theorem opening_not_mem_settle {k : Kind} (hk : k = .button ∨ k = .alert) {h : Host}
    (hescape : ∀ text, '[' ∈ h.escape text → '[' ∈ text) {o : Occurrence} (hraw : '[' ∉ o.raw)
    (hbody : '[' ∉ o.body) (ids : Ids) (drawn : List Text) :
    '[' ∉ ((k.expand h o).settle h.escape ids drawn).text := by
  intro hmem
  obtain ⟨v, hv, hmem⟩ :=
    Expansion.mem_settle_text hescape (k.isBracketFree_expand h o) (.inl rfl) hmem
  have hnone : ∀ v ∈ (k.expand h o).supplied ids drawn, '[' ∉ v := by
    rcases hk with rfl | rfl
    · exact Expansion.not_mem_supplied_button (.inl rfl) hraw hbody
    · exact Expansion.supplies_alert (Inherited.not_mem (.inl rfl)) hraw hbody
  exact hnone v hv hmem

end Kind

namespace Engine

variable (e : Engine) (drawn : List Text)

/-- The stage of the buttons replaces each of them and copies the texts between them. -/
theorem renderOnly_buttons {buttons : List PlacedButton} (h : ∀ b ∈ buttons, b.Fits) (after : Text) :
    e.renderOnly .button drawn (buttons.flatMap PlacedButton.write ++ after) =
      { e.renderOnly .button drawn after with
        text := buttons.flatMap (fun b => b.front ++ (e.renderOnly .button drawn b.tag).text) ++
          (e.renderOnly .button drawn after).text } := by
  induction buttons with
  | nil => rfl
  | cons b buttons ih =>
    obtain ⟨hb, hbuttons⟩ := List.forall_mem_cons.mp h
    have hpart := PlacedButton.grammar_tag hb
    have hclear := Kind.button.clear_of_not_mem hb.1
      (b.tag ++ (buttons.flatMap PlacedButton.write ++ after))
    -- A button warns of nothing, asks nothing and draws no ID.
    obtain ⟨markup, hown⟩ : ∃ markup, e.renderOnly .button drawn b.tag = .start drawn markup :=
      ⟨_, e.renderOnly_of_grammar drawn hpart⟩
    have hrender := e.renderOnly_append hpart drawn hclear
    rw [← e.renderOnly_of_grammar drawn hpart, hown] at hrender
    simp only [Rendering.start, ih hbuttons, List.nil_append] at hrender
    simpa [PlacedButton.write, hown, Rendering.start] using hrender

/-- The tags of an alert are no part of a button. -/
theorem renderOnly_button_alert {raw last : Text} (hraw : '[' ∉ raw) (hlast : '[' ∉ last) :
    (∀ text, e.renderOnly .button drawn (Tag.opening Kind.alert.name raw ++ text) =
      { e.renderOnly .button drawn text with
        text := Tag.opening Kind.alert.name raw ++ (e.renderOnly .button drawn text).text }) ∧
    e.renderOnly .button drawn (last ++ Tag.closing Kind.alert.name) =
      .start drawn (last ++ Tag.closing Kind.alert.name) := by
  have hname := Kind.alert.opening_not_mem_name
  constructor
  · intro text
    refine e.renderOnly_append_of_clear drawn (Kind.clear_bracket (by simp [hname, hraw]) ?_)
    rw [Tag.starts_iff]
    exact Bool.false_ne_true
  · have hclosing : Cut.Clear Kind.button.grammar (Tag.closing Kind.alert.name) [] :=
      Kind.clear_bracket (by simp [hname]) (by decide)
    have hcopied := e.renderOnly_append_of_clear drawn hclosing
    rw [List.append_nil] at hcopied
    have hnil : e.renderOnly .button drawn [] = .start drawn [] := by
      rw [renderOnly_eq_advance]
      rfl
    rw [e.renderOnly_append_of_clear drawn (Kind.button.clear_of_not_mem hlast _), hcopied, hnil]
    simp only [Rendering.start, List.append_nil]

/-! ### The two stages and those behind them -/

/-- A rendering is finished once no opening bracket is left. -/
theorem foldl_advance_of_opening_not_mem (kinds : List Kind) {r : Rendering} (h : '[' ∉ r.text) :
    kinds.foldl e.advance r = r :=
  e.foldl_advance_eq_self fun k _ => not_occursIn_of_not_mem (.inl rfl) h k

section

variable (hescape : ∀ text, '[' ∈ e.host.escape text → '[' ∈ text)
include hescape

/-- Nothing of a button is left for later stages. -/
theorem renderOnly_button_tag {b : PlacedButton} (h : b.Fits) :
    e.renderOnly .button drawn b.tag =
      (Expansion.button ⟨Text.trimStart b.raw, b.label⟩).settle e.host.escape e.ids drawn ∧
    '[' ∉ (e.renderOnly .button drawn b.tag).text := by
  have hsettle := e.renderOnly_of_grammar drawn (PlacedButton.grammar_tag h)
  refine ⟨hsettle, ?_⟩
  obtain ⟨-, hraw, hlabel⟩ := h
  rw [hsettle]
  exact Kind.opening_not_mem_settle (.inl rfl) hescape hraw.opening_not_mem_trimStart hlabel
    e.ids drawn

/-- Nothing of an alert is left for later stages. -/
theorem renderOnly_alert {raw inside : Text} (hraw : Tag.IsRaw raw) (hinside : '[' ∉ inside) :
    let markup :=
      (Expansion.alertNode e.host.escape (Attributes.parse raw) (Text.trim inside)).write
    e.renderOnly .alert drawn
        (Tag.opening Kind.alert.name raw ++ (inside ++ Tag.closing Kind.alert.name)) =
      .start drawn markup ∧
    '[' ∉ markup := by
  intro markup
  have hname := Kind.alert.spells_name
  have hpart := Kind.grammar_of_completes (k := .alert) (Tag.opens_opening hname hraw)
    (.intro hinside (Tag.closes_closing hname))
  have helement := Expansion.alert_settle e.host.escape e.ids drawn ⟨Text.trimStart raw, inside⟩
  rw [Attributes.parse_trimStart] at helement
  have hfree := Kind.opening_not_mem_settle (k := .alert) (.inr rfl) hescape
    (o := ⟨Text.trimStart raw, inside⟩) hraw.opening_not_mem_trimStart hinside e.ids drawn
  refine ⟨(e.renderOnly_of_grammar drawn hpart).trans helement, ?_⟩
  rw [Kind.expand, helement] at hfree
  exact hfree

end

/-- An alert around buttons and texts becomes the element of the alert around what the buttons become
on their own. No bracket is left for the stages that follow. -/
theorem render_alert_around_buttons (hescape : ∀ text, '[' ∈ e.host.escape text → '[' ∈ text)
    (hbutton : e.switches.isOn .button = true) (halert : e.switches.isOn .alert = true)
    {raw : Text} (hraw : Tag.IsRaw raw) {buttons : List PlacedButton}
    (hbuttons : ∀ b ∈ buttons, b.Fits) {last : Text} (hlast : '[' ∉ last) :
    let inside := buttons.flatMap (fun b => b.front ++ (e.render drawn b.tag).text) ++ last
    let markup :=
      (Expansion.alertNode e.host.escape (Attributes.parse raw) (Text.trim inside)).write
    e.render drawn (Tag.opening Kind.alert.name raw ++
        (buttons.flatMap PlacedButton.write ++ (last ++ Tag.closing Kind.alert.name))) =
      .start drawn markup ∧
    (∀ b ∈ buttons, e.render drawn b.tag =
      (Expansion.button ⟨Text.trimStart b.raw, b.label⟩).settle e.host.escape e.ids drawn) ∧
    ∀ k : Kind, ¬ k.grammar.OccursIn markup := by
  intro inside markup
  obtain ⟨later, henabled⟩ : ∃ later, e.switches.enabled = .button :: .alert :: later := by
    refine ⟨[Kind.gallery, .tabs, .accordion, .countdown, .contactForm].filter e.switches.isOn, ?_⟩
    simp [Switches.enabled, Kind.pipeline, hbutton, halert]
  have hstages : ∀ text, e.render drawn text =
      (Kind.alert :: later).foldl e.advance (e.renderOnly .button drawn text) := by
    intro text
    rw [render, henabled, List.foldl_cons, ← renderOnly_eq_advance]
  have hown := fun b hb => e.renderOnly_button_tag drawn hescape (hbuttons b hb)
  have halone : ∀ b ∈ buttons, e.render drawn b.tag = e.renderOnly .button drawn b.tag := by
    intro b hb
    rw [hstages, e.foldl_advance_of_opening_not_mem _ (hown b hb).2]
  have hinside : inside =
      buttons.flatMap (fun b => b.front ++ (e.renderOnly .button drawn b.tag).text) ++ last := by
    have htexts := List.flatMap_congr fun b hb =>
      congrArg (fun r : Rendering => b.front ++ r.text) (halone b hb)
    rw [← htexts]
  have hbody : '[' ∉ inside := by
    rw [hinside, List.mem_append, List.mem_flatMap]
    rintro (⟨b, hb, hmem⟩ | hmem)
    · rcases List.mem_append.mp hmem with hmem | hmem
      · exact (hbuttons b hb).1 hmem
      · exact (hown b hb).2 hmem
    · exact hlast hmem
  obtain ⟨hmarkup, hdone⟩ := e.renderOnly_alert drawn hescape hraw hbody
  refine ⟨?_, fun b hb => (halone b hb).trans (hown b hb).1,
    not_occursIn_of_not_mem (.inl rfl) hdone⟩
  obtain ⟨hopening, hclosing⟩ := e.renderOnly_button_alert drawn hraw.2.1 hlast
  have hfirst : e.renderOnly .button drawn (Tag.opening Kind.alert.name raw ++
        (buttons.flatMap PlacedButton.write ++ (last ++ Tag.closing Kind.alert.name))) =
      .start drawn (Tag.opening Kind.alert.name raw ++ (inside ++ Tag.closing Kind.alert.name)) := by
    rw [hopening, e.renderOnly_buttons drawn hbuttons, hclosing, hinside, List.append_assoc]
    rfl
  rw [hstages, hfirst, List.foldl_cons, ← renderOnly_eq_advance, hmarkup,
    e.foldl_advance_of_opening_not_mem later hdone]

/-- Closing brackets in a text and in a label, markup in a label, and an alert without the control that
dismisses it. -/
theorem render_alert_around_two_buttons :
    let e : Engine := { host := { token := [] }, ids := .sequential }
    let buttons : List PlacedButton :=
      [⟨" Pick ] ", " url=\"/a&b\"", "Go ]"⟩, ⟨" or ", [], "<b>Stay</b>"⟩]
    (∀ text, '[' ∈ e.host.escape text → '[' ∈ text) ∧ e.switches.isOn .button = true ∧
      e.switches.isOn .alert = true ∧ Tag.IsRaw "\tdismissible=\"no\"" ∧
      (∀ b ∈ buttons, b.Fits) ∧ '[' ∉ (".\n" : Text) ∧
      e.render [] ("[alert\tdismissible=\"no\"] Pick ] [button url=\"/a&b\"]Go ][/button] or " ++
          "[button]<b>Stay</b>[/button].\n[/alert]") =
        .start [] ("<div class=\"alert alert-info\" role=\"alert\">Pick ] " ++
          "<a href=\"/a&amp;b\" class=\"btn btn-primary\" target=\"_self\">Go ]</a> or " ++
          "<a href=\"#\" class=\"btn btn-primary\" target=\"_self\">&lt;b&gt;Stay&lt;/b&gt;</a>." ++
          "</div>") := by
  intro e buttons
  have hescape : ∀ text, '[' ∈ e.host.escape text → '[' ∈ text :=
    fun _ => (Markup.mem_escape_iff (.inl rfl)).mp
  have hraw : Tag.IsRaw "\tdismissible=\"no\"" := by decide
  have hbuttons : ∀ b ∈ buttons, b.Fits := by decide +kernel
  have hlast : '[' ∉ (".\n" : Text) := by decide
  obtain ⟨hrender, -, -⟩ :=
    e.render_alert_around_buttons [] hescape rfl rfl hraw hbuttons hlast
  refine ⟨hescape, rfl, rfl, hraw, hbuttons, hlast, hrender.trans ?_⟩
  decide +kernel

end Engine

end Shortcode
