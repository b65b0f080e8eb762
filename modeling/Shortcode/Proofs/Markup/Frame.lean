import Shortcode.Proofs.Expansion.Settled
import Shortcode.Proofs.Markup.Slots

/-! # Frames

The frame of a template is what is left of it with empty slots. Escaped values hold none of the
characters that mark up a text, so the marks of filled markup are those of its frame; only bodies,
which are passed through, can bring in others. -/

namespace Shortcode

namespace Markup

/-- A character that opens or closes markup: an angle bracket or a quote. -/
def isDelimiter (c : Char) : Bool :=
  c == '<' || c == '>' || c == '"' || c == '\''

/-- The delimiters in a text, in order. -/
def delimiters (text : Text) : Text :=
  text.filter isDelimiter

/-- The entities that escaping writes. -/
def entities : List Text :=
  ["&amp;", "&lt;", "&gt;", "&quot;", "&#039;"]

/-- Every ampersand in a text begins an entity. -/
def AmpersandsBeginEntities (text : Text) : Prop :=
  ∀ before after, text = before ++ '&' :: after → ∃ e ∈ entities, e <+: '&' :: after

/-- The characters in a text that have a meaning in HTML: its delimiters and ampersands. -/
def marks (text : Text) : Text :=
  text.filter fun c => c == '&' || isDelimiter c

/-- Whether a piece is a body. -/
def Piece.isBody : Piece → Bool
  | body _ => true
  | _ => false

@[simp] theorem Piece.fixed_literal (text : Text) : (Piece.literal text).fixed = text := rfl

namespace Template

/-- The template with its bodies cut out. -/
def withoutBodies (t : Template) : Template :=
  t.filter fun p => !p.isBody

/-- The template with every slot left empty. -/
def frame (t : Template) : Text :=
  t.flatMap Piece.fixed

/-- The marks of the frame. -/
def marks (t : Template) : Text :=
  Markup.marks t.frame

end Template

/-! ### Marks in escaped text -/

@[simp] theorem delimiters_append (x y : Text) :
    delimiters (x ++ y) = delimiters x ++ delimiters y :=
  List.filter_append x y

@[simp] theorem marks_append (x y : Text) : marks (x ++ y) = marks x ++ marks y :=
  List.filter_append x y

theorem delimiters_eq_of_marks_eq {x y : Text} (h : marks x = marks y) :
    delimiters x = delimiters y := by
  have hfilter : ∀ z : Text, delimiters z = (marks z).filter isDelimiter := by
    intro z
    rw [marks, delimiters, List.filter_filter]
    refine List.filter_congr ?_
    intro c _
    cases isDelimiter c <;> simp
  rw [hfilter x, hfilter y, h]

theorem mem_marks_ampersand {text : Text} : '&' ∈ marks text ↔ '&' ∈ text := by
  simp [marks]

theorem delimiters_entity (c : Char) : delimiters (entity c) = [] := by
  by_cases hc : c ∈ ['&', '<', '>', '"', '\'']
  · simp only [List.mem_cons, List.not_mem_nil, or_false] at hc
    rcases hc with rfl | rfl | rfl | rfl | rfl <;> rfl
  · rw [entity_of_not_mem hc]
    simp only [List.mem_cons, List.not_mem_nil, or_false, not_or] at hc
    simp [delimiters, isDelimiter, hc]

theorem delimiters_escape (text : Text) : delimiters (escape text) = [] := by
  induction text with
  | nil => rfl
  | cons c text ih => rw [escape_cons, delimiters_append, delimiters_entity, ih]; rfl

theorem AmpersandsBeginEntities.of_not_mem {text : Text} (h : '&' ∉ text) :
    AmpersandsBeginEntities text := by
  rintro before after rfl
  simp at h

theorem AmpersandsBeginEntities.append {x y : Text} (hx : AmpersandsBeginEntities x)
    (hy : AmpersandsBeginEntities y) : AmpersandsBeginEntities (x ++ y) := by
  intro before after h
  rcases List.append_eq_append_iff.mp h with ⟨z, -, hz⟩ | ⟨z, hz, hrest⟩
  · exact hy z after hz
  · cases z with
    | nil => exact hy [] after hrest.symm
    | cons c z =>
      obtain ⟨rfl, rfl⟩ := List.cons.inj hrest
      obtain ⟨e, he, hprefix⟩ := hx before z hz
      exact ⟨e, he, hprefix.trans (List.prefix_append ..)⟩

theorem AmpersandsBeginEntities.flatMap {α : Type} {f : α → Text} {xs : List α}
    (h : ∀ x ∈ xs, AmpersandsBeginEntities (f x)) : AmpersandsBeginEntities (xs.flatMap f) := by
  induction xs with
  | nil => exact .of_not_mem (by simp)
  | cons x xs ih =>
    rw [List.flatMap_cons]
    exact (h x (List.mem_cons_self ..)).append (ih fun y hy => h y (List.mem_cons_of_mem x hy))

theorem ampersandsBeginEntities_entity (c : Char) : AmpersandsBeginEntities (entity c) := by
  have hentity : ∀ e ∈ entities, AmpersandsBeginEntities e := by
    -- An entity holds one ampersand, at its start.
    have hstart : ∀ e ∈ entities, ∃ name, e = '&' :: name ∧ '&' ∉ name := by
      simp only [entities, List.forall_mem_cons]
      exact ⟨⟨_, rfl, by decide⟩, ⟨_, rfl, by decide⟩, ⟨_, rfl, by decide⟩, ⟨_, rfl, by decide⟩,
        ⟨_, rfl, by decide⟩, by simp⟩
    intro e he before after h
    obtain ⟨name, rfl, hname⟩ := hstart e he
    cases before with
    | nil => exact ⟨_, he, by rw [h]; exact List.prefix_refl _⟩
    | cons b before =>
      obtain ⟨-, rfl⟩ := List.cons.inj h
      simp at hname
  by_cases hc : c ∈ ['&', '<', '>', '"', '\'']
  · refine hentity _ ?_
    simp only [List.mem_cons, List.not_mem_nil, or_false] at hc
    rcases hc with rfl | rfl | rfl | rfl | rfl <;> decide
  · rw [entity_of_not_mem hc]
    simp only [List.mem_cons, List.not_mem_nil, or_false, not_or] at hc
    exact .of_not_mem (by simpa using Ne.symm hc.1)

theorem ampersandsBeginEntities_escape (text : Text) : AmpersandsBeginEntities (escape text) :=
  .flatMap fun c _ => ampersandsBeginEntities_entity c

/-! ### Marks in filled templates -/

namespace Template

variable {id : Text}

@[simp] theorem frame_nil : frame [] = [] := rfl

@[simp] theorem frame_cons (p : Piece) (t : Template) : frame (p :: t) = p.fixed ++ frame t :=
  List.flatMap_cons

@[simp] theorem frame_append (t u : Template) : frame (t ++ u) = frame t ++ frame u :=
  List.flatMap_append

@[simp] theorem marks_nil : marks [] = [] := rfl

@[simp] theorem marks_cons (p : Piece) (t : Template) :
    marks (p :: t) = Markup.marks p.fixed ++ marks t := by
  rw [marks, frame_cons, Markup.marks_append]
  rfl

@[simp] theorem marks_append (t u : Template) : marks (t ++ u) = marks t ++ marks u := by
  rw [marks, frame_append, Markup.marks_append]
  rfl

theorem delimiters_fill {t : Template} (hid : delimiters id = []) :
    delimiters (t.withoutBodies.fill escape id) = delimiters t.frame := by
  induction t with
  | nil => rfl
  | cons p t ih =>
    rw [frame_cons, delimiters_append, ← ih]
    cases p with
    | literal text => exact delimiters_append _ _
    | value text =>
      have hvalue : delimiters (escape text ++ (withoutBodies t).fill escape id) =
          delimiters ((withoutBodies t).fill escape id) := by
        rw [delimiters_append, delimiters_escape, List.nil_append]
      exact hvalue
    | className text =>
      have hname : delimiters (Piece.fill escape id (.className text)) = [] := by
        have hescape := delimiters_escape text
        simp only [Piece.fill]
        split
        · rfl
        · exact hescape
      have hsplit : delimiters (Piece.fill escape id (.className text) ++
          (withoutBodies t).fill escape id) = delimiters ((withoutBodies t).fill escape id) := by
        rw [delimiters_append, hname, List.nil_append]
      exact hsplit
    | body text => rfl
    | id =>
      have hdrawn : delimiters (id ++ (withoutBodies t).fill escape id) =
          delimiters ((withoutBodies t).fill escape id) := by
        rw [delimiters_append, hid, List.nil_append]
      exact hdrawn

theorem ampersandsBeginEntities_fill {t : Template} (hframe : '&' ∉ t.frame) (hid : '&' ∉ id) :
    AmpersandsBeginEntities (t.withoutBodies.fill escape id) := by
  refine .flatMap ?_
  intro p hp
  obtain ⟨hmem, hbody⟩ := List.mem_filter.mp hp
  cases p with
  | literal text =>
    refine .of_not_mem ?_
    intro h
    exact hframe (List.mem_flatMap.mpr ⟨_, hmem, h⟩)
  | value text => exact ampersandsBeginEntities_escape text
  | className text =>
    simp only [Piece.fill]
    split
    · exact .of_not_mem (by simp)
    · have hblank : AmpersandsBeginEntities [' '] := .of_not_mem (by decide)
      exact hblank.append (ampersandsBeginEntities_escape text)
  | body text => simp [Piece.isBody] at hbody
  | id => exact .of_not_mem hid

end Template

end Markup

end Shortcode
