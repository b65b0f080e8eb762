import Mathlib.Data.List.Forall2
import Shortcode.Proofs.Expansion.Settled
import Shortcode.Proofs.Text.Digits

/-! # Links in markup

A template is read as markup, tag by tag, where what fills a slot is opaque: whatever an escaper
does, a supplied value stays inside the attribute value that its slot stands in. The attributes tell
which elements the markup names by an ID and where it refers to them. -/

namespace Shortcode.Markup

/-! ### Tags -/

/-- Where a reader of markup stands: between tags, inside a tag, or inside the value of an
attribute. -/
inductive Place where
  | content
  | tag
  | value (name : Text)
deriving DecidableEq, Repr

/-- What is read of markup so far. -/
structure Reading where
  place : Place := .content
  /-- The name or the value that is being read, in parts, latest first. -/
  parts : List Text := []
  /-- The attributes of the tag that is being read. -/
  pairs : List (Text × Text) := []
  /-- The attributes of every tag that is read. A closing tag has none. -/
  tags : List Attributes := []
deriving DecidableEq, Repr

/-- A character that ends a name or a value, or begins or ends a tag. -/
def isMark (c : Char) : Bool :=
  c ∈ ['<', '>', ' ', '=', '"']

namespace Reading

/-- The name or the value that is being read. -/
def word (r : Reading) : Text :=
  r.parts.reverse.flatten

/-- Takes a text as a part of the name or the value that is being read. -/
def put (r : Reading) (text : Text) : Reading :=
  match r.place with
  | .content => r
  | _ => { r with parts := text :: r.parts }

/-- Reads a character of the template itself. -/
def next (r : Reading) (c : Char) : Reading :=
  match r.place with
  | .content => if c = '<' then { r with place := .tag } else r
  | .tag =>
    if c = '>' then { tags := r.tags ++ [⟨r.pairs⟩] }
    else if c = ' ' then { r with parts := [] }
    else if c = '=' then r
    else if c = '"' then { r with place := .value r.word, parts := [] }
    else r.put [c]
  | .value name =>
    if c = '"' then { r with place := .tag, parts := [], pairs := r.pairs ++ [(name, r.word)] }
    else r.put [c]

/-- Reads a piece of a template. What fills a slot is one part, and so is a literal without
marks. -/
def piece (escape : Text → Text) (id : Text) (r : Reading) : Piece → Reading
  | .literal text => if text.any isMark then text.foldl next r else r.put text
  | p => r.put (p.fill escape id)

/-- A reading behind other tags. -/
def behind (tags : List Attributes) (r : Reading) : Reading :=
  { r with tags := tags ++ r.tags }

end Reading

/-- What is read after a template. -/
def Template.reading (escape : Text → Text) (id : Text) (t : Template) (r : Reading) : Reading :=
  t.foldl (Reading.piece escape id) r

/-- The attributes of the tags of a template. -/
def Template.tags (escape : Text → Text) (id : Text) (t : Template) : List Attributes :=
  (t.reading escape id {}).tags

/-! ### Links -/

/-- The value that an attribute has in a tag, searched for from the end. -/
def valueOf? (name : Text) (a : Attributes) : Option Text :=
  a.pairs.reverse.findSome? fun (key, value) => if name == key then some value else none

theorem valueOf?_eq_get? (name : Text) (a : Attributes) : valueOf? name a = a.get? name :=
  List.lookup_eq_findSome?.symm

/-- An element that a toggle shows and hides. -/
def isPanel (a : Attributes) : Bool :=
  valueOf? "role" a == some ("tabpanel" : Text) || (valueOf? "data-bs-parent" a).isSome

/-- The values that an attribute has in some tags. -/
def valuesOf (name : Text) (tags : List Attributes) : List Text :=
  tags.filterMap (valueOf? name)

/-- The element IDs in markup and the references to them, each in order. -/
structure Links where
  ids : List Text := []
  /-- The IDs among them that panels have. -/
  panels : List Text := []
  /-- What the toggles refer to. -/
  targets : List Text := []
  /-- What the panels refer to. -/
  parents : List Text := []
  /-- What the labels refer to. -/
  labelled : List Text := []
deriving DecidableEq, Repr

namespace Links

/-- The links in some tags. -/
def ofTags (tags : List Attributes) : Links where
  ids := valuesOf "id" tags
  panels := valuesOf "id" (tags.filter isPanel)
  targets := valuesOf "data-bs-target" tags
  parents := valuesOf "data-bs-parent" tags
  labelled := valuesOf "for" tags

/-- The links of several parts of markup after each other. -/
def join (parts : List Links) : Links where
  ids := parts.flatMap ids
  panels := parts.flatMap panels
  targets := parts.flatMap targets
  parents := parts.flatMap parents
  labelled := parts.flatMap labelled

/-- Every reference names an ID of the same markup, and the toggles name the panels one by one. -/
structure Resolve (l : Links) : Prop where
  targets : l.targets = l.panels.map ('#' :: ·)
  panels : ∀ x ∈ l.panels, x ∈ l.ids
  parents : ∀ x ∈ l.parents, ∃ id ∈ l.ids, x = '#' :: id
  labelled : ∀ x ∈ l.labelled, x ∈ l.ids

end Links

/-- The links in a template. -/
def Template.links (escape : Text → Text) (id : Text) (t : Template) : Links :=
  .ofTags (t.tags escape id)

/-- A reading that ends between tags and whose tags have the given links. -/
def Reading.HasLinks (r : Reading) (links : Links) : Prop :=
  r = { tags := r.tags } ∧ .ofTags r.tags = links

/-- A template that ends between tags and has the given links. -/
def Template.HasLinks (escape : Text → Text) (id : Text) (t : Template) (links : Links) : Prop :=
  (t.reading escape id {}).HasLinks links

/-! ### Reading behind other tags -/

variable {escape : Text → Text} {id : Text} {front : List Attributes} {r : Reading}

namespace Reading

theorem behind_put (text : Text) : (r.behind front).put text = (r.put text).behind front := by
  cases h : r.place <;> simp only [put, behind, h]

theorem behind_next (c : Char) : (r.behind front).next c = (r.next c).behind front := by
  cases h : r.place with
  | content =>
    have hplace : (r.behind front).place = .content := h
    simp only [next, h, hplace]
    split <;> rfl
  | tag =>
    have hput : (r.behind front).put [c] = (r.put [c]).behind front := behind_put [c]
    have hplace : (r.behind front).place = .tag := h
    simp only [next, h, hplace, hput]
    split
    · simp only [behind, List.append_assoc]
    · split
      · rfl
      · split
        · rfl
        · split <;> rfl
  | value name =>
    have hput : (r.behind front).put [c] = (r.put [c]).behind front := behind_put [c]
    have hplace : (r.behind front).place = .value name := h
    simp only [next, h, hplace, hput]
    split <;> rfl

theorem behind_piece (p : Piece) :
    (r.behind front).piece escape id p = (r.piece escape id p).behind front := by
  cases p with
  | literal text =>
    have hfold : text.foldl next (r.behind front) = (text.foldl next r).behind front := by
      induction text generalizing r with
      | nil => rfl
      | cons c text ih => rw [List.foldl_cons, List.foldl_cons, behind_next, ih]
    simp only [piece, hfold, behind_put]
    split <;> rfl
  | _ => exact behind_put _

/-- The digits of a number hold no mark. -/
@[simp] theorem piece_number (i : Nat) :
    r.piece escape id (Expansion.number i) = r.put (Text.decimal i) := by
  have hmarks : (Text.decimal i).any isMark = false := by
    rw [List.any_eq_false]
    intro c hc hmark
    have hdigit := Text.isDigit_of_mem_decimal hc
    simp only [isMark, List.mem_cons, List.not_mem_nil, or_false, decide_eq_true_eq] at hmark
    rcases hmark with rfl | rfl | rfl | rfl | rfl <;> exact absurd hdigit (by decide)
  simp only [Expansion.number, piece, hmarks]
  rfl

end Reading

namespace Template

variable {t u : Template} {ts : List Template}

theorem reading_behind :
    t.reading escape id (r.behind front) = (t.reading escape id r).behind front := by
  induction t generalizing r with
  | nil => rfl
  | cons p t ih =>
    simp only [reading, List.foldl_cons, Reading.behind_piece]
    exact ih

theorem reading_append (h : t.reading escape id {} = { tags := front }) :
    (t ++ u).reading escape id {} = (u.reading escape id {}).behind front := by
  have hstart : t.reading escape id {} = Reading.behind front {} := by
    rw [h, Reading.behind, List.append_nil]
  rw [← reading_behind, ← hstart]
  exact List.foldl_append ..

/-- A longer ID makes no shorter text. -/
theorem length_fill_le {id' : Text} (h : id.length ≤ id'.length) (t : Template) :
    (t.fill escape id).length ≤ (t.fill escape id').length := by
  induction t with
  | nil => exact Nat.le_refl _
  | cons p t ih =>
    have hpiece : (p.fill escape id).length ≤ (p.fill escape id').length := by
      cases p with
      | id => exact h
      | _ => exact Nat.le_refl _
    simp only [fill, List.flatMap_cons, List.length_append] at ih ⊢
    omega

/-- A filled template tells which ID it was filled with, if it has a place for one. -/
theorem eq_of_fill_eq {id' : Text} (hid : .id ∈ t) (h : t.fill escape id = t.fill escape id') :
    id = id' := by
  induction t with
  | nil => cases hid
  | cons p t ih =>
    simp only [fill, List.flatMap_cons] at h
    cases p with
    | id =>
      have hlength : id.length + (fill escape id t).length =
          id'.length + (fill escape id' t).length := by
        simpa only [List.length_append, Piece.fill, fill] using congrArg List.length h
      have hsame : id.length = id'.length := by
        rcases Nat.le_total id.length id'.length with hle | hle
        · have hrest : (fill escape id t).length ≤ (fill escape id' t).length := length_fill_le hle t
          omega
        · have hrest : (fill escape id' t).length ≤ (fill escape id t).length := length_fill_le hle t
          omega
      exact List.append_inj_left h hsame
    | _ =>
      have hid' : .id ∈ t := by simpa using hid
      exact ih hid' (List.append_cancel_left h)

theorem reading_of_not_mem {id' : Text} (hid : .id ∉ t) (r : Reading) :
    t.reading escape id r = t.reading escape id' r := by
  induction t generalizing r with
  | nil => rfl
  | cons p t ih =>
    rw [List.mem_cons, not_or] at hid
    have hpiece : r.piece escape id p = r.piece escape id' p := by
      cases p with
      | id => exact absurd rfl hid.1
      | _ => rfl
    simp only [reading, List.foldl_cons, hpiece]
    exact ih hid.2 _

theorem links_eq_of_fill_eq {id' : Text} (h : t.fill escape id = t.fill escape id') :
    t.links escape id = t.links escape id' := by
  by_cases hid : .id ∈ t
  · rw [eq_of_fill_eq hid h]
  · rw [links, links, tags, tags, reading_of_not_mem hid]

theorem links_eq_of_hasLinks {l : Links} (h : t.HasLinks escape id l) : t.links escape id = l :=
  h.2

theorem HasLinks.flatten {parts : List Links} {l : Links}
    (h : List.Forall₂ (HasLinks escape id) ts parts) (hl : .join parts = l) :
    HasLinks escape id ts.flatten l := by
  have htags : ∃ blocks : List (List Attributes),
      reading escape id ts.flatten {} = { tags := blocks.flatten } ∧
        blocks.map .ofTags = parts := by
    clear hl
    induction h with
    | nil => exact ⟨[], rfl, rfl⟩
    | @cons t part ts parts hhead _ ih =>
      obtain ⟨hclosed, hlinks⟩ := hhead
      obtain ⟨blocks, hreading, hparts⟩ := ih
      refine ⟨(t.reading escape id {}).tags :: blocks, ?_, ?_⟩
      · rw [List.flatten_cons, reading_append hclosed, hreading]
        rfl
      · rw [List.map_cons, hlinks, hparts]
  obtain ⟨blocks, hreading, rfl⟩ := htags
  subst hl
  refine ⟨by rw [hreading], ?_⟩
  rw [hreading]
  simp only [Links.ofTags, Links.join, valuesOf, List.filterMap_flatten, List.filter_flatten,
    List.flatMap_def, List.map_map, Function.comp_def]

end Template

end Shortcode.Markup
