import Mathlib.Data.List.Induction
import Shortcode.Proofs.Files.Writing

/-! # Paths of places

The absolute path of a place leads to the place, and cutting its last part off or joining a path to it
does the same to the place. This needs the names on the way to be proper ones, and every place on the
way to be a directory. -/

namespace Shortcode

theorem Text.utf8Length_append (x y : Text) :
    Text.utf8Length (x ++ y) = x.utf8Length + y.utf8Length := by
  induction x with
  | nil => simp [utf8Length]
  | cons c x ih =>
    rw [List.cons_append, utf8Length, utf8Length, ih]
    omega

namespace Path

/-- A name that a directory can give to an entry. -/
structure IsName (name : Text) : Prop where
  ne_nil : name ≠ []
  noSlash : '/' ∉ name
  noZero : '\x00' ∉ name
  ne_dot : name ≠ "."
  ne_dots : name ≠ ".."
  short : name.utf8Length ≤ maxPartLength

variable {place : List Text} {name path rest : Text}

theorem absolute_of_ne_nil (hne : place ≠ []) :
    absolute place = place.flatMap ('/' :: ·) := by
  induction place with
  | nil => exact absurd rfl hne
  | cons first place ih =>
    cases place with
    | nil => rw [absolute, List.intercalate_singleton, List.flatMap_singleton]
    | cons second place =>
      have hrest := ih (by simp)
      rw [List.flatMap_cons, ← hrest, absolute, absolute, List.intercalate_cons_cons,
        List.append_assoc]
      rfl

theorem absolute_append (place : List Text) (name : Text) :
    absolute (place ++ [name]) = place.flatMap ('/' :: ·) ++ '/' :: name := by
  rw [absolute_of_ne_nil (by simp), List.flatMap_append, List.flatMap_singleton]

theorem parts_absolute (h : ∀ name ∈ place, IsName name) : parts (absolute place) = place := by
  have hslash : ∀ name ∈ place, '/' ∉ name := fun name hname => (h name hname).noSlash
  have hkept : place.filter (! ·.isEmpty) = place := by
    apply List.filter_eq_self.mpr
    intro name hname
    have hne := (h name hname).ne_nil
    simpa using hne
  cases place with
  | nil => rfl
  | cons first place =>
    have hsplit : (absolute (first :: place)).splitOn '/' = [] :: first :: place := by
      have hbehind := List.splitOn_append_cons_self (a := '/') [] (['/'].intercalate (first :: place))
      rw [List.splitOn_intercalate '/' hslash (by simp)] at hbehind
      exact hbehind
    rw [parts, hsplit]
    exact hkept

theorem IsName.getLast?_ne (h : IsName name) : name.getLast? ≠ some '/' := by
  intro hlast
  exact h.noSlash (List.mem_of_getLast? hlast)

theorem getLast?_absolute (h : IsName name) : (absolute (place ++ [name])).getLast? ≠ some '/' := by
  rw [absolute_append, List.append_cons, List.getLast?_append_of_ne_nil _ h.ne_nil]
  exact h.getLast?_ne

/-! ### The directory of a path -/

theorem IsName.ne_slash (h : IsName name) {c : Char} (hc : c ∈ name.reverse) : c ≠ '/' := by
  rintro rfl
  exact h.noSlash (List.mem_reverse.mp hc)

/-- No slash and no lone dot ends a path whose last part is a name. -/
theorem trimEndReversed_name (h : IsName name) (rest : Text) :
    trimEndReversed (name.reverse ++ rest) = name.reverse ++ rest := by
  have hslash : ∀ c ∈ name.reverse, c ≠ '/' := fun c hc => h.ne_slash hc
  have hdot : name.reverse ≠ ['.'] := by
    intro heq
    apply h.ne_dot
    rw [← List.reverse_reverse name, heq]
    rfl
  cases hname : name.reverse with
  | nil => exact absurd (List.reverse_eq_nil_iff.mp hname) h.ne_nil
  | cons c front =>
    rw [hname] at hslash hdot
    have hc : c ≠ '/' := hslash c (List.mem_cons_self ..)
    cases front with
    | nil =>
      have hne : c ≠ '.' := by
        rintro rfl
        exact hdot rfl
      simp [trimEndReversed, hc, hne]
    | cons d front =>
      have hd : d ≠ '/' := hslash d (List.mem_cons_of_mem _ (List.mem_cons_self ..))
      simp [trimEndReversed, hc, hd]

theorem trimEndReversed_slash (hne : path ≠ []) :
    trimEndReversed ('/' :: path) = trimEndReversed path := by
  cases path with
  | nil => exact absurd rfl hne
  | cons c path => rfl

/-- Nor does one end the way to a directory, and the slash behind it is cut off. -/
theorem trimEndReversed_place (h : ∀ name ∈ place, IsName name) :
    trimEndReversed ('/' :: (place.flatMap ('/' :: ·)).reverse) = (absolute place).reverse := by
  rcases List.eq_nil_or_concat place with rfl | ⟨front, name, rfl⟩
  · rfl
  · rw [List.concat_eq_append] at h ⊢
    have hname : IsName name := h name (by simp)
    rw [trimEndReversed_slash (by simp), absolute_append, List.flatMap_append,
      List.flatMap_singleton, List.reverse_append, List.reverse_cons, List.append_assoc,
      trimEndReversed_name hname]

theorem parent?_absolute (h : ∀ name ∈ place, IsName name) (hname : IsName name) :
    parent? (absolute (place ++ [name])) = some (absolute place) := by
  have hslash : ∀ c ∈ name.reverse, decide (c ≠ '/') = true :=
    fun c hc => decide_eq_true (hname.ne_slash hc)
  have hreverse : (absolute (place ++ [name])).reverse =
      name.reverse ++ '/' :: (place.flatMap ('/' :: ·)).reverse := by
    rw [absolute_append, List.reverse_append, List.reverse_cons, List.append_assoc]
    rfl
  have hdirectory : (name.reverse ++ '/' :: (place.flatMap ('/' :: ·)).reverse).dropWhile (· ≠ '/') =
      '/' :: (place.flatMap ('/' :: ·)).reverse := by
    rw [List.dropWhile_append_of_pos hslash]
    exact List.dropWhile_cons_of_neg (by simp)
  have hroot : name.reverse ++ '/' :: (place.flatMap ('/' :: ·)).reverse ≠ ['/'] := by
    intro heq
    have hlength := congrArg List.length heq
    have hpos := List.length_pos_iff.mpr hname.ne_nil
    simp only [List.length_append, List.length_reverse, List.length_cons, List.length_nil] at hlength
    omega
  simp only [parent?, hreverse, trimEndReversed_name hname, hdirectory, trimEndReversed_place h]
  rw [if_neg (by simp [hroot]), List.reverse_reverse]

/-- A relative path that is seen from a directory stands behind the names of the directory. -/
theorem join_absolute (h : ∀ name ∈ place, IsName name) (path : Text) :
    join (absolute place) path = if path.head? = some '/' then path else absolute (place ++ [path]) := by
  rcases List.eq_nil_or_concat place with rfl | ⟨front, name, rfl⟩
  · by_cases hpath : path.head? = some '/'
    · simp [join, hpath]
    · simp [join, hpath, absolute]
  · rw [List.concat_eq_append] at h ⊢
    have hname : IsName name := h name (by simp)
    have hlast : (absolute (front ++ [name])).getLast? ≠ some '/' := getLast?_absolute hname
    have hempty : (absolute (front ++ [name])).isEmpty = false := rfl
    by_cases hpath : path.head? = some '/'
    · simp [join, hpath]
    · have hway : absolute (front ++ [name]) ++ '/' :: path =
          absolute (front ++ [name] ++ [path]) := by
        rw [absolute_append (front ++ [name]), absolute_of_ne_nil (by simp)]
      simp only [join, hpath, hempty, hlast, if_false, or_self, Bool.false_eq_true, hway]

/-- The path of an entry gets no longer farther up. -/
theorem utf8Length_absolute_le {front : List Text} (h : front <+: place) (name : Text) :
    (absolute (front ++ [name])).utf8Length ≤ (absolute (place ++ [name])).utf8Length := by
  obtain ⟨back, rfl⟩ := h
  simp only [absolute_append, List.flatMap_append, Text.utf8Length_append]
  omega

end Path

namespace FileTree

open Shortcode.Path (IsName absolute)

/-- A directory that is reached by proper names through directories alone. -/
structure HasDirectory (t : FileTree) (place : Place) : Prop where
  names : ∀ name ∈ place, IsName name
  directories : ∀ front, front <+: place → t front = some .directory

/-- There is an entry at a place, and its path is not too long for the system. -/
def Shows (t : FileTree) (place : Place) : Prop :=
  (t place).isSome = true ∧ (absolute place).utf8Length ≤ Path.maxLength

/-- The text of the file at a place. -/
def textAt (t : FileTree) (place : Place) : Except FileError Text :=
  match t place with
  | some (.file content) => decode content
  | some .directory => .error .isDirectory
  | none => .error .notFound

variable {t : FileTree} {cwd place front : Place} {name : Text}

theorem HasDirectory.of_prefix (h : t.HasDirectory place) (hfront : front <+: place) :
    t.HasDirectory front :=
  ⟨fun name hname => h.names name (hfront.subset hname),
    fun way hway => h.directories way (hway.trans hfront)⟩

theorem HasDirectory.names_append (h : t.HasDirectory place) (hname : IsName name) :
    ∀ part ∈ place ++ [name], IsName part := by
  intro part hpart
  rcases List.mem_append.mp hpart with hpart | hpart
  · exact h.names part hpart
  · rwa [List.mem_singleton.mp hpart]

theorem requirePath_absolute (h : ∀ name ∈ place, IsName name) :
    requirePath (absolute place) =
      if Path.maxLength < (absolute place).utf8Length then .error .nameTooLong else .ok () := by
  have hzero : (absolute place).contains '\x00' = false := by
    by_cases hne : place = []
    · rw [hne]
      rfl
    · rw [Path.absolute_of_ne_nil hne]
      simp only [List.contains_eq_mem, decide_eq_false_iff_not, List.mem_flatMap, List.mem_cons,
        not_exists, not_and, not_or]
      exact fun name hname => ⟨by decide, (h name hname).noZero⟩
  have hempty : (absolute place).isEmpty = false := rfl
  rw [requirePath, hzero, hempty]
  rfl

theorem follow_name (hplace : t place = some .directory) (hname : IsName name) :
    t.follow place [name] = .ok (place ++ [name]) := by
  have hdirectory : t.requireDirectory place = .ok () := requireDirectory_eq_ok_iff.mpr hplace
  have hshort : requireName name = .ok () := if_neg (Nat.not_lt.mpr hname.short)
  rw [follow_cons, hdirectory, hshort, beyond, if_neg hname.ne_dot, if_neg hname.ne_dots]
  rfl

theorem HasDirectory.follow (h : t.HasDirectory place) : t.follow [] place = .ok place := by
  -- The last name is taken off, so that what remains is the way to a directory again.
  induction place using List.reverseRecOn with
  | nil => rfl
  | append_singleton front name ih =>
    have hfront : front <+: front ++ [name] := List.prefix_append ..
    rw [follow_append, ih (h.of_prefix hfront)]
    exact follow_name (h.directories front hfront) (h.names name (by simp))

theorem HasDirectory.entry_absolute (h : t.HasDirectory place) (hname : IsName name)
    (hshort : (absolute (place ++ [name])).utf8Length ≤ Path.maxLength) :
    t.entry cwd (absolute (place ++ [name])) =
      match t (place ++ [name]) with
      | some entry => .ok entry
      | none => .error .notFound := by
  have hnames := h.names_append hname
  have hpath : requirePath (absolute (place ++ [name])) = .ok () := by
    rw [requirePath_absolute hnames, if_neg (Nat.not_lt.mpr hshort)]
  have hfollow : t.follow (origin cwd (absolute (place ++ [name])))
      (Path.parts (absolute (place ++ [name]))) = .ok (place ++ [name]) := by
    rw [Path.parts_absolute hnames]
    show t.follow [] (place ++ [name]) = _
    rw [follow_append, h.follow]
    exact follow_name (h.directories place (List.prefix_refl _)) hname
  rw [entry, hpath, hfollow]
  show (if (absolute (place ++ [name])).getLast? = some '/' then _ else _) = _
  rw [if_neg (Path.getLast?_absolute hname)]
  rfl

theorem HasDirectory.contains_iff (h : t.HasDirectory place) (hname : IsName name) :
    t.contains cwd (absolute (place ++ [name])) = true ↔ t.Shows (place ++ [name]) := by
  rw [contains, Shows]
  by_cases hshort : (absolute (place ++ [name])).utf8Length ≤ Path.maxLength
  · rw [h.entry_absolute hname hshort]
    cases t (place ++ [name]) with
    | none => simp [Except.toOption]
    | some entry => simp [Except.toOption, hshort]
  · have hpath : requirePath (absolute (place ++ [name])) = .error .nameTooLong := by
      rw [requirePath_absolute (h.names_append hname), if_pos (Nat.lt_of_not_le hshort)]
    rw [entry, hpath]
    exact iff_of_false (by simp [bind, Except.bind, Except.toOption]) fun hshows => hshort hshows.2

theorem HasDirectory.read_absolute (h : t.HasDirectory place) (hname : IsName name)
    (hshort : (absolute (place ++ [name])).utf8Length ≤ Path.maxLength) :
    t.read cwd (absolute (place ++ [name])) = t.textAt (place ++ [name]) := by
  rw [read, h.entry_absolute hname hshort, textAt]
  cases t (place ++ [name]) with
  | none => rfl
  | some entry => cases entry <;> rfl

end FileTree

end Shortcode
