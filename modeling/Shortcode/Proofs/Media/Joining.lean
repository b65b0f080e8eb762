import Shortcode.Proofs.Media.Urls

/-! # The seam of joined URLs

Joining does not look at how many slashes end the base or begin the path, and puts one between them.
It is associative, with the empty base as its unit on the left: a text between two others shows up in
the result by its core alone, the part of it without the slashes around it. -/

namespace Shortcode.Url

variable {base path front back : Text}

/-- What of a base and a path is left without the slashes at the seam. -/
structure Seam (base path front back : Text) : Prop where
  base_eq : ∃ n, base = front ++ List.replicate n '/'
  path_eq : ∃ n, path = List.replicate n '/' ++ back
  front_open : front.getLast? ≠ some '/'
  back_open : back.head? ≠ some '/'

theorem dropSlashesStart_append (h : back.head? ≠ some '/') (n : Nat) :
    dropSlashesStart (List.replicate n '/' ++ back) = back := by
  induction n with
  | zero =>
    rw [List.replicate_zero, List.nil_append]
    cases back with
    | nil => rfl
    | cons c back =>
      have hc : c ≠ '/' := by
        rintro rfl
        exact h rfl
      exact List.dropWhile_cons_of_neg (by simpa using hc)
  | succ n ih =>
    rw [List.replicate_succ, List.cons_append]
    exact (List.dropWhile_cons_of_pos (by simp)).trans ih

theorem exists_slashes_start (path : Text) :
    ∃ n, path = List.replicate n '/' ++ dropSlashesStart path := by
  have hslash : ∀ c ∈ path.takeWhile (· = '/'), c = '/' := by
    intro c hc
    have htaken := List.mem_takeWhile_imp hc
    exact of_decide_eq_true htaken
  have hsplit := List.takeWhile_append_dropWhile (p := fun c : Char => decide (c = '/')) (l := path)
  rw [List.eq_replicate_of_mem hslash] at hsplit
  exact ⟨_, hsplit.symm⟩

theorem seam_drop (base path : Text) :
    Seam base path (dropSlashesEnd base) (dropSlashesStart path) :=
  ⟨exists_slashes base, exists_slashes_start path, getLast?_dropSlashesEnd base,
    head?_dropSlashesStart path⟩

theorem Seam.join_eq (h : Seam base path front back) (hne : base ≠ []) :
    join base path = front ++ '/' :: back := by
  obtain ⟨⟨m, rfl⟩, ⟨n, rfl⟩, hfront, hback⟩ := h
  rw [join_of_ne_nil hne, dropSlashesEnd_append hfront, dropSlashesStart_append hback]

theorem Seam.slashes (h : Seam base path front back) (m n : Nat) :
    Seam (base ++ List.replicate m '/') (List.replicate n '/' ++ path) front back := by
  obtain ⟨⟨k, rfl⟩, ⟨l, rfl⟩, hfront, hback⟩ := h
  refine ⟨⟨k + m, ?_⟩, ⟨n + l, ?_⟩, hfront, hback⟩
  · rw [List.append_assoc, List.replicate_append_replicate]
  · rw [← List.append_assoc, List.replicate_append_replicate]

/-! ### Three texts -/

/-- A text is its core between slashes. Only a text of slashes has an empty core. -/
theorem exists_core (text : Text) : ∃ m core n,
    text = List.replicate m '/' ++ core ++ List.replicate n '/' ∧
      core.head? ≠ some '/' ∧ core.getLast? ≠ some '/' := by
  obtain ⟨m, hm⟩ := exists_slashes_start text
  obtain ⟨n, hn⟩ := exists_slashes (dropSlashesStart text)
  refine ⟨m, dropSlashesEnd (dropSlashesStart text), n, ?_, ?_, getLast?_dropSlashesEnd _⟩
  · rw [List.append_assoc, ← hn]
    exact hm
  · have hhead := head?_dropSlashesStart text
    rw [hn] at hhead
    intro hcore
    rw [List.head?_append, hcore] at hhead
    exact hhead rfl

/-- A text whose core is empty leaves nothing behind between two others. -/
theorem join_of_slashes {a : Text} (ha : a ≠ []) (n : Nat) (c : Text) :
    join (join a (List.replicate n '/')) c = join a c ∧
      join a (join (List.replicate n '/') c) = join a c := by
  have hac := (seam_drop a c).join_eq ha
  constructor
  · have hempty : Seam a (List.replicate n '/') (dropSlashesEnd a) [] :=
      ⟨exists_slashes a, ⟨n, (List.append_nil _).symm⟩, getLast?_dropSlashesEnd a, by simp⟩
    have hseam : Seam (dropSlashesEnd a ++ ['/']) c (dropSlashesEnd a) (dropSlashesStart c) :=
      ⟨⟨1, rfl⟩, exists_slashes_start c, getLast?_dropSlashesEnd a, head?_dropSlashesStart c⟩
    rw [hempty.join_eq ha, hseam.join_eq (by simp), hac]
  · cases n with
    | zero => rfl
    | succ n =>
      have hempty : Seam (List.replicate (n + 1) '/') c [] (dropSlashesStart c) :=
        ⟨⟨n + 1, rfl⟩, exists_slashes_start c, by simp, head?_dropSlashesStart c⟩
      have hseam : Seam a ('/' :: dropSlashesStart c) (dropSlashesEnd a) (dropSlashesStart c) :=
        ⟨exists_slashes a, ⟨1, rfl⟩, getLast?_dropSlashesEnd a, head?_dropSlashesStart c⟩
      rw [hempty.join_eq (by simp), List.nil_append, hseam.join_eq ha, hac]

theorem join_assoc_of_core {a core : Text} (ha : a ≠ []) (hne : core ≠ [])
    (hhead : core.head? ≠ some '/') (hlast : core.getLast? ≠ some '/') (m n : Nat) (c : Text) :
    join (join a (List.replicate m '/' ++ core ++ List.replicate n '/')) c =
      join a (join (List.replicate m '/' ++ core ++ List.replicate n '/') c) := by
  have hbegins : ∀ rest : Text, (core ++ rest).head? ≠ some '/' := by
    intro rest
    rwa [List.head?_append_of_ne_nil core hne]
  have hends : ∀ front : Text, (front ++ core).getLast? ≠ some '/' := by
    intro front
    rwa [List.getLast?_append_of_ne_nil front hne]
  have hab : Seam a (List.replicate m '/' ++ core ++ List.replicate n '/') (dropSlashesEnd a)
      (core ++ List.replicate n '/') :=
    ⟨exists_slashes a, ⟨m, List.append_assoc ..⟩, getLast?_dropSlashesEnd a, hbegins _⟩
  have habc : Seam (dropSlashesEnd a ++ '/' :: (core ++ List.replicate n '/')) c
      (dropSlashesEnd a ++ ['/'] ++ core) (dropSlashesStart c) :=
    ⟨⟨n, by simp⟩, exists_slashes_start c, hends _, head?_dropSlashesStart c⟩
  have hbc : Seam (List.replicate m '/' ++ core ++ List.replicate n '/') c
      (List.replicate m '/' ++ core) (dropSlashesStart c) :=
    ⟨⟨n, rfl⟩, exists_slashes_start c, hends _, head?_dropSlashesStart c⟩
  have habc' : Seam a (List.replicate m '/' ++ core ++ '/' :: dropSlashesStart c)
      (dropSlashesEnd a) (core ++ '/' :: dropSlashesStart c) :=
    ⟨exists_slashes a, ⟨m, List.append_assoc ..⟩, getLast?_dropSlashesEnd a, hbegins _⟩
  rw [hab.join_eq ha, habc.join_eq (by simp), hbc.join_eq (by simp [hne]), habc'.join_eq ha]
  simp only [List.append_assoc, List.cons_append, List.nil_append]

theorem join_join (a b c : Text) : join (join a b) c = join a (join b c) := by
  by_cases ha : a = []
  · rw [ha]
    rfl
  · obtain ⟨m, core, n, rfl, hhead, hlast⟩ := exists_core b
    -- Without a core both seams fall together, and the slashes of the text belong to both.
    by_cases hcore : core = []
    · rw [hcore, List.append_nil, List.replicate_append_replicate]
      obtain ⟨hleft, hright⟩ := join_of_slashes ha (m + n) c
      rw [hleft, hright]
    · exact join_assoc_of_core ha hcore hhead hlast m n c

/-- A base and a path are joined with one slash between what is left of them without the slashes at the
seam, so slashes that are put there do not matter. Joining is associative, and joining to the empty
base changes nothing. -/
theorem join_one_slash_and_assoc :
    (∀ base path, base ≠ [] →
      (∃ front back, Seam base path front back) ∧
        (∀ front back, Seam base path front back → join base path = front ++ '/' :: back) ∧
        ∀ m n, join (base ++ List.replicate m '/') (List.replicate n '/' ++ path) =
          join base path) ∧
    (∀ a b c, join (join a b) c = join a (join b c)) ∧ ∀ path, join [] path = path := by
  refine ⟨?_, join_join, fun path => rfl⟩
  intro base path hne
  have hseam := seam_drop base path
  refine ⟨⟨_, _, hseam⟩, fun front back h => h.join_eq hne, ?_⟩
  intro m n
  rw [(hseam.slashes m n).join_eq (by simp [hne]), hseam.join_eq hne]

/-- A base and a path with slashes at the seam and elsewhere, a base of slashes alone, and a text of
slashes between two others. -/
theorem join_one_slash_of_many :
    ("https://h//".toList ≠ [] ∧
      Seam "https://h//".toList "//a//b/".toList "https://h".toList "a//b/".toList ∧
      join "https://h//" "//a//b/" = "https://h/a//b/".toList) ∧
    ("//".toList ≠ [] ∧ join ("//".toList ++ ['/']) (['/'] ++ "a".toList) = join "//" "a") ∧
    join (join "h" "//") "a" = join "h" (join "//" "a") := by
  obtain ⟨hone, hassoc, -⟩ := join_one_slash_and_assoc
  have hseam : Seam "https://h//".toList "//a//b/".toList "https://h".toList "a//b/".toList :=
    ⟨⟨2, by decide⟩, ⟨2, by decide⟩, by decide, by decide⟩
  obtain ⟨-, hjoin, -⟩ := hone "https://h//" "//a//b/" (by decide)
  obtain ⟨-, -, hslashes⟩ := hone "//" "a" (by decide)
  exact ⟨⟨by decide, hseam, hjoin _ _ hseam⟩, ⟨by decide, hslashes 1 1⟩, hassoc "h" "//" "a"⟩

end Shortcode.Url
