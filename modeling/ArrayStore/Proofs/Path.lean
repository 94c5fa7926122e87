import ArrayStore.Path
import Mathlib.Data.List.Induction

/-!
# Components of paths

* `split_append` : the components of a path are those in front of a slash and those behind it;
  `append_slash_inj` : a last component and what stands in front of it are read off the path;
* `IsName` : a component that names a file; `fileName?_append` : the last one is the file name;
* `Nameless`, `fileName?_eq_none_iff` : the paths without a file name;
* `join_append`, `join_inj` : what joining to a base directory keeps;
* `route`, `parent?` : the components that paths are compared by, and those of the parent;
  `LiesIn`, `liesIn_append` : a path lies in the folder in front of its file name;
* `separatorsBehind`, `trimSeparators_append` : what trimming a location takes away.
-/

namespace ArrayStore.Path

variable {path front back name extension location : List Char}

/-! ## Splitting -/

theorem split_eq_splitOn (path : List Char) : split path = path.splitOn '/' := by
  induction path with
  | nil => rfl
  | cons c rest ih =>
    rw [split, ih, List.splitOn, List.splitOn, List.splitOnP_cons_eq_if_modifyHead]
    by_cases hc : c = '/'
    · rw [if_pos hc, if_pos (beq_iff_eq.2 hc)]
    · rw [if_neg hc, if_neg (mt beq_iff_eq.1 hc)]
      cases h : rest.splitOnP (· == '/') with
      | nil => exact absurd h (List.splitOnP_ne_nil _ _)
      | cons first others => rfl

theorem split_ne_nil (path : List Char) : split path ≠ [] := by
  rw [split_eq_splitOn]
  exact List.splitOnP_ne_nil _ _

theorem split_append (front back : List Char) :
    split (front ++ '/' :: back) = split front ++ split back := by
  rw [split_eq_splitOn, split_eq_splitOn, split_eq_splitOn, List.splitOn_append_cons_self]

theorem split_injective : Function.Injective split := by
  intro p q h
  rw [split_eq_splitOn, split_eq_splitOn] at h
  calc
    p = ['/'].intercalate (p.splitOn '/') := (List.intercalate_splitOn '/').symm
    _ = ['/'].intercalate (q.splitOn '/') := by rw [h]
    _ = q := List.intercalate_splitOn '/'

theorem slash_notMem_of_mem_split {part : List Char} (h : part ∈ split path) : '/' ∉ part := by
  induction path generalizing part with
  | nil =>
    rw [List.mem_singleton.1 h]
    exact List.not_mem_nil
  | cons c rest ih =>
    rw [split] at h
    by_cases hc : c = '/'
    · rw [if_pos hc] at h
      rcases List.mem_cons.1 h with rfl | h
      · exact List.not_mem_nil
      · exact ih h
    · rw [if_neg hc] at h
      cases hs : split rest with
      | nil => exact absurd hs (split_ne_nil rest)
      | cons first others =>
        rw [hs] at h ih
        rcases List.mem_cons.1 h with rfl | h
        · exact List.not_mem_cons_of_ne_of_not_mem (Ne.symm hc) (ih (List.mem_cons_self ..))
        · exact ih (List.mem_cons_of_mem _ h)

theorem split_of_slash_notMem (h : '/' ∉ path) : split path = [path] := by
  induction path with
  | nil => rfl
  | cons c rest ih =>
    have hc : c ≠ '/' := (List.ne_of_not_mem_cons h).symm
    rw [split, if_neg hc, ih (List.not_mem_of_not_mem_cons h)]

/-- A component behind the last slash is read off the path. -/
theorem append_slash_inj {others other : List Char} (hname : '/' ∉ name) (hother : '/' ∉ other) :
    front ++ '/' :: name = others ++ '/' :: other ↔ front = others ∧ name = other := by
  constructor
  · intro h
    have hsplit := congrArg split h
    rw [split_append, split_append, split_of_slash_notMem hname, split_of_slash_notMem hother]
      at hsplit
    obtain ⟨hfront, hlast⟩ := List.append_inj' hsplit rfl
    exact ⟨split_injective hfront, List.singleton_inj.1 hlast⟩
  · rintro ⟨rfl, rfl⟩
    rfl

/-! ## File names -/

/-- The components that lead nowhere: empty ones and `.`. -/
def Stays (part : List Char) : Prop := part = [] ∨ part = ['.']

instance (part : List Char) : Decidable (Stays part) := inferInstanceAs (Decidable (_ ∨ _))

theorem components_eq (path : List Char) :
    components path = (split path).filter fun part => ¬Stays part := by
  refine List.filter_congr fun part _ => Bool.eq_iff_iff.2 ?_
  simp [Stays]

theorem components_append (front back : List Char) :
    components (front ++ '/' :: back) = components front ++ components back := by
  rw [components_eq, split_append, List.filter_append, components_eq, components_eq]

/-- A component that names a file or a folder. -/
structure IsName (name : List Char) : Prop where
  slash_notMem : '/' ∉ name
  not_stays : ¬Stays name
  ne_up : name ≠ ['.', '.']

theorem IsName.components_eq (h : IsName name) : components name = [name] := by
  rw [Path.components_eq, split_of_slash_notMem h.slash_notMem]
  simp [h.not_stays]

theorem isName_of_fileName? (h : fileName? path = some name) : IsName name := by
  unfold fileName? at h
  split at h
  · next last hlast =>
    split at h
    · cases h
    · next hup =>
      cases h
      have hmem := List.mem_of_getLast? hlast
      rw [components_eq, List.mem_filter] at hmem
      exact ⟨slash_notMem_of_mem_split hmem.1, of_decide_eq_true hmem.2, hup⟩
  · cases h

theorem fileName?_append (front : List Char) (h : IsName name) :
    fileName? (front ++ '/' :: name) = some name := by
  rw [fileName?, components_append, h.components_eq, List.getLast?_concat]
  exact if_neg h.ne_up

/-- A name with an extension is a name, unless the extension has a slash. -/
theorem IsName.extend (h : IsName name) (he : '/' ∉ extension) :
    IsName (name ++ '.' :: extension) where
  slash_notMem hm := by
    rcases List.mem_append.1 hm with hm | hm
    · exact h.slash_notMem hm
    · exact he (List.mem_of_ne_of_mem (by decide) hm)
  not_stays := by
    rintro (hs | hs)
    · exact List.append_ne_nil_of_right_ne_nil _ (List.cons_ne_nil _ _) hs
    · rcases List.append_eq_singleton_iff.1 hs with ⟨hname, -⟩ | ⟨-, hcons⟩
      · exact h.not_stays (.inl hname)
      · cases hcons
  ne_up hs := by
    rcases List.append_eq_cons_iff.1 hs with ⟨hname, -⟩ | ⟨rest, hname, hrest⟩
    · exact h.not_stays (.inl hname)
    · rcases List.append_eq_singleton_iff.1 hrest.symm with ⟨hnil, -⟩ | ⟨-, hcons⟩
      · rw [hnil] at hname
        exact h.not_stays (.inr hname)
      · cases hcons

/-- The last component that leads somewhere goes up, or there is none. -/
def Nameless (path : List Char) : Prop :=
  ∃ leading staying, split path = leading ++ staying ∧ (∀ part ∈ staying, Stays part) ∧
    (leading = [] ∨ ∃ before, leading = before ++ [['.', '.']])

/-- The last component that leads somewhere, and what stands around it. -/
theorem exists_leading (parts : List (List Char)) :
    ∃ leading staying, parts = leading ++ staying ∧ (∀ part ∈ staying, Stays part) ∧
      (leading = [] ∨ ∃ before part, leading = before ++ [part] ∧ ¬Stays part) := by
  induction parts using List.reverseRecOn with
  | nil => exact ⟨[], [], rfl, by simp, .inl rfl⟩
  | append_singleton parts last ih =>
    by_cases hlast : Stays last
    · obtain ⟨leading, staying, rfl, hstaying, hleading⟩ := ih
      refine ⟨leading, staying ++ [last], List.append_assoc .., fun part hm => ?_, hleading⟩
      rcases List.mem_append.1 hm with hm | hm
      · exact hstaying part hm
      · rwa [List.mem_singleton.1 hm]
    · exact ⟨parts ++ [last], [], (List.append_nil _).symm, by simp, .inr ⟨parts, last, rfl, hlast⟩⟩

section Leading
variable {leading staying before : List (List Char)} {part : List Char}

theorem components_of_leading (h : split path = leading ++ staying)
    (hs : ∀ part ∈ staying, Stays part) :
    components path = leading.filter fun part => ¬Stays part := by
  have hnone : (staying.filter fun part => ¬Stays part) = [] :=
    List.filter_eq_nil_iff.2 fun part hm => by simpa using hs part hm
  rw [components_eq, h, List.filter_append, hnone, List.append_nil]

theorem getLast?_components (h : split path = before ++ [part] ++ staying)
    (hs : ∀ part ∈ staying, Stays part) (hpart : ¬Stays part) :
    (components path).getLast? = some part := by
  rw [components_of_leading h hs]
  simp [hpart]

end Leading

theorem fileName?_eq_none_iff : fileName? path = none ↔ Nameless path := by
  constructor
  · intro h
    obtain ⟨leading, staying, hsplit, hstaying, rfl | ⟨before, part, rfl, hpart⟩⟩ :=
      exists_leading (split path)
    · exact ⟨[], staying, hsplit, hstaying, .inl rfl⟩
    · -- the last component that leads somewhere is no file name, so it goes up
      rw [fileName?, getLast?_components hsplit hstaying hpart] at h
      have hup : part = ['.', '.'] := by
        by_contra hup
        exact absurd h (by simp [hup])
      exact ⟨_, staying, hsplit, hstaying, .inr ⟨before, by rw [hup]⟩⟩
  · rintro ⟨leading, staying, hsplit, hstaying, rfl | ⟨before, rfl⟩⟩
    · rw [fileName?, components_of_leading hsplit hstaying]
      rfl
    · rw [fileName?, getLast?_components hsplit hstaying (by decide)]
      rfl

/-! ## Joining -/

theorem isAbsolute_append (h : front ≠ []) (back : List Char) :
    isAbsolute (front ++ back) = isAbsolute front := by
  cases front with
  | nil => exact absurd rfl h
  | cons c front => rfl

theorem join_append (base : List Char) (h : location ≠ []) (back : List Char) :
    join base (location ++ back) = join base location ++ back := by
  unfold join
  rw [isAbsolute_append h]
  split
  · rfl
  · split
    · exact (List.append_assoc ..).symm
    · rw [List.append_assoc, List.cons_append]

theorem join_ne_nil (base : List Char) (h : location ≠ []) : join base location ≠ [] := by
  unfold join
  split
  · exact h
  · split
    · exact List.append_ne_nil_of_right_ne_nil _ h
    · exact List.append_ne_nil_of_right_ne_nil _ (List.cons_ne_nil _ _)

theorem join_inj (base : List Char) {other : List Char}
    (h : isAbsolute location = isAbsolute other) :
    join base location = join base other ↔ location = other := by
  unfold join
  rw [h]
  split
  · exact Iff.rfl
  · split
    · exact List.append_right_inj base
    · rw [List.append_right_inj, List.cons_inj_right]

/-! ## Parents -/

/-- What a path starts at if it is a root or the folder itself. -/
def lead (path : List Char) : List (List Char) :=
  if isAbsolute path then [['/']] else if (split path).head? = some ['.'] then [['.']] else []

/-- The components that paths are compared by. A root and a leading `.` are among them. -/
def route (path : List Char) : List (List Char) := lead path ++ components path

/-- The route without the last component; there is none of a root or an empty path. -/
def parent? (path : List Char) : Option (List (List Char)) :=
  match (route path).getLast? with
  | some last => if last = ['/'] then none else some (route path).dropLast
  | none => none

theorem lead_append (h : front ≠ []) (back : List Char) :
    lead (front ++ '/' :: back) = lead front := by
  unfold lead
  rw [isAbsolute_append h, split_append]
  cases hs : split front with
  | nil => exact absurd hs (split_ne_nil front)
  | cons first others => rfl

theorem route_append (hfront : front ≠ []) (h : IsName name) :
    route (front ++ '/' :: name) = route front ++ [name] := by
  rw [route, lead_append hfront, components_append, h.components_eq, ← List.append_assoc, route]

theorem parent?_append (hfront : front ≠ []) (h : IsName name) :
    parent? (front ++ '/' :: name) = some (route front) := by
  have hroot : name ≠ ['/'] := by
    rintro rfl
    exact h.slash_notMem (List.mem_singleton_self _)
  rw [parent?, route_append hfront h, List.getLast?_concat, List.dropLast_concat]
  exact if_neg hroot

/-- A path lies directly in a folder, under a file name. -/
structure LiesIn (path folder name : List Char) : Prop where
  parent : parent? path = some (route folder)
  fileName : fileName? path = some name

theorem liesIn_append (hfront : front ≠ []) (h : IsName name) :
    LiesIn (front ++ '/' :: name) front name :=
  ⟨parent?_append hfront h, fileName?_append front h⟩

/-! ## Trimming -/

/-- The slashes and backslashes at the end of a location. -/
def separatorsBehind (location : List Char) : List Char :=
  (location.reverse.takeWhile isSeparator).reverse

theorem trimSeparators_append (location : List Char) :
    trimSeparators location ++ separatorsBehind location = location := by
  rw [trimSeparators, separatorsBehind, ← List.reverse_append, List.takeWhile_append_dropWhile,
    List.reverse_reverse]

theorem ne_nil_of_fileName? (h : fileName? path = some name) : path ≠ [] := by
  rintro rfl
  cases h

theorem isAbsolute_trimSeparators (h : trimSeparators location ≠ []) :
    isAbsolute (trimSeparators location) = isAbsolute location := by
  rw [← isAbsolute_append h (separatorsBehind location), trimSeparators_append]

end ArrayStore.Path
