import ArrayStore.FileTree
import ArrayStore.Proofs.Path

/-!
# Paths lead through folders

* `isFolderAt_of_walk` : a step starts at a folder; `isFolderAt_of_foldlM_walk` : so does a walk;
* `resolve?_append` : a path leads where what stands in front of a slash leads, and on from there;
* `isFile_eq_false_of_isFile_append` : what a path to a file goes through is no file;
* `isFile_append_slash` : a path that ends in a slash leads to no file.
-/

namespace ArrayStore.FileTree

variable {t : FileTree} {start names others : List String} {front back : List Char}

/-! ## Walking -/

theorem isFolderAt_of_walk {part : List Char} (h : t.walk names part = some others) :
    t.isFolderAt names = true := by
  unfold walk at h
  split at h
  · next hfolder => exact hfolder
  · cases h

theorem walk_nil (h : t.walk names [] = some others) : others = names := by
  rw [walk, if_pos (isFolderAt_of_walk h)] at h
  exact (Option.some.inj h).symm

theorem isFolderAt_of_foldlM_walk {parts : List (List Char)} (hne : parts ≠ [])
    (h : parts.foldlM t.walk names = some others) : t.isFolderAt names = true := by
  cases parts with
  | nil => exact absurd rfl hne
  | cons part parts =>
    rw [List.foldlM_cons] at h
    obtain ⟨next, hstep, -⟩ := Option.bind_eq_some_iff.1 h
    exact isFolderAt_of_walk hstep

theorem isFileAt_eq_false (h : t.isFolderAt names = true) : t.isFileAt names = false := by
  unfold isFolderAt at h
  unfold isFileAt
  split at h
  · next hget => rw [hget]
  · cases h

/-! ## Paths -/

/-- The names at which a walk along a path starts. -/
def origin (start : List String) (path : List Char) : List String :=
  if Path.isAbsolute path then [] else start

theorem resolve?_ofList (t : FileTree) (start : List String) {path : List Char} (h : path ≠ []) :
    t.resolve? start (String.ofList path) =
      (Path.split path).foldlM t.walk (origin start path) := by
  unfold resolve?
  rw [String.toList_ofList, if_neg]
  · rfl
  · rw [String.isEmpty_iff]
    exact fun he => h (String.ofList_eq_empty_iff.1 he)

/-- The components in front of a slash are walked first, those behind it from there on. -/
theorem resolve?_append (hfront : front ≠ [])
    (h : t.resolve? start (String.ofList (front ++ '/' :: back)) = some names) :
    ∃ folder, t.resolve? start (String.ofList front) = some folder ∧
      (Path.split back).foldlM t.walk folder = some names := by
  rw [resolve?_ofList t start (List.append_ne_nil_of_left_ne_nil hfront _), Path.split_append,
    List.foldlM_append] at h
  obtain ⟨folder, hfolder, hrest⟩ := Option.bind_eq_some_iff.1 h
  rw [origin, Path.isAbsolute_append hfront] at hfolder
  exact ⟨folder, (resolve?_ofList t start hfront).trans hfolder, hrest⟩

theorem exists_resolve?_of_isFile {path : String} (h : t.isFile start path = true) :
    ∃ names, t.resolve? start path = some names ∧ t.isFileAt names = true := by
  unfold isFile at h
  split at h
  · next names hnames => exact ⟨names, hnames, h⟩
  · cases h

theorem isFile_eq_false_of_isFile_append (hfront : front ≠ [])
    (h : t.isFile start (String.ofList (front ++ '/' :: back)) = true) :
    t.isFile start (String.ofList front) = false := by
  obtain ⟨names, hnames, -⟩ := exists_resolve?_of_isFile h
  obtain ⟨folder, hfolder, hrest⟩ := resolve?_append hfront hnames
  rw [isFile, hfolder]
  exact isFileAt_eq_false (isFolderAt_of_foldlM_walk (Path.split_ne_nil back) hrest)

theorem isFile_append_slash (hfront : front ≠ []) :
    t.isFile start (String.ofList (front ++ ['/'])) = false := by
  rw [← Bool.not_eq_true]
  intro h
  obtain ⟨names, hnames, hfile⟩ := exists_resolve?_of_isFile h
  obtain ⟨folder, -, hlast⟩ := resolve?_append hfront hnames
  -- behind the slash there is an empty component, which stays at a folder
  rw [Path.split, List.foldlM_cons] at hlast
  obtain ⟨next, hstep, hnext⟩ := Option.bind_eq_some_iff.1 hlast
  have hfolder : t.isFolderAt folder = true := isFolderAt_of_walk hstep
  cases hnext
  rw [walk_nil hstep, isFileAt_eq_false hfolder] at hfile
  cases hfile

end ArrayStore.FileTree
