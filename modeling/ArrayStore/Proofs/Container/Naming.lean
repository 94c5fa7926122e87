import ArrayStore.Container
import ArrayStore.Proofs.Path

/-!
# Containers are named by their locations

* `DataSet.folder` : the location without the separators at its end;
* `ContainerStore.containerIn` : the text that a container adds to its folder;
* `pathOf_eq_ok_iff`, `pathOf_eq_error_iff` : when there is a container path, and which;
* `pathOf_tells_folders_apart` : two locations have one container just if they are one folder, and a
  location has none just if it has no file name.
-/

namespace ArrayStore

/-- The location without the slashes and backslashes at its end. -/
def DataSet.folder (s : DataSet) : List Char := Path.trimSeparators s.location.toList

theorem Disk.locate_ofList (disk : Disk) (location : List Char) :
    disk.locate (String.ofList location) =
      String.ofList (Path.join disk.base.toList location) := by
  rw [locate, String.toList_ofList]

namespace ContainerStore

variable {c : ContainerStore} {s t : DataSet} {name other : List Char} {path : String}

/-- The file name of a container whose folder has the given name. -/
def fileName (c : ContainerStore) (name : List Char) : List Char :=
  name ++ '.' :: c.extension.toList

/-- The location of the container in a folder with the given name. -/
def containerIn (c : ContainerStore) (folder name : List Char) : List Char :=
  folder ++ '/' :: c.fileName name

theorem pathOf_of_fileName? (h : Path.fileName? s.folder = some name) :
    c.pathOf s = .ok (s.disk.locate (String.ofList (c.containerIn s.folder name))) := by
  rw [DataSet.folder] at h
  rw [pathOf, locationOf, h, containerIn, fileName, DataSet.folder]
  simp [Except.map]

theorem pathOf_of_nameless (h : Path.fileName? s.folder = none) :
    c.pathOf s = .error ⟨s.location⟩ := by
  rw [DataSet.folder] at h
  rw [pathOf, locationOf, h]
  rfl

theorem pathOf_eq_ok_iff :
    c.pathOf s = .ok path ↔ ∃ name, Path.fileName? s.folder = some name ∧
      path = s.disk.locate (String.ofList (c.containerIn s.folder name)) := by
  cases h : Path.fileName? s.folder with
  | none => simp [pathOf_of_nameless h]
  | some name => simp [pathOf_of_fileName? h, eq_comm]

theorem pathOf_eq_error_iff {fault : NoBasename} :
    c.pathOf s = .error fault ↔ Path.Nameless s.folder ∧ fault = ⟨s.location⟩ := by
  rw [← Path.fileName?_eq_none_iff]
  cases h : Path.fileName? s.folder with
  | none => simp [pathOf_of_nameless h, eq_comm]
  | some name => simp [pathOf_of_fileName? h]

/-- The folder is read off the location of its container. -/
theorem containerIn_inj {folder others : List Char} (h : Path.IsName name)
    (ho : Path.IsName other) (heq : c.containerIn folder name = c.containerIn others other) :
    folder = others := by
  unfold containerIn fileName at heq
  rw [← List.cons_append, ← List.cons_append, ← List.append_assoc, ← List.append_assoc] at heq
  have hfolder := List.append_cancel_right heq
  exact ((Path.append_slash_inj h.slash_notMem ho.slash_notMem).1 hfolder).1

/-- A container is absolute if its location is. -/
theorem isAbsolute_containerIn (h : Path.fileName? s.folder = some name) :
    Path.isAbsolute (c.containerIn s.folder name) = Path.isAbsolute s.location.toList := by
  have hne : s.folder ≠ [] := Path.ne_nil_of_fileName? h
  rw [containerIn, Path.isAbsolute_append hne]
  exact Path.isAbsolute_trimSeparators hne

/-- Under one base directory, two locations of one kind have one container just if they are one
folder. A location has no container just if its last component that leads somewhere goes up, or
there is none, and this is a fault of the configuration. -/
theorem pathOf_tells_folders_apart (c : ContainerStore) :
    (∀ s t : DataSet, s.disk = t.disk →
      Path.isAbsolute s.location.toList = Path.isAbsolute t.location.toList →
      ∀ p q, c.pathOf s = .ok p → c.pathOf t = .ok q → (p = q ↔ s.folder = t.folder)) ∧
    (∀ s : DataSet, (∃ fault, c.pathOf s = .error fault) ↔ Path.Nameless s.folder) ∧
    ∀ (s : DataSet) (fault : NoBasename), c.pathOf s = .error fault →
      fault.toError = .configuration s!"data set location '{s.location}' has no basename" := by
  refine ⟨fun s t hdisk hkind p q hp hq => ?_, fun s => ?_, fun s fault h => ?_⟩
  · obtain ⟨name, hname, rfl⟩ := pathOf_eq_ok_iff.1 hp
    obtain ⟨other, hother, rfl⟩ := pathOf_eq_ok_iff.1 hq
    constructor
    · intro heq
      rw [hdisk, Disk.locate_ofList, Disk.locate_ofList, String.ofList_inj,
        Path.join_inj _ (by rw [isAbsolute_containerIn hname, isAbsolute_containerIn hother, hkind])]
        at heq
      exact containerIn_inj (Path.isName_of_fileName? hname) (Path.isName_of_fileName? hother) heq
    · intro hfolder
      rw [hfolder] at hname ⊢
      rw [hdisk, Option.some.inj (hname.symm.trans hother)]
  · simp [pathOf_eq_error_iff]
  · obtain ⟨-, rfl⟩ := pathOf_eq_error_iff.1 h
    rfl

/-- A data set under the base directory `data`. -/
def under (location : String) : DataSet := { location, disk := { base := "data" } }

/-- Locations that the operating system takes for one folder have two containers. -/
theorem pathOf_tells_folders_apart_respelled :
    standard.pathOf (under "a/./b/\\/") = standard.pathOf (under "a/./b") ∧
      standard.pathOf (under "a//b") ≠ standard.pathOf (under "a/./b") ∧
      Path.Nameless (under "a/.././").folder ∧
      standard.pathOf (under "a/.././") = .error ⟨"a/.././"⟩ := by
  obtain ⟨hapart, hnone, -⟩ := pathOf_tells_folders_apart standard
  have hdotted : standard.pathOf (under "a/./b") = .ok "data/a/./b/b.hdf5" := by rfl
  have htrimmed : standard.pathOf (under "a/./b/\\/") = .ok "data/a/./b/b.hdf5" := by rfl
  have hdoubled : standard.pathOf (under "a//b") = .ok "data/a//b/b.hdf5" := by rfl
  have hfault : standard.pathOf (under "a/.././") = .error ⟨"a/.././"⟩ := by rfl
  refine ⟨by rw [htrimmed, hdotted], fun h => ?_, (hnone _).1 ⟨_, hfault⟩, hfault⟩
  have hfolder : (under "a//b").folder = (under "a/./b").folder :=
    (hapart (under "a//b") (under "a/./b") rfl (by decide) _ _ hdoubled hdotted).1
      (Except.ok.inj (hdoubled.symm.trans (h.trans hdotted)))
  exact absurd hfolder (by decide)

end ContainerStore

end ArrayStore
