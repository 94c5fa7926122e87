import ArrayStore.Proofs.Container.Naming
import ArrayStore.Proofs.FileTree
import Mathlib.Data.List.Basic

/-!
# Reading opens what writing made

* `isFile_location_eq_false` : where there is a container, its location is no file itself;
* `pathToOpen_of_isFile` : so reading opens the container, by its location and by its own path.
-/

namespace ArrayStore.ContainerStore

variable {c : ContainerStore} {tree : FileTree} {directory : List String} {s : DataSet}
  {name : List Char} {path : String}

/-- A container is reached through the folder of its location. A location that goes on behind the
folder ends in a slash, and leads to no file either. -/
theorem isFile_location_eq_false (hname : Path.fileName? s.folder = some name)
    (hfile : tree.isFile directory
      (s.disk.locate (String.ofList (c.containerIn s.folder name))) = true)
    (hslashes : ∀ x ∈ Path.separatorsBehind s.location.toList, x = '/') :
    tree.isFile directory (s.disk.locate s.location) = false := by
  have hne : s.folder ≠ [] := Path.ne_nil_of_fileName? hname
  have hlocation : s.folder ++ Path.separatorsBehind s.location.toList = s.location.toList :=
    Path.trimSeparators_append _
  rw [Disk.locate, ← hlocation]
  rcases List.eq_nil_or_concat' (Path.separatorsBehind s.location.toList) with
    hnil | ⟨slashes, last, hconcat⟩
  · -- the location is the folder, which the path of the container goes through
    rw [Disk.locate_ofList, containerIn, Path.join_append _ hne] at hfile
    rw [hnil, List.append_nil]
    exact FileTree.isFile_eq_false_of_isFile_append (Path.join_ne_nil _ hne) hfile
  · have hlast : last = '/' := hslashes last (by simp [hconcat])
    have hslash : s.folder ++ slashes ≠ [] := List.append_ne_nil_of_left_ne_nil hne _
    rw [hconcat, hlast, ← List.append_assoc, Path.join_append _ hslash]
    exact FileTree.isFile_append_slash (Path.join_ne_nil _ hslash)

/-- If the container of a data set is a file, reading the data set opens it, whatever other files
there are. So does reading a data set whose location is that of the container itself. -/
theorem pathToOpen_of_isFile (c : ContainerStore) (tree : FileTree) (directory : List String)
    {s : DataSet} {path : String} (hpath : c.pathOf s = .ok path)
    (hfile : tree.isFile directory path = true)
    (hslashes : ∀ x ∈ Path.separatorsBehind s.location.toList, x = '/') :
    c.pathToOpen tree directory s = .ok path ∧
      ∃ name, Path.fileName? s.folder = some name ∧
        ∀ t : DataSet, t.disk = s.disk →
          t.location.toList = s.folder ++ '/' :: name ++ '.' :: c.extension.toList →
          c.pathToOpen tree directory t = .ok path := by
  obtain ⟨name, hname, rfl⟩ := pathOf_eq_ok_iff.1 hpath
  refine ⟨?_, name, hname, fun t hdisk hlocation => ?_⟩
  · rw [pathToOpen, isFile_location_eq_false hname hfile hslashes]
    exact hpath
  · have ht : t.location = String.ofList (c.containerIn s.folder name) := by
      rw [containerIn, fileName, ← String.toList_inj, hlocation, String.toList_ofList,
        List.append_assoc, List.cons_append]
    rw [pathToOpen, hdisk, ht, hfile]
    rfl

/-- A container with a file of the same name beside its folder. -/
def sweepTree : FileTree :=
  .folder [("home", .folder []), ("data", .folder [("runs", .folder [
    ("iv", .folder [("iv.hdf5", .file "")]), ("iv.hdf5", .file "")])])]

/-- A location that goes through the root and ends in slashes. -/
def sweep : DataSet := { location := "runs/./iv//", disk := { base := "../../data" } }

theorem pathToOpen_of_isFile_sweep :
    standard.pathToOpen sweepTree ["home"] sweep = .ok "../../data/runs/./iv/iv.hdf5" ∧
      standard.pathToOpen sweepTree ["home"] { sweep with location := "runs/./iv/iv.hdf5" } =
        .ok "../../data/runs/./iv/iv.hdf5" := by
  have hpath : standard.pathOf sweep = .ok "../../data/runs/./iv/iv.hdf5" := by rfl
  have hfile : sweepTree.isFile ["home"] "../../data/runs/./iv/iv.hdf5" = true := by
    decide +kernel
  have hslashes : ∀ x ∈ Path.separatorsBehind sweep.location.toList, x = '/' := by
    have hbehind : Path.separatorsBehind sweep.location.toList = ['/', '/'] := by decide
    rw [hbehind]
    simp
  have hiv : Path.fileName? sweep.folder = some "iv".toList := by decide +kernel
  obtain ⟨hopen, name, hname, hself⟩ :=
    pathToOpen_of_isFile standard sweepTree ["home"] hpath hfile hslashes
  rw [hiv] at hname
  cases hname
  exact ⟨hopen, hself _ rfl (by decide +kernel)⟩

end ArrayStore.ContainerStore
