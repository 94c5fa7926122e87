import ArrayStore.Proofs.Container.Naming

/-!
# Containers lie in the folders of their measurements

* `liesIn_locate` : a file under a folder of the base directory lies in that folder;
* `liesIn_pathOf_iff` : under a configuration, the container lies in the folder of its measurement,
  named after it, just if the extension has no slash;
* `exists_check_eq_ok_not_liesIn` : there are extensions with a slash that are taken for bare.
-/

namespace ArrayStore.ContainerStore

variable {s : DataSet} {folder name : List Char}

/-- A file under a folder of the base directory lies in that folder. -/
theorem liesIn_locate (disk : Disk) (hfolder : folder ≠ []) (h : Path.IsName name) :
    Path.LiesIn (disk.locate (String.ofList (folder ++ '/' :: name))).toList
      (disk.locate (String.ofList folder)).toList name := by
  rw [Disk.locate_ofList, Disk.locate_ofList, String.toList_ofList, String.toList_ofList,
    Path.join_append _ hfolder]
  exact Path.liesIn_append (Path.join_ne_nil _ hfolder) h

/-- The container of a measurement lies in the folder of the measurement, under the name of the
folder with the extension behind it, just if there is no slash in the extension. -/
theorem liesIn_pathOf_iff (config : Config) (hdisk : s.disk = Disk.ofConfig config.storage)
    (hname : Path.fileName? s.folder = some name) :
    ∃ path, (ofConfig config.storage).pathOf s = .ok path ∧
      (Path.LiesIn path.toList
          ((Disk.ofConfig config.storage).locate (String.ofList s.folder)).toList
          (name ++ '.' :: config.storage.fileExtension.toList) ↔
        '/' ∉ config.storage.fileExtension.toList) := by
  rw [← hdisk]
  refine ⟨_, pathOf_of_fileName? hname, fun h hslash => ?_, fun h => ?_⟩
  · -- no file name has a slash
    have hfile := (Path.isName_of_fileName? h.fileName).slash_notMem
    exact hfile (List.mem_append_right _ (List.mem_cons_of_mem _ hslash))
  · exact liesIn_locate s.disk (Path.ne_nil_of_fileName? hname)
      ((Path.isName_of_fileName? hname).extend h)

/-- A measurement whose location ends in a dot and separators. -/
def dottedRun (config : Config) : DataSet :=
  { location := "2024/#004_sweep/.//", disk := Disk.ofConfig config.storage }

theorem liesIn_pathOf_iff_dottedRun :
    ∃ path, (ofConfig ({} : Config).storage).pathOf (dottedRun {}) = .ok path ∧
      Path.LiesIn path.toList "./data/2024/#004_sweep/.".toList "#004_sweep.hdf5".toList := by
  have hname : Path.fileName? (dottedRun {}).folder = some "#004_sweep".toList := by
    decide +kernel
  obtain ⟨path, hpath, hlies⟩ := liesIn_pathOf_iff {} rfl hname
  exact ⟨path, hpath, hlies.2 (by decide)⟩

/-- With the valid extension `a/b`, the container of `run` is `b` in a folder `run.a`. -/
theorem exists_check_eq_ok_not_liesIn :
    ∃ (config : Config) (s : DataSet) (name : List Char) (path : String),
      config = { storage := { fileExtension := "a/b" } } ∧ config.check = .ok () ∧
        s.disk = Disk.ofConfig config.storage ∧ Path.fileName? s.folder = some name ∧
        (ofConfig config.storage).pathOf s = .ok path ∧ path = "./data/run/run.a/b" ∧
        ¬Path.LiesIn path.toList
          ((Disk.ofConfig config.storage).locate (String.ofList s.folder)).toList
          (name ++ '.' :: config.storage.fileExtension.toList) := by
  refine ⟨_, { location := "run", disk := Disk.ofConfig { fileExtension := "a/b" } }, "run".toList, _,
    rfl, by decide, rfl, by decide, by rfl, rfl, fun h => ?_⟩
  exact absurd h.fileName (by decide)

end ArrayStore.ContainerStore
