import ArrayStore.Config.Variable
import ArrayStore.Proofs.Config.Fields
import ArrayStore.Proofs.Text.Case

/-!
# Names of variables

* `map_toLower_dotted` : dots are put the same way in lower case;
* `keys?_congr` : names that differ only in case stand for the same keys;
* `FieldName.variable` : the variable of a field; `keys?_of_variable` : in any case, it stands for
  the section and the key of the field.
-/

namespace ArrayStore.Config
open Text

namespace Variable

theorem eq_underscore_of_toLower {c : Char} (h : c.toLower = '_') : c = '_' := by
  rw [← Char.toNat_inj, toNat_toLower] at h
  rw [← Char.toNat_inj]
  replace h : _ = 95 := h
  show c.toNat = 95
  split at h <;> omega

theorem map_toLower_dotted (s : List Char) :
    (dotted s).map Char.toLower = dotted (s.map Char.toLower) := by
  fun_induction dotted s with
  | case1 rest ih =>
    rw [List.map_cons, ih]
    rfl
  | case2 c rest hpair ih =>
    rw [List.map_cons, List.map_cons, ih, dotted]
    intro more hc hrest
    obtain ⟨d, others, rfl, hd, -⟩ := List.map_eq_cons_iff.1 hrest
    exact hpair others (eq_underscore_of_toLower hc) (by rw [eq_underscore_of_toLower hd])
  | case3 => rfl

/-- Names that differ only in case stand for the same keys. -/
theorem keys?_congr {a b : String} (h : a.toList.map Char.toUpper = b.toList.map Char.toUpper) :
    keys? a = keys? b := by
  have htrim : (trim a.toList).map Char.toUpper = (trim b.toList).map Char.toUpper := by
    rw [← trim_map_toUpper, ← trim_map_toUpper, h]
  have hmark : ((trim a.toList).take mark.length).map Char.toUpper =
      ((trim b.toList).take mark.length).map Char.toUpper := by
    rw [List.map_take, List.map_take, htrim]
  have hrest : ((trim a.toList).drop mark.length).map Char.toUpper =
      ((trim b.toList).drop mark.length).map Char.toUpper := by
    rw [List.map_drop, List.map_drop, htrim]
  unfold keys?
  dsimp only
  rw [hmark, map_toLower_dotted, map_toLower_dotted, map_toLower_congr hrest]

end Variable

/-- The variable of a field. -/
def FieldName.variable : FieldName → String
  | .logLevel => "RUSTDAQ_APPLICATION__LOG_LEVEL"
  | .baseLocation => "RUSTDAQ_STORAGE__BASE_LOCATION"
  | .fileExtension => "RUSTDAQ_STORAGE__FILE_EXTENSION"
  | .chunkRows => "RUSTDAQ_STORAGE__CHUNK_ROWS"
  | .compressionLevel => "RUSTDAQ_STORAGE__COMPRESSION_LEVEL"

/-- The name, in any case, stands for the section and the key of the field. -/
theorem keys?_of_variable {name : String} {f : FieldName}
    (h : name.toList.map Char.toUpper = f.variable.toList) :
    Variable.keys? name = some [f.home.key, f.key] := by
  have hupper : f.variable.toList.map Char.toUpper = f.variable.toList := by cases f <;> decide
  rw [Variable.keys?_congr (h.trans hupper.symm)]
  cases f <;> decide

end ArrayStore.Config
