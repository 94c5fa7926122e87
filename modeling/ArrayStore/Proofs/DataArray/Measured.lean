import ArrayStore.Proofs.DataArray.FirstNaN
import ArrayStore.Proofs.DataArray.RowOverflow

/-!
# Measured rows under further writes

Stored rows are appended to as an array grows, so what has been measured has to stay in place. The
rows are followed by the positions of their samples: without checks a write may reach other samples
than those of the row that it names.

* `Write.Replaces`, `Write.PutsAt` : the row that a write names, and where it puts its samples;
* `write_cases`, `run_writes` : all that an accepted write does; what every accepted write keeps, a
  run of writes keeps;
* `Grown`, `grown_run` : samples are only added, and one that changes was put there by a write;
* `KeepsMeasured` : what is kept of the measured rows, given the rows that are put over them;
* `samplesBetween?_measured` : the samples up to the last measured row;
* `measuredRows_run_writes` : what appending relies on, in either build;
* `exists_measuredRows_lost` : without checks, a row far behind the last one takes a measured row
  away.
-/

namespace ArrayStore.DataArray

/-! ## Where writes put their rows -/

/-- The row that a write names, and what it puts there. -/
def Write.target? : Write → Option (Nat × List Double)
  | .sample r x => some (r, [x])
  | .row r values => some (r, values)
  | .append _ => none

/-- The write names row `r` to be replaced by `row`; a row of another width would be refused. -/
def Write.Replaces (w : Write) (width r : Nat) (row : List Double) : Prop :=
  w.target? = some (r, row) ∧ row.length = width

/-- The write puts the samples of `row` at `start`, if there is room for them. -/
def Write.PutsAt (w : Write) (arithmetic : Arithmetic) (width start : Nat) (row : List Double) :
    Prop :=
  ∃ r, w.Replaces width r row ∧ arithmetic.word? (r * width) = some start

/-- The start of the row that the write names is a word. -/
def Write.Fits (w : Write) (width : Nat) : Prop :=
  ∀ r row, w.target? = some (r, row) → r * width < Word.limit

/-- With checks, or where the start is a word, samples are put where the row is. -/
theorem Write.PutsAt.exists_replaces {w : Write} {arithmetic : Arithmetic} {width start : Nat}
    {row : List Double} (h : w.PutsAt arithmetic width start row)
    (hfit : arithmetic = .checked ∨ w.Fits width) :
    ∃ r, w.Replaces width r row ∧ start = r * width := by
  obtain ⟨r, hreplaces, hstart⟩ := h
  refine ⟨r, hreplaces, ?_⟩
  rcases hfit with rfl | hfit
  · exact (Arithmetic.word?_checked_eq_some_iff.1 hstart).2
  · rw [arithmetic.word?_of_lt (hfit r row hreplaces.1)] at hstart
    exact (Option.some.inj hstart).symm

section Writes
variable {arithmetic : Arithmetic} {a b c : DataArray} {w : Write} {writes : List Write}

/-- All that an accepted write does. -/
theorem write_cases (hwidth : a.width < Word.limit) (h : a.write arithmetic w = .ok b) :
    (∃ start row, w.PutsAt arithmetic a.width start row ∧
      start + row.length ≤ a.samples.length ∧
      b = { a with samples := a.samples.take start ++ row ++
              a.samples.drop (start + row.length) }) ∨
      ∃ row, b = { a with samples := a.samples ++ row } := by
  have hrow : ∀ r row, w.target? = some (r, row) → a.writeRow arithmetic r row = .ok b →
      ∃ start row, w.PutsAt arithmetic a.width start row ∧
        start + row.length ≤ a.samples.length ∧
        b = { a with samples := a.samples.take start ++ row ++
                a.samples.drop (start + row.length) } := by
    intro r row htarget hwrite
    obtain ⟨hlength, start, hstart, hroom, hb⟩ := exists_start_of_writeRow hwidth hwrite
    rw [← hlength] at hroom hb
    exact ⟨start, row, ⟨r, ⟨htarget, hlength⟩, hstart⟩, hroom, hb⟩
  cases w with
  | sample r x => exact Or.inl (hrow r [x] rfl h)
  | row r row => exact Or.inl (hrow r row rfl h)
  | append row =>
    right
    rw [write, appendRow] at h
    split at h
    · exact ⟨row, (Except.ok.inj h).symm⟩
    · cases h

/-- What every accepted write keeps, a run of writes keeps. -/
theorem run_writes {P : DataArray → Prop}
    (hstep : ∀ w ∈ writes, ∀ b c, P b → b.write arithmetic w = .ok c → P c) (ha : P a) :
    P (a.run arithmetic (writes.map .write)) := by
  induction writes generalizing a with
  | nil => exact ha
  | cons w writes ih =>
    obtain ⟨hw, hstep⟩ := List.forall_mem_cons.1 hstep
    refine ih hstep ?_
    rw [stepped]
    split
    · next b hb => exact hw a b ha hb
    · exact ha

/-! ## Where samples come from -/

/-- Samples have only been added, and one that differs was put there by one of the writes. -/
structure Grown (arithmetic : Arithmetic) (writes : List Write) (a b : DataArray) : Prop where
  width : b.width = a.width
  length : a.samples.length ≤ b.samples.length
  origin : ∀ i < a.samples.length, b.samples[i]? = a.samples[i]? ∨
    ∃ w ∈ writes, ∃ start ≤ i, ∃ row, w.PutsAt arithmetic a.width start row ∧
      ∃ x ∈ row, b.samples[i]? = some x

theorem Grown.refl (a : DataArray) : Grown arithmetic writes a a :=
  ⟨rfl, Nat.le_refl _, fun _ _ => Or.inl rfl⟩

theorem Grown.write (h : Grown arithmetic writes a b) (hwidth : a.width < Word.limit)
    (hw : w ∈ writes) (hc : b.write arithmetic w = .ok c) : Grown arithmetic writes a c := by
  have hlength := h.length
  rcases write_cases (h.width ▸ hwidth) hc with ⟨start, row, hputs, hroom, rfl⟩ | ⟨row, rfl⟩
  · refine ⟨h.width, ?_, fun i hi => ?_⟩
    · simp only [List.length_append, List.length_take, List.length_drop]
      omega
    · rw [getElem?_overwrite hroom]
      split
      · next hin =>
        have hlt : i - start < row.length := by omega
        rw [h.width] at hputs
        exact Or.inr ⟨w, hw, start, hin.1, row, hputs, _, List.getElem_mem hlt,
          List.getElem?_eq_getElem hlt⟩
      · exact h.origin i hi
  · refine ⟨h.width, ?_, fun i hi => ?_⟩
    · rw [List.length_append]
      omega
    · rw [List.getElem?_append_left (Nat.lt_of_lt_of_le hi hlength)]
      exact h.origin i hi

theorem grown_run (hwidth : a.width < Word.limit) (writes : List Write) :
    Grown arithmetic writes a (a.run arithmetic (writes.map .write)) :=
  run_writes (fun _ hw _ _ hb hc => hb.write hwidth hw hc) (Grown.refl a)

end Writes

/-! ## What is kept -/

/-- What is kept of the measured rows, given the rows that are put over them. -/
structure KeepsMeasured (a b : DataArray) (putOver : List Double → Prop) : Prop where
  measuredRows : (∀ row, putOver row → ∀ x ∈ row, x.isNaN = false) →
    a.measuredRows ≤ b.measuredRows
  rows : (∀ row, ¬putOver row) → b.rows.take a.measuredRows = a.rows.take a.measuredRows
  samples : (∀ row, ¬putOver row) →
    b.samples.take (a.measuredRows * a.width) = a.samples.take (a.measuredRows * a.width)

theorem KeepsMeasured.mono {a b : DataArray} {putOver more : List Double → Prop}
    (h : KeepsMeasured a b putOver) (hmore : ∀ row, putOver row → more row) :
    KeepsMeasured a b more :=
  ⟨fun hclean => h.measuredRows fun row hrow => hclean row (hmore row hrow),
    fun hnone => h.rows fun row hrow => hnone row (hmore row hrow),
    fun hnone => h.samples fun row hrow => hnone row (hmore row hrow)⟩

/-- The rows that are put over measured ones are those that start in front of their end. -/
theorem Grown.keepsMeasured {arithmetic : Arithmetic} {writes : List Write} {a b : DataArray}
    (h : Grown arithmetic writes a b) :
    KeepsMeasured a b fun row => ∃ w ∈ writes, ∃ start < a.measuredRows * a.width,
      w.PutsAt arithmetic a.width start row := by
  have hle := a.measuredRows_mul_width_le
  have hcount : a.rowCount ≤ b.rowCount := by
    rw [rowCount, rowCount, h.width]
    exact Nat.div_le_div_right h.length
  have hmeasured := le_measuredRows_iff_samples.1 (Nat.le_refl a.measuredRows)
  have hsamples : (∀ row, ¬∃ w ∈ writes, ∃ start < a.measuredRows * a.width,
      w.PutsAt arithmetic a.width start row) →
      b.samples.take (a.measuredRows * a.width) = a.samples.take (a.measuredRows * a.width) := by
    intro hnone
    refine List.ext_getElem? fun i => ?_
    rw [List.getElem?_take, List.getElem?_take]
    split
    · next hi =>
      rcases h.origin i (Nat.lt_of_lt_of_le hi hle) with
        hsame | ⟨w, hw, start, hstart, row, hputs, -⟩
      · exact hsame
      · exact (hnone row ⟨w, hw, start, Nat.lt_of_le_of_lt hstart hi, hputs⟩).elim
    · rfl
  refine ⟨fun hclean => ?_, fun hnone => ?_, hsamples⟩
  · rw [le_measuredRows_iff_samples, h.width]
    intro i hi
    rcases h.origin i (Nat.lt_of_lt_of_le hi hle) with
      hsame | ⟨w, hw, start, hstart, row, hputs, x, hx, hi'⟩
    · rw [hsame]
      exact hmeasured i hi
    · exact ⟨x, hi', hclean row ⟨w, hw, start, Nat.lt_of_le_of_lt hstart hi, hputs⟩ x hx⟩
  · rw [rows, rows, take_pieces (Nat.le_trans a.measuredRows_le_rowCount hcount),
      take_pieces a.measuredRows_le_rowCount, h.width, hsamples hnone]

/-! ## Samples of consecutive rows -/

/-- Measured rows give whole rows of samples without NaN. -/
theorem samplesBetween?_measured {a : DataArray} {first : Nat} (hfirst : first ≤ a.measuredRows) :
    ∃ slice, a.samplesBetween? first a.measuredRows = some slice ∧
      slice.length = (a.measuredRows - first) * a.width ∧ ∀ x ∈ slice, x.isNaN = false := by
  have hlast := a.measuredRows_mul_width_le
  refine ⟨_, if_pos ⟨Nat.mul_le_mul_right _ hfirst, hlast⟩, ?_, fun x hx => ?_⟩
  · rw [List.length_drop, List.length_take, Nat.min_eq_left hlast, Nat.sub_mul]
  · obtain ⟨i, hi⟩ := List.mem_iff_getElem?.1 (List.mem_of_mem_drop hx)
    rw [List.getElem?_take] at hi
    split at hi
    · next hlt =>
      obtain ⟨y, hy, hmeasured⟩ := le_measuredRows_iff_samples.1 (Nat.le_refl _) i hlt
      rw [hi] at hy
      cases hy
      exact hmeasured
    · cases hi

/-! ## What appending relies on -/

/-- After any writes to an array that a run has reached, in either build: no row is lost; from any
row up to the last measured one there are samples, all of them measured; rows that were measured
stay measured unless NaN is put over their samples, and stay as they are unless anything is put over
them. With checks, or if the starts of the rows that the writes name are words, only a write that
names a measured row puts anything over them. -/
theorem measuredRows_run_writes (arithmetic : Arithmetic) (id : String) (steps : List Step)
    (writes : List Write) (hwidth : (run arithmetic { id } steps).width < Word.limit) :
    let a := run arithmetic { id } steps
    let b := a.run arithmetic (writes.map .write)
    b.width = a.width ∧ a.rowCount ≤ b.rowCount ∧
      a.KeepsMeasured b (fun row => ∃ w ∈ writes, ∃ start < a.measuredRows * a.width,
        w.PutsAt arithmetic a.width start row) ∧
      ((arithmetic = .checked ∨ ∀ w ∈ writes, w.Fits a.width) →
        a.KeepsMeasured b fun row => ∃ w ∈ writes, ∃ r < a.measuredRows,
          w.Replaces a.width r row) ∧
      ∀ first ≤ b.measuredRows, ∃ slice, b.samplesBetween? first b.measuredRows = some slice ∧
        slice.length = (b.measuredRows - first) * b.width ∧ ∀ x ∈ slice, x.isNaN = false := by
  intro a b
  have hgrown : Grown arithmetic writes a b := grown_run hwidth writes
  have hkeeps := hgrown.keepsMeasured
  refine ⟨hgrown.width, ?_, hkeeps, fun hfit => ?_, fun first => samplesBetween?_measured⟩
  · rw [rowCount, rowCount, hgrown.width]
    exact Nat.div_le_div_right hgrown.length
  · refine hkeeps.mono fun row hrow => ?_
    obtain ⟨w, hw, start, hstart, hputs⟩ := hrow
    obtain ⟨r, hreplaces, rfl⟩ := hputs.exists_replaces (hfit.imp_right fun hall => hall w hw)
    exact ⟨w, hw, r, Nat.lt_of_mul_lt_mul_right hstart, hreplaces⟩

/-- Three rows of two columns, of which the first two are measured. -/
def measuredSteps : List Step :=
  [.units ["V", "A"], .allocate 3, .write (.row 0 [⟨0⟩, ⟨1⟩]), .write (.row 1 [⟨2⟩, ⟨3⟩])]

/-- A measured row is measured again, the next one halfway, and a row is appended; a row of another
width and a row index beyond the machine words are refused. -/
def remeasuring : List Write :=
  [.row 0 [⟨4⟩, ⟨5⟩], .row 2 [⟨6⟩, Double.nan], .sample 0 Double.nan, .append [⟨7⟩, ⟨8⟩],
    .row Word.limit [⟨0⟩, ⟨0⟩]]

/-- The row that is missing is measured. -/
def completing : List Write := [.sample 1 Double.nan, .row 2 [⟨6⟩, ⟨7⟩], .append [⟨8⟩, ⟨9⟩]]

theorem measuredRows_run_writes_remeasured :
    let a := run .checked { id := "iv" } measuredSteps
    let c := run .wrapping { id := "iv" } measuredSteps
    a.width < Word.limit ∧ c.width < Word.limit ∧
      (∀ row, (∃ w ∈ remeasuring, ∃ r < a.measuredRows, w.Replaces a.width r row) →
        ∀ x ∈ row, x.isNaN = false) ∧
      a.measuredRows ≤ (a.run .checked (remeasuring.map .write)).measuredRows ∧
      (∀ row, ¬∃ w ∈ completing, ∃ r < c.measuredRows, w.Replaces c.width r row) ∧
      (c.run .wrapping (completing.map .write)).rows.take c.measuredRows =
        c.rows.take c.measuredRows ∧
      ∃ slice, (c.run .wrapping (completing.map .write)).samplesBetween? 2
        (c.run .wrapping (completing.map .write)).measuredRows = some slice ∧
        slice.length = 4 := by
  intro a c
  have hwidth : a.width = 2 := by decide
  have hmeasured : a.measuredRows = 2 := by decide
  have hwidth' : c.width = 2 := by decide
  have hmeasured' : c.measuredRows = 2 := by decide
  have hclean : ∀ row, (∃ w ∈ remeasuring, ∃ r < a.measuredRows, w.Replaces a.width r row) →
      ∀ x ∈ row, x.isNaN = false := by
    rw [hwidth, hmeasured]
    rintro row ⟨w, hw, r, hr, htarget, hrow⟩
    simp only [remeasuring, List.mem_cons, List.not_mem_nil, or_false] at hw
    rcases hw with rfl | rfl | rfl | rfl | rfl <;> cases htarget
    · decide
    · exact absurd hr (by decide)
    · cases hrow
    · exact absurd hr (by decide)
  have hapart : ∀ row, ¬∃ w ∈ completing, ∃ r < c.measuredRows, w.Replaces c.width r row := by
    rw [hwidth', hmeasured']
    rintro row ⟨w, hw, r, hr, htarget, hrow⟩
    simp only [completing, List.mem_cons, List.not_mem_nil, or_false] at hw
    rcases hw with rfl | rfl | rfl <;> cases htarget
    · cases hrow
    · exact absurd hr (by decide)
  have hfits : ∀ w ∈ completing, w.Fits c.width := by
    rw [hwidth']
    intro w hw r row htarget
    simp only [completing, List.mem_cons, List.not_mem_nil, or_false] at hw
    rcases hw with rfl | rfl | rfl <;> cases htarget <;> decide
  obtain ⟨-, -, -, hkeeps, -⟩ :=
    measuredRows_run_writes .checked "iv" measuredSteps remeasuring (by decide)
  obtain ⟨-, -, -, hkeeps', hslices⟩ :=
    measuredRows_run_writes .wrapping "iv" measuredSteps completing (by decide)
  obtain ⟨slice, hslice, hlength, -⟩ := hslices 2 (by decide)
  refine ⟨by decide, by decide, hclean, (hkeeps (Or.inl rfl)).measuredRows hclean, hapart,
    (hkeeps' (Or.inr hfits)).rows hapart, slice, hslice, ?_⟩
  rw [hlength]
  decide

/-- Without checks, NaN for a row far behind the last one is put over the only row, which was
measured. -/
theorem exists_measuredRows_lost :
    ∃ (steps : List Step) (writes : List Write),
      let a := run .wrapping { id := "iv" } steps
      let b := a.run .wrapping (writes.map .write)
      (∀ w ∈ writes, ∀ r row, w.Replaces a.width r row → a.rowCount ≤ r ∧ r < Word.limit) ∧
        a.measuredRows = 1 ∧ b.measuredRows = 0 ∧ b.rows.take 1 ≠ a.rows.take 1 := by
  refine ⟨fourColumnSteps, [.row farRow (List.replicate 4 Double.nan)], ?_, by decide, by decide,
    by decide⟩
  rintro w hw r row ⟨htarget, -⟩
  rw [List.mem_singleton] at hw
  subst hw
  cases htarget
  decide

end ArrayStore.DataArray
