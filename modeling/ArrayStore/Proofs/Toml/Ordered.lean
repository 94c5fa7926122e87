import ArrayStore.Toml.Document
import ArrayStore.Proofs.Keyed

/-!
# Tables of a document are ordered by key

* `Value.IsOrdered`, `Item.IsOrdered` : a value or an item, if it is a table, is ordered;
* `Table.Tidy` : a table is ordered, and so are the tables in it;
* `Puts`, `PutsOrdered` : a change of a table puts one item; `putsOrdered_update?` : so it does at
  the end of a path, seen from the start;
* `readValue_isOrdered` : inline tables are ordered, too;
* `read?_ordered` : the table that a text holds is ordered, and so are the tables in it.
-/

namespace ArrayStore.Toml
open Keyed (Ordered)

/-- If the value is a table, it is ordered. -/
def Value.IsOrdered : Value → Prop
  | .table entries => Ordered entries
  | _ => True

/-- If the item is a table, it is ordered. -/
def Item.IsOrdered : Item → Prop
  | .value v => v.IsOrdered
  | .table _ _ entries => Ordered entries
  | .elements _ => True

/-- The table is ordered, and so are the tables in it. -/
structure Table.Tidy (t : Table) : Prop where
  ordered : Ordered t.entries
  items : ∀ key item, t.find? key = some item → item.IsOrdered

/-! ## Changes of tables -/

/-- If the change succeeds, it has put an item. -/
def Puts (change : Table → Option Table) : Prop :=
  ∀ t u, change t = some u → ∃ key item, u = t.put key item

/-- If the change succeeds, it has put an item, and an ordered one into a tidy table. -/
def PutsOrdered (change : Table → Option Table) : Prop :=
  ∀ t u, change t = some u → ∃ key item, u = t.put key item ∧ (t.Tidy → item.IsOrdered)

theorem PutsOrdered.puts {change : Table → Option Table} (h : PutsOrdered change) :
    Puts change := by
  intro t u hu
  obtain ⟨key, item, he, -⟩ := h t u hu
  exact ⟨key, item, he⟩

theorem Puts.ordered {change : Table → Option Table} (h : Puts change) {t u : Table}
    (ht : Ordered t.entries) (hu : change t = some u) : Ordered u.entries := by
  obtain ⟨key, item, rfl⟩ := h t u hu
  exact ht.insert key item

theorem PutsOrdered.tidy {change : Table → Option Table} (h : PutsOrdered change) {t u : Table}
    (ht : t.Tidy) (hu : change t = some u) : u.Tidy := by
  obtain ⟨key, item, rfl, hi⟩ := h t u hu
  refine ⟨ht.ordered.insert key item, fun other found hf => ?_⟩
  have hfind : (t.put key item).find? other = if other = key then some item else t.find? other :=
    Keyed.find?_insert key other item t.entries
  rw [hfind] at hf
  split at hf
  · cases hf
    exact hi ht
  · exact ht.items other found hf

namespace Table

theorem tidy_empty : Tidy {} := ⟨List.Pairwise.nil, fun _ _ h => by cases h⟩

/-- All tables on the way are put back. -/
theorem puts_update? (dotted : Bool) {change : Table → Option Table} (h : Puts change)
    (path : List String) : Puts (update? dotted change path) := by
  intro t u hu
  cases path with
  | nil => exact h t u hu
  | cons key path =>
    rw [update?] at hu
    split at hu
    · obtain ⟨sub, -, hput⟩ := Option.bind_eq_some_iff.1 hu
      exact ⟨key, _, (Option.some.inj hput).symm⟩
    · split at hu
      · cases hu
      · obtain ⟨sub, -, hput⟩ := Option.bind_eq_some_iff.1 hu
        exact ⟨key, _, (Option.some.inj hput).symm⟩
    · obtain ⟨sub, -, hput⟩ := Option.bind_eq_some_iff.1 hu
      exact ⟨key, _, (Option.some.inj hput).symm⟩
    · cases hu
    · cases hu

/-- What is put back into a tidy table was ordered before the change, and is so after it. -/
theorem putsOrdered_update? (dotted : Bool) {change : Table → Option Table} (h : PutsOrdered change)
    (path : List String) : PutsOrdered (update? dotted change path) := by
  intro t u hu
  cases path with
  | nil => exact h t u hu
  | cons key path =>
    have hputs := puts_update? dotted h.puts path
    rw [update?] at hu
    split at hu
    · obtain ⟨sub, hsub, hput⟩ := Option.bind_eq_some_iff.1 hu
      have hempty : Ordered ({ implicit := true, dotted } : Table).entries := List.Pairwise.nil
      exact ⟨key, _, (Option.some.inj hput).symm, fun _ => hputs.ordered hempty hsub⟩
    · next implicit isDotted entries hfind =>
      split at hu
      · cases hu
      · obtain ⟨sub, hsub, hput⟩ := Option.bind_eq_some_iff.1 hu
        refine ⟨key, _, (Option.some.inj hput).symm, fun ht => ?_⟩
        have hentries : Ordered entries := ht.items key _ hfind
        exact hputs.ordered (t := ⟨implicit, isDotted, entries⟩) hentries hsub
    · obtain ⟨sub, -, hput⟩ := Option.bind_eq_some_iff.1 hu
      exact ⟨key, _, (Option.some.inj hput).symm, fun _ => trivial⟩
    · cases hu
    · cases hu

theorem insertValue?_eq_some {isPlain : Bool} {key : String} {v : Value} {t u : Table}
    (h : insertValue? isPlain key v t = some u) : u = t.put key (.value v) := by
  unfold insertValue? at h
  split at h
  · cases h
  · split at h
    · cases h
    · exact (Option.some.inj h).symm

theorem puts_insert? (key : List String) (v : Value) : Puts fun t => t.insert? key v := by
  unfold insert?
  cases key.getLast? with
  | none => exact fun _ _ hu => by cases hu
  | some last => exact puts_update? true (fun t u hu => ⟨last, _, insertValue?_eq_some hu⟩) _

theorem putsOrdered_insert? (key : List String) {v : Value} (hv : v.IsOrdered) :
    PutsOrdered fun t => t.insert? key v := by
  unfold insert?
  cases key.getLast? with
  | none => exact fun _ _ hu => by cases hu
  | some last =>
    exact putsOrdered_update? true (fun t u hu => ⟨last, _, insertValue?_eq_some hu, fun _ => hv⟩) _

theorem putsOrdered_openTable? (header : List String) :
    PutsOrdered fun t => t.openTable? header := by
  unfold openTable?
  cases header.getLast? with
  | none => exact fun _ _ hu => by cases hu
  | some last =>
    refine putsOrdered_update? false (fun t u hu => ?_) _
    split at hu
    · exact ⟨last, _, (Option.some.inj hu).symm, fun _ => List.Pairwise.nil⟩
    · next entries hfind =>
      refine ⟨last, _, (Option.some.inj hu).symm, fun ht => ?_⟩
      have hentries : Ordered entries := ht.items last _ hfind
      exact hentries
    · cases hu

theorem putsOrdered_openElement? (header : List String) :
    PutsOrdered fun t => t.openElement? header := by
  unfold openElement?
  cases header.getLast? with
  | none => exact fun _ _ hu => by cases hu
  | some last =>
    refine putsOrdered_update? false (fun t u hu => ?_) _
    split at hu
    · exact ⟨last, _, (Option.some.inj hu).symm, fun _ => trivial⟩
    · exact ⟨last, _, (Option.some.inj hu).symm, fun _ => trivial⟩
    · cases hu

end Table

/-! ## Finished tables -/

theorem finishEntries_eq_map (entries : List (String × Item)) :
    Item.finishEntries entries = entries.map fun entry => (entry.1, entry.2.finish) := by
  induction entries with
  | nil => rfl
  | cons entry entries ih => rw [Item.finishEntries, ih, List.map_cons]

theorem ordered_finishEntries {entries : List (String × Item)} (h : Ordered entries) :
    Ordered (Item.finishEntries entries) := by
  rw [finishEntries_eq_map]
  exact h.map fun _ item => item.finish

theorem Item.IsOrdered.finish {item : Item} (h : item.IsOrdered) : item.finish.IsOrdered := by
  cases item with
  | value v => exact h
  | table implicit dotted entries => exact ordered_finishEntries h
  | elements tables => trivial

theorem Table.Tidy.isOrdered_of_find? {t : Table} (h : t.Tidy) {key : String} {v : Value}
    (hf : Keyed.find? key t.finish = some v) : v.IsOrdered := by
  rw [Table.finish, finishEntries_eq_map, Keyed.find?_map] at hf
  obtain ⟨item, hitem, rfl⟩ := Option.map_eq_some_iff.1 hf
  exact (h.items key item hitem).finish

/-! ## Values -/

/-- What every step keeps, the run of all of them keeps. -/
theorem foldlM_invariant {σ α : Type} {P : σ → Prop} {step : σ → α → Option σ} {l : List α}
    (hstep : ∀ x ∈ l, ∀ s t, P s → step s x = some t → P t) {s t : σ} (hs : P s)
    (h : l.foldlM step s = some t) : P t := by
  induction l generalizing s with
  | nil =>
    cases h
    exact hs
  | cons x l ih =>
    obtain ⟨hx, hstep⟩ := List.forall_mem_cons.1 hstep
    rw [List.foldlM_cons] at h
    obtain ⟨m, hm, h⟩ := Option.bind_eq_some_iff.1 h
    exact ih hstep (hx s m hs hm) h

/-- Inline tables are built key by key, like any other. -/
theorem inlineTable?_isOrdered {pairs : List (List String × Value)} {v : Value}
    (h : inlineTable? pairs = some v) : v.IsOrdered := by
  obtain ⟨t, ht, rfl⟩ := Option.map_eq_some_iff.1 h
  have hempty : Ordered ({} : Table).entries := List.Pairwise.nil
  have hordered : Ordered t.entries :=
    foldlM_invariant (P := fun t : Table => Ordered t.entries)
      (fun pair _ _ _ hs hu => (Table.puts_insert? pair.1 pair.2).ordered hs hu) hempty ht
  exact ordered_finishEntries hordered

theorem integer?_isOrdered {i : Int} {v : Value} (h : integer? i = some v) : v.IsOrdered := by
  unfold integer? at h
  split at h
  · cases h
    trivial
  · cases h

theorem float?_isOrdered {d : Decimal} {v : Value} (h : float? d = some v) : v.IsOrdered := by
  simp only [float?] at h
  split at h
  · cases h
  · cases h
    trivial

theorem readInBase_isOrdered {base : Nat} {isDigit : Char → Bool} {s rest : List Char} {v : Value}
    (h : readInBase base isDigit s = some (v, rest)) : v.IsOrdered := by
  obtain ⟨⟨digits, more⟩, -, h⟩ := Option.bind_eq_some_iff.1 h
  obtain ⟨w, hw, h⟩ := Option.bind_eq_some_iff.1 h
  cases h
  exact integer?_isOrdered hw

theorem readDecimal_isOrdered {negative : Bool} {s rest : List Char} {v : Value}
    (h : readDecimal negative s = some (v, rest)) : v.IsOrdered := by
  obtain ⟨⟨whole, s₁⟩, -, h⟩ := Option.bind_eq_some_iff.1 h
  obtain ⟨⟨fraction, s₂⟩, -, h⟩ := Option.bind_eq_some_iff.1 h
  obtain ⟨⟨exponent, s₃⟩, -, h⟩ := Option.bind_eq_some_iff.1 h
  dsimp only at h
  split at h
  · obtain ⟨w, hw, h⟩ := Option.bind_eq_some_iff.1 h
    cases h
    exact integer?_isOrdered hw
  · obtain ⟨w, hw, h⟩ := Option.bind_eq_some_iff.1 h
    cases h
    exact float?_isOrdered hw

theorem readNumber_isOrdered {s rest : List Char} {v : Value}
    (h : readNumber s = some (v, rest)) : v.IsOrdered := by
  unfold readNumber at h
  split at h
  · exact readInBase_isOrdered h
  · exact readInBase_isOrdered h
  · exact readInBase_isOrdered h
  · dsimp only at h
    split at h
    · cases h
      trivial
    · cases h
      trivial
    · exact readDecimal_isOrdered h

theorem readDateTime_isOrdered {s rest : List Char} {v : Value}
    (h : readDateTime s = some (v, rest)) : v.IsOrdered := by
  obtain ⟨more, -, h⟩ := Option.map_eq_some_iff.1 h
  cases h
  trivial

theorem readValue_isOrdered {fuel depth : Nat} {s rest : List Char} {v : Value}
    (h : readValue fuel depth s = some (v, rest)) : v.IsOrdered := by
  cases fuel with
  | zero => cases h
  | succ fuel =>
    cases s with
    | nil => cases h
    | cons c s =>
      unfold readValue at h
      dsimp only at h
      split at h
      · obtain ⟨read, -, h⟩ := Option.map_eq_some_iff.1 h
        cases h
        trivial
      · split at h
        · cases depth with
          | zero => cases h
          | succ depth =>
            dsimp only at h
            split at h
            · cases h
              trivial
            · obtain ⟨read, -, h⟩ := Option.map_eq_some_iff.1 h
              cases h
              trivial
        · split at h
          · cases depth with
            | zero => cases h
            | succ depth =>
              dsimp only at h
              split at h
              · cases h
                exact List.Pairwise.nil
              · obtain ⟨⟨pairs, more⟩, -, h⟩ := Option.bind_eq_some_iff.1 h
                obtain ⟨w, hw, h⟩ := Option.bind_eq_some_iff.1 h
                cases h
                exact inlineTable?_isOrdered hw
          · split at h
            · obtain ⟨more, -, h⟩ := Option.map_eq_some_iff.1 h
              cases h
              trivial
            · split at h
              · obtain ⟨more, -, h⟩ := Option.map_eq_some_iff.1 h
                cases h
                trivial
              · split at h
                · next read hread =>
                  cases h
                  exact readDateTime_isOrdered hread
                · exact readNumber_isOrdered h

/-! ## Documents -/

/-- If the line holds a value, it is an ordered one. -/
def Line.IsOrdered : Line → Prop
  | .pair _ v => v.IsOrdered
  | _ => True

theorem readHeader_isOrdered {s rest : List Char} {line : Line}
    (h : readHeader s = some (line, rest)) : line.IsOrdered := by
  unfold readHeader at h
  split at h <;> split at h <;> cases h <;> trivial

theorem readLine_isOrdered {s rest : List Char} {line : Line}
    (h : readLine s = some (line, rest)) : line.IsOrdered := by
  unfold readLine at h
  split at h
  · obtain ⟨⟨read, more⟩, hread, h⟩ := Option.bind_eq_some_iff.1 h
    obtain ⟨last, -, h⟩ := Option.bind_eq_some_iff.1 h
    cases h
    exact readHeader_isOrdered hread
  · split at h
    · cases h
      trivial
    · split at h
      · obtain ⟨⟨v, more⟩, hv, h⟩ := Option.bind_eq_some_iff.1 h
        obtain ⟨last, -, h⟩ := Option.bind_eq_some_iff.1 h
        cases h
        exact readValue_isOrdered hv
      · cases h

theorem readLines_isOrdered {fuel : Nat} {s : List Char} {lines : List Line}
    (h : readLines fuel s = some lines) : ∀ line ∈ lines, line.IsOrdered := by
  induction fuel generalizing s lines with
  | zero =>
    cases s with
    | nil =>
      cases h
      exact fun _ hm => by cases hm
    | cons c s => cases h
  | succ fuel ih =>
    cases s with
    | nil =>
      cases h
      exact fun _ hm => by cases hm
    | cons c s =>
      obtain ⟨⟨line, rest⟩, hline, h⟩ := Option.bind_eq_some_iff.1 h
      obtain ⟨more, hmore, h⟩ := Option.bind_eq_some_iff.1 h
      cases h
      exact List.forall_mem_cons.2 ⟨readLine_isOrdered hline, ih hmore⟩

theorem tidy_add? {p q : Progress} {line : Line} (hl : line.IsOrdered) (hp : p.root.Tidy)
    (h : p.add? line = some q) : q.root.Tidy := by
  cases line with
  | blank =>
    cases h
    exact hp
  | pair key v =>
    obtain ⟨root, hroot, rfl⟩ := Option.map_eq_some_iff.1 h
    have hputs := Table.putsOrdered_update? false (Table.putsOrdered_insert? key hl) p.header
    exact hputs.tidy hp hroot
  | table header =>
    obtain ⟨root, hroot, rfl⟩ := Option.map_eq_some_iff.1 h
    exact (Table.putsOrdered_openTable? header).tidy hp hroot
  | element header =>
    obtain ⟨root, hroot, rfl⟩ := Option.map_eq_some_iff.1 h
    exact (Table.putsOrdered_openElement? header).tidy hp hroot

/-- A text holds a table that is ordered, and so are the tables at its keys. -/
theorem read?_ordered {text : String} {entries : List (String × Value)}
    (h : read? text = some entries) :
    Ordered entries ∧ ∀ key v, Keyed.find? key entries = some v → v.IsOrdered := by
  obtain ⟨lines, hlines, h⟩ := Option.bind_eq_some_iff.1 h
  obtain ⟨p, hp, h⟩ := Option.bind_eq_some_iff.1 h
  cases h
  have hordered := readLines_isOrdered hlines
  have htidy : p.root.Tidy :=
    foldlM_invariant (P := fun p : Progress => p.root.Tidy)
      (fun line hm _ _ hs ht => tidy_add? (hordered line hm) hs ht) Table.tidy_empty hp
  exact ⟨ordered_finishEntries htidy.ordered, fun key v hf => htidy.isOrdered_of_find? hf⟩

end ArrayStore.Toml
