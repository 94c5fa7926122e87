import ArrayStore.Log.Filter
import ArrayStore.Proofs.Text.Case

/-!
# Log levels

* `read?_eq_some_iff` : a level is read from its number, and from its name in any case;
* `rank` : how verbose a level is;
* `rank_max` : of two levels, the more verbose one is taken;
* `Filter.maxLevel_isLeast` : nothing that a filter enables is more verbose than its level, and no
  lower level would do.
-/

namespace ArrayStore.Log
open Text

namespace Level

theorem mem_all (level : Level) : level ∈ all := by cases level <;> decide

theorem nodup_all : all.Nodup := by decide

theorem name_injective {a b : Level} (h : a.name = b.name) : a = b := by
  revert h
  cases a <;> cases b <;> decide

/-- How verbose a level is. -/
def rank (level : Level) : Nat := all.idxOf level

theorem getElem?_all_iff {n : Nat} {level : Level} : all[n]? = some level ↔ n = level.rank := by
  constructor
  · intro h
    obtain ⟨hn, rfl⟩ := List.getElem?_eq_some_iff.1 h
    exact (nodup_all.idxOf_getElem n hn).symm
  · rintro rfl
    rw [rank, List.getElem?_eq_getElem (List.idxOf_lt_length_of_mem (mem_all level)),
      List.getElem_idxOf]

/-! ## Reading -/

theorem exists_name_eq_cons (level : Level) :
    ∃ c rest, level.name.toList = c :: rest ∧ 97 ≤ c.toNat := by
  cases level <;> exact ⟨_, _, rfl, by decide⟩

/-- The name of a level, in any case, is no number. -/
theorem readNumber?_of_name {text : List Char} {level : Level}
    (h : text.map Char.toLower = level.name.toList) : readNumber? text = none := by
  obtain ⟨first, others, hname, hfirst⟩ := level.exists_name_eq_cons
  rw [hname] at h
  obtain ⟨c, rest, rfl, hc, -⟩ := List.map_eq_cons_iff.1 h
  have hletter : 65 ≤ c.toNat := by
    rw [← hc, toNat_toLower] at hfirst
    split at hfirst <;> omega
  have hplus : c ≠ '+' := by
    rintro rfl
    revert hletter
    decide
  have hdigit : isDigit c = false := by
    have hlarge : ¬c ≤ '9' := fun hle => absurd (Nat.le_trans hletter hle) (by decide)
    rw [isDigit, decide_eq_false hlarge, Bool.and_false]
  unfold readNumber?
  split
  · next heq =>
    cases heq
    exact (hplus rfl).elim
  · dsimp only
    rw [List.isEmpty_cons, List.all_cons, hdigit]
    rfl

theorem read?_eq_some_iff {text : List Char} {level : Level} :
    read? text = some level ↔
      readNumber? text = some level.rank ∨ text.map Char.toLower = level.name.toList := by
  unfold read?
  cases hnumber : readNumber? text with
  | some n =>
    have hname : text.map Char.toLower ≠ level.name.toList := by
      intro h
      rw [readNumber?_of_name h] at hnumber
      cases hnumber
    dsimp only
    rw [getElem?_all_iff, Option.some.injEq, or_iff_left hname]
  | none =>
    dsimp only
    rw [or_iff_right (by rintro ⟨⟩)]
    have hfound : ∀ other, all.find? (fun level => level.name.toList == text.map Char.toLower) =
        some other → text.map Char.toLower = other.name.toList := by
      intro other ho
      have hsame := List.find?_some ho
      exact (beq_iff_eq.1 hsame).symm
    constructor
    · exact hfound level
    · intro h
      have hsome : (all.find? fun level => level.name.toList == text.map Char.toLower).isSome :=
        List.find?_isSome.2 ⟨level, mem_all level, by rw [h, beq_self_eq_true]⟩
      obtain ⟨other, ho⟩ := Option.isSome_iff_exists.1 hsome
      have hname : level.name.toList = other.name.toList := h.symm.trans (hfound other ho)
      rw [ho, name_injective (String.toList_injective hname)]

/-- The name of a level stands for it in any case. -/
theorem read?_of_name {text : List Char} {level : Level}
    (h : text.map Char.toLower = level.name.toList) : read? text = some level :=
  read?_eq_some_iff.2 (Or.inr h)

/-! ## The more verbose level -/

theorem rank_max (a b : Level) : (a.max b).rank = Nat.max a.rank b.rank := by
  unfold max
  split
  · next h => exact (Nat.max_eq_right (Nat.le_of_lt h)).symm
  · next h => exact (Nat.max_eq_left (Nat.le_of_not_lt h)).symm

theorem max_eq (a b : Level) : a.max b = a ∨ a.max b = b := by
  unfold max
  split
  · exact Or.inr rfl
  · exact Or.inl rfl

theorem rank_le_trace (level : Level) : level.rank ≤ trace.rank := by
  cases level <;> decide

end Level

namespace Filter
variable {f : Filter} {directives : List Directive}

theorem rank_le_foldl (directives : List Directive) (level : Level) :
    level.rank ≤ (directives.foldl (fun level d => level.max d.level) level).rank ∧
      ∀ d ∈ directives,
        d.level.rank ≤ (directives.foldl (fun level d => level.max d.level) level).rank := by
  induction directives generalizing level with
  | nil => exact ⟨Nat.le_refl _, fun d hd => (by cases hd)⟩
  | cons first directives ih =>
    obtain ⟨hstart, hall⟩ := ih (level.max first.level)
    rw [Level.rank_max] at hstart
    exact ⟨Nat.le_trans (Nat.le_max_left ..) hstart,
      List.forall_mem_cons.2 ⟨Nat.le_trans (Nat.le_max_right ..) hstart, hall⟩⟩

theorem foldl_mem (directives : List Directive) (level : Level) :
    directives.foldl (fun level d => level.max d.level) level = level ∨
      ∃ d ∈ directives, d.level = directives.foldl (fun level d => level.max d.level) level := by
  induction directives generalizing level with
  | nil => exact Or.inl rfl
  | cons first directives ih =>
    rw [List.foldl_cons]
    rcases ih (level.max first.level) with heq | ⟨d, hd, heq⟩
    · rw [heq]
      rcases level.max_eq first.level with hmax | hmax
      · exact Or.inl hmax
      · exact Or.inr ⟨first, List.mem_cons_self .., hmax.symm⟩
    · exact Or.inr ⟨d, List.mem_cons_of_mem _ hd, heq⟩

/-- Nothing that a filter enables is more verbose than its level, and this is the level of a
directive, or that of one which asks for a value. -/
theorem maxLevel_isLeast (f : Filter) :
    (∀ d ∈ f.directives, d.level.rank ≤ f.maxLevel.rank) ∧
      (f.maxLevel = .off ∨ (∃ d ∈ f.directives, d.level = f.maxLevel) ∨
        f.maxLevel = .trace ∧ ∃ d ∈ f.directives, d.asksForValue = true) := by
  unfold maxLevel
  split
  · next h => exact ⟨fun d _ => d.level.rank_le_trace, Or.inr (Or.inr ⟨rfl, List.any_eq_true.1 h⟩)⟩
  · refine ⟨(rank_le_foldl f.directives .off).2, ?_⟩
    rcases foldl_mem f.directives .off with hoff | hd
    · exact Or.inl hoff
    · exact Or.inr (Or.inl hd)

end Filter
end ArrayStore.Log
