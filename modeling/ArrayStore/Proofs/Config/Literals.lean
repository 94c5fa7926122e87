import ArrayStore.Config.Variable
import Mathlib.Data.List.Infix
import Mathlib.Data.List.TakeWhile

/-!
# Texts of variables

* `skipSpace_eq_self`, `skipSpace_ne_nil` : nothing is skipped in front of a text without blanks at
  its ends, nor is any end of it skipped whole;
* `NamesNumber`, `plain_of_not_namesNumber` : a plain text that is no number is itself;
* `source_of_settingOf` : whatever a text is read as comes from the environment;
* `IsName`, `settingOf_of_isName` : a text that looks like no other value is read as itself.
-/

namespace ArrayStore.Config.Variable
open Text

/-! ## White space -/

theorem isBlank_of_isSpace {c : Char} (h : isSpace c = true) : isBlank c = true := by
  simp only [isSpace, Bool.or_eq_true, decide_eq_true_eq] at h
  rcases h with (((h | h) | h) | h) | h <;> subst h <;> rfl

theorem skipSpace_eq_self {s : List Char} (h : trim s = s) : skipSpace s = s := by
  have hleft := trimLeft_of_trim h
  cases s with
  | nil => rfl
  | cons c s =>
    have hc : isBlank c = false := isBlank_of_trimLeft_eq_cons hleft
    refine List.dropWhile_cons_of_neg fun hspace => ?_
    rw [isBlank_of_isSpace hspace] at hc
    cases hc

/-- An end of a text without blanks at its ends is not skipped whole. -/
theorem skipSpace_ne_nil {before rest : List Char} (h : trim (before ++ rest) = before ++ rest)
    (hrest : rest ≠ []) : skipSpace rest ≠ [] := by
  intro hskip
  have hblank : ∀ c ∈ rest.reverse, isBlank c = true := fun c hc =>
    isBlank_of_isSpace (List.dropWhile_eq_nil_iff.1 hskip c (List.mem_reverse.1 hc))
  have hright : trimRight (before ++ rest) = trimRight before := by
    unfold trimRight
    rw [List.reverse_append, List.dropWhile_append_of_pos hblank]
  have hle := length_trimRight_le before
  rw [← hright, ← trimLeft_of_trim h, ← trim, h, List.length_append] at hle
  have hpos := List.length_pos_iff.2 hrest
  omega

/-! ## Plain texts -/

/-- The text is an integer of 64 bits, or a decimal with a point. -/
def NamesNumber (s : List Char) : Prop :=
  (readInteger s).isSome = true ∨ '.' ∈ s ∧ (Decimal.read? s).isSome = true

instance (s : List Char) : Decidable (NamesNumber s) :=
  inferInstanceAs (Decidable (_ ∨ _ ∧ _))

theorem plain_of_not_namesNumber {s : List Char} (h : ¬NamesNumber s) :
    plain s = .text (String.ofList s) := by
  obtain ⟨hinteger, hdecimal⟩ := not_or.1 h
  have hfloat : (if s.contains '.' then Decimal.read? s else none) = none := by
    refine ite_eq_right_iff.2 fun hpoint => Option.not_isSome_iff_eq_none.1 fun hsome => ?_
    exact hdecimal ⟨List.contains_iff_mem.1 hpoint, hsome⟩
  rw [plain, hfloat, Option.not_isSome_iff_eq_none.1 hinteger]
  rfl

/-! ## Readers -/

theorem eq_append_of_expect {word s rest : List Char} (h : expect word s = some rest) :
    s = word ++ rest := by
  obtain ⟨hstart, hrest⟩ := Option.ite_none_right_eq_some.1 h
  obtain ⟨t, rfl⟩ := List.isPrefixOf_iff_prefix.1 hstart
  rw [List.drop_left] at hrest
  cases hrest
  rfl

theorem readUntrimmed_true {s rest : List Char} (htrue : expect "true".toList s = some rest)
    (fuel : Nat) :
    readUntrimmed (fuel + 1) s = .ok (.scalar (.bool true) .environment, rest) := by
  unfold readUntrimmed
  rw [htrue]

theorem readUntrimmed_false {s rest : List Char} (htrue : expect "true".toList s = none)
    (hfalse : expect "false".toList s = some rest) (fuel : Nat) :
    readUntrimmed (fuel + 1) s = .ok (.scalar (.bool false) .environment, rest) := by
  unfold readUntrimmed
  rw [htrue, hfalse]

/-- A quote or a bracket, with which a text or a list or a table starts. -/
def opensLiteral (c : Char) : Bool := c = '"' || c = '\x27' || c = '[' || c = '\x7b'

/-- A text that starts with neither a boolean nor a quote nor a bracket is plain up to a mark. -/
theorem readUntrimmed_plain {s : List Char} (htrue : expect "true".toList s = none)
    (hfalse : expect "false".toList s = none) (hopen : ∀ c ∈ s.head?, opensLiteral c = false)
    (fuel : Nat) :
    readUntrimmed (fuel + 1) s = .ok
      (.scalar (plain (trim (s.takeWhile fun c => !isMark c))) .environment,
        s.dropWhile fun c => !isMark c) := by
  have hne {c : Char} {rest : List Char} (hc : opensLiteral c = true) (hs : s = c :: rest) :
      False := by
    subst hs
    rw [hopen c rfl] at hc
    cases hc
  unfold readUntrimmed
  rw [htrue, hfalse]
  dsimp only
  split
  · exact (hne (by decide) rfl).elim
  · exact (hne (by decide) rfl).elim
  · exact (hne (by decide) rfl).elim
  · exact (hne (by decide) rfl).elim
  · rw [List.span_eq_takeWhile_dropWhile]

theorem exists_of_map_eq_ok {ε α β : Type} {f : α → β} {read : Except ε α} {b : β}
    (h : read.map f = .ok b) : ∃ a, read = .ok a ∧ f a = b := by
  cases read with
  | error e => cases h
  | ok a => exact ⟨a, rfl, Except.ok.inj h⟩

theorem source_of_readUntrimmed {fuel : Nat} {s rest : List Char} {setting : Setting}
    (h : readUntrimmed fuel s = .ok (setting, rest)) : setting.source = .environment := by
  cases fuel with
  | zero => cases h
  | succ fuel =>
    unfold readUntrimmed at h
    split at h
    · cases h
      rfl
    · split at h
      · cases h
        rfl
      · split at h
        · obtain ⟨entries, -, hr⟩ := exists_of_map_eq_ok h
          cases hr
          rfl
        · obtain ⟨items, -, hr⟩ := exists_of_map_eq_ok h
          cases hr
          rfl
        · obtain ⟨text, -, hr⟩ := exists_of_map_eq_ok h
          cases hr
          rfl
        · split at h
          · cases h
            rfl
          · cases h
        · cases h
          rfl

theorem source_of_readSetting {fuel : Nat} {s rest : List Char} {setting : Setting}
    (h : readSetting fuel s = .ok (setting, rest)) : setting.source = .environment := by
  cases fuel with
  | zero => cases h
  | succ fuel =>
    unfold readSetting at h
    obtain ⟨r, hread, hr⟩ := exists_of_map_eq_ok h
    cases hr
    exact source_of_readUntrimmed hread

/-- Whatever a text is read as comes from the environment. -/
theorem source_of_settingOf {text : String} {setting : Setting}
    (h : settingOf text = .ok setting) : setting.source = .environment := by
  unfold settingOf at h
  split at h
  · next hread =>
    cases h
    exact source_of_readSetting hread
  · cases h
  · cases h
    rfl

/-! ## Names -/

/-- The text has no blanks at its ends, starts with neither a quote nor a bracket, and is neither a
boolean nor a number. -/
structure IsName (s : List Char) : Prop where
  trimmed : trim s = s
  opens : ∀ c ∈ s.head?, opensLiteral c = false
  ne_true : s ≠ "true".toList
  ne_false : s ≠ "false".toList
  noNumber : ¬NamesNumber s

theorem settingOf_of_readUntrimmed {text : String} {setting : Setting} {rest : List Char}
    (htrim : trim text.toList = text.toList)
    (hread : readUntrimmed (3 * text.toList.length + 2) text.toList = .ok (setting, rest))
    (hrest : skipSpace rest = [] → setting = .scalar (.text text) .environment) :
    settingOf text = .ok (.scalar (.text text) .environment) := by
  have h : readSetting (3 * text.toList.length + 3) text.toList =
      .ok (setting, skipSpace rest) := by
    rw [readSetting, skipSpace_eq_self htrim, hread]
    rfl
  rw [settingOf, h]
  cases hskip : skipSpace rest with
  | nil => rw [hrest hskip]
  | cons c more => rfl

/-- A text that looks like no other value is read as itself. -/
theorem settingOf_of_isName {text : String} (h : IsName text.toList) :
    settingOf text = .ok (.scalar (.text text) .environment) := by
  -- behind a boolean something follows, and it is not blank to the end
  have hword {word rest : List Char} (hne : text.toList ≠ word)
      (hrest : text.toList = word ++ rest) : skipSpace rest ≠ [] := by
    have htrim := h.trimmed
    rw [hrest] at htrim
    refine skipSpace_ne_nil htrim fun hnil => hne ?_
    rw [hrest, hnil, List.append_nil]
  cases htrue : expect "true".toList text.toList with
  | some rest =>
    refine settingOf_of_readUntrimmed h.trimmed (readUntrimmed_true htrue _) fun hskip => ?_
    exact absurd hskip (hword h.ne_true (eq_append_of_expect htrue))
  | none =>
    cases hfalse : expect "false".toList text.toList with
    | some rest =>
      refine settingOf_of_readUntrimmed h.trimmed (readUntrimmed_false htrue hfalse _)
        fun hskip => ?_
      exact absurd hskip (hword h.ne_false (eq_append_of_expect hfalse))
    | none =>
      refine settingOf_of_readUntrimmed h.trimmed (readUntrimmed_plain htrue hfalse h.opens _)
        fun hskip => ?_
      have hsplit : text.toList.takeWhile (fun c => !isMark c) ++
          text.toList.dropWhile (fun c => !isMark c) = text.toList :=
        List.takeWhile_append_dropWhile
      have hall : text.toList.dropWhile (fun c => !isMark c) = [] := by
        by_contra hne
        exact skipSpace_ne_nil (by rw [hsplit, h.trimmed]) hne hskip
      rw [hall, List.append_nil] at hsplit
      rw [hsplit, h.trimmed, plain_of_not_namesNumber h.noNumber, String.ofList_toList]

end ArrayStore.Config.Variable
