import ArrayStore.Proofs.Log.Levels
import Mathlib.Data.List.TakeDrop
import Mathlib.Data.List.TakeWhile

/-!
# Written directives

A directive is written as its target, its span with a field in brackets, and its level. Its parts
are found by their positions in bytes.

* `slice?_append` : the part of a text between two positions;
* `Directive.written` : a directive as it is written;
* `Directive.IsPlain` : no part holds a mark that would end it;
* `Directive.read_written` : what is written so reads back as it was.
-/

namespace ArrayStore.Text

theorem byteCount_append (a b : List Char) : byteCount (a ++ b) = byteCount a + byteCount b := by
  induction a with
  | nil => exact (Nat.zero_add _).symm
  | cons c a ih => rw [List.cons_append, byteCount, byteCount, ih, Nat.add_assoc]

/-- The part of a text that starts and ends at the positions of its neighbours. -/
theorem slice?_append (before part behind : List Char) :
    slice? (byteCount before) (byteCount before + byteCount part) (before ++ (part ++ behind)) =
      some part := by
  rw [slice?, splitAt?_byteCount]
  show ((splitAt? _ _).bind _) = _
  rw [Nat.add_sub_cancel_left, splitAt?_byteCount]
  rfl

/-- What stands in front of a mark. -/
theorem span_mark {p : Char → Bool} {s : List Char} {mark : Char} (hs : ∀ c ∈ s, p c = true)
    (hmark : p mark = false) (rest : List Char) :
    (s ++ mark :: rest).span p = (s, mark :: rest) := by
  rw [List.span_eq_takeWhile_dropWhile, List.takeWhile_append_of_pos hs,
    List.dropWhile_append_of_pos hs, List.takeWhile_cons_of_neg (by simp [hmark]),
    List.dropWhile_cons_of_neg (by simp [hmark]), List.append_nil]

end ArrayStore.Text

namespace ArrayStore.Log
open Text

/-! ## As it is written -/

/-- A field, with its value behind a mark. -/
def Field.written (f : Field) : List Char :=
  f.name.toList ++ match f.value with
    | none => []
    | some value => '=' :: value.toList

/-- The value of the field, if it has one, is a number or a pattern, and the parts hold no mark. -/
structure Field.IsPlain (f : Field) : Prop where
  ne_nil : f.written ≠ []
  name : ∀ c ∈ f.name.toList, c ≠ '='
  value : ∀ value, f.value = some value → (∀ c ∈ value.toList, c ≠ '=') ∧
    (Decimal.isNumeral value.toList = true ∨ Pattern.check value.toList = .ok ())
  brace : ∀ c ∈ f.written, c ≠ '\x7d'

namespace Directive

/-- The span and the field in their brackets. -/
def writtenSpan (d : Directive) : List Char :=
  (d.span.getD "").toList ++ match d.field with
    | none => []
    | some field => '\x7b' :: field.written ++ ['\x7d']

/-- A directive with its level. Only the level is written if it has nothing else. -/
def written (d : Directive) : List Char :=
  match d.target, d.span, d.field with
  | none, none, none => d.level.name.toList
  | some target, none, none => target.toList ++ '=' :: d.level.name.toList
  | target, _, _ =>
    (target.getD "").toList ++ '[' :: (d.writtenSpan ++ ']' :: '=' :: d.level.name.toList)

/-- No part holds a mark that would end it. -/
structure IsPlain (d : Directive) : Prop where
  target : ∀ target, d.target = some target →
    (∀ c ∈ target.toList, c ≠ '=' ∧ c ≠ '[') ∧ ∃ c rest, target.toList = c :: rest ∧ startsTarget c
  span : ∀ span, d.span = some span →
    (∀ c ∈ span.toList, c ≠ ']' ∧ c ≠ '\x7b') ∧ (span.toList = [] → d.field = none)
  field : ∀ field, d.field = some field → field.IsPlain

/-! ## Reading the parts -/

theorem part_append (before text behind : List Char) :
    part (before ++ (text ++ behind)) (byteCount before) (byteCount before + byteCount text) =
      .ok text := by
  rw [part, slice?_append]

theorem readField_written {f : Field} (h : f.IsPlain) : readField f.written = .ok f := by
  have hname : ∀ c ∈ f.name.toList, (c != '=') = true := fun c hc => bne_iff_ne.2 (h.name c hc)
  obtain ⟨name, value⟩ := f
  unfold readField
  rw [if_neg (by rw [List.isEmpty_iff]; exact h.ne_nil)]
  cases value with
  | none =>
    have hspan : (Field.written { name }).span (· != '=') = (name.toList, []) := by
      rw [Field.written, List.append_nil, List.span_eq_takeWhile_dropWhile,
        List.takeWhile_eq_self_iff.2 hname, List.dropWhile_eq_nil_iff.2 hname]
    rw [hspan]
    dsimp only
    rw [String.ofList_toList]
  | some value =>
    obtain ⟨hvalue, husable⟩ := h.value value rfl
    have hspan : (Field.written { name, value := some value }).span (· != '=') =
        (name.toList, '=' :: value.toList) := span_mark hname rfl value.toList
    have hwhole : value.toList.takeWhile (· != '=') = value.toList :=
      List.takeWhile_eq_self_iff.2 fun c hc => bne_iff_ne.2 (hvalue c hc)
    rw [hspan]
    dsimp only
    rw [hwhole, String.ofList_toList, String.ofList_toList]
    split
    · rfl
    · next hnumeral =>
      rw [husable.resolve_left hnumeral]

theorem levelFrom_name (before : List Char) (level : Level) :
    levelFrom (before ++ level.name.toList) (byteCount before) = .ok level := by
  have hpart : part (before ++ level.name.toList) (byteCount before)
      (byteCount (before ++ level.name.toList)) = .ok level.name.toList := by
    have happend := part_append before level.name.toList []
    rwa [List.append_nil, ← byteCount_append] at happend
  have hlower : level.name.toList.map Char.toLower = level.name.toList := by
    cases level <;> decide
  obtain ⟨c, rest, hname, -⟩ := level.exists_name_eq_cons
  rw [levelFrom, hpart]
  show (if level.name.toList.isEmpty then _ else _) = _
  rw [Level.read?_of_name hlower, hname]
  rfl

theorem readEnd_level (before : List Char) (d : Directive) (level : Level) :
    readEnd (before ++ '=' :: level.name.toList) d (byteCount before)
      ('=' :: level.name.toList) = .ok { d with level } := by
  have hlevel := levelFrom_name (before ++ ['=']) level
  rw [byteCount_append, List.append_assoc] at hlevel
  rw [readEnd]
  show (levelFrom _ (byteCount before + byteCount ['='])).bind _ = _
  rw [show before ++ '=' :: level.name.toList = before ++ (['='] ++ level.name.toList) from rfl,
    hlevel]
  rfl

/-- The mark at which the name of a span ends. -/
theorem span_name {name : List Char} (hname : ∀ c ∈ name, c ≠ ']' ∧ c ≠ '\x7b') {mark : Char}
    (hmark : mark = ']' ∨ mark = '\x7b') (rest : List Char) :
    (name ++ mark :: rest).span (fun c => c != ']' && c != '\x7b') = (name, mark :: rest) := by
  refine span_mark (fun c hc => ?_) ?_ rest
  · rw [bne_iff_ne.2 (hname c hc).1, bne_iff_ne.2 (hname c hc).2]
    rfl
  · rcases hmark with rfl | rfl <;> rfl

/-- A span without field, and the level behind it. -/
theorem readSpan_name (before : List Char) {span : String}
    (hspan : ∀ c ∈ span.toList, c ≠ ']' ∧ c ≠ '\x7b') (d : Directive) (level : Level) :
    readSpan (before ++ (span.toList ++ ']' :: '=' :: level.name.toList)) d (byteCount before)
      (span.toList ++ ']' :: '=' :: level.name.toList) =
        .ok { d with span := some span, level } := by
  have hend := readEnd_level (before ++ (span.toList ++ [']'])) { d with span := some span } level
  rw [byteCount_append, byteCount_append, List.append_assoc, List.append_assoc] at hend
  rw [readSpan, span_name hspan (Or.inl rfl)]
  simp only [part_append, bind, Except.bind, String.ofList_toList]
  exact hend

/-- A span with a field, and the level behind them. -/
theorem readSpan_field (before : List Char) {name : List Char}
    (hname : ∀ c ∈ name, c ≠ ']' ∧ c ≠ '\x7b') {field : Field} (hfield : field.IsPlain)
    (target : Option String) (level : Level) :
    readSpan (before ++ (name ++ '\x7b' :: (field.written ++ '\x7d' :: ']' :: '=' ::
      level.name.toList))) { target } (byteCount before)
      (name ++ '\x7b' :: (field.written ++ '\x7d' :: ']' :: '=' :: level.name.toList)) =
        .ok { target, field, level
              span := if name.isEmpty then none else some (String.ofList name) } := by
  have hbrace := span_mark (fun c hc => bne_iff_ne.2 (hfield.brace c hc)) (bne_self_eq_false '\x7d')
    (']' :: '=' :: level.name.toList)
  have htext := part_append (before ++ (name ++ ['\x7b'])) field.written
    ('\x7d' :: ']' :: '=' :: level.name.toList)
  have hend := readEnd_level
    (before ++ (name ++ (['\x7b'] ++ (field.written ++ ['\x7d', ']']))))
    { target, field := some field
      span := if name.isEmpty then none else some (String.ofList name) } level
  have hopen : byteCount ['\x7b'] = 1 := rfl
  have hclose : byteCount ['\x7d', ']'] = 2 := rfl
  simp only [byteCount_append, hopen, hclose, ← Nat.add_assoc] at htext hend
  simp only [List.append_assoc, List.cons_append, List.nil_append] at htext hend
  rw [readSpan, span_name hname (Or.inr rfl)]
  simp only [part_append, bind, Except.bind]
  split
  · next heq => cases heq
  · next heq => cases heq
  · next heq =>
    cases heq
    simp only [hbrace, htext, readField_written hfield]
    cases name with
    | nil => exact hend
    | cons c name => exact hend

/-- The span and the field, with the level behind them. -/
theorem readSpan_written (before : List Char) {d : Directive} (h : d.IsPlain)
    (hsome : d.field = none → d.span ≠ none) :
    readSpan (before ++ (d.writtenSpan ++ ']' :: '=' :: d.level.name.toList)) { target := d.target }
      (byteCount before) (d.writtenSpan ++ ']' :: '=' :: d.level.name.toList) = .ok d := by
  obtain ⟨level, target, span, field⟩ := d
  cases field with
  | none =>
    cases span with
    | none => exact (hsome rfl rfl).elim
    | some span =>
      have hread := readSpan_name before (h.span span rfl).1 { target } level
      rwa [← List.append_nil span.toList] at hread
  | some field =>
    have hname : ∀ c ∈ (span.getD "").toList, c ≠ ']' ∧ c ≠ '\x7b' := by
      cases span with
      | none => exact fun c hc => (by cases hc)
      | some span => exact (h.span span rfl).1
    have hread := readSpan_field before hname (h.field field rfl) target level
    have hspan : (if (span.getD "").toList.isEmpty then none
        else some (String.ofList (span.getD "").toList)) = span := by
      cases span with
      | none => rfl
      | some span =>
        have hne : span.toList ≠ [] := fun hnil => by cases (h.span span rfl).2 hnil
        rw [Option.getD_some, if_neg (by rwa [List.isEmpty_iff]), String.ofList_toList]
    rw [hspan] at hread
    have hwritten : writtenSpan { level, target, span, field } ++ ']' :: '=' :: level.name.toList =
        (span.getD "").toList ++ '\x7b' :: (field.written ++ '\x7d' :: ']' :: '=' ::
          level.name.toList) := by
      simp only [writtenSpan, List.append_assoc, List.cons_append, List.nil_append]
    rw [hwritten]
    exact hread

/-! ## Reading directives -/

/-- The numbers of the blanks. -/
def blanks : List Nat :=
  [9, 10, 11, 12, 13, 0x20, 0x85, 0xa0, 0x1680] ++ List.range' 0x2000 11 ++
    [0x2028, 0x2029, 0x202f, 0x205f, 0x3000]

theorem toNat_mem_blanks {c : Char} (h : isBlank c = true) : c.toNat ∈ blanks := by
  simp only [isBlank, Bool.or_eq_true, Bool.and_eq_true, decide_eq_true_eq, beq_iff_eq] at h
  simp only [blanks, List.mem_append, List.mem_cons, List.mem_range'_1, List.not_mem_nil]
  omega

/-- A target starts with no blank. -/
theorem not_isBlank_of_startsTarget {c : Char} (h : startsTarget c = true) : isBlank c = false := by
  have hall : ∀ n ∈ blanks, startsTarget (Char.ofNat n) = false := by decide +kernel
  rw [← Bool.not_eq_true]
  intro hb
  have hc := hall c.toNat (toNat_mem_blanks hb)
  rw [Char.ofNat_toNat, h] at hc
  cases hc

/-- A directive that ends with its level has no blanks at its ends. -/
theorem trim_level {c : Char} (hc : isBlank c = false) (middle : List Char) (level : Level) :
    trim (c :: (middle ++ level.name.toList)) = c :: (middle ++ level.name.toList) := by
  have hlast : ∃ front last, level.name.toList = front ++ [last] ∧ isBlank last = false := by
    cases level with
    | off => exact ⟨"of".toList, 'f', rfl, rfl⟩
    | error => exact ⟨"erro".toList, 'r', rfl, rfl⟩
    | warn => exact ⟨"war".toList, 'n', rfl, rfl⟩
    | info => exact ⟨"inf".toList, 'o', rfl, rfl⟩
    | debug => exact ⟨"debu".toList, 'g', rfl, rfl⟩
    | trace => exact ⟨"trac".toList, 'e', rfl, rfl⟩
  obtain ⟨front, last, hname, hlast⟩ := hlast
  rw [hname, ← List.append_assoc, ← List.cons_append]
  exact trim_of_not_blank hc hlast

/-- A level alone enables it for everything. -/
theorem read_level (level : Level) : read level.name.toList = .ok { level } := by
  cases level <;> rfl

theorem read_bracket (rest : List Char) (level : Level) :
    read ('[' :: (rest ++ level.name.toList)) =
      readSpan ('[' :: (rest ++ level.name.toList)) {} 1 (rest ++ level.name.toList) := by
  rw [read, trim_level rfl]
  rfl

/-- A target and the mark behind it. -/
theorem read_target {target : String} (hmarks : ∀ c ∈ target.toList, c ≠ '=' ∧ c ≠ '[')
    (hfirst : ∃ c rest, target.toList = c :: rest ∧ startsTarget c) {mark : Char}
    (hmark : mark = '=' ∨ mark = '[') (rest : List Char) (level : Level) :
    read (target.toList ++ mark :: (rest ++ level.name.toList)) =
      let whole := target.toList ++ mark :: (rest ++ level.name.toList)
      if mark = '=' then
        readEnd whole { target } (byteCount target.toList) (mark :: (rest ++ level.name.toList))
      else readSpan whole { target } (byteCount target.toList + 1) (rest ++ level.name.toList) := by
  have hspan : (target.toList ++ mark :: (rest ++ level.name.toList)).span
      (fun c => c != '=' && c != '[') = (target.toList, mark :: (rest ++ level.name.toList)) := by
    refine span_mark (fun c hc => ?_) ?_ _
    · rw [bne_iff_ne.2 (hmarks c hc).1, bne_iff_ne.2 (hmarks c hc).2]
      rfl
    · rcases hmark with rfl | rfl <;> rfl
  have hpart := part_append [] target.toList (mark :: (rest ++ level.name.toList))
  rw [List.nil_append, byteCount, Nat.zero_add] at hpart
  obtain ⟨c, more, htarget, hc⟩ := hfirst
  have hbracket : c ≠ '[' := (hmarks c (htarget ▸ List.mem_cons_self ..)).2
  have htrim := trim_level (not_isBlank_of_startsTarget hc) (more ++ mark :: rest) level
  rw [List.append_assoc, List.cons_append, ← List.cons_append, ← htarget] at htrim
  unfold read
  rw [htrim]
  split
  · next heq =>
    rw [htarget] at heq
    cases heq
  · next heq =>
    rw [htarget] at heq
    cases heq
    exact (hbracket rfl).elim
  · next first others _ heq =>
    have hfirst : first = c := by
      rw [htarget] at heq
      exact (List.cons.inj heq).1.symm
    rw [← heq, hfirst, if_pos hc, hspan]
    simp only [hpart, bind, Except.bind, String.ofList_toList]

theorem written_ne_nil (d : Directive) : d.written ≠ [] := by
  unfold written
  split
  · obtain ⟨c, rest, hname, -⟩ := d.level.exists_name_eq_cons
    rw [hname]
    exact List.cons_ne_nil _ _
  · exact List.append_ne_nil_of_right_ne_nil _ (List.cons_ne_nil _ _)
  · exact List.append_ne_nil_of_right_ne_nil _ (List.cons_ne_nil _ _)

theorem written_of_brackets {d : Directive} (h : d.field = none → d.span ≠ none) :
    d.written = (d.target.getD "").toList ++
      '[' :: (d.writtenSpan ++ ']' :: '=' :: d.level.name.toList) := by
  obtain ⟨level, target, span, field⟩ := d
  cases field with
  | none =>
    cases span with
    | none => exact (h rfl rfl).elim
    | some span => cases target <;> rfl
  | some field => cases target <;> cases span <;> rfl

/-- A directive reads back from what is written. -/
theorem read_written {d : Directive} (h : d.IsPlain) : read d.written = .ok d := by
  by_cases hbrackets : d.field = none → d.span ≠ none
  · have hassoc : d.writtenSpan ++ ']' :: '=' :: d.level.name.toList =
        d.writtenSpan ++ [']', '='] ++ d.level.name.toList := by
      rw [List.append_assoc]
      rfl
    rw [written_of_brackets hbrackets]
    cases htarget : d.target with
    | none =>
      have hread := readSpan_written ['['] h hbrackets
      rw [htarget] at hread
      show read ('[' :: (d.writtenSpan ++ ']' :: '=' :: d.level.name.toList)) = _
      rw [hassoc, read_bracket, ← hassoc]
      exact hread
    | some target =>
      have hread := readSpan_written (target.toList ++ ['[']) h hbrackets
      rw [byteCount_append, List.append_assoc, htarget] at hread
      obtain ⟨hmarks, hfirst⟩ := h.target target htarget
      rw [Option.getD_some, hassoc, read_target hmarks hfirst (Or.inr rfl), ← hassoc]
      exact hread
  · obtain ⟨hfield, hspan⟩ := Classical.not_imp.1 hbrackets
    obtain ⟨level, target, span, field⟩ := d
    cases hfield
    cases not_not.1 hspan
    cases target with
    | none => exact read_level level
    | some target =>
      obtain ⟨hmarks, hfirst⟩ := h.target target rfl
      exact (read_target hmarks hfirst (Or.inl rfl) [] level).trans
        (readEnd_level target.toList { target } level)

example : read "db[query\x7bkind=read\x7d]=debug".toList =
    .ok { level := .debug, target := some "db", span := some "query"
          field := some { name := "kind", value := some "read" } } := by decide

end Directive
end ArrayStore.Log
