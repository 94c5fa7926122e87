import ArrayStore.Proofs.ListLiteral.Nested

/-!
# Literals with all control characters escaped

Other writers escape every control character, by a letter or by its two hexadecimal digits. The
reader knows the letters of the line feed and the tab alone.

* `isControl`, `isLost` : the control characters, and those whose escapes the reader does not know;
* `escapeAll`, `quoteAll`, `renderAll` : a list of texts, some of them absent, with all of them
  escaped;
* `asRead` : what the reader makes of a character; `readQuoted_escapeAll` : so it does;
* `flatMap_asRead_eq_iff` : a text comes back just if none of its characters is lost;
* `parse_renderAll` : what a whole list reads back as, and when that is the list;
* `exists_parse_renderAll_ne` : a carriage return comes back as a letter.
-/

namespace ArrayStore.ListLiteral
open Text

/-! ## Writing -/

/-- The code points with the property `Control`. -/
def isControl (c : Char) : Bool := c.toNat < 0x20 || (0x7f ≤ c.toNat && c.toNat ≤ 0x9f)

/-- A control character other than a line feed and a tab. -/
def isLost (c : Char) : Bool := isControl c && c != '\n' && c != '\t'

/-- The letter and the two digits that name a control character behind a backslash. -/
def controlName (c : Char) : List Char :=
  ['x', Nat.digitChar (c.toNat / 16), Nat.digitChar (c.toNat % 16)]

/-- A character between quotes, with all control characters escaped. -/
def escapeAll (delimiter c : Char) : List Char :=
  if c = '\\' then ['\\', '\\']
  else if c = delimiter then ['\\', c]
  else if c = '\n' then ['\\', 'n']
  else if c = '\r' then ['\\', 'r']
  else if c = '\t' then ['\\', 't']
  else if isControl c then '\\' :: controlName c
  else [c]

def quoteAll (text : List Char) : List Char :=
  let delimiter := delimiterOf text
  delimiter :: text.flatMap (escapeAll delimiter) ++ [delimiter]

def writeItem : Option String → List Char
  | none => "None".toList
  | some text => quoteAll text.toList

/-- The literal of texts, some of them absent. -/
def renderAll (items : List (Option String)) : String :=
  String.ofList (bracket (items.map writeItem))

/-! ## Reading -/

/-- What the reader makes of an escaped character: it drops the backslash of an escape that it does
not know. -/
def asRead (c : Char) : List Char :=
  if c = '\r' then ['r'] else if isLost c then controlName c else [c]

theorem asRead_of_not_isLost {c : Char} (h : isLost c = false) : asRead c = [c] := by
  unfold asRead
  have hr : c ≠ '\r' := by
    rintro rfl
    exact absurd h (by decide)
  rw [if_neg hr, h]
  rfl

theorem lt_of_isControl {c : Char} (h : isControl c = true) : c.toNat / 16 < 16 := by
  simp only [isControl, Bool.or_eq_true, Bool.and_eq_true, decide_eq_true_eq] at h
  omega

/-- A hexadecimal digit is read as it stands. -/
theorem readQuoted_digit {delimiter : Char} (h : isQuote delimiter = true) {n : Nat} (hn : n < 16)
    (rest : List Char) :
    readQuoted delimiter (Nat.digitChar n :: rest) =
      (readQuoted delimiter rest).map fun read => (Nat.digitChar n :: read.1, read.2) := by
  have hdigit : ∀ n < 16, Nat.digitChar n ≠ '\\' ∧ isQuote (Nat.digitChar n) = false := by decide
  obtain ⟨hb, hq⟩ := hdigit n hn
  apply readQuoted_cons hb
  rintro rfl
  rw [h] at hq
  cases hq

theorem readQuoted_controlName {delimiter : Char} (h : isQuote delimiter = true) {c : Char}
    (hc : isControl c = true) (rest : List Char) :
    readQuoted delimiter ('\\' :: controlName c ++ rest) =
      (readQuoted delimiter rest).map fun read => (controlName c ++ read.1, read.2) := by
  have hlow : c.toNat % 16 < 16 := Nat.mod_lt _ (by decide)
  show readQuoted delimiter ('\\' :: 'x' :: _ :: _ :: rest) = _
  rw [readQuoted_backslash, readQuoted_digit h (lt_of_isControl hc), readQuoted_digit h hlow,
    Option.map_map, Option.map_map]
  rfl

theorem readQuoted_escapeAll {delimiter : Char} (h : isQuote delimiter = true) (c : Char)
    (rest : List Char) :
    readQuoted delimiter (escapeAll delimiter c ++ rest) =
      (readQuoted delimiter rest).map fun read => (asRead c ++ read.1, read.2) := by
  unfold escapeAll
  split_ifs with hb hd hn hr ht hc
  · subst hb
    exact readQuoted_backslash delimiter '\\' rest
  · subst hd
    have hlost : isLost c = false := by
      rcases isQuote_iff.1 h with rfl | rfl <;> decide
    rw [asRead_of_not_isLost hlost, List.cons_append, List.singleton_append, readQuoted_backslash,
      unescape_of_isQuote h]
    rfl
  · subst hn
    exact readQuoted_backslash delimiter 'n' rest
  · subst hr
    exact readQuoted_backslash delimiter 'r' rest
  · subst ht
    exact readQuoted_backslash delimiter 't' rest
  · have hlost : isLost c = true := by simp [isLost, hc, hn, ht]
    have hread : asRead c = controlName c := by
      unfold asRead
      rw [if_neg hr, if_pos hlost]
    rw [hread]
    exact readQuoted_controlName h hc rest
  · have hlost : isLost c = false := by simp [isLost, hc]
    rw [asRead_of_not_isLost hlost]
    exact readQuoted_cons hb hd rest

theorem readQuoted_allEscaped {delimiter : Char} (h : isQuote delimiter = true)
    (text rest : List Char) :
    readQuoted delimiter (text.flatMap (escapeAll delimiter) ++ delimiter :: rest) =
      some (text.flatMap asRead, rest) := by
  induction text with
  | nil => exact readQuoted_delimiter (ne_backslash_of_isQuote h) rest
  | cons c text ih =>
    rw [List.flatMap_cons, List.append_assoc, readQuoted_escapeAll h, ih, Option.map_some,
      List.flatMap_cons]

/-! ## What comes back -/

/-- What is read back holds no character that would be lost. -/
theorem isLost_of_mem_asRead {c d : Char} (hd : d ∈ asRead c) : isLost d = false := by
  unfold asRead at hd
  split_ifs at hd with hr hc
  · rw [List.mem_singleton.1 hd]
    decide
  · have hdigit : ∀ n < 16, isLost (Nat.digitChar n) = false := by decide
    have hcontrol : isControl c = true := by
      simp only [isLost, Bool.and_eq_true] at hc
      exact hc.1.1
    simp only [controlName, List.mem_cons, List.not_mem_nil, or_false] at hd
    rcases hd with rfl | rfl | rfl
    · decide
    · exact hdigit _ (lt_of_isControl hcontrol)
    · exact hdigit _ (Nat.mod_lt _ (by decide))
  · rw [List.mem_singleton.1 hd]
    simpa using hc

theorem flatMap_asRead_eq_iff (text : List Char) :
    text.flatMap asRead = text ↔ ∀ c ∈ text, isLost c = false := by
  constructor
  · intro h c hc
    rw [← h] at hc
    obtain ⟨d, -, hd⟩ := List.mem_flatMap.1 hc
    exact isLost_of_mem_asRead hd
  · intro h
    induction text with
    | nil => rfl
    | cons c text ih =>
      obtain ⟨hc, h⟩ := List.forall_mem_cons.1 h
      rw [List.flatMap_cons, asRead_of_not_isLost hc, ih h]
      rfl

/-! ## Whole lists -/

/-- The entry that an item is read as. -/
def itemAsRead : Option String → Entry
  | none => .bare "None".toList
  | some text => .quoted (text.toList.flatMap asRead)

theorem readsAs_writeItem (item : Option String) : ReadsAs (writeItem item) (itemAsRead item) := by
  cases item with
  | none => exact readsAs_none
  | some text =>
    have h := isQuote_delimiterOf text.toList
    exact readsAs_of_readQuoted h (readQuoted_allEscaped h text.toList)

/-- What a text comes back as. -/
def textAsRead (text : String) : String := String.ofList (text.toList.flatMap asRead)

theorem textAsRead_eq_iff (text : String) :
    textAsRead text = text ↔ ∀ c ∈ text.toList, isLost c = false := by
  rw [← flatMap_asRead_eq_iff, ← String.toList_inj, textAsRead, String.toList_ofList]

theorem text?_itemAsRead (item : Option String) :
    (itemAsRead item).text? = item.map textAsRead := by
  cases item with
  | none => rfl
  | some text => rfl

/-- A list with all control characters escaped is read as a list of as many items, absent where they
are. Its texts come back just if they hold no control characters but line feeds and tabs. -/
theorem parse_renderAll (items : List (Option String)) :
    parse (renderAll items) = some (items.map (Option.map textAsRead)) ∧
      (parse (renderAll items) = some items ↔
        ∀ text, some text ∈ items → ∀ c ∈ text.toList, isLost c = false) := by
  have hread : parse (renderAll items) = some (items.map (Option.map textAsRead)) := by
    have hitems : List.Forall₂ ReadsAs (items.map writeItem) (items.map itemAsRead) := by
      rw [List.forall₂_map_left_iff, List.forall₂_map_right_iff, List.forall₂_same]
      exact fun item _ => readsAs_writeItem item
    unfold renderAll
    rw [parse_bracket hitems, List.map_map]
    congr 1
    apply List.map_congr_left
    intro item _
    exact text?_itemAsRead item
  refine ⟨hread, ?_⟩
  have hsame : items.map (Option.map textAsRead) = items ↔
      ∀ item ∈ items, item.map textAsRead = item := by
    simpa using List.map_inj_left (l := items) (f := Option.map textAsRead) (g := id)
  rw [hread, Option.some.injEq, hsame]
  constructor
  · intro h text ht
    exact (textAsRead_eq_iff text).1 (Option.some.inj (h _ ht))
  · intro h item hitem
    cases item with
    | none => rfl
    | some text => exact congrArg some ((textAsRead_eq_iff text).2 (h text hitem))

/-- The backslash of a carriage return is dropped, and so is that of the escape character. -/
theorem exists_parse_renderAll_ne :
    ∃ items, renderAll items = "['\\r', None, '\\x1b']" ∧
      parse (renderAll items) = some [some "r", none, some "x1b"] ∧
      parse (renderAll items) ≠ some items := by
  have hread : parse (renderAll [some "\r", none, some "\x1b"]) =
      some [some "r", none, some "x1b"] := by decide +kernel
  refine ⟨[some "\r", none, some "\x1b"], by decide, hread, ?_⟩
  rw [hread]
  decide

end ArrayStore.ListLiteral
