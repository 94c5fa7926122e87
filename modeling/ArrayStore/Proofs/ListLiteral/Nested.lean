import ArrayStore.Proofs.ListLiteral.Depth
import ArrayStore.Proofs.ListLiteral.Items

/-!
# Lists within lists

The reader takes an inner list as a bare token: it counts brackets, those between quotes too, and
stops at the first comma outside of them.

* `Element`, `renderNested` : an element of a list and the literal of several, `Element.value` the
  element as it is listed;
* `TakenWhole` : the brackets of no inner list mislead the reader; `StaysInside` : the texts of an
  inner list for which this is so;
* `readTexts_render_iff` : what the reader does with one inner list;
* `parse_renderNested` : the literal is read back exactly if all inner lists are taken whole;
* `exists_parse_renderNested_ne` : a closing bracket in a text ends an inner list too early.
-/

namespace ArrayStore.ListLiteral
open Text

/-! ## Elements -/

/-- An element of a list: a text, none, or a list of texts. -/
inductive Element where
  | single (text : String)
  | absent
  | list (texts : List String)
  deriving DecidableEq, Repr

def Element.written : Element → List Char
  | .single text => quote text.toList
  | .absent => "None".toList
  | .list texts => (render texts).toList

/-- The element as it is listed: an inner list as its literal. -/
def Element.value : Element → Option String
  | .single text => some text
  | .absent => none
  | .list texts => some (render texts)

/-- The literal of elements. -/
def renderNested (elements : List Element) : String :=
  String.ofList (bracket (elements.map Element.written))

/-! ## Inner lists -/

/-- Counting brackets, the reader takes the element whole. Behind the last element no comma has to
be found, so there the depth does not matter. -/
def Element.IsTakenWhole (isLast : Prop) : Element → Prop
  | .list texts => EnclosesCommas 0 (render texts).toList ∧
      (¬isLast → depthBehind 0 (render texts).toList = 0)
  | _ => True

def TakenWhole : List Element → Prop
  | [] => True
  | element :: elements => element.IsTakenWhole (elements = []) ∧ TakenWhole elements

/-- Within a bracket, the text leaves that bracket open, and no comma of it stands outside. -/
def StaysInside (text : String) : Prop := Passes 1 text.toList 1

theorem toList_render (texts : List String) :
    (render texts).toList = '[' :: (join (texts.map fun text => quote text.toList) ++ [']']) := by
  unfold render bracket
  rw [String.toList_ofList]
  rfl

theorem passes_render {texts : List String} (h : ∀ text ∈ texts, StaysInside text) :
    Passes 0 (render texts).toList 0 := by
  have hjoin : Passes 1 (join (texts.map fun text => quote text.toList)) 1 :=
    passes_join (List.forall_mem_map.2 fun text ht => (h text ht).quote)
  have hclose : Passes 1 [']'] 0 := passes_cons.2 ⟨fun _ => Nat.one_pos, passes_nil 0⟩
  rw [toList_render]
  exact passes_cons.2 ⟨fun hc => absurd hc (by decide), hjoin.append hclose⟩

theorem takenWhole_of_staysInside {elements : List Element}
    (h : ∀ texts, .list texts ∈ elements → ∀ text ∈ texts, StaysInside text) :
    TakenWhole elements := by
  induction elements with
  | nil => trivial
  | cons element elements ih =>
    refine ⟨?_, ih fun texts ht => h texts (List.mem_cons_of_mem _ ht)⟩
    cases element with
    | single | absent => trivial
    | list texts =>
      obtain ⟨henc, hdepth⟩ := passes_render (h texts (List.mem_cons_self ..))
      exact ⟨henc, fun _ => hdepth⟩

/-! ## Reading -/

/-- The texts of the entries between brackets. -/
def readTexts (s : List Char) : Option (List (Option String)) :=
  (readEntries s).map fun entries => entries.map Entry.text?

/-- What stands behind the first of several written entries. -/
def behind : List (List Char) → List Char
  | [] => []
  | entry :: entries => ',' :: ' ' :: join (entry :: entries)

theorem join_cons (entry : List Char) (others : List (List Char)) :
    join (entry :: others) = entry ++ behind others := by
  cases others with
  | nil => exact (List.append_nil entry).symm
  | cons second others =>
    rw [join]
    · rw [List.append_assoc]
      rfl
    · exact List.cons_ne_nil second others

theorem closes_behind (others : List (List Char)) : Closes (behind others) := by
  cases others with
  | nil => exact Or.inl rfl
  | cons second others => exact Or.inr ⟨_, rfl⟩

theorem behind_eq_nil_iff {others : List (List Char)} : behind others = [] ↔ others = [] := by
  cases others with
  | nil => exact ⟨fun _ => rfl, fun _ => rfl⟩
  | cons => exact ⟨fun h => (List.cons_ne_nil _ _ h).elim, fun h => (List.cons_ne_nil _ _ h).elim⟩

theorem parse_bracket_eq (written : List (List Char)) :
    parse (String.ofList (bracket written)) = readTexts (join written) := by
  unfold parse entries? readTexts
  rw [String.toList_ofList, inner?_bracket, Option.bind_some]

section First
variable {c : Char} {tail : List Char} {others : List (List Char)} {entry : Entry}

/-- An entry that is read up to the comma is the first of the texts. -/
theorem readTexts_of_readEntry (hc : isBlank c = false)
    (hr : readEntry c tail = some (entry, behind others)) :
    readTexts (c :: tail) = (readTexts (join others)).map (entry.text? :: ·) := by
  unfold readTexts
  rw [readEntries_eq, trimLeft_cons_of_not_blank hc]
  simp only [hr, Option.bind_some, (closes_behind others).trimLeft_eq]
  cases others with
  | nil =>
    rw [join, readEntries_nil]
    rfl
  | cons second others =>
    simp only [behind, if_true, readEntries_cons_of_blank (show isBlank ' ' = true by decide),
      Option.map_map]
    rfl

theorem ReadsAs.readTexts_append {written : List Char} (h : ReadsAs written entry)
    (others : List (List Char)) :
    readTexts (written ++ behind others) = (readTexts (join others)).map (entry.text? :: ·) := by
  obtain ⟨c, tail, rfl, hc, hr⟩ := h
  exact readTexts_of_readEntry hc (hr _ (closes_behind others))

/-- The first text is that of the first entry, whatever is read behind it. -/
theorem exists_readEntry_of_readTexts {first : Option String} {texts : List (Option String)}
    (hc : isBlank c = false) (h : readTexts (c :: tail) = some (first :: texts)) :
    ∃ entry after, readEntry c tail = some (entry, after) ∧ entry.text? = first := by
  obtain ⟨entries, he, ht⟩ := Option.map_eq_some_iff.1 h
  rw [readEntries_eq, trimLeft_cons_of_not_blank hc] at he
  obtain ⟨⟨entry, after⟩, hr, he⟩ := Option.bind_eq_some_iff.1 he
  refine ⟨entry, after, hr, ?_⟩
  split at he
  · cases he
    exact (List.cons.inj ht).1
  · split at he
    · obtain ⟨more, -, rfl⟩ := Option.map_eq_some_iff.1 he
      exact (List.cons.inj ht).1
    · cases he

end First

theorem exists_trimRight_append_blanks (s : List Char) :
    ∃ b : Blanks, trimRight s ++ b.chars = s := by
  obtain ⟨b, hb⟩ := exists_blanks_append_trimLeft s.reverse
  refine ⟨b.reverse, List.reverse_injective ?_⟩
  rw [List.reverse_append, Blanks.reverse, List.reverse_reverse, ← hb]
  show _ ++ (trimLeft s.reverse).reverse.reverse = _
  rw [List.reverse_reverse]

/-- A bare token that is listed as a text ends where the text does. -/
theorem eq_of_readBare_of_trimRight {token rest s after : List Char} (hcl : Closes rest)
    (ha : Closes after) (happ : token ++ rest = s ++ after) (ht : trimRight token = s) :
    token = s ∧ rest = after := by
  obtain ⟨b, hb⟩ := exists_trimRight_append_blanks token
  rw [ht] at hb
  subst hb
  rw [List.append_assoc, List.append_cancel_left_eq] at happ
  have hrest : rest = after := by
    rw [← hcl.trimLeft_eq, ← b.trimLeft_append, happ, ha.trimLeft_eq]
  subst hrest
  have hnil : b.chars = [] := List.append_left_eq_self.1 happ
  rw [hnil, List.append_nil]
  exact ⟨rfl, rfl⟩

theorem eq_toList_of_text? {token : List Char} {text : String}
    (h : Entry.text? (.bare token) = some text) : token = text.toList := by
  have h : (if token = "None".toList then none else some (String.ofList token)) = some text := h
  split at h
  · cases h
  · cases h
    exact String.toList_ofList.symm

theorem readEntry_of_not_isQuote {c : Char} (h : isQuote c = false) (tail : List Char) :
    readEntry c tail =
      some (.bare (trimRight (readBare 0 (c :: tail)).1), (readBare 0 (c :: tail)).2) := by
  unfold readEntry
  rw [if_neg (by rw [h]; exact Bool.false_ne_true)]

theorem readsAs_none : ReadsAs "None".toList (.bare "None".toList) := by
  have hnone : Passes 0 "None".toList 0 := by
    show Passes 0 ['N', 'o', 'n', 'e'] 0
    simp [passes_cons, passes_nil, depthAfter]
  refine ⟨'N', ['o', 'n', 'e'], rfl, by decide, fun rest hrest => ?_⟩
  rw [readEntry_of_not_isQuote (by decide), ← List.cons_append,
    show 'N' :: ['o', 'n', 'e'] = "None".toList from rfl,
    readBare_append hnone.1 hrest fun _ => hnone.2]
  rfl

section Inner
variable (texts : List String) (others : List (List Char))

theorem trimRight_render : trimRight (render texts).toList = (render texts).toList := by
  rw [toList_render, ← List.cons_append]
  exact trimRight_append_of_not_blank (by decide)

theorem render_ne_none : (render texts).toList ≠ "None".toList := by
  rw [toList_render]
  intro h
  cases h

/-- The bare token of an inner list is its literal exactly if the list is taken whole. -/
theorem readBare_render_iff :
    readBare 0 ((render texts).toList ++ behind others) = ((render texts).toList, behind others) ↔
      (Element.list texts).IsTakenWhole (others = []) := by
  have hne : behind others ≠ [] ↔ ¬others = [] := not_congr behind_eq_nil_iff
  constructor
  · intro h
    obtain ⟨-, henc, -, hdepth⟩ := readBare_eq h
    exact ⟨henc, fun ho => hdepth (hne.2 ho)⟩
  · rintro ⟨henc, hdepth⟩
    exact readBare_append henc (closes_behind others) fun hb => hdepth (hne.1 hb)

theorem readEntry_render :
    readEntry '[' (join (texts.map fun text => quote text.toList) ++ [']'] ++ behind others) =
      some (.bare (trimRight (readBare 0 ((render texts).toList ++ behind others)).1),
        (readBare 0 ((render texts).toList ++ behind others)).2) := by
  rw [toList_render]
  exact readEntry_of_not_isQuote (by decide) _

theorem readTexts_of_readBare
    (h : readBare 0 ((render texts).toList ++ behind others) =
      ((render texts).toList, behind others)) :
    readTexts ((render texts).toList ++ behind others) =
      (readTexts (join others)).map (some (render texts) :: ·) := by
  have hr := readEntry_render texts others
  have htext : Entry.text? (.bare (render texts).toList) = some (render texts) := by
    show (if _ then none else _) = _
    rw [if_neg (render_ne_none texts), String.ofList_toList]
  rw [h, trimRight_render] at hr
  rw [toList_render, List.cons_append, readTexts_of_readEntry (by decide) hr, htext]

/-- If the literal is listed, it is the bare token that was read. -/
theorem readBare_of_readTexts {values : List (Option String)}
    (h : readTexts ((render texts).toList ++ behind others) =
      some (some (render texts) :: values)) :
    readBare 0 ((render texts).toList ++ behind others) =
      ((render texts).toList, behind others) := by
  rw [toList_render, List.cons_append] at h
  obtain ⟨entry, after, hr, hentry⟩ := exists_readEntry_of_readTexts (by decide) h
  rw [readEntry_render] at hr
  cases hr
  cases hread : readBare 0 ((render texts).toList ++ behind others) with
  | mk token rest =>
    obtain ⟨happ, -, hclosed, -⟩ := readBare_eq hread
    rw [hread] at hentry
    have htoken : trimRight token = (render texts).toList := eq_toList_of_text? hentry
    obtain ⟨rfl, rfl⟩ :=
      eq_of_readBare_of_trimRight hclosed (closes_behind others) happ htoken
    rfl

/-- An inner list is listed as its literal exactly if the reader takes it whole. -/
theorem readTexts_render_iff {values : List (Option String)} :
    readTexts ((render texts).toList ++ behind others) = some (some (render texts) :: values) ↔
      (Element.list texts).IsTakenWhole (others = []) ∧ readTexts (join others) = some values := by
  rw [← readBare_render_iff]
  constructor
  · intro h
    have hread := readBare_of_readTexts texts others h
    rw [readTexts_of_readBare texts others hread] at h
    obtain ⟨read, hr, he⟩ := Option.map_eq_some_iff.1 h
    obtain ⟨-, rfl⟩ := List.cons.inj he
    exact ⟨hread, hr⟩
  · rintro ⟨hread, hvalues⟩
    rw [readTexts_of_readBare texts others hread, hvalues, Option.map_some]

end Inner

/-! ## Whole literals -/

theorem ReadsAs.readTexts_append_iff {written : List Char} {entry : Entry}
    (h : ReadsAs written entry) (others : List (List Char)) {values : List (Option String)} :
    readTexts (written ++ behind others) = some (entry.text? :: values) ↔
      readTexts (join others) = some values := by
  rw [h.readTexts_append, Option.map_eq_some_iff]
  constructor
  · rintro ⟨read, hr, he⟩
    rw [hr, (List.cons.inj he).2]
  · intro hr
    exact ⟨values, hr, rfl⟩

theorem Element.readTexts_written_iff (element : Element) (others : List (List Char))
    {values : List (Option String)} :
    readTexts (element.written ++ behind others) = some (element.value :: values) ↔
      element.IsTakenWhole (others = []) ∧ readTexts (join others) = some values := by
  cases element with
  | single text =>
    have hvalue : Entry.text? (.quoted text.toList) = some text := by
      rw [Entry.text?, String.ofList_toList]
    rw [written, value, ← hvalue, (readsAs_quote text.toList).readTexts_append_iff]
    exact (Iff.of_eq (true_and _)).symm
  | absent => exact (readsAs_none.readTexts_append_iff others).trans (Iff.of_eq (true_and _)).symm
  | list texts => exact readTexts_render_iff texts others

theorem readTexts_join_iff (elements : List Element) :
    readTexts (join (elements.map Element.written)) = some (elements.map Element.value) ↔
      TakenWhole elements := by
  induction elements with
  | nil =>
    rw [List.map_nil, join, readTexts, readEntries_nil]
    exact ⟨fun _ => trivial, fun _ => rfl⟩
  | cons element elements ih =>
    rw [List.map_cons, List.map_cons, join_cons, element.readTexts_written_iff, ih,
      List.map_eq_nil_iff]
    rfl

/-- Elements are read back, an inner list as its literal, exactly if the brackets of no inner list
mislead the reader. They do not, if every text in an inner list stays inside. -/
theorem parse_renderNested (elements : List Element) :
    (parse (renderNested elements) = some (elements.map Element.value) ↔ TakenWhole elements) ∧
      ((∀ texts, .list texts ∈ elements → ∀ text ∈ texts, StaysInside text) →
        parse (renderNested elements) = some (elements.map Element.value)) := by
  have h : parse (renderNested elements) = some (elements.map Element.value) ↔
      TakenWhole elements := by
    unfold renderNested
    rw [parse_bracket_eq, readTexts_join_iff]
  exact ⟨h, fun hstays => h.2 (takenWhole_of_staysInside hstays)⟩

/-- Texts with brackets and commas, in an inner list and beside it. -/
def bracketedUnits : List Element :=
  [.single "it's]", .list ["[a.u.]", "(V, A)"], .absent, .list []]

theorem parse_renderNested_bracketedUnits :
    (∀ texts, .list texts ∈ bracketedUnits → ∀ text ∈ texts, StaysInside text) ∧
      parse (renderNested bracketedUnits) =
        some [some "it's]", some "['[a.u.]', '(V, A)']", none, some "[]"] := by
  have hstays : ∀ texts, .list texts ∈ bracketedUnits → ∀ text ∈ texts, StaysInside text := by
    intro texts h
    simp only [bracketedUnits, List.mem_cons, reduceCtorEq, Element.list.injEq, List.not_mem_nil,
      false_or, or_false] at h
    rcases h with rfl | rfl
    · simp [StaysInside, passes_cons, passes_nil, depthAfter]
    · exact fun _ ht => (List.not_mem_nil ht).elim
  exact ⟨hstays, (parse_renderNested bracketedUnits).2 hstays⟩

/-- The bracket in the first text is taken for the end of the inner list, and then its comma for
the end of the entry. -/
theorem exists_parse_renderNested_ne :
    ∃ elements, renderNested elements = "[['a]', 'b']]" ∧
      elements.map Element.value = [some "['a]', 'b']"] ∧
      parse (renderNested elements) = none := by
  refine ⟨[.list ["a]", "b"]], by decide, by decide, by decide +kernel⟩

end ArrayStore.ListLiteral
