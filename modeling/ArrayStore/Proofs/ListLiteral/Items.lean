import ArrayStore.Proofs.ListLiteral.Parts

/-!
# What stands between the brackets, read and derived

* `Item.entry` : what the reader gives for an item;
* `Item.EndsBefore` : an item may end before a text, the end or a comma;
* `Item.EndsBefore.readEntry_eq`, `exists_item_of_readEntry` : an entry is read exactly where an
  item is derived;
* `readEntries_written`, `exists_items_of_readEntries` : the same for all entries.
-/

namespace ArrayStore.ListLiteral
open Text

theorem Closes.trimLeft_eq {rest : List Char} (h : Closes rest) : trimLeft rest = rest := by
  rcases h with rfl | ⟨tail, rfl⟩
  · rfl
  · exact trimLeft_cons_of_not_blank (by decide)

/-! ## Entries -/

namespace Item

/-- What the reader gives for an item. -/
def entry : Item → Entry
  | .quoted _ q _ => .quoted q.text
  | .bare _ token => .bare token.text

theorem text?_entry (item : Item) : item.entry.text? = item.value := by
  cases item with
  | quoted before q after => rfl
  | bare before token =>
    show (if token.text = "None".toList then none else some (String.ofList token.text)) = _
    simp only [value, ← String.toList_inj, String.toList_ofList]

/-- The item may end before this text. -/
def EndsBefore (item : Item) : List Char → Prop
  | [] => item.EndsAtEnd
  | c :: _ => c = ',' ∧ item.EndsAtComma

theorem endsBefore_nil {item : Item} (h : item.EndsAtEnd) : item.EndsBefore [] := h

theorem endsBefore_comma {item : Item} (h : item.EndsAtComma) (rest : List Char) :
    item.EndsBefore (',' :: rest) := ⟨rfl, h⟩

theorem EndsBefore.closes {item : Item} {rest : List Char} (h : item.EndsBefore rest) :
    Closes rest := by
  cases rest with
  | nil => exact Or.inl rfl
  | cons c tail => exact Or.inr ⟨tail, by rw [h.1]⟩

def before : Item → Blanks
  | .quoted before _ _ => before
  | .bare before _ => before

/-- The item without the blanks before it. -/
def body : Item → List Char
  | .quoted _ q after => q.written ++ after.chars
  | .bare _ token => token.chars

theorem written_eq (item : Item) : item.written = item.before.chars ++ item.body := by
  cases item with
  | quoted before q after => exact List.append_assoc _ _ _
  | bare before token => rfl

/-- A bare token, or the comma behind an empty one, starts with no quote. -/
theorem EndsBefore.exists_cons_of_bare {before : Blanks} {token : BareToken} {rest : List Char}
    (h : (Item.bare before token).EndsBefore rest) :
    ∃ c tail, token.chars ++ rest = c :: tail ∧ isBlank c = false ∧ isQuote c = false := by
  cases hc : token.chars with
  | nil =>
    cases rest with
    | nil => exact (h hc).elim
    | cons c tail =>
      obtain ⟨rfl, -⟩ := h
      exact ⟨',', tail, rfl, by decide, by decide⟩
  | cons c chars =>
    obtain ⟨hb, ha, hq⟩ := token.start c (by rw [hc]; rfl)
    exact ⟨c, chars ++ rest, rfl, hb, by simp [isQuote, ha, hq]⟩

theorem EndsBefore.depthBehind_eq {before : Blanks} {token : BareToken} {rest : List Char}
    (h : (Item.bare before token).EndsBefore rest) (hr : rest ≠ []) :
    depthBehind 0 token.chars = 0 := by
  cases rest with
  | nil => exact (hr rfl).elim
  | cons c tail => exact h.2

theorem EndsBefore.readBare_eq {before : Blanks} {token : BareToken} {rest : List Char}
    (h : (Item.bare before token).EndsBefore rest) :
    readBare 0 (token.chars ++ rest) = (token.chars, rest) :=
  readBare_append token.enclosesCommas h.closes h.depthBehind_eq

end Item

/-- The reader takes an item up to the text that ends it. -/
theorem Item.EndsBefore.readEntry_eq {item : Item} {rest : List Char} (h : item.EndsBefore rest) :
    ∃ c tail after, item.body ++ rest = c :: tail ∧ isBlank c = false ∧
      readEntry c tail = some (item.entry, after) ∧ trimLeft after = rest := by
  cases item with
  | quoted before q after =>
    refine ⟨q.delimiter, q.pieces.flatMap Piece.written ++ q.delimiter :: (after.chars ++ rest),
      after.chars ++ rest, ?_, isBlank_of_isQuote q.isQuote, ?_, ?_⟩
    · simp [Item.body, QuotedText.written]
    · unfold readEntry
      rw [if_pos q.isQuote, readQuoted_pieces (ne_backslash_of_isQuote q.isQuote)]
      rfl
    · rw [after.trimLeft_append, h.closes.trimLeft_eq]
  | bare before token =>
    obtain ⟨c, tail, hct, hb, hq⟩ := h.exists_cons_of_bare
    refine ⟨c, tail, rest, hct, hb, ?_, h.closes.trimLeft_eq⟩
    unfold readEntry
    rw [hq, ← hct, h.readBare_eq]
    rfl

section Read
variable {tail after : List Char} {c : Char}

theorem exists_item_of_readQuoted {text : List Char} (before : Blanks) (hq : isQuote c = true)
    (h : readQuoted c tail = some (text, after)) :
    ∃ item : Item, item.entry = .quoted text ∧
      item.written ++ trimLeft after = before.chars ++ c :: tail ∧
      item.EndsAtEnd ∧ item.EndsAtComma := by
  obtain ⟨pieces, rfl, rfl⟩ := exists_pieces_of_readQuoted h
  obtain ⟨behind, hbehind⟩ := exists_blanks_append_trimLeft after
  refine ⟨.quoted before ⟨c, isQuote_iff.1 hq, pieces⟩ behind, rfl, ?_, trivial, trivial⟩
  simp [Item.written, QuotedText.written, hbehind]

theorem exists_item_of_readBare {chars : List Char} (before : Blanks) (hb : isBlank c = false)
    (hq : ¬isQuote c = true) (h : readBare 0 (c :: tail) = (chars, after)) :
    ∃ item : Item, item.entry = .bare (trimRight chars) ∧
      item.written ++ trimLeft after = before.chars ++ c :: tail ∧
      (trimLeft after = [] → item.EndsAtEnd) ∧ (trimLeft after ≠ [] → item.EndsAtComma) := by
  obtain ⟨happ, henc, hcl, hd⟩ := readBare_eq h
  rw [hcl.trimLeft_eq]
  refine ⟨.bare before (.ofStart hb hq happ henc), rfl, ?_, fun ha => ?_, hd⟩
  · rw [Item.written, List.append_assoc, ← happ]
    rfl
  · rw [ha, List.append_nil] at happ
    show chars ≠ []
    rw [happ]
    exact List.cons_ne_nil c tail

/-- What the reader takes as an entry is an item, ended by what follows. -/
theorem exists_item_of_readEntry {s : List Char} {entry : Entry} (hs : trimLeft s = c :: tail)
    (h : readEntry c tail = some (entry, after)) :
    ∃ item : Item, item.entry = entry ∧ item.written ++ trimLeft after = s ∧
      (trimLeft after = [] → item.EndsAtEnd) ∧ (trimLeft after ≠ [] → item.EndsAtComma) := by
  obtain ⟨before, hbefore⟩ := exists_blanks_append_trimLeft s
  rw [← hbefore, hs]
  unfold readEntry at h
  split at h
  · next hq =>
    obtain ⟨⟨text, rest⟩, hr, he⟩ := Option.map_eq_some_iff.1 h
    cases he
    obtain ⟨item, he, hw, hend, hcomma⟩ := exists_item_of_readQuoted before hq hr
    exact ⟨item, he, hw, fun _ => hend, fun _ => hcomma⟩
  · next hq =>
    obtain ⟨he, hr⟩ := Prod.mk.inj (Option.some.inj h)
    rw [← he, ← hr]
    exact exists_item_of_readBare before (isBlank_of_trimLeft_eq_cons hs) hq rfl

end Read

/-! ## Between the brackets -/

theorem Item.readEntries_append (item : Item) (rest : List Char) : item.EndsBefore rest →
    readEntries (item.written ++ rest) =
      match rest with
      | [] => some [item.entry]
      | _ :: rest => (readEntries rest).map (item.entry :: ·) := by
  intro h
  obtain ⟨c, tail, after, hct, hb, hr, ha⟩ := h.readEntry_eq
  rw [readEntries_eq, item.written_eq, List.append_assoc, item.before.trimLeft_append, hct,
    trimLeft_cons_of_not_blank hb]
  simp only [hr, Option.bind_some, ha]
  cases rest with
  | nil => rfl
  | cons d rest => exact if_pos h.1

theorem readEntries_written (items : Items) :
    readEntries items.written = some (items.toList.map Item.entry) := by
  induction items with
  | none blanks =>
    rw [readEntries_eq, Items.written, blanks.trimLeft_chars]
    rfl
  | last item ends =>
    have hr := item.readEntries_append [] (Item.endsBefore_nil ends)
    rwa [List.append_nil] at hr
  | comma item ends rest ih =>
    rw [Items.written, item.readEntries_append _ (Item.endsBefore_comma ends rest.written)]
    simp only [ih]
    rfl

theorem exists_items_of_readEntries {s : List Char} {entries : List Entry}
    (h : readEntries s = some entries) :
    ∃ items : Items, items.written = s ∧ items.toList.map Item.entry = entries := by
  fun_induction readEntries s generalizing entries with
  | case1 s hs =>
    cases h
    obtain ⟨blanks, hb⟩ := exists_blanks_append_trimLeft s
    rw [hs, List.append_nil] at hb
    exact ⟨.none blanks, hb, rfl⟩
  | case2 | case5 => cases h
  | case3 s c tail hs entry after hr ha =>
    cases h
    obtain ⟨item, rfl, hw, hend, -⟩ := exists_item_of_readEntry hs hr
    rw [ha, List.append_nil] at hw
    exact ⟨.last item (hend ha), hw, rfl⟩
  | case4 s c tail hs entry after hr rest ha ih =>
    obtain ⟨others, ho, rfl⟩ := Option.map_eq_some_iff.1 h
    obtain ⟨items, rfl, rfl⟩ := ih ho
    obtain ⟨item, rfl, hw, -, hcomma⟩ := exists_item_of_readEntry hs hr
    rw [ha] at hw hcomma
    exact ⟨.comma item (hcomma (List.cons_ne_nil _ _)) items, hw, rfl⟩

end ArrayStore.ListLiteral
