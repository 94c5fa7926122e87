import ArrayStore.Proofs.ListLiteral.Items

/-!
# No text has two derivations

* `Item.EndsBefore.append_inj` : an item and the text that ends it are determined by the whole;
* `Items.written_injective`, `Literal.written_injective` : so is the whole derivation.
-/

namespace ArrayStore.ListLiteral
open Text Item

/-! ## Entries -/

theorem QuotedText.written_append_inj {p q : QuotedText} {s t : List Char}
    (h : p.written ++ s = q.written ++ t) : p = q ∧ s = t := by
  obtain ⟨delimiter, hq, ps⟩ := p
  obtain ⟨delimiter', hq', qs⟩ := q
  simp only [QuotedText.written, List.cons_append, List.append_assoc, List.cons.injEq] at h
  obtain ⟨rfl, h⟩ := h
  obtain ⟨rfl, hst⟩ := pieces_append_inj (ne_backslash_of_isQuote (isQuote_iff.2 hq)) h
  exact ⟨rfl, hst⟩

theorem Item.EndsBefore.trimLeft_body {item : Item} {rest : List Char}
    (h : item.EndsBefore rest) : trimLeft (item.body ++ rest) = item.body ++ rest := by
  obtain ⟨c, tail, -, hct, hb, -⟩ := h.readEntry_eq
  rw [hct, trimLeft_cons_of_not_blank hb]

/-- A quote starts no bare token. -/
theorem Item.EndsBefore.quoted_append_ne {before : Blanks} {token : BareToken} {t : List Char}
    (h : (Item.bare before token).EndsBefore t) (q : QuotedText) (s : List Char) :
    q.written ++ s ≠ token.chars ++ t := by
  obtain ⟨c, tail, hct, -, hq⟩ := h.exists_cons_of_bare
  intro he
  rw [hct] at he
  have hc := (List.cons.inj he).1
  rw [← hc, q.isQuote] at hq
  cases hq

/-- An item and the text that ends it are determined by the whole. -/
theorem Item.EndsBefore.append_inj {a b : Item} {s t : List Char} (ha : a.EndsBefore s)
    (hb : b.EndsBefore t) (h : a.written ++ s = b.written ++ t) : a = b ∧ s = t := by
  rw [a.written_eq, b.written_eq, List.append_assoc, List.append_assoc] at h
  obtain ⟨hbefore, hbody⟩ := Blanks.append_inj ha.trimLeft_body hb.trimLeft_body h
  cases a with
  | quoted before p behind =>
    cases b with
    | quoted before' q behind' =>
      obtain rfl : before = before' := hbefore
      simp only [Item.body, List.append_assoc] at hbody
      obtain ⟨rfl, hbehind⟩ := QuotedText.written_append_inj hbody
      obtain ⟨rfl, hst⟩ := Blanks.append_inj ha.closes.trimLeft_eq hb.closes.trimLeft_eq hbehind
      exact ⟨rfl, hst⟩
    | bare before' token =>
      simp only [Item.body, List.append_assoc] at hbody
      exact (hb.quoted_append_ne p _ hbody).elim
  | bare before token =>
    cases b with
    | quoted before' q behind =>
      simp only [Item.body, List.append_assoc] at hbody
      exact (ha.quoted_append_ne q _ hbody.symm).elim
    | bare before' token' =>
      obtain rfl : before = before' := hbefore
      -- the reader takes each of the two tokens from the same text
      have hread := ha.readBare_eq
      rw [show token.chars ++ s = token'.chars ++ t from hbody, hb.readBare_eq] at hread
      obtain ⟨hchars, hst⟩ := Prod.mk.inj hread
      exact ⟨congrArg _ (BareToken.ext hchars.symm), hst.symm⟩

theorem Item.EndsBefore.ne_blanks {item : Item} {rest : List Char} (h : item.EndsBefore rest)
    (blanks : Blanks) : blanks.chars ≠ item.written ++ rest := by
  intro he
  have ht := congrArg trimLeft he
  obtain ⟨c, tail, -, hct, hb, -⟩ := h.readEntry_eq
  rw [blanks.trimLeft_chars, item.written_eq, List.append_assoc, item.before.trimLeft_append, hct,
    trimLeft_cons_of_not_blank hb] at ht
  cases ht

/-! ## Literals -/

theorem Items.written_injective : Function.Injective Items.written := by
  intro a b h
  -- blanks are no item, and a last item ends at the end where any other ends at a comma
  induction a generalizing b with
  | none blanks =>
    cases b with
    | none blanks' => exact congrArg _ (Blanks.ext h)
    | last item ends =>
      exact ((endsBefore_nil ends).ne_blanks blanks (h.trans (List.append_nil _).symm)).elim
    | comma item ends rest => exact ((endsBefore_comma ends _).ne_blanks blanks h).elim
  | last item ends =>
    have h := (List.append_nil _).trans h
    cases b with
    | none blanks => exact ((endsBefore_nil ends).ne_blanks blanks h.symm).elim
    | last item' ends' =>
      have h := h.trans (List.append_nil _).symm
      obtain ⟨rfl, -⟩ := (endsBefore_nil ends).append_inj (endsBefore_nil ends') h
      rfl
    | comma item' ends' rest =>
      cases ((endsBefore_nil ends).append_inj (endsBefore_comma ends' _) h).2
  | comma item ends rest ih =>
    cases b with
    | none blanks => exact ((endsBefore_comma ends _).ne_blanks blanks h.symm).elim
    | last item' ends' =>
      have h := h.trans (List.append_nil _).symm
      cases ((endsBefore_comma ends _).append_inj (endsBefore_nil ends') h).2
    | comma item' ends' rest' =>
      obtain ⟨rfl, hrest⟩ := (endsBefore_comma ends _).append_inj (endsBefore_comma ends' _) h
      obtain rfl := ih (List.cons.inj hrest).2
      rfl

theorem Literal.written_injective : Function.Injective Literal.written := by
  intro l m h
  simp only [Literal.written, List.append_assoc, List.cons_append] at h
  obtain ⟨hbefore, hrest⟩ := Blanks.append_inj (trimLeft_cons_of_not_blank (by decide))
    (trimLeft_cons_of_not_blank (by decide)) h
  obtain ⟨hitems, hafter⟩ := Blanks.append_inj_right (by decide) (List.cons.inj hrest).2
  exact Literal.ext hbefore (Items.written_injective hitems) hafter

end ArrayStore.ListLiteral
