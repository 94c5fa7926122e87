import ArrayStore.Proofs.Json.Numbers
import ArrayStore.Proofs.Json.Strings

/-!
# A written value reads back

* `ReadsAs` : a text that is read as a value, wherever a value can end behind it;
* `readsAs_null`, `readsAs_bool`, `readsAs_string`, `readsAs_number` : the values without parts;
* `readItems_write`, `readsAs_array`, `readMembers_write`, `readsAs_object` : the others, if their
  parts read back;
* `Value.readsAs_write` : and so, by induction, every value whose numbers read back;
* `Value.stored_lossless` : arrays, objects and numbers are stored without loss.
-/

namespace ArrayStore.Json
open Text (expect)

/-- Wherever a value can end behind it, the text is read as the value, and what is left are blanks.
The length of the text is fuel enough. -/
def ReadsAs (written : List Char) (v : Value) : Prop :=
  ∀ fuel rest, written.length ≤ fuel → Ends rest →
    ∃ node after, readNode fuel (written ++ rest) = some (node, after) ∧
      node.value? = some v ∧ skipSpace after = rest

/-- A text that is not empty leaves fuel for a step. -/
theorem readsAs_cons {c : Char} {tail : List Char} {v : Value}
    (h : ∀ fuel rest, tail.length ≤ fuel → Ends rest →
      ∃ node after, readNode (fuel + 1) (c :: (tail ++ rest)) = some (node, after) ∧
        node.value? = some v ∧ skipSpace after = rest) : ReadsAs (c :: tail) v := by
  intro fuel rest hfuel hrest
  cases fuel with
  | zero => exact absurd hfuel (Nat.not_succ_le_zero _)
  | succ fuel => exact h fuel rest (Nat.le_of_succ_le_succ hfuel) hrest

/-! ## Values without parts -/

theorem expect_append (beginning rest : List Char) :
    expect beginning (beginning ++ rest) = some rest := by
  unfold expect
  rw [if_pos (List.isPrefixOf_iff_prefix.2 (List.prefix_append _ _)), List.drop_left]

theorem readsAs_null : ReadsAs (Value.write .null) .null := by
  refine readsAs_cons fun fuel rest _ hrest => ⟨.null, rest, ?_, rfl, hrest.skipSpace⟩
  show (expect "ull".toList ("ull".toList ++ rest)).map _ = _
  rw [expect_append]
  rfl

theorem readsAs_bool (b : Bool) : ReadsAs (Value.write (.bool b)) (.bool b) := by
  cases b with
  | true =>
    refine readsAs_cons fun fuel rest _ hrest => ⟨.bool true, rest, ?_, rfl, hrest.skipSpace⟩
    show (expect "rue".toList ("rue".toList ++ rest)).map _ = _
    rw [expect_append]
    rfl
  | false =>
    refine readsAs_cons fun fuel rest _ hrest => ⟨.bool false, rest, ?_, rfl, hrest.skipSpace⟩
    show (expect "alse".toList ("alse".toList ++ rest)).map _ = _
    rw [expect_append]
    rfl

theorem readsAs_string (text : String) : ReadsAs (writeString text) (.string text) := by
  show ReadsAs ('"' :: (text.toList.flatMap escapeChar ++ ['"'])) _
  refine readsAs_cons fun fuel rest _ hrest =>
    ⟨.string (some text), rest, ?_, rfl, hrest.skipSpace⟩
  rw [List.append_assoc, List.singleton_append]
  show (readString (text.toList.flatMap escapeChar ++ '"' :: rest)).map _ = _
  rw [readString_writeString]
  rfl

theorem readsAs_number {n : Number} (h : n.ReadsBack) : ReadsAs n.write (.number n) := by
  intro fuel rest hfuel hrest
  cases fuel with
  | zero =>
    rw [Number.ReadsBack, List.length_eq_zero_iff.1 (Nat.le_zero.1 hfuel)] at h
    cases h
  | succ fuel => exact h.readNode_append fuel hrest

/-! ## Arrays -/

theorem readItems_write {item : Value} {items : List Value} (hitem : ReadsAs item.write item)
    (hitems : ∀ item ∈ items, ReadsAs item.write item) {fuel : Nat}
    (hfuel : (item.write ++ Value.writeItems items).length ≤ fuel) (rest : List Char) :
    ∃ nodes, readItems fuel (item.write ++ Value.writeItems items ++ rest) = some (nodes, rest) ∧
      Node.values? nodes = some (item :: items) := by
  -- behind an item stands the closing bracket or a comma, and a value ends at both
  induction items generalizing item fuel with
  | nil =>
    rw [Value.writeItems] at *
    rw [List.length_append, List.length_singleton] at hfuel
    obtain ⟨fuel, rfl⟩ := Nat.exists_eq_add_of_le' (Nat.le_of_add_left_le hfuel)
    obtain ⟨node, after, hread, hvalue, hafter⟩ :=
      hitem fuel (']' :: rest) (by omega) (ends_bracket rest)
    refine ⟨[node], ?_, ?_⟩
    · rw [List.append_assoc, List.singleton_append, readItems, hread]
      simp only [hafter]
    · rw [Node.values?, hvalue]
      rfl
  | cons next items ih =>
    rw [List.forall_mem_cons] at hitems
    rw [Value.writeItems, List.cons_append] at *
    rw [List.length_append, List.length_cons, ← Nat.add_assoc] at hfuel
    obtain ⟨fuel, rfl⟩ := Nat.exists_eq_add_of_le' (Nat.le_of_add_left_le hfuel)
    have hlength : (next.write ++ Value.writeItems items).length ≤ fuel := by omega
    obtain ⟨nodes, hnodes, hvalues⟩ := ih hitems.1 hitems.2 hlength
    obtain ⟨node, after, hread, hvalue, hafter⟩ :=
      hitem fuel (',' :: (next.write ++ Value.writeItems items ++ rest)) (by omega) (ends_comma _)
    refine ⟨node :: nodes, ?_, ?_⟩
    · rw [List.append_assoc, List.cons_append, readItems, hread]
      simp only [hafter, hnodes, Option.map_some]
    · rw [Node.values?, hvalue, hvalues]
      rfl

/-- No value starts with the closing bracket of an array. -/
theorem skipSpace_ne_of_readItems {fuel : Nat} {s rest : List Char} {nodes : List Node}
    (h : readItems fuel s = some (nodes, rest)) (tail : List Char) : skipSpace s ≠ ']' :: tail := by
  intro hs
  cases fuel with
  | zero =>
    rw [readItems] at h
    cases h
  | succ fuel =>
    have hnone : readNode fuel s = none := by
      cases fuel with
      | zero => rw [readNode]
      | succ fuel =>
        rw [readNode, hs]
        rfl
    rw [readItems, hnone] at h
    cases h

theorem readNode_bracket {fuel : Nat} {s rest : List Char} {nodes : List Node}
    (h : readItems fuel s = some (nodes, rest)) :
    readNode (fuel + 1) ('[' :: s) = some (.array nodes, rest) := by
  rw [readNode, skipSpace_cons rfl]
  simp only [if_neg (show '[' ≠ '"' by decide), if_true]
  split
  · next hs => exact absurd hs (skipSpace_ne_of_readItems h _)
  · rw [h, Option.map_some]

theorem readsAs_array {items : List Value} (h : ∀ item ∈ items, ReadsAs item.write item) :
    ReadsAs (Value.array items).write (.array items) := by
  cases items with
  | nil =>
    exact readsAs_cons fun fuel rest _ hrest => ⟨.array [], rest, rfl, rfl, hrest.skipSpace⟩
  | cons item items =>
    rw [List.forall_mem_cons] at h
    rw [Value.write, List.cons_append]
    refine readsAs_cons fun fuel rest hfuel hrest => ?_
    obtain ⟨nodes, hnodes, hvalues⟩ := readItems_write h.1 h.2 hfuel rest
    refine ⟨.array nodes, rest, readNode_bracket hnodes, ?_, hrest.skipSpace⟩
    rw [Node.value?, hvalues]
    rfl

/-! ## Objects -/

section Member
variable {fuel : Nat} {s after rest : List Char} {node : Node} (key : String)

/-- A written key, a colon and a value, and the object ends. -/
theorem readMembers_last (h : readNode fuel s = some (node, after))
    (hafter : skipSpace after = '\x7d' :: rest) :
    readMembers (fuel + 1) (writeString key ++ ':' :: s) = some ([(some key, node)], rest) := by
  rw [writeString_append, readMembers, skipSpace_cons rfl]
  simp only [readString_writeString, skipSpace_cons (show isSpace ':' = false from rfl), h, hafter]

/-- A written key, a colon and a value, and the object goes on. -/
theorem readMembers_cons {tail : List Char} {nodes : List (Option String × Node)}
    (h : readNode fuel s = some (node, after)) (hafter : skipSpace after = ',' :: tail)
    (hnodes : readMembers fuel tail = some (nodes, rest)) :
    readMembers (fuel + 1) (writeString key ++ ':' :: s) =
      some ((some key, node) :: nodes, rest) := by
  rw [writeString_append, readMembers, skipSpace_cons rfl]
  simp only [readString_writeString, skipSpace_cons (show isSpace ':' = false from rfl), h, hafter,
    hnodes, Option.map_some]

end Member

theorem readMembers_write {key : String} {value : Value} {members : Members}
    (hvalue : ReadsAs value.write value)
    (hmembers : ∀ member ∈ members, ReadsAs member.2.write member.2) {fuel : Nat}
    (hfuel : (writeString key ++ ':' :: value.write ++ Value.writeMembers members).length ≤ fuel)
    (rest : List Char) :
    ∃ nodes, readMembers fuel
        (writeString key ++ ':' :: value.write ++ Value.writeMembers members ++ rest) =
          some (nodes, rest) ∧
      Node.members? nodes = some ((key, value) :: members) := by
  induction members generalizing key value fuel with
  | nil =>
    rw [Value.writeMembers] at *
    rw [List.length_append, List.length_append, List.length_cons, List.length_singleton] at hfuel
    obtain ⟨fuel, rfl⟩ := Nat.exists_eq_add_of_le' (Nat.le_of_add_left_le hfuel)
    obtain ⟨node, after, hread, hnode, hafter⟩ :=
      hvalue fuel ('\x7d' :: rest) (by omega) (ends_brace rest)
    refine ⟨[(some key, node)], ?_, ?_⟩
    · rw [List.append_assoc, List.append_assoc, List.cons_append, List.singleton_append]
      exact readMembers_last key hread hafter
    · rw [Node.members?, hnode]
      rfl
  | cons next members ih =>
    obtain ⟨nextKey, nextValue⟩ := next
    rw [List.forall_mem_cons] at hmembers
    rw [Value.writeMembers, List.cons_append, List.cons_append] at *
    rw [List.length_append, List.length_append, List.length_cons, List.length_cons,
      ← Nat.add_assoc] at hfuel
    obtain ⟨fuel, rfl⟩ := Nat.exists_eq_add_of_le' (Nat.le_of_add_left_le hfuel)
    have hlength : (writeString nextKey ++ ':' :: nextValue.write ++
        Value.writeMembers members).length ≤ fuel := by omega
    obtain ⟨nodes, hnodes, hmembers⟩ := ih hmembers.1 hmembers.2 hlength
    obtain ⟨node, after, hread, hnode, hafter⟩ :=
      hvalue fuel (',' :: (writeString nextKey ++ ':' :: nextValue.write ++
        Value.writeMembers members ++ rest)) (by omega) (ends_comma _)
    refine ⟨(some key, node) :: nodes, ?_, ?_⟩
    · rw [List.append_assoc, List.append_assoc, List.cons_append, List.cons_append]
      exact readMembers_cons key hread hafter hnodes
    · rw [Node.members?, hnode, hmembers]
      rfl

theorem readNode_brace {fuel : Nat} {key : String} {s rest : List Char}
    {nodes : List (Option String × Node)}
    (h : readMembers fuel (writeString key ++ s) = some (nodes, rest)) :
    readNode (fuel + 1) ('\x7b' :: (writeString key ++ s)) = some (.object nodes, rest) := by
  show (readMembers fuel (writeString key ++ s)).map _ = _
  rw [h]
  rfl

theorem readsAs_object {members : Members} (ho : Keyed.Ordered members)
    (h : ∀ member ∈ members, ReadsAs member.2.write member.2) :
    ReadsAs (Value.object members).write (.object members) := by
  cases members with
  | nil =>
    exact readsAs_cons fun fuel rest _ hrest => ⟨.object [], rest, rfl, rfl, hrest.skipSpace⟩
  | cons member members =>
    obtain ⟨key, value⟩ := member
    rw [List.forall_mem_cons] at h
    rw [Value.write, List.cons_append, List.cons_append]
    refine readsAs_cons fun fuel rest hfuel hrest => ?_
    obtain ⟨nodes, hnodes, hmembers⟩ := readMembers_write h.1 h.2 hfuel rest
    refine ⟨.object nodes, rest, ?_, ?_, hrest.skipSpace⟩
    · rw [List.append_assoc, List.append_assoc] at *
      exact readNode_brace hnodes
    · -- the reader orders the members by key, and they are in this order already
      rw [Node.value?, hmembers, Option.map_some, ho.ofList_eq]

/-! ## All values -/

mutual

/-- Whatever a value holds, it reads back if its numbers do. -/
theorem Value.readsAs_write : ∀ {v : Value}, v.WellFormed →
    (∀ n, .number n ∈ v.parts → n.ReadsBack) → ReadsAs v.write v
  | .null, _, _ => readsAs_null
  | .bool b, _, _ => readsAs_bool b
  | .string text, _, _ => readsAs_string text
  | .number n, _, hn => readsAs_number (hn n (List.mem_singleton_self _))
  | .array _, h, hn =>
    readsAs_array (Value.readsAs_write_items (Value.wellFormed_array_iff.1 h)
      fun _ hitem n hpart => hn n (Value.parts_subset_array hitem hpart))
  | .object _, h, hn =>
    readsAs_object h.ordered (Value.readsAs_write_members (Value.wellFormed_object_iff.1 h).2
      fun _ hmember n hpart => hn n (Value.parts_subset_object hmember hpart))

theorem Value.readsAs_write_items : ∀ {items : List Value}, (∀ item ∈ items, item.WellFormed) →
    (∀ item ∈ items, ∀ n, .number n ∈ item.parts → n.ReadsBack) →
    ∀ item ∈ items, ReadsAs item.write item
  | [], _, _ => List.forall_mem_nil _
  | _ :: _, h, hn =>
    List.forall_mem_cons.2
      ⟨Value.readsAs_write (List.forall_mem_cons.1 h).1 (List.forall_mem_cons.1 hn).1,
        Value.readsAs_write_items (List.forall_mem_cons.1 h).2 (List.forall_mem_cons.1 hn).2⟩

theorem Value.readsAs_write_members : ∀ {members : Members},
    (∀ member ∈ members, member.2.WellFormed) →
    (∀ member ∈ members, ∀ n, .number n ∈ member.2.parts → n.ReadsBack) →
    ∀ member ∈ members, ReadsAs member.2.write member.2
  | [], _, _ => List.forall_mem_nil _
  | (_, _) :: _, h, hn =>
    List.forall_mem_cons.2
      ⟨Value.readsAs_write (List.forall_mem_cons.1 h).1 (List.forall_mem_cons.1 hn).1,
        Value.readsAs_write_members (List.forall_mem_cons.1 h).2 (List.forall_mem_cons.1 hn).2⟩

end

/-- The whole text of a value is a document that holds it. -/
theorem Value.read?_compact {v : Value} (h : ReadsAs v.write v) :
    Value.read? v.compact = some v := by
  obtain ⟨node, after, hread, hvalue, hafter⟩ :=
    h (2 * v.write.length + 2) [] (by omega) ends_nil
  rw [List.append_nil] at hread
  unfold Value.read? Node.read? Value.compact
  rw [String.toList_ofList, hread]
  simp only [hafter, List.isEmpty_nil, if_true, Option.bind_some, hvalue]

/-! ## Stored texts -/

/-- An array, an object or a number: the values that are stored as documents. -/
def Value.IsStructured : Value → Prop
  | .array _ | .object _ | .number _ => True
  | .null | .bool _ | .string _ => False

instance : DecidablePred Value.IsStructured
  | .array _ | .object _ | .number _ => .isTrue trivial
  | .null | .bool _ | .string _ => .isFalse id

theorem Value.stored_eq_compact {v : Value} (h : v.IsStructured) : v.stored = v.compact := by
  cases v with
  | array | object | number => rfl
  | null | bool | string => exact h.elim

/-- The text of each double within the value is read as that double. -/
def Value.DoublesReadBack (v : Value) : Prop :=
  ∀ d, .number (.double d) ∈ v.parts → (Number.double d).ReadsBack

theorem Value.readsBack_of_mem_parts {v : Value} (hw : v.WellFormed) (hd : v.DoublesReadBack)
    {n : Number} (hn : .number n ∈ v.parts) : n.ReadsBack := by
  cases n with
  | integer i => exact Number.readsBack_integer (hw _ hn)
  | double d => exact hd d hn

theorem Value.read?_stored {v : Value} (hs : v.IsStructured) (hw : v.WellFormed)
    (hd : v.DoublesReadBack) : Value.read? v.stored = some v := by
  rw [Value.stored_eq_compact hs]
  exact Value.read?_compact (Value.readsAs_write hw fun _ => Value.readsBack_of_mem_parts hw hd)

/-- Arrays, objects and numbers are stored without loss: the text reads back, and no other of them
has it. Integers need no assumption, doubles that their own texts read back. -/
theorem Value.stored_lossless {v : Value} (hs : v.IsStructured) (hw : v.WellFormed)
    (hd : v.DoublesReadBack) :
    Value.read? v.stored = some v ∧
      ∀ w : Value, w.IsStructured → w.WellFormed → w.DoublesReadBack →
        w.stored = v.stored → w = v := by
  refine ⟨Value.read?_stored hs hw hd, fun w hs' hw' hd' heq => ?_⟩
  have hread := Value.read?_stored hs' hw' hd'
  rw [heq, Value.read?_stored hs hw hd] at hread
  exact (Option.some.inj hread).symm

def oneHalf : Double := ⟨0x3fe0000000000000⟩

theorem readsBack_oneHalf : (Number.double oneHalf).ReadsBack := by
  have htext : (Number.double oneHalf).write = "0.5".toList := by decide +kernel
  have hread : readNumeral false "0.5".toList = some (⟨⟨false, 5, -1⟩, false⟩, []) := by
    decide +kernel
  have hvalue : Numeral.number? ⟨⟨false, 5, -1⟩, false⟩ = some (.double oneHalf) := by
    decide +kernel
  unfold Number.ReadsBack
  rw [htext]
  exact (read?_of_readNumeral hread).trans (congrArg (Option.map Value.number) hvalue)

/-- Escapes in keys and texts, containers without parts, and both kinds of numbers. -/
def waveform : Value :=
  .object [("", .array []),
    ("a\"\n\x01", .array [.number (.integer (-7)), .number (.double oneHalf), .string "é\\"]),
    ("b", .object [])]

theorem Value.stored_lossless_waveform :
    waveform.IsStructured ∧ waveform.WellFormed ∧ waveform.DoublesReadBack ∧
      Value.read? waveform.stored = some waveform ∧
      waveform.stored =
        "\x7b\"\":[],\"a\\\"\\n\\u0001\":[-7,0.5,\"é\\\\\"],\"b\":\x7b\x7d\x7d" := by
  have hs : waveform.IsStructured := trivial
  have hw : waveform.WellFormed := by decide +kernel
  have hd : waveform.DoublesReadBack := by
    intro d hd
    have hd : d = oneHalf := by
      simpa [waveform, Value.parts, Value.partsOfItems, Value.partsOfMembers] using hd
    exact hd ▸ readsBack_oneHalf
  exact ⟨hs, hw, hd, (Value.stored_lossless hs hw hd).1, by decide +kernel⟩

end ArrayStore.Json
