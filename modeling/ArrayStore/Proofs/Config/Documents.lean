import ArrayStore.Config.Document
import ArrayStore.Proofs.Json.Numbers
import ArrayStore.Proofs.Keyed

/-!
# What a document says of a configuration

* `Distinct`, `Gives` : no field is given twice, and the value that the members give a field;
* `fieldOr_eq_some_iff`, `storageOf?_object_iff`, `ofNode?_object_iff` : the configuration of an
  object is what its members give the fields;
* `ofNode?_congr`, `ofNode?_perm`, `ofNode?_cons` : neither the order of the members matters nor
  a key of no field;
* `sectionOf?_array` : a list is the object of the fields in their order;
* `ofNode?_fits`, `ofNode?_node` : the numbers that are read fit, and a configuration reads back
  just if its numbers do.
-/

namespace ArrayStore.Config
open Json

variable {fields : List String} {field : String} {members others : List (Option String × Node)}
  {named known : List (String × Node)}

/-! ## Fields -/

/-- The members under a key. -/
def under (key : Option String) (members : List (Option String × Node)) :
    List (Option String × Node) :=
  members.filter fun member => member.1 == key

/-- Every key is a text, and no field is given twice. -/
structure Distinct (fields : List String) (members : List (Option String × Node)) : Prop where
  isText : under none members = []
  once : ∀ field ∈ fields, (under (some field) members).length ≤ 1

/-- The node of the field has the value, or the field is missing and the value is the default. -/
def Gives {α : Type} (members : List (Option String × Node)) (field : String) (default : α)
    (read : Node → Option α) (value : α) : Prop :=
  (∃ node, (some field, node) ∈ members ∧ read node = some value) ∨
    (under (some field) members = [] ∧ value = default)

theorem mem_under_iff {key : Option String} {node : Node} :
    (key, node) ∈ under key members ↔ (key, node) ∈ members := by
  rw [under, List.mem_filter, and_iff_left (beq_self_eq_true key)]

/-- The members whose keys are the texts of the pairs. -/
def membersOf (named : List (String × Node)) : List (Option String × Node) :=
  named.map fun (key, node) => (some key, node)

theorem mapM_key_eq_some_iff :
    (members.mapM fun (key, node) => key.map fun key => (key, node)) = some named ↔
      members = membersOf named := by
  constructor
  · intro h
    induction members generalizing named with
    | nil =>
      cases h
      rfl
    | cons member members ih =>
      rw [List.mapM_cons] at h
      obtain ⟨pair, hpair, h⟩ := Option.bind_eq_some_iff.1 h
      obtain ⟨pairs, hpairs, h⟩ := Option.bind_eq_some_iff.1 h
      obtain ⟨key, hkey, rfl⟩ := Option.map_eq_some_iff.1 hpair
      cases h
      rw [ih hpairs]
      exact congrArg (· :: _) (Prod.ext hkey rfl)
  · rintro rfl
    induction named with
    | nil => rfl
    | cons pair named ih =>
      rw [membersOf, List.map_cons, List.mapM_cons]
      exact Option.bind_eq_some_iff.2 ⟨pair, rfl, Option.bind_eq_some_iff.2 ⟨named, ih, rfl⟩⟩

theorem under_membersOf (field : String) (named : List (String × Node)) :
    under (some field) (membersOf named) =
      membersOf (named.filter fun (key, _) => key == field) := by
  unfold under membersOf
  rw [List.filter_map]
  congr 1

theorem isText_membersOf (named : List (String × Node)) : under none (membersOf named) = [] := by
  unfold under membersOf
  rw [List.filter_map, List.map_eq_nil_iff]
  exact List.filter_eq_nil_iff.2 fun _ _ => Bool.false_ne_true

theorem exists_membersOf (h : under none members = []) : ∃ named, members = membersOf named := by
  induction members with
  | nil => exact ⟨[], rfl⟩
  | cons member members ih =>
    obtain ⟨_ | key, node⟩ := member
    · cases h
    · obtain ⟨named, rfl⟩ := ih h
      exact ⟨(key, node) :: named, rfl⟩

/-- The pairs of a field are those of the known pairs. -/
theorem filter_known (hf : field ∈ fields) (named : List (String × Node)) :
    (named.filter fun (key, _) => fields.contains key).filter (fun (key, _) => key == field) =
      named.filter fun (key, _) => key == field := by
  rw [List.filter_filter]
  refine List.filter_congr fun pair _ => ?_
  by_cases h : pair.1 = field
  · simp [h, hf]
  · simp [h]

theorem distinct_membersOf_iff {named : List (String × Node)} :
    Distinct fields (membersOf named) ↔
      ∀ field ∈ fields, (named.filter fun (key, _) => key == field).length ≤ 1 := by
  have hlength (field : String) : (under (some field) (membersOf named)).length =
      (named.filter fun (key, _) => key == field).length := by
    rw [under_membersOf, membersOf, List.length_map]
  constructor
  · intro h field hf
    rw [← hlength]
    exact h.once field hf
  · intro h
    refine ⟨isText_membersOf named, fun field hf => ?_⟩
    rw [hlength]
    exact h field hf

theorem fieldsOf?_membersOf (fields : List String) (named : List (String × Node)) :
    fieldsOf? fields (membersOf named) = some known ↔
      Distinct fields (membersOf named) ∧
        named.filter (fun (key, _) => fields.contains key) = known := by
  have hall : (fields.all fun field =>
      ((named.filter fun (key, _) => fields.contains key).filter
        fun (key, _) => key == field).length ≤ 1) = true ↔ Distinct fields (membersOf named) := by
    rw [List.all_eq_true, distinct_membersOf_iff]
    refine forall₂_congr fun field hf => ?_
    rw [filter_known hf, decide_eq_true_iff]
  unfold fieldsOf?
  rw [mapM_key_eq_some_iff.2 rfl, Option.bind_eq_bind, Option.bind_some]
  by_cases h : Distinct fields (membersOf named)
  · rw [if_pos (hall.2 h), Option.some_inj]
    exact (and_iff_right h).symm
  · rw [if_neg (fun hd => h (hall.1 hd))]
    exact iff_of_false (fun h => nomatch h) fun hd => h hd.1

theorem fieldsOf?_eq_some_iff :
    fieldsOf? fields members = some known ↔
      Distinct fields members ∧ ∃ named, members = membersOf named ∧
        named.filter (fun (key, _) => fields.contains key) = known := by
  constructor
  · intro h
    obtain ⟨named, hnamed, -⟩ := Option.bind_eq_some_iff.1 h
    obtain rfl := mapM_key_eq_some_iff.1 hnamed
    obtain ⟨hdistinct, hknown⟩ := (fieldsOf?_membersOf fields named).1 h
    exact ⟨hdistinct, named, rfl, hknown⟩
  · rintro ⟨hdistinct, named, rfl, hknown⟩
    exact (fieldsOf?_membersOf fields named).2 ⟨hdistinct, hknown⟩

theorem Distinct.exists_fieldsOf? (h : Distinct fields members) :
    ∃ known, fieldsOf? fields members = some known := by
  obtain ⟨named, rfl⟩ := exists_membersOf h.isText
  exact ⟨_, (fieldsOf?_membersOf fields named).2 ⟨h, rfl⟩⟩

theorem lookup_eq_head?_filter (field : String) (named : List (String × Node)) :
    named.lookup field = (named.filter fun (key, _) => key == field).head?.map Prod.snd := by
  induction named with
  | nil => rfl
  | cons pair named ih =>
    obtain ⟨key, node⟩ := pair
    by_cases h : key = field
    · subst h
      rw [List.lookup_cons_self, List.filter_cons, if_pos (beq_self_eq_true key)]
      rfl
    · rw [List.lookup_cons, beq_false_of_ne (Ne.symm h), List.filter_cons_of_neg (by simpa using h)]
      exact ih

/-- A field has the value that the members give it. -/
theorem fieldOr_eq_some_iff {α : Type} {default value : α} {read : Node → Option α}
    (h : fieldsOf? fields members = some known) (hf : field ∈ fields) :
    fieldOr known field default read = some value ↔ Gives members field default read value := by
  obtain ⟨hdistinct, named, rfl, rfl⟩ := fieldsOf?_eq_some_iff.1 h
  have honce := hdistinct.once field hf
  have hunder (node : Node) : (some field, node) ∈ membersOf named ↔
      (some field, node) ∈ under (some field) (membersOf named) := mem_under_iff.symm
  unfold fieldOr Gives
  rw [lookup_eq_head?_filter, filter_known hf]
  simp only [hunder]
  rw [under_membersOf] at honce ⊢
  cases hpairs : named.filter fun (key, _) => key == field with
  | nil => simp [membersOf, eq_comm]
  | cons pair pairs =>
    obtain ⟨key, node⟩ := pair
    obtain rfl : key = field := by
      have := List.mem_filter.1 (hpairs ▸ List.mem_cons_self)
      simpa using this.2
    obtain rfl : pairs = [] := by
      rw [hpairs] at honce
      exact List.eq_nil_of_length_eq_zero (by simpa [membersOf] using honce)
    simp [membersOf]

/-! ## Sections -/

theorem naturalBelow?_eq_some_iff {bound n : Nat} {node : Node} :
    naturalBelow? bound node = some n ↔
      ∃ numeral, node = .number numeral ∧ numeral.number? = some (.integer n) ∧ n < bound := by
  cases node with
  | number numeral =>
    unfold naturalBelow?
    cases hnumber : numeral.number? with
    | none => simp [hnumber]
    | some number =>
      cases number with
      | double d => simp [hnumber]
      | integer i =>
        by_cases hi : 0 ≤ i ∧ i < bound
        · simp [hnumber]
          omega
        · simp [hnumber]
          omega
  | _ => simp [naturalBelow?]

theorem applicationOf?_object_iff {a : Application} :
    applicationOf? (.object members) = some a ↔
      Distinct ["log_level"] members ∧ Gives members "log_level" "info" textOf? a.logLevel := by
  constructor
  · intro h
    obtain ⟨known, hknown, h⟩ := Option.bind_eq_some_iff.1 h
    obtain ⟨logLevel, hlevel, h⟩ := Option.bind_eq_some_iff.1 h
    cases h
    exact ⟨(fieldsOf?_eq_some_iff.1 hknown).1, (fieldOr_eq_some_iff hknown (by decide)).1 hlevel⟩
  · rintro ⟨hdistinct, hlevel⟩
    obtain ⟨known, hknown⟩ := hdistinct.exists_fieldsOf?
    refine Option.bind_eq_some_iff.2 ⟨known, hknown, ?_⟩
    exact Option.bind_eq_some_iff.2
      ⟨_, (fieldOr_eq_some_iff hknown (by decide)).2 hlevel, rfl⟩

/-- The fields of the storage. -/
def storageFields : List String :=
  ["base_location", "file_extension", "chunk_rows", "compression_level"]

theorem storageOf?_object_iff {s : Storage} :
    storageOf? (.object members) = some s ↔
      Distinct storageFields members ∧
        Gives members "base_location" "./data" textOf? s.baseLocation ∧
        Gives members "file_extension" "hdf5" textOf? s.fileExtension ∧
        Gives members "chunk_rows" 64 (naturalBelow? Word.limit) s.chunkRows ∧
        Gives members "compression_level" 0 (naturalBelow? 256) s.compressionLevel := by
  constructor
  · intro h
    obtain ⟨known, hknown, h⟩ := Option.bind_eq_some_iff.1 h
    obtain ⟨baseLocation, hbase, h⟩ := Option.bind_eq_some_iff.1 h
    obtain ⟨fileExtension, hextension, h⟩ := Option.bind_eq_some_iff.1 h
    obtain ⟨chunkRows, hrows, h⟩ := Option.bind_eq_some_iff.1 h
    obtain ⟨compressionLevel, hlevel, h⟩ := Option.bind_eq_some_iff.1 h
    cases h
    have hgives {α : Type} {field : String} {default value : α} {read : Node → Option α} :=
      @fieldOr_eq_some_iff storageFields field members known α default value read hknown
    exact ⟨(fieldsOf?_eq_some_iff.1 hknown).1, (hgives (by decide)).1 hbase,
      (hgives (by decide)).1 hextension, (hgives (by decide)).1 hrows,
      (hgives (by decide)).1 hlevel⟩
  · rintro ⟨hdistinct, hbase, hextension, hrows, hlevel⟩
    obtain ⟨known, hknown⟩ := hdistinct.exists_fieldsOf?
    have hgives {α : Type} {field : String} {default value : α} {read : Node → Option α} :=
      @fieldOr_eq_some_iff storageFields field members known α default value read hknown
    refine Option.bind_eq_some_iff.2 ⟨known, hknown, ?_⟩
    refine Option.bind_eq_some_iff.2 ⟨_, (hgives (by decide)).2 hbase, ?_⟩
    refine Option.bind_eq_some_iff.2 ⟨_, (hgives (by decide)).2 hextension, ?_⟩
    refine Option.bind_eq_some_iff.2 ⟨_, (hgives (by decide)).2 hrows, ?_⟩
    exact Option.bind_eq_some_iff.2 ⟨_, (hgives (by decide)).2 hlevel, rfl⟩

theorem ofNode?_object_iff {c : Config} :
    ofNode? (.object members) = some c ↔
      Distinct ["application", "storage"] members ∧
        Gives members "application" {} applicationOf? c.application ∧
        Gives members "storage" {} storageOf? c.storage := by
  constructor
  · intro h
    obtain ⟨known, hknown, h⟩ := Option.bind_eq_some_iff.1 h
    obtain ⟨application, happlication, h⟩ := Option.bind_eq_some_iff.1 h
    obtain ⟨storage, hstorage, h⟩ := Option.bind_eq_some_iff.1 h
    cases h
    exact ⟨(fieldsOf?_eq_some_iff.1 hknown).1,
      (fieldOr_eq_some_iff hknown (by decide)).1 happlication,
      (fieldOr_eq_some_iff hknown (by decide)).1 hstorage⟩
  · rintro ⟨hdistinct, happlication, hstorage⟩
    obtain ⟨known, hknown⟩ := hdistinct.exists_fieldsOf?
    refine Option.bind_eq_some_iff.2 ⟨known, hknown, ?_⟩
    refine Option.bind_eq_some_iff.2
      ⟨_, (fieldOr_eq_some_iff hknown (by decide)).2 happlication, ?_⟩
    exact Option.bind_eq_some_iff.2
      ⟨_, (fieldOr_eq_some_iff hknown (by decide)).2 hstorage, rfl⟩

example : ofNode? (.object []) = some {} := by decide

/-! ## The order of the members -/

/-- The members are the same for every field, apart from their order. -/
def SameFields (fields : List String) (members others : List (Option String × Node)) : Prop :=
  ∀ key ∈ none :: fields.map some, (under key members).Perm (under key others)

theorem SameFields.symm (h : SameFields fields members others) :
    SameFields fields others members :=
  fun key hkey => (h key hkey).symm

theorem SameFields.of_perm (fields : List String) (h : members.Perm others) :
    SameFields fields members others :=
  fun _ _ => h.filter _

/-- A key of no field is ignored. -/
theorem SameFields.cons {key : String} (h : key ∉ fields) (node : Node)
    (members : List (Option String × Node)) :
    SameFields fields ((some key, node) :: members) members := by
  intro other hother
  have hne : ¬((some key == other) = true) := by
    intro heq
    obtain rfl := eq_of_beq heq
    simp [h] at hother
  unfold under
  rw [List.filter_cons, if_neg hne]

theorem SameFields.under_some (h : SameFields fields members others) (hf : field ∈ fields) :
    (under (some field) members).Perm (under (some field) others) :=
  h _ (List.mem_cons_of_mem _ (List.mem_map_of_mem hf))

theorem SameFields.distinct (h : SameFields fields members others)
    (hd : Distinct fields members) : Distinct fields others where
  isText := (hd.isText ▸ h none List.mem_cons_self).nil_eq.symm
  once field hf := (h.under_some hf).length_eq ▸ hd.once field hf

theorem SameFields.gives {α : Type} {default value : α} {read : Node → Option α}
    (h : SameFields fields members others) (hf : field ∈ fields)
    (hg : Gives members field default read value) : Gives others field default read value := by
  have hperm := h.under_some hf
  obtain ⟨node, hnode, hread⟩ | ⟨hnone, hvalue⟩ := hg
  · exact .inl ⟨node, mem_under_iff.1 (hperm.mem_iff.1 (mem_under_iff.2 hnode)), hread⟩
  · rw [hnone] at hperm
    exact .inr ⟨hperm.nil_eq.symm, hvalue⟩

theorem SameFields.distinct_iff (h : SameFields fields members others) :
    Distinct fields members ↔ Distinct fields others :=
  ⟨h.distinct, h.symm.distinct⟩

theorem SameFields.gives_iff {α : Type} {default value : α} {read : Node → Option α}
    (h : SameFields fields members others) (hf : field ∈ fields) :
    Gives members field default read value ↔ Gives others field default read value :=
  ⟨h.gives hf, h.symm.gives hf⟩

theorem applicationOf?_congr (h : SameFields ["log_level"] members others) :
    applicationOf? (.object members) = applicationOf? (.object others) := by
  refine Option.ext fun a => ?_
  rw [applicationOf?_object_iff, applicationOf?_object_iff, h.distinct_iff,
    h.gives_iff (by decide)]

theorem storageOf?_congr (h : SameFields storageFields members others) :
    storageOf? (.object members) = storageOf? (.object others) := by
  refine Option.ext fun s => ?_
  rw [storageOf?_object_iff, storageOf?_object_iff, h.distinct_iff, h.gives_iff (by decide),
    h.gives_iff (by decide), h.gives_iff (by decide), h.gives_iff (by decide)]

theorem ofNode?_congr (h : SameFields ["application", "storage"] members others) :
    ofNode? (.object members) = ofNode? (.object others) := by
  refine Option.ext fun c => ?_
  rw [ofNode?_object_iff, ofNode?_object_iff, h.distinct_iff, h.gives_iff (by decide),
    h.gives_iff (by decide)]

theorem ofNode?_perm (h : members.Perm others) :
    ofNode? (.object members) = ofNode? (.object others) :=
  ofNode?_congr (.of_perm _ h)

theorem ofNode?_cons {key : String} (h : key ∉ ["application", "storage"]) (node : Node)
    (members : List (Option String × Node)) :
    ofNode? (.object ((some key, node) :: members)) = ofNode? (.object members) :=
  ofNode?_congr (.cons h node members)

/-! ## Lists -/

theorem length_filter_le_one (hn : (named.map Prod.fst).Nodup) (field : String) :
    (named.filter fun (key, _) => key == field).length ≤ 1 := by
  have hcount := List.nodup_iff_count_le_one.1 hn field
  rw [List.count, List.countP_map] at hcount
  rw [← List.countP_eq_length_filter]
  exact hcount

theorem Distinct.of_nodup (hn : (named.map Prod.fst).Nodup) : Distinct fields (membersOf named) :=
  distinct_membersOf_iff.2 fun field _ => length_filter_le_one hn field

/-- A list is read as the object of the fields in their order. -/
theorem sectionOf?_array {items : List Node} (hn : fields.Nodup)
    (h : items.length ≤ fields.length) :
    sectionOf? fields (.array items) =
      sectionOf? fields (.object (membersOf (fields.zip items))) := by
  have hkeys : ((fields.zip items).map Prod.fst).Nodup := by
    rw [List.zip_eq_zip_take_min, List.map_fst_zip (by simp)]
    exact hn.sublist (List.take_sublist _ fields)
  have hknown : (fields.zip items).filter (fun (key, _) => fields.contains key) =
      fields.zip items := by
    refine List.filter_eq_self.2 fun pair hpair => List.contains_iff_mem.2 ?_
    exact (List.of_mem_zip hpair).1
  have hlist : sectionOf? fields (.array items) = some (fields.zip items) := if_pos h
  rw [hlist]
  exact ((fieldsOf?_membersOf fields (fields.zip items)).2 ⟨.of_nodup hkeys, hknown⟩).symm

/-- What is read at all is read of an object. -/
theorem exists_object_of_sectionOf? {node : Node} (hn : fields.Nodup)
    (h : sectionOf? fields node = some known) :
    ∃ members, sectionOf? fields (.object members) = some known := by
  cases node with
  | object members => exact ⟨members, h⟩
  | array items =>
    have hlength : items.length ≤ fields.length := by
      by_contra hlength
      rw [show sectionOf? fields (.array items) = none from if_neg hlength] at h
      cases h
    exact ⟨_, (sectionOf?_array hn hlength).symm.trans h⟩
  | _ => cases h

/-! ## Reading back -/

/-- The numbers of the storage fit their types. -/
structure Storage.Fits (s : Storage) : Prop where
  chunkRows : s.chunkRows < Word.limit
  compressionLevel : s.compressionLevel < 256

theorem Gives.lt {bound default n : Nat} (hdefault : default < bound)
    (h : Gives members field default (naturalBelow? bound) n) : n < bound := by
  obtain ⟨node, -, hread⟩ | ⟨-, rfl⟩ := h
  · obtain ⟨numeral, -, -, hn⟩ := naturalBelow?_eq_some_iff.1 hread
    exact hn
  · exact hdefault

theorem storageOf?_fits {node : Node} {s : Storage} (h : storageOf? node = some s) : s.Fits := by
  obtain ⟨known, hknown, h⟩ := Option.bind_eq_some_iff.1 h
  obtain ⟨members, hmembers⟩ := exists_object_of_sectionOf? (by decide) hknown
  have hobject : storageOf? (.object members) = some s :=
    Option.bind_eq_some_iff.2 ⟨known, hmembers, h⟩
  obtain ⟨-, -, -, hrows, hlevel⟩ := storageOf?_object_iff.1 hobject
  exact ⟨hrows.lt (by decide), hlevel.lt (by decide)⟩

/-- The numbers that are read fit. -/
theorem ofNode?_fits {node : Node} {c : Config} (h : ofNode? node = some c) : c.storage.Fits := by
  obtain ⟨known, hknown, h⟩ := Option.bind_eq_some_iff.1 h
  obtain ⟨members, hmembers⟩ := exists_object_of_sectionOf? (by decide) hknown
  have hobject : ofNode? (.object members) = some c :=
    Option.bind_eq_some_iff.2 ⟨known, hmembers, h⟩
  obtain ⟨-, -, ⟨node, -, hstorage⟩ | ⟨-, hdefault⟩⟩ := ofNode?_object_iff.1 hobject
  · exact storageOf?_fits hstorage
  · rw [hdefault]
    exact ⟨by decide, by decide⟩

/-- The document of a natural number. -/
def natural (n : Nat) : Node := .number ⟨⟨false, n, 0⟩, true⟩

def Storage.node (s : Storage) : Node :=
  .object (membersOf [("base_location", .string (some s.baseLocation)),
    ("file_extension", .string (some s.fileExtension)), ("chunk_rows", natural s.chunkRows),
    ("compression_level", natural s.compressionLevel)])

def Application.node (a : Application) : Node :=
  .object (membersOf [("log_level", .string (some a.logLevel))])

/-- The document of a configuration. -/
def node (c : Config) : Node :=
  .object (membersOf [("application", c.application.node), ("storage", c.storage.node)])

theorem naturalBelow?_natural {bound n : Nat} (hbound : bound ≤ Word.limit) (hn : n < bound) :
    naturalBelow? bound (natural n) = some n :=
  naturalBelow?_eq_some_iff.2 ⟨_, rfl, number?_natural (Nat.lt_of_lt_of_le hn hbound), hn⟩

theorem applicationOf?_node (a : Application) : applicationOf? a.node = some a := by
  have hkeys : ["log_level"].Nodup := by decide
  exact applicationOf?_object_iff.2 ⟨.of_nodup hkeys, .inl ⟨_, List.mem_cons_self, rfl⟩⟩

theorem storageOf?_node {s : Storage} (h : s.Fits) : storageOf? s.node = some s := by
  have hrows := naturalBelow?_natural (Nat.le_refl Word.limit) h.chunkRows
  have hlevel := naturalBelow?_natural (by decide) h.compressionLevel
  have hkeys : storageFields.Nodup := by decide
  refine storageOf?_object_iff.2 ⟨.of_nodup hkeys, .inl ⟨.string (some s.baseLocation), ?_, rfl⟩,
    .inl ⟨.string (some s.fileExtension), ?_, rfl⟩, .inl ⟨_, ?_, hrows⟩, .inl ⟨_, ?_, hlevel⟩⟩
  all_goals simp [membersOf]

/-- A configuration reads back just if its numbers fit. -/
theorem ofNode?_node (c : Config) : ofNode? c.node = some c ↔ c.storage.Fits := by
  refine ⟨ofNode?_fits, fun h => ?_⟩
  have hkeys : ["application", "storage"].Nodup := by decide
  refine ofNode?_object_iff.2 ⟨.of_nodup hkeys, .inl ⟨_, ?_, applicationOf?_node c.application⟩,
    .inl ⟨_, ?_, storageOf?_node h⟩⟩
  all_goals simp [membersOf]

end ArrayStore.Config
