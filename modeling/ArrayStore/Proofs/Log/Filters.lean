import ArrayStore.Proofs.Log.Directives

/-!
# Log filters

* `Filter.pieces_intercalate` : the pieces of a text are what stands between its commas;
* `Filter.read_written` : directives with commas between them are read as they were;
* `start_eq_ok_iff` : a log can be started once;
* `startAll`, `filter_startAll` : however often a log is started, the first filter that can be read
  stands.
-/

namespace ArrayStore.Log

namespace Filter

/-! ## Parts -/

/-- The pieces of a text between commas, the empty ones too. -/
def pieces (s : List Char) : List (List Char) :=
  s.foldr (fun c parts =>
    if c = ',' then [] :: parts
    else match parts with
      | [] => [[c]]
      | part :: parts => (c :: part) :: parts) [[]]

theorem parts_eq (s : List Char) : parts s = (pieces s).filter fun part => !part.isEmpty := rfl

theorem pieces_append_comma {s : List Char} (hs : ∀ c ∈ s, c ≠ ',') (rest : List Char) :
    pieces (s ++ ',' :: rest) = s :: pieces rest := by
  induction s with
  | nil => rfl
  | cons c s ih =>
    obtain ⟨hc, hs⟩ := List.forall_mem_cons.1 hs
    show (if c = ',' then _ else _) = _
    rw [if_neg hc]
    show (match pieces (s ++ ',' :: rest) with
      | [] => [[c]]
      | part :: parts => (c :: part) :: parts) = _
    rw [ih hs]

theorem pieces_of_no_comma {s : List Char} (hs : ∀ c ∈ s, c ≠ ',') : pieces s = [s] := by
  induction s with
  | nil => rfl
  | cons c s ih =>
    obtain ⟨hc, hs⟩ := List.forall_mem_cons.1 hs
    show (if c = ',' then _ else _) = _
    rw [if_neg hc]
    show (match pieces s with
      | [] => [[c]]
      | part :: parts => (c :: part) :: parts) = _
    rw [ih hs]

/-- The pieces of a text are what stands between its commas. -/
theorem pieces_intercalate {texts : List (List Char)} (hne : texts ≠ [])
    (h : ∀ text ∈ texts, ∀ c ∈ text, c ≠ ',') : pieces ([','].intercalate texts) = texts := by
  induction texts with
  | nil => exact (hne rfl).elim
  | cons text texts ih =>
    obtain ⟨htext, h⟩ := List.forall_mem_cons.1 h
    cases texts with
    | nil =>
      rw [List.intercalate_singleton]
      exact pieces_of_no_comma htext
    | cons next texts =>
      rw [List.intercalate_cons_cons, List.append_assoc]
      exact (pieces_append_comma htext _).trans (congrArg _ (ih (List.cons_ne_nil _ _) h))

theorem parts_written {directives : List Directive}
    (hcomma : ∀ d ∈ directives, ∀ c ∈ d.written, c ≠ ',') :
    parts ([','].intercalate (directives.map Directive.written)) =
      directives.map Directive.written := by
  cases directives with
  | nil => rfl
  | cons d directives =>
    have hne : (d :: directives).map Directive.written ≠ [] := List.cons_ne_nil _ _
    rw [parts_eq, pieces_intercalate hne (List.forall_mem_map.2 hcomma), List.filter_eq_self]
    refine List.forall_mem_map.2 fun d _ => ?_
    rw [Bool.not_eq_true', List.isEmpty_eq_false_iff]
    exact d.written_ne_nil

/-- Directives with commas between them are read as they were. -/
theorem read_written {directives : List Directive} (h : ∀ d ∈ directives, d.IsPlain)
    (hcomma : ∀ d ∈ directives, ∀ c ∈ d.written, c ≠ ',') :
    read (String.ofList ([','].intercalate (directives.map Directive.written))) =
      .ok ⟨directives⟩ := by
  have hall : (directives.map Directive.written).mapM Directive.read = .ok directives := by
    clear hcomma
    induction directives with
    | nil => rfl
    | cons d directives ih =>
      obtain ⟨hd, h⟩ := List.forall_mem_cons.1 h
      rw [List.map_cons, List.mapM_cons, Directive.read_written hd, ih h]
      rfl
  rw [read, String.toList_ofList, parts_written hcomma, hall]
  rfl

end Filter

/-! ## Starting the log -/

theorem start_eq_ok_iff {log started : Log} {environment : Option String} {configured : String} :
    log.start environment configured = .ok started ↔
      log.filter = none ∧ ∃ f, filterOf environment configured = .ok f ∧ started = ⟨some f⟩ := by
  unfold start
  cases filterOf environment configured with
  | error fault =>
    constructor
    · exact fun h => by cases h
    · rintro ⟨-, f, h, -⟩
      cases h
  | ok f =>
    cases hfilter : log.filter with
    | none =>
      constructor
      · exact fun h => ⟨rfl, f, rfl, (Except.ok.inj h).symm⟩
      · rintro ⟨-, g, h, rfl⟩
        cases h
        rfl
    | some g =>
      constructor
      · exact fun h => by cases h
      · rintro ⟨h, -⟩
        cases h

/-- The log after it has been started, or if that fails, as it was. -/
def started (log : Log) (environment : Option String) (configured : String) : Log :=
  ((log.start environment configured).toOption).getD log

/-- The log after a sequence of starts. -/
def startAll (log : Log) (starts : List (Option String × String)) : Log :=
  starts.foldl (fun log entry => log.started entry.1 entry.2) log

/-- A log that has been started stays as it is. -/
theorem started_of_isSome {log : Log} (h : log.filter.isSome = true) (environment : Option String)
    (configured : String) : log.started environment configured = log := by
  unfold started
  cases hstart : log.start environment configured with
  | error fault => rfl
  | ok other =>
    rw [(start_eq_ok_iff.1 hstart).1] at h
    cases h

theorem filter_started (environment : Option String) (configured : String) :
    (started {} environment configured).filter = (filterOf environment configured).toOption := by
  unfold started start
  cases filterOf environment configured <;> rfl

/-- However often a log is started, the first filter that can be read stands. -/
theorem filter_startAll (starts : List (Option String × String)) :
    (startAll {} starts).filter = starts.findSome? fun entry =>
      (filterOf entry.1 entry.2).toOption := by
  have hstays : ∀ (starts : List (Option String × String)) (log : Log),
      log.filter.isSome = true → startAll log starts = log := by
    intro starts
    induction starts with
    | nil => exact fun _ _ => rfl
    | cons entry starts ih =>
      intro log h
      rw [startAll, List.foldl_cons, started_of_isSome h]
      exact ih log h
  induction starts with
  | nil => rfl
  | cons entry starts ih =>
    have hfirst := filter_started entry.1 entry.2
    rw [startAll, List.foldl_cons, List.findSome?_cons, ← hfirst]
    cases hfilter : (started {} entry.1 entry.2).filter with
    | some f =>
      rw [← startAll, hstays _ _ (by rw [hfilter]; rfl), hfilter]
    | none =>
      have hempty : started {} entry.1 entry.2 = {} := by
        cases hlog : started {} entry.1 entry.2 with
        | mk filter =>
          rw [hlog] at hfilter
          exact congrArg Log.mk hfilter
      rw [hempty]
      exact ih

end ArrayStore.Log
