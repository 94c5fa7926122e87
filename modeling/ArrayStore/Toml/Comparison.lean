import ArrayStore.Toml.Value

/-!
# Comparing values of a TOML document

* `Toml.Value.equals` : two values are the same, part by part;
* `equals_refl`, `eq_of_equals` : this decides equality.
-/

namespace ArrayStore.Toml

namespace Value

mutual

/-- Are two values the same? -/
def equals : Value → Value → Bool
  | .bool a, .bool b => a == b
  | .integer a, .integer b => a == b
  | .float a, .float b => a == b
  | .string a, .string b => a == b
  | .dateTime a, .dateTime b => a == b
  | .array a, .array b => equalItems a b
  | .table a, .table b => equalEntries a b
  | _, _ => false

def equalItems : List Value → List Value → Bool
  | [], [] => true
  | a :: as, b :: bs => equals a b && equalItems as bs
  | _, _ => false

def equalEntries : List (String × Value) → List (String × Value) → Bool
  | [], [] => true
  | (key, a) :: as, (key', b) :: bs => key == key' && equals a b && equalEntries as bs
  | _, _ => false

end

mutual

theorem equals_refl : ∀ a : Value, equals a a = true
  | .bool a | .integer a | .float a | .string a | .dateTime a => beq_self_eq_true a
  | .array items => equalItems_refl items
  | .table entries => equalEntries_refl entries

theorem equalItems_refl : ∀ items : List Value, equalItems items items = true
  | [] => rfl
  | a :: items => Bool.and_eq_true_iff.2 ⟨equals_refl a, equalItems_refl items⟩

theorem equalEntries_refl : ∀ entries : List (String × Value), equalEntries entries entries = true
  | [] => rfl
  | (key, a) :: entries => by
    rw [equalEntries, beq_self_eq_true, equals_refl a, equalEntries_refl entries]
    rfl

end

mutual

theorem eq_of_equals : ∀ {a b : Value}, equals a b = true → a = b
  | .bool _, .bool _, h => congrArg _ (eq_of_beq h)
  | .integer _, .integer _, h => congrArg _ (eq_of_beq h)
  | .float _, .float _, h => congrArg _ (eq_of_beq h)
  | .string _, .string _, h => congrArg _ (eq_of_beq h)
  | .dateTime _, .dateTime _, h => congrArg _ (eq_of_beq h)
  | .array _, .array _, h => congrArg _ (eq_of_equalItems h)
  | .table _, .table _, h => congrArg _ (eq_of_equalEntries h)

theorem eq_of_equalItems : ∀ {a b : List Value}, equalItems a b = true → a = b
  | [], [], _ => rfl
  | _ :: _, _ :: _, h => by
    obtain ⟨hfirst, hrest⟩ := Bool.and_eq_true_iff.1 h
    rw [eq_of_equals hfirst, eq_of_equalItems hrest]

theorem eq_of_equalEntries : ∀ {a b : List (String × Value)}, equalEntries a b = true → a = b
  | [], [], _ => rfl
  | (_, _) :: _, (_, _) :: _, h => by
    obtain ⟨hfirst, hrest⟩ := Bool.and_eq_true_iff.1 h
    obtain ⟨hkey, hvalue⟩ := Bool.and_eq_true_iff.1 hfirst
    rw [eq_of_beq hkey, eq_of_equals hvalue, eq_of_equalEntries hrest]

end

instance : DecidableEq Value := fun a b =>
  if h : equals a b then isTrue (eq_of_equals h)
  else isFalse fun he => h (he ▸ equals_refl a)

end Value

end ArrayStore.Toml
