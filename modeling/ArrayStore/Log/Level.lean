import ArrayStore.Text.Digits

/-!
# Log levels

* `Log.Level` : the levels, from nothing to everything;
* `Log.Level.read?` : a level by name or number.
-/

namespace ArrayStore.Log

/-- How much is logged, from nothing to everything. -/
inductive Level where
  | off | error | warn | info | debug | trace
  deriving DecidableEq, Repr

namespace Level

def name : Level → String
  | .off => "off"
  | .error => "error"
  | .warn => "warn"
  | .info => "info"
  | .debug => "debug"
  | .trace => "trace"

def all : List Level := [.off, .error, .warn, .info, .debug, .trace]

def max (a b : Level) : Level := if all.idxOf a < all.idxOf b then b else a

/-- A number without sign or with a plus. -/
def readNumber? (text : List Char) : Option Nat :=
  let digits := match text with
    | '+' :: rest => rest
    | rest => rest
  if digits.isEmpty || !digits.all Text.isDigit then none else some (Text.readDigits digits)

/-- A level by its number from zero, or by its name in any case. -/
def read? (text : List Char) : Option Level :=
  match readNumber? text with
  | some n => all[n]?
  | none => all.find? fun level => level.name.toList == text.map Char.toLower

end Level

end ArrayStore.Log
