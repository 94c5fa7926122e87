import ArrayStore.Double.Read
import ArrayStore.Log.Level
import ArrayStore.Text.Pattern
import ArrayStore.Text.Quoted
import ArrayStore.Text.Slice

/-!
# Directives of a log filter

A directive such as `db[query{kind=read}]=debug` names a target, a span with a field, and the level
that it enables for them. A single word is a level, or else a target.

* `Log.Directive`, `Log.Field` : a directive, and a field that a span must have;
* `Log.Fault` : why a text is no directive;
* `Log.Directive.read` : the directive that a text holds.

The marks of a directive are found in its text without the blanks around it. What stands between
them is then taken from the whole text at the same positions, so that leading blanks shift it.
-/

namespace ArrayStore.Log

/-- A field of a span, and the value that it must have. -/
structure Field where
  name : String
  value : Option String := none
  deriving DecidableEq, Repr

/-- What a filter enables: a level, for a target and for a span with fields. -/
structure Directive where
  level : Level := .trace
  target : Option String := none
  span : Option String := none
  field : Option Field := none
  deriving DecidableEq, Repr

inductive Fault where
  /-- The marks do not stand as in a directive. -/
  | shape
  /-- What should be a level is none. -/
  | level
  /-- The value of a field is neither a number nor a usable pattern. -/
  | pattern (fault : Text.Pattern.Fault)
  /-- A part begins or ends inside a character. -/
  | splitCharacter
  deriving DecidableEq, Repr

def Fault.text : Fault → String
  | .shape => "invalid filter directive"
  | .level =>
    "error parsing level filter: expected one of " ++
      ", ".intercalate (Level.all.map fun level => Text.quoted level.name) ++
      ", or a number 0-5"
  | .pattern fault => "invalid field filter: " ++ fault.text
  | .splitCharacter => "a part ends inside a character"

namespace Directive

/-! ## Parts -/

/-- The part of the whole text from one position up to another. -/
def part (whole : List Char) (start stop : Nat) : Except Fault (List Char) :=
  match Text.slice? start stop whole with
  | some text => .ok text
  | none => .error .splitCharacter

/-- The level that stands at a position of the whole text; none is the most verbose one. -/
def levelFrom (whole : List Char) (start : Nat) : Except Fault Level := do
  let text ← part whole start (Text.byteCount whole)
  if text.isEmpty then return .trace
  else
    match Level.read? text with
    | some level => return level
    | none => .error .level

/-- The field that a text names. Its value is a number or a pattern, and ends at the next `=`. -/
def readField (text : List Char) : Except Fault Field :=
  if text.isEmpty then .error .shape
  else
    let (name, rest) := text.span (· != '=')
    match rest with
    | [] => .ok { name := String.ofList name }
    | _ :: rest =>
      let value := rest.takeWhile (· != '=')
      let field := { name := String.ofList name, value := some (String.ofList value) }
      if Decimal.isNumeral value then .ok field
      else
        match Text.Pattern.check value with
        | .ok () => .ok field
        | .error fault => .error (.pattern fault)

/-! ## Directives -/

/-- A target may start with a letter, a number or one of `-`, `:` and `_`. -/
def startsTarget (c : Char) : Bool :=
  Text.isAlphanumeric c || c = '-' || c = ':' || c = '_'

/-- Reads the end of a directive: nothing, or a level behind a mark at the given position. -/
def readEnd (whole : List Char) (d : Directive) (position : Nat) :
    List Char → Except Fault Directive
  | [] => .ok d
  | '=' :: _ => do return { d with level := ← levelFrom whole (position + 1) }
  | _ => .error .shape

/-- Reads a span, which starts at the given position behind its bracket, and the end of the
directive. A span without name may still have a field. -/
def readSpan (whole : List Char) (d : Directive) (start : Nat) (s : List Char) :
    Except Fault Directive := do
  let (name, rest) := s.span fun c => c != ']' && c != '\x7b'
  let stop := start + Text.byteCount name
  match rest with
  | [] => .error .shape
  | ']' :: rest =>
    let span ← part whole start stop
    readEnd whole { d with span := some (String.ofList span) } (stop + 1) rest
  | _ :: rest =>
    let span ← part whole start stop
    let d := if span.isEmpty then d else { d with span := some (String.ofList span) }
    let (field, rest) := rest.span (· != '\x7d')
    let fieldStop := stop + 1 + Text.byteCount field
    match rest with
    | [] => .error .shape
    | _ :: rest =>
      let field ← readField (← part whole (stop + 1) fieldStop)
      match rest with
      | ']' :: rest => readEnd whole { d with field := some field } (fieldStop + 2) rest
      | _ => .error .shape

/-- The directive that a text without commas holds. -/
def read (whole : List Char) : Except Fault Directive :=
  match Text.trim whole with
  | [] => .error .shape
  | '[' :: rest => readSpan whole {} 1 rest
  | c :: rest =>
    if startsTarget c then do
      let (target, rest) := (c :: rest).span fun c => c != '=' && c != '['
      let stop := Text.byteCount target
      match rest with
      | [] =>
        match Level.read? whole with
        | some level => return { level }
        | none => return { target := some (String.ofList whole) }
      | mark :: rest =>
        let target ← part whole 0 stop
        let d : Directive := { target := some (String.ofList target) }
        if mark = '=' then readEnd whole d stop (mark :: rest)
        else readSpan whole d (stop + 1) rest
    else .error .shape

def asksForValue (d : Directive) : Bool :=
  match d.field with
  | some field => field.value.isSome
  | none => false

end Directive

end ArrayStore.Log
