import ArrayStore.Config.Setting
import ArrayStore.Double.Read
import ArrayStore.Text.Blank
import ArrayStore.Text.Escape
import ArrayStore.Text.Scan
import ArrayStore.Text.Slice

/-!
# Environment variables

A variable such as `RUSTDAQ_STORAGE__CHUNK_ROWS` sets the field `storage.chunk_rows`.

* `Variable.keys?` : the keys that the name of a variable stands for;
* `Variable.readSetting` : reads a value: a boolean, a quoted text, a list, a table, a number, or
  any other text;
* `Variable.settingOf` : the setting of the text of a variable;
* `Variable.settings` : the settings of all variables.
-/

namespace ArrayStore.Config.Variable
open Text

/-! ## Names -/

/-- The beginning of the names of all variables, in any case. -/
def mark : List Char := "RUSTDAQ_".toList

/-- Every two underscores are a dot. -/
def dotted : List Char → List Char
  | '_' :: '_' :: rest => '.' :: dotted rest
  | c :: rest => c :: dotted rest
  | [] => []

def splitDots : List Char → List (List Char)
  | [] => [[]]
  | c :: rest =>
    match splitDots rest with
    | [] => [[c]]
    | first :: others => if c = '.' then [] :: first :: others else (c :: first) :: others

/-- The keys that a name stands for, if it has the mark and no key is empty. -/
def keys? (name : String) : Option (List String) :=
  let name := trim name.toList
  if (name.take mark.length).map Char.toUpper = mark then
    let keys := splitDots (trim ((dotted (name.drop mark.length)).map Char.toLower))
    if keys.any List.isEmpty then none else some (keys.map String.ofList)
  else none

/-! ## Values -/

/-- The blanks that may stand around values. -/
def isSpace (c : Char) : Bool :=
  c = ' ' || c = '\t' || c = '\n' || c = '\x0c' || c = '\r'

def skipSpace (s : List Char) : List Char := s.dropWhile isSpace

/-- A character that ends a plain value. -/
def isMark (c : Char) : Bool := c = ',' || c = '\x7b' || c = '\x7d' || c = '[' || c = ']'

def isKeyChar (c : Char) : Bool := c.isAlphanum || c = '_' || c = '-'

/-- An integer of 64 bits, unsigned if it can be. -/
def readInteger (s : List Char) : Option Scalar :=
  let (negative, digits) := Decimal.readSign s
  if digits.isEmpty || !digits.all isDigit then none
  else
    let n := readDigits digits
    if negative then if n ≤ Word.half then some (.signed (-n)) else none
    else if n < Word.limit then some (.unsigned n)
    else none

/-- The value of a plain text: a float if it has a point, an integer, or the text itself. -/
def plain (s : List Char) : Scalar :=
  match if s.contains '.' then Decimal.read? s else none with
  | some decimal => .float decimal.nearest
  | none => (readInteger s).getD (.text (String.ofList s))

/-- Splits before the first quote that no backslash stands in front of. -/
def splitQuoted : List Char → List Char × List Char
  | [] => ([], [])
  | '\\' :: c :: rest =>
    let (inner, rest) := splitQuoted rest
    ('\\' :: c :: inner, rest)
  | c :: rest =>
    if c = '"' then ([], c :: rest)
    else
      let (inner, rest) := splitQuoted rest
      (c :: inner, rest)

inductive Stop where
  /-- The text is not written as a value. -/
  | mismatch
  /-- A quoted text is cut inside a character. -/
  | splitCharacter
  deriving DecidableEq, Repr

abbrev Read (α : Type) := Except Stop α

/-- A text with its escapes replaced. Control characters other than a tab are refused. -/
def replaceEscapes : List Char → Option (List Char)
  | [] => some []
  | '\\' :: 'u' :: a :: b :: c :: d :: rest => do
    let code ← charOfCode? [a, b, c, d]
    return code :: (← replaceEscapes rest)
  | '\\' :: 'U' :: a :: b :: c :: d :: e :: f :: g :: h :: rest => do
    let code ← charOfCode? [a, b, c, d, e, f, g, h]
    return code :: (← replaceEscapes rest)
  | '\\' :: c :: rest => do
    let c ← namedEscape? c
    return c :: (← replaceEscapes rest)
  | c :: rest =>
    if c = '\\' || !isPlain c then none else (replaceEscapes rest).map (c :: ·)

/-- The text that stands between quotes. If there are escapes, what stands in front of the first one
is cut to as many bytes as it has characters. -/
def unescape (s : List Char) : Read (List Char) :=
  let (before, rest) := s.span (· != '\\')
  if !before.all isPlain then .error .mismatch
  else if rest.isEmpty then .ok before
  else
    match splitAt? before.length before with
    | none => .error .splitCharacter
    | some (kept, _) =>
      match replaceEscapes rest with
      | none => .error .mismatch
      | some text => .ok (kept ++ text)

def readQuoted (s : List Char) : Read (String × List Char) :=
  match splitQuoted s with
  | (inner, '"' :: rest) => (unescape inner).map fun text => (String.ofList text, rest)
  | _ => .error .mismatch

def readKey (s : List Char) : Read (String × List Char) :=
  let read := match skipSpace s with
    | '"' :: rest => readQuoted rest
    | s =>
      match s.span isKeyChar with
      | ([], _) => .error .mismatch
      | (key, rest) => .ok (String.ofList key, rest)
  read.map fun (key, rest) => (key, skipSpace rest)

mutual

/-- Reads a value and the blanks around it. `fuel` bounds the calls. -/
def readSetting (fuel : Nat) (s : List Char) : Read (Setting × List Char) :=
  match fuel with
  | 0 => .error .mismatch
  | fuel + 1 =>
    (readUntrimmed fuel (skipSpace s)).map fun (setting, rest) => (setting, skipSpace rest)

/-- Reads a value that starts with no blank. -/
def readUntrimmed (fuel : Nat) (s : List Char) : Read (Setting × List Char) :=
  match fuel with
  | 0 => .error .mismatch
  | fuel + 1 =>
    match expect "true".toList s with
    | some rest => .ok (.scalar (.bool true) .environment, rest)
    | none =>
      match expect "false".toList s with
      | some rest => .ok (.scalar (.bool false) .environment, rest)
      | none =>
        match s with
        | '\x7b' :: rest =>
          (readEntries fuel rest).map fun (entries, rest) =>
            (.table (Keyed.ofList entries) .environment, rest)
        | '[' :: rest =>
          (readItems fuel rest).map fun (items, rest) => (.sequence items .environment, rest)
        | '"' :: rest =>
          (readQuoted rest).map fun (text, rest) => (.scalar (.text text) .environment, rest)
        | '\x27' :: rest =>
          match rest with
          | c :: '\x27' :: rest =>
            .ok (.scalar (.text (String.ofList [c])) .environment, rest)
          | _ => .error .mismatch
        | s =>
          let (text, rest) := s.span fun c => !isMark c
          .ok (.scalar (plain (trim text)) .environment, rest)

/-- Reads the items of a list and its closing bracket; a comma may stand behind the last one. -/
def readItems (fuel : Nat) (s : List Char) : Read (List Setting × List Char) :=
  match fuel, s with
  | 0, _ => .error .mismatch
  | _ + 1, ']' :: rest => .ok ([], rest)
  | fuel + 1, s =>
    match readSetting fuel s with
    | .ok (item, ',' :: rest) =>
      (readItems fuel rest).map fun (items, rest) => (item :: items, rest)
    | .ok (item, ']' :: rest) => .ok ([item], rest)
    | .ok _ => .error .mismatch
    | .error stop => .error stop

/-- Reads the keys and values of a table and its closing brace; a comma may stand behind the last
one. -/
def readEntries (fuel : Nat) (s : List Char) : Read (Settings × List Char) :=
  match fuel, s with
  | 0, _ => .error .mismatch
  | _ + 1, '\x7d' :: rest => .ok ([], rest)
  | fuel + 1, s =>
    match readKey s with
    | .ok (key, '=' :: rest) =>
      match readSetting fuel rest with
      | .ok (value, ',' :: rest) =>
        (readEntries fuel rest).map fun (entries, rest) => ((key, value) :: entries, rest)
      | .ok (value, '\x7d' :: rest) => .ok ([(key, value)], rest)
      | .ok _ => .error .mismatch
      | .error stop => .error stop
    | .ok _ => .error .mismatch
    | .error stop => .error stop

end

/-- The setting of the text of a variable. A text that is not written as a value, or goes on behind
one, stands for itself as a whole. -/
def settingOf (text : String) : Except StoreError Setting :=
  match readSetting (3 * text.toList.length + 3) text.toList with
  | .ok (setting, []) => .ok setting
  | .error .splitCharacter => .error .splitCharacter
  | _ => .ok (.scalar (.text text) .environment)

/-! ## All variables -/

/-- The settings with a value at a list of keys. -/
def nest : List String → Setting → Setting
  | [], setting => setting
  | key :: keys, setting => .table [(key, nest keys setting)] .environment

/-- The variables as the environment holds them: a name stands where it came first, with the value
that came last. -/
def environment (assignments : List (String × String)) : List (String × String) :=
  assignments.foldl (fun env (name, value) =>
    if env.any fun (other, _) => other == name then
      env.map fun (other, old) => (other, if other == name then value else old)
    else env ++ [(name, value)]) []

/-- The settings of all variables; a later one stands over the earlier ones. -/
def settings (assignments : List (String × String)) : Except StoreError Settings :=
  (environment assignments).foldlM (fun settings (name, value) =>
    match keys? name with
    | none => return settings
    | some keys => do
      match nest keys (← settingOf value) with
      | .table entries _ => return Setting.mergeEntries settings entries
      | _ => return settings) []

end ArrayStore.Config.Variable
