import ArrayStore.Text.Blank

/-!
# List literals: writing

A list of texts is written as `['V', "it's", '']`.

* `ListLiteral.delimiterOf` : the quote that a text is written in;
* `ListLiteral.quote` : a text in quotes;
* `ListLiteral.render` : a list of texts.
-/

namespace ArrayStore.ListLiteral

abbrev apostrophe : Char := '\x27'

/-- A text stands in single quotes, unless it holds a single quote and no double quote. -/
def delimiterOf (text : List Char) : Char :=
  if text.contains apostrophe && !text.contains '"' then '"' else apostrophe

/-- A character between quotes: backslash, line feed, tab and the quote itself are escaped. -/
def escapeChar (delimiter c : Char) : List Char :=
  if c = '\\' then ['\\', '\\']
  else if c = '\n' then ['\\', 'n']
  else if c = '\t' then ['\\', 't']
  else if c = delimiter then ['\\', c]
  else [c]

def quote (text : List Char) : List Char :=
  let delimiter := delimiterOf text
  delimiter :: text.flatMap (escapeChar delimiter) ++ [delimiter]

/-- Written entries, separated by a comma and a space. -/
def join : List (List Char) → List Char
  | [] => []
  | [entry] => entry
  | entry :: entries => entry ++ [',', ' '] ++ join entries

/-- Written entries as a list literal. -/
def bracket (entries : List (List Char)) : List Char := '[' :: join entries ++ [']']

def render (texts : List String) : String :=
  String.ofList (bracket (texts.map fun text => quote text.toList))

end ArrayStore.ListLiteral
