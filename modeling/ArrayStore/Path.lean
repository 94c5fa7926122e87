/-!
# Paths

A path is a text with `/` between its components. Nothing is normalised.

* `Path.components` : the components between the slashes, empty ones and `.` left out;
* `Path.fileName?` : the last component, unless it is `..`;
* `Path.isAbsolute`, `Path.join` : an absolute path replaces the base that it is joined to;
* `Path.trimSeparators` : a location without the slashes and backslashes at its end.
-/

namespace ArrayStore.Path

def split : List Char → List (List Char)
  | [] => [[]]
  | c :: rest =>
    if c = '/' then [] :: split rest
    else
      match split rest with
      | [] => [[c]]
      | first :: others => (c :: first) :: others

/-- The components that name a file or a folder, or go up. -/
def components (path : List Char) : List (List Char) :=
  (split path).filter fun part => !part.isEmpty && part != ['.']

/-- The last component, unless there is none or it goes up. -/
def fileName? (path : List Char) : Option (List Char) :=
  match (components path).getLast? with
  | some name => if name = ['.', '.'] then none else some name
  | none => none

def isAbsolute (path : List Char) : Bool := path.head? == some '/'

/-- A relative path behind the base, with a slash between them if the base does not end in one. -/
def join (base location : List Char) : List Char :=
  if isAbsolute location then location
  else if base.isEmpty || base.getLast? == some '/' then base ++ location
  else base ++ '/' :: location

def isSeparator (c : Char) : Bool := c = '/' || c = '\\'

/-- Drops the slashes and backslashes at the end. -/
def trimSeparators (location : List Char) : List Char :=
  (location.reverse.dropWhile isSeparator).reverse

end ArrayStore.Path
