import ArrayStore.Path

/-!
# Trees of files and folders

* `FileTree` : a file, or a folder with named entries;
* `FileTree.get?` : what stands at a list of names;
* `FileTree.resolve?` : the names that a path leads to, from the root or from a folder. Each
  component but the last must be a folder, and so must be the last if a slash or `.` follows;
* `FileTree.isFile`, `FileTree.content?` : the path leads to a file, and what it holds.
-/

namespace ArrayStore

/-- A file, or a folder with its entries. -/
inductive FileTree where
  | file (content : String)
  | folder (entries : List (String × FileTree))
  deriving Repr, Inhabited

namespace FileTree

def entry? (name : String) : FileTree → Option FileTree
  | .file _ => none
  | .folder entries => entries.lookup name

/-- What stands at a list of names, from the root down. -/
def get? (t : FileTree) : List String → Option FileTree
  | [] => some t
  | name :: names => (t.entry? name).bind fun sub => sub.get? names

def isFolderAt (t : FileTree) (names : List String) : Bool :=
  match t.get? names with
  | some (.folder _) => true
  | _ => false

def isFileAt (t : FileTree) (names : List String) : Bool :=
  match t.get? names with
  | some (.file _) => true
  | _ => false

/-- Goes on from the folder at `names` by a component. An empty one or `.` stays, `..` goes up, and
stays at the root. -/
def walk (t : FileTree) (names : List String) (part : List Char) : Option (List String) :=
  if t.isFolderAt names then
    if part.isEmpty || part == ['.'] then some names
    else if part == ['.', '.'] then some names.dropLast
    else some (names ++ [String.ofList part])
  else none

/-- The names that a path leads to: an absolute path from the root, any other from the folder at
`start`. -/
def resolve? (t : FileTree) (start : List String) (path : String) : Option (List String) :=
  if path.isEmpty then none
  else (Path.split path.toList).foldlM t.walk (if Path.isAbsolute path.toList then [] else start)

/-- A path leads to a file, if it is read from the folder at `start`. -/
def isFile (t : FileTree) (start : List String) (path : String) : Bool :=
  match t.resolve? start path with
  | some names => t.isFileAt names
  | none => false

/-- What the file holds that a path leads to. -/
def content? (t : FileTree) (start : List String) (path : String) : Option String :=
  match (t.resolve? start path).bind t.get? with
  | some (.file content) => some content
  | _ => none

/-! ## Building -/

/-- Puts a tree at a list of names, making the folders on the way. -/
def put (sub : FileTree) : List String → FileTree → FileTree
  | [], t =>
    match t, sub with
    | .folder entries, .folder [] => .folder entries
    | _, sub => sub
  | name :: names, t =>
    let entries := match t with
      | .folder entries => entries
      | .file _ => []
    let old := (entries.lookup name).getD (.folder [])
    .folder ((name, put sub names old) :: entries.filter fun (other, _) => other != name)

/-- The tree with the given files and folders, which are named by relative paths. -/
def ofPaths (files : List (String × String)) (folders : List String) : FileTree :=
  let names (path : String) : List String := (Path.components path.toList).map String.ofList
  let withFolders := folders.foldl (fun t path => put (.folder []) (names path) t) (.folder [])
  files.foldl (fun t (path, content) => put (.file content) (names path) t) withFolders

end FileTree

end ArrayStore
