import ArrayStore.Config.Variable
import ArrayStore.FileTree
import ArrayStore.Toml.Document

/-!
# Loading a configuration

* `Config.findFile?` : the file of a path, in the working directory or the nearest folder above it;
* `Config.shownPath` : the path of a file as seen from the working directory;
* `Config.fileSettings` : the settings of a file, none if it is missing;
* `Config.load` : defaults, file and variables, each over the ones before, then validated.
-/

namespace ArrayStore.Config

def upward : List String → List (List String)
  | [] => [[]]
  | name :: names => (upward names).map (name :: ·) ++ [[]]

/-- The names of a path that is read from a folder; `..` is kept. -/
def namesBelow (folder : List String) (path : String) : List String :=
  (if Path.isAbsolute path.toList then [] else folder) ++
    (Path.components path.toList).map String.ofList

/-- The folder in which a path leads to a file, the working directory first and then the folders
above it. -/
def findFile? (tree : FileTree) (directory : List String) (path : String) :
    Option (List String) :=
  (upward directory).find? fun folder => tree.isFile folder path

/-- The steps from one list of names to another. -/
def stepsFrom : List String → List String → List String
  | a :: source, b :: target =>
    if a = b then stepsFrom source target
    else (a :: source).map (fun _ => "..") ++ b :: target
  | source, target => source.map (fun _ => "..") ++ target

/-- A path that is read from a folder, as it is seen from the working directory. An absolute path
stands for itself if it has fewer components then. -/
def shownPath (directory folder : List String) (path : String) : String :=
  let names := namesBelow folder path
  let steps := stepsFrom directory names
  if Path.isAbsolute path.toList && names.length < steps.length then path
  else "/".intercalate steps

def fileSettings (tree : FileTree) (directory : List String) (path : String) :
    Except Fault Settings :=
  match findFile? tree directory path with
  | none => .ok []
  | some folder =>
    match tree.content? folder path with
    | none => .ok []
    | some content =>
      match Toml.read? content with
      | none => .error .malformed
      | some entries =>
        .ok (Setting.ofTomlEntries (.file (shownPath directory folder path)) entries)

/-- The configuration of the settings of a file under those of the variables. -/
def ofSettings (file environment : Settings) : Except StoreError Config :=
  match Setting.toConfig (Setting.mergeEntries file environment) with
  | .ok c => c.validate
  | .error fault => .error (.config fault)

def defaultPath : String := "config/format.toml"

/-- The configuration of a file and of the environment variables. -/
def load (tree : FileTree) (directory : List String) (assignments : List (String × String))
    (path : String) : Except StoreError Config := do
  let environment ← Variable.settings assignments
  match fileSettings tree directory path with
  | .error fault => .error (.config fault)
  | .ok file => ofSettings file environment

end ArrayStore.Config
