import ArrayStore.Error
import ArrayStore.Log.Directive

/-!
# Log filters

A filter is a list of directives, separated by commas.

* `Log.Filter.read` : the filter that a text holds;
* `Log.Filter.maxLevel` : the most verbose level that a filter enables;
* `Log.start` : starts the log once, with the filter of the environment or a configured one.
-/

namespace ArrayStore

namespace Log

/-- Directives, of which each enables a level for what it names. -/
structure Filter where
  directives : List Directive := []
  deriving DecidableEq, Repr

namespace Filter

/-- The parts of a text between commas that are not empty. -/
def parts (s : List Char) : List (List Char) :=
  let split := s.foldr (fun c parts =>
    if c = ',' then [] :: parts
    else match parts with
      | [] => [[c]]
      | part :: parts => (c :: part) :: parts) [[]]
  split.filter fun part => !part.isEmpty

/-- The filter that a text holds, or the fault of the first part that is no directive. -/
def read (s : String) : Except Fault Filter :=
  ((parts s.toList).mapM Directive.read).map Filter.mk

/-- The most verbose level that a filter enables. Values are known only when a span is entered, so
that a filter that asks for one enables everything until then. -/
def maxLevel (f : Filter) : Level :=
  if f.directives.any Directive.asksForValue then .trace
  else f.directives.foldl (fun level d => level.max d.level) .off

end Filter

def Fault.toError : Fault → StoreError
  | .splitCharacter => .splitCharacter
  | fault => .configuration ("Invalid log filter: " ++ fault.text)

end Log

/-! ## Starting the log -/

/-- The log of a process, started once at most. -/
structure Log where
  filter : Option Log.Filter := none
  deriving DecidableEq, Repr

namespace Log

/-- The most verbose level of a log that has been started. -/
def maxLevel? (log : Log) : Option Level := log.filter.map Filter.maxLevel

/-- The filter of the environment, if it is set and can be read, otherwise the configured one. -/
def filterOf (environment : Option String) (configured : String) : Except Fault Filter :=
  match environment.map Filter.read with
  | some (.ok filter) => .ok filter
  | some (.error .splitCharacter) => .error .splitCharacter
  | _ => Filter.read configured

def start (log : Log) (environment : Option String) (configured : String) :
    Except StoreError Log :=
  match filterOf environment configured with
  | .error fault => .error fault.toError
  | .ok filter =>
    if log.filter.isSome then
      .error (.configuration
        "Tracing already initialized: a global default trace dispatcher has already been set")
    else .ok ⟨some filter⟩

end Log

end ArrayStore
