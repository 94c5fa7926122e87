/-!
# Scanning

Readers give what they read and the text after it, or nothing if the text does not start so.

* `Text.expect` : reads a given beginning.
-/

namespace ArrayStore.Text

/-- Drops the given beginning. -/
def expect (beginning s : List Char) : Option (List Char) :=
  if beginning.isPrefixOf s then some (s.drop beginning.length) else none

end ArrayStore.Text
