import BoardHighlight.Problem
import BoardHighlight.Sources

/-!
# The verdict on sources

Every problem of every source has a row. A source that cannot be read ends the check; otherwise the
check fails if there was any problem, with their number.
-/

namespace BoardHighlight
set_option autoImplicit false

namespace Verdict

def problems (text : List Char) : List Problem := (Document.ofText text).problems

/-- The rows for one input. -/
def rows (path text : List Char) : List Char :=
  (problems text).flatMap fun problem => problem.row (Sources.name path) ++ ['\n']

def count (texts : List (List Char × List Char)) : Nat :=
  (texts.flatMap fun (_, text) => problems text).length

def run (sources : Sources) (inputs : List (List Char)) : Result :=
  let (texts, unreadable) := sources.readAll inputs
  let found := count texts
  let failure := unreadable.or (if found = 0 then none else some (.problemsFound found))
  ⟨texts.flatMap fun (path, text) => rows path text, failure⟩

end Verdict

end BoardHighlight
