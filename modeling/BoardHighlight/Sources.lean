import BoardHighlight.Files

/-!
# Sources

A command reads the sources that it is given in order and stops at the first that cannot be read.
The path `-` means the standard input, which gives its text once and is empty after that.
-/

namespace BoardHighlight
set_option autoImplicit false

/-- What a command can read: files, and what is left of the standard input. -/
structure Sources where
  files : Lookup
  standardInput : ByteArray := .empty

namespace Sources

def isStandardInput (path : List Char) : Bool := path == ['-']

/-- The name of an input in output. -/
def name (path : List Char) : List Char :=
  if isStandardInput path then "<stdin>".toList else path

/-- Reads one input, and gives what is left for the next. -/
def read (sources : Sources) (path : List Char) : Except Failure (List Char) × Sources :=
  if isStandardInput path then
    ((decodeText sources.standardInput).mapError .unreadableStandardInput,
      { sources with standardInput := .empty })
  else ((sources.files.readText path).mapError (.unreadableInput path), sources)

/-- The texts of the inputs up to the first that cannot be read, each with its path, and the
failure of that one. -/
def readAll (sources : Sources) : List (List Char) → List (List Char × List Char) × Option Failure
  | [] => ([], none)
  | path :: rest =>
    match sources.read path with
    | (.error failure, _) => ([], some failure)
    | (.ok text, left) =>
      let (texts, failure) := left.readAll rest
      ((path, text) :: texts, failure)

end Sources

/-- What a command writes, and how it fails if it does. -/
structure Result where
  output : List Char
  failure : Option Failure
  deriving DecidableEq

namespace Result

def failed (failure : Failure) : Result := ⟨[], some failure⟩

end Result

end BoardHighlight
