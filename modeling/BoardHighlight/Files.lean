import BoardHighlight.Failure

/-!
# Files

The program looks files up by path and reads them as text. A file tree answers such questions for
a list of files under its top: a path is walked name by name, and every name but the last must lead
to a directory. Names take at most 255 bytes and paths at most 4095, and neither has a null
character.

A relative path is walked in the tree of the working directory, above which only directories are
known; an absolute one is walked in the tree of what every system has.
-/

namespace BoardHighlight
set_option autoImplicit false

/-- What stands at a path. -/
inductive Stored where
  | file (bytes : ByteArray)
  | directory

/-- What a path leads to, or why it leads nowhere. -/
abbrev Lookup := List Char → Except ReadFault Stored

/-- Bytes as text, if they are UTF-8. -/
def decodeText (bytes : ByteArray) : Except ReadFault (List Char) :=
  match String.fromUTF8? bytes with
  | some text => .ok text.toList
  | none => .error .notText

namespace Lookup

/-- Something stands at the path. -/
def has (files : Lookup) (path : List Char) : Bool := (files path).isOk

def readText (files : Lookup) (path : List Char) : Except ReadFault (List Char) :=
  match files path with
  | .error fault => .error fault
  | .ok .directory => .error .isDirectory
  | .ok (.file bytes) => decodeText bytes

end Lookup

/-- Files, and directories without any, by the names that lead to them. -/
structure FileTree where
  entries : List (List (List Char) × Option ByteArray)

namespace FileTree

/-- The names of a path, as far as the slashes set them apart. -/
def names (path : List Char) : List (List Char) :=
  match path with
  | [] => [[]]
  | c :: rest =>
    if c == '/' then [] :: names rest
    else
      match names rest with
      | [] => [[c]]
      | name :: others => (c :: name) :: others

/-- Names that stay where they are. -/
def isHere (name : List Char) : Bool := name.isEmpty || name == ['.']

def ofList (files : List (List Char × Option ByteArray)) : FileTree :=
  ⟨files.map fun (path, content) => ((names path).filter (!isHere ·), content)⟩

/-- What stands at the end of some names. -/
def at? (tree : FileTree) (place : List (List Char)) : Option Stored :=
  match tree.entries.lookup place with
  | some (some bytes) => some (.file bytes)
  | some none => some .directory
  | none =>
    if place.isEmpty || tree.entries.any (fun entry => place.isPrefixOf entry.1) then
      some .directory
    else none

def byteSize (text : List Char) : Nat := (String.ofList text).utf8ByteSize

def longestName : Nat := 255

def longestPath : Nat := 4095

/-- Walks names from a place; none is a place outside the tree. The top of the tree lies in the
place `above`. -/
def walk (tree : FileTree) (above place : Option (List (List Char))) :
    List (List Char) → Except ReadFault Stored
  | [] =>
    match place with
    | none => .ok .directory
    | some place =>
      match tree.at? place with
      | some stored => .ok stored
      | none => .error .missing
  | name :: rest =>
    match place with
    | none =>
      if isHere name || name == ['.', '.'] then walk tree above none rest
      else .error (if longestName < byteSize name then .nameTooLong else .missing)
    | some here =>
      match tree.at? here with
      | none => .error .missing
      | some (.file _) => .error .notDirectory
      | some .directory =>
        if isHere name then walk tree above (some here) rest
        else if name == ['.', '.'] then
          walk tree above (if here.isEmpty then above else some here.dropLast) rest
        else if longestName < byteSize name then .error .nameTooLong
        else walk tree above (some (here ++ [name])) rest

/-- What every system has: an empty device, and directories. -/
def system : FileTree :=
  ofList (("/dev/null".toList, some .empty) ::
    ["/bin", "/etc", "/tmp", "/usr", "/var"].map fun path => (path.toList, none))

/-- Looks a path up from the working directory. -/
def lookup (tree : FileTree) : Lookup := fun path =>
  if path.contains '\x00' then .error .nullInPath
  else if longestPath < byteSize path then .error .nameTooLong
  else
    match path with
    | [] => .error .missing
    | '/' :: rest => system.walk (some []) (some []) (names rest)
    | path => tree.walk none (some []) (names path)

end FileTree

end BoardHighlight
