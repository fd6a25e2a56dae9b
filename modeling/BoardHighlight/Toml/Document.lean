import BoardHighlight.Toml.Quotation
import BoardHighlight.Toml.Scalar

/-!
# Documents of TOML

A document is read in two steps: its lines become statements, and the statements fill a table.
Reading functions answer with what they read and the text behind it, or with nothing if the text
is not well formed. Loops over items and lines take a bound on their number, which is the length
of the text: every item takes at least one character.

Arrays and tables between braces nest less than eighty deep, and a dotted key has less than eighty
parts.
-/

namespace BoardHighlight
namespace Toml
set_option autoImplicit false

/-- What a reading function reads, and the text behind it. -/
abbrev Reader (α : Type) := List Char → Option (α × List Char)

def nestingLimit : Nat := 80

def isSpace (c : Char) : Bool := c == ' ' || c == '\t'

def dropSpaces (text : List Char) : List Char := text.dropWhile isSpace

/-- Takes a comment off the front of a text, up to the end of its line. -/
def dropComment (text : List Char) : List Char :=
  match text with
  | '#' :: rest => rest.dropWhile Quotation.isShown
  | _ => text

/-- Ends a line: blanks, a comment, and a line end or the end of the text. -/
def endLine? (text : List Char) : Option (List Char) :=
  match dropComment (dropSpaces text) with
  | [] => some []
  | rest => Quotation.dropLineEnd? rest

/-- Takes blanks, line ends and whole comments off the front of a text, at most `bound` of them. -/
def dropFiller : Nat → List Char → List Char
  | 0, text => text
  | bound + 1, text =>
    match dropSpaces text with
    | '#' :: rest =>
      match Quotation.dropLineEnd? (rest.dropWhile Quotation.isShown) with
      | some rest => dropFiller bound rest
      | none => '#' :: rest
    | rest =>
      match Quotation.dropLineEnd? rest with
      | some rest => dropFiller bound rest
      | none => rest

def skipFiller (text : List Char) : List Char := dropFiller text.length text

def isBareKeyChar (c : Char) : Bool := c.isAlphanum || c == '-' || c == '_'

/-- Reads one part of a key. -/
def keyPart? : Reader Key := fun text =>
  match text with
  | '"' :: rest => Quotation.readOneLine? '"' rest
  | '\'' :: rest => Quotation.readOneLine? '\'' rest
  | _ =>
    let bare := text.takeWhile isBareKeyChar
    if bare.isEmpty then none else some (bare, text.dropWhile isBareKeyChar)

/-- Reads the parts of a key, which dots and blanks set apart. -/
def keyParts? : Nat → Reader (List Key)
  | 0, _ => none
  | bound + 1, text => do
    let (part, text) ← keyPart? (dropSpaces text)
    match dropSpaces text with
    | '.' :: rest => do
      let (parts, text) ← keyParts? bound rest
      some (part :: parts, text)
    | text => some ([part], text)

/-- Reads a dotted key: the parts in front, and the last one. -/
def key? : Reader (List Key × Key) := fun text => do
  let (parts, text) ← keyParts? (text.length + 1) text
  if nestingLimit ≤ parts.length then none
  else
    let last ← parts.getLast?
    some ((parts.dropLast, last), text)

/-- Reads a key, an equals sign and a value. -/
def pair? (value? : Reader Value) : Reader ((List Key × Key) × Value) := fun text => do
  let (key, text) ← key? text
  let '=' :: text := text | none
  let (value, text) ← value? (dropSpaces text)
  some ((key, value), text)

/-- Reads the items of an array behind its opening bracket. -/
def items? (value? : Reader Value) : Nat → Reader (List Value)
  | 0, _ => none
  | bound + 1, text =>
    match skipFiller text with
    | ']' :: rest => some ([], rest)
    | text => do
      let (value, text) ← value? text
      match skipFiller text with
      | ',' :: rest => do
        let (values, text) ← items? value? bound rest
        some (value :: values, text)
      | ']' :: rest => some ([value], rest)
      | _ => none

/-- Reads the pairs of a table behind its opening brace and at least one of them. -/
def pairs? (value? : Reader Value) : Nat → Reader (List ((List Key × Key) × Value))
  | 0, _ => none
  | bound + 1, text => do
    let (pair, text) ← pair? value? text
    match dropSpaces text with
    | ',' :: rest => do
      let (pairs, text) ← pairs? value? bound rest
      some (pair :: pairs, text)
    | '}' :: rest => some ([pair], rest)
    | _ => none

/-- The table that pairs between braces describe. -/
def bracedTable? (pairs : List ((List Key × Key) × Value)) : Option Value := do
  let table ← pairs.foldlM
    (fun (table : Table) ((front, key), value) => table.assignDotted front key value) ⟨.opened, []⟩
  some (.table .braced table.fields)

/-- Reads a value in which arrays and tables may still nest `depth` deep. -/
def value? : Nat → Reader Value
  | depth, text =>
    match text with
    | '"' :: rest => (Quotation.read? '"' rest).map fun (text, rest) => (.string text, rest)
    | '\'' :: rest => (Quotation.read? '\'' rest).map fun (text, rest) => (.string text, rest)
    | '[' :: rest =>
      match depth with
      | 0 => none
      | depth + 1 =>
        (items? (value? depth) rest.length rest).map fun (values, rest) => (.array values, rest)
    | '{' :: rest =>
      match depth with
      | 0 => none
      | depth + 1 =>
        match dropSpaces rest with
        | '}' :: rest => some (.table .braced [], rest)
        | rest => do
          let (pairs, rest) ← pairs? (value? depth) rest.length rest
          let table ← bracedTable? pairs
          some (table, rest)
    | text => Scalar.read? text

/-- Reads the statement at the front of a text. -/
def statement? : Reader Statement := fun text =>
  match text with
  | '[' :: '[' :: rest => do
    let ((front, key), text) ← key? rest
    let ']' :: ']' :: text := text | none
    some (.openNext front key, text)
  | '[' :: rest => do
    let ((front, key), text) ← key? rest
    let ']' :: text := text | none
    some (.openSection front key, text)
  | _ => do
    let (((front, key), value), text) ← pair? (value? (nestingLimit - 1)) text
    some (.assign front key value, text)

/-- Reads a document line by line. -/
def statements? : Nat → List Char → Option (List Statement)
  | 0, text => if text.isEmpty then some [] else none
  | bound + 1, text =>
    match dropSpaces text with
    | [] => some []
    | c :: rest =>
      if c == '#' || c == '\n' || c == '\r' then do
        statements? bound (← endLine? (c :: rest))
      else do
        let (statement, text) ← statement? (c :: rest)
        let statements ← statements? bound (← endLine? text)
        some (statement :: statements)

/-- The text without a byte order mark in front. -/
def dropMark (text : List Char) : List Char :=
  match text with
  | '\ufeff' :: rest => rest
  | _ => text

/-- The fields of a document, if the text is well formed and no key has two values. -/
def read? (text : List Char) : Option (List (Key × Value)) := do
  let text := dropMark text
  let statements ← statements? (text.length + 1) text
  let table ← Table.ofStatements? statements
  some table.fields

end Toml
end BoardHighlight
