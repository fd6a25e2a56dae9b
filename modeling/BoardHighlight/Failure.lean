import BoardHighlight.Text.Quoted

/-!
# Failures and how they are reported

A failure is a cause of this program. Its report says which of five kinds it is of and gives the
text; a report is shown to a reader by a label and its text, and to a developer by its kind and the
quoted text.
-/

namespace BoardHighlight
set_option autoImplicit false

/-- Why a file cannot be read as text. A fault beside the usual ones comes with what the system says
of it: its number, if it has one, its kind and its text. -/
inductive ReadFault where
  | missing
  | denied
  | notDirectory
  | isDirectory
  | nameTooLong
  | nullInPath
  | notText
  | other (code : Option Nat) (kind text : List Char)
  deriving DecidableEq

namespace ReadFault

/-- The number under which the system knows the fault. The system does not see a path with a null
character, nor whether text decodes. -/
def code? : ReadFault → Option Nat
  | missing => some 2
  | denied => some 13
  | notDirectory => some 20
  | isDirectory => some 21
  | nameTooLong => some 36
  | nullInPath | notText => none
  | other code _ _ => code

def kindName : ReadFault → List Char
  | missing => "NotFound".toList
  | denied => "PermissionDenied".toList
  | notDirectory => "NotADirectory".toList
  | isDirectory => "IsADirectory".toList
  | nameTooLong => "InvalidFilename".toList
  | nullInPath => "InvalidInput".toList
  | notText => "InvalidData".toList
  | other _ kind _ => kind

def description : ReadFault → List Char
  | missing => "No such file or directory".toList
  | denied => "Permission denied".toList
  | notDirectory => "Not a directory".toList
  | isDirectory => "Is a directory".toList
  | nameTooLong => "File name too long".toList
  | nullInPath => "file name contained an unexpected NUL byte".toList
  | notText => "stream did not contain valid UTF-8".toList
  | other _ _ text => text

def message (fault : ReadFault) : List Char :=
  match fault.code? with
  | some code =>
    fault.description ++ " (os error ".toList ++ Nat.toDigits 10 code ++ [')']
  | none => fault.description

def debug (fault : ReadFault) : List Char :=
  let named := "kind: ".toList ++ fault.kindName ++ ", message: ".toList ++
    Quoted.quote fault.description ++ " \x7d".toList
  match fault.code? with
  | some code => "Os \x7b code: ".toList ++ Nat.toDigits 10 code ++ ", ".toList ++ named
  | none => "Error \x7b ".toList ++ named

end ReadFault

/-- What a report says. -/
inductive Report where
  | configuration (text : List Char)
  | fileOperation (text : List Char)
  | validation (text : List Char)
  | reading (fault : ReadFault)
  | badData (text : List Char)
  | json (text : List Char)
  deriving DecidableEq

namespace Report

/-- The report for a reader. -/
def message : Report → List Char
  | configuration text => "Configuration error: ".toList ++ text
  | fileOperation text => "File operation failed: ".toList ++ text
  | validation text => "Validation error: ".toList ++ text
  | reading fault => "IO error: ".toList ++ fault.message
  | badData text => "IO error: ".toList ++ text
  | json text => "JSON error: ".toList ++ text

/-- A name with an argument in parentheses. -/
def applied (name : String) (argument : List Char) : List Char :=
  name.toList ++ '(' :: argument ++ [')']

/-- The report for a developer. -/
def debug : Report → List Char
  | configuration text => applied "Config" (Quoted.quote text)
  | fileOperation text => applied "FileOperation" (Quoted.quote text)
  | validation text => applied "Validation" (Quoted.quote text)
  | reading fault => applied "Io" fault.debug
  | badData text =>
    applied "Io"
      ("Custom \x7b kind: InvalidData, error: ".toList ++ Quoted.quote text ++ " \x7d".toList)
  | json text => applied "Json" (Quoted.quote text)

end Report

/-- Why a command fails. -/
inductive Failure where
  | configurationNotFound (path : List Char)
  | configurationMalformed
  | configurationUnreadable (fault : ReadFault)
  | unknownColour (word : List Char)
  | unknownFormat (name : List Char)
  | unreadableInput (path : List Char) (fault : ReadFault)
  | unreadableStandardInput (fault : ReadFault)
  | problemsFound (count : Nat)
  deriving DecidableEq

namespace Failure

def report : Failure → Report
  | configurationNotFound path =>
    .configuration ("Configuration file not found: ".toList ++ path)
  | configurationMalformed =>
    .configuration "Failed to parse configuration: not a document of this configuration".toList
  | configurationUnreadable fault => .reading fault
  | unknownColour word =>
    .configuration ("Unknown colour in theme: ".toList ++ Quoted.quote word)
  | unknownFormat name => .validation ("Unknown format: ".toList ++ name)
  | unreadableInput path fault => .fileOperation (path ++ ": ".toList ++ fault.message)
  | unreadableStandardInput fault => .reading fault
  | problemsFound count =>
    .validation (Nat.toDigits 10 count ++ " problem(s) found".toList)

def message (failure : Failure) : List Char := failure.report.message

def debug (failure : Failure) : List Char := failure.report.debug

end Failure

end BoardHighlight
