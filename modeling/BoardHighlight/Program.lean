import BoardHighlight.Dump
import BoardHighlight.Help
import BoardHighlight.Problem.Verdict
import BoardHighlight.Render.Highlight

/-!
# The program

The program reads its arguments, then its configuration, then runs a command. What it does depends
on its environment only through the sources it can read, the variables and two directories, so a
whole run is a function of these.
-/

namespace BoardHighlight
set_option autoImplicit false

structure Environment where
  sources : Sources
  vars : Invocation.Variables := fun _ => none
  /-- The directory of the user. -/
  home : Option (List Char) := none
  /-- The directory for configurations. -/
  configHome : Option (List Char) := none

/-- How a run ends: what it has written, its exit code, and the failure it ends with. -/
structure Outcome where
  output : List Char
  exitCode : Nat
  failure : Option Failure
  /-- What was wrong with the arguments. -/
  usage : Option UsageError := none

namespace Program

def name : String := "boglt"

def version : String := "0.1.0"

def configName : String := "boglt.toml"

/-- The name of the program, or of one of its commands, and the version. -/
def versionLine (command : Option CommandName) : List Char :=
  name.toList ++ (command.map fun command => '-' :: command.text.toList).getD [] ++
    ' ' :: version.toList ++ ['\n']

/-- Where a configuration is looked for, in order. -/
def configPaths (env : Environment) : List (List Char) :=
  let below (directory : Option (List Char)) (path : String) : List (List Char) :=
    (directory.map (· ++ path.toList ++ configName.toList)).toList
  [configName.toList] ++ below env.home "/.config/boglt/" ++ below env.configHome "/boglt/"

def config (env : Environment) (invocation : Invocation) : Except Failure Config :=
  match invocation.config with
  | some path => Config.load env.sources.files path
  | none => Config.search env.sources.files (configPaths env)

/-- Dumps one source. -/
def dump (sources : Sources) (input : List Char) : Result :=
  match (sources.read input).1 with
  | .error failure => .failed failure
  | .ok text => ⟨(Document.ofText text).dump, none⟩

def execute (config : Config) (sources : Sources) (invocation : Invocation) : Result :=
  match invocation.command with
  | .highlight inputs format => Highlight.run ⟨format, invocation.noColour⟩ config sources inputs
  | .tokens input => dump sources input
  | .check inputs => Verdict.run sources inputs

def finish (result : Result) : Outcome :=
  ⟨result.output, if result.failure.isSome then 1 else 0, result.failure, none⟩

def run (env : Environment) (arguments : List (List Char)) : Outcome :=
  match Invocation.read env.vars arguments with
  | .error (.refused error) => ⟨[], 2, none, some error⟩
  | .error (.version command) => ⟨versionLine command, 0, none, none⟩
  | .error (.help topic full) => ⟨topic.text name env.vars full, 0, none, none⟩
  | .ok invocation =>
    match config env invocation with
    | .error failure => finish (.failed failure)
    | .ok config => finish (execute config env.sources invocation)

end Program

end BoardHighlight
