import BoardHighlight.Arguments

/-!
# Help

The help on a topic says what it is for and how it is called, and lists its commands, inputs and
options. In the short form an entry of a list takes one line, and the descriptions of a list stand
in one column. In the full form, which only the commands have, a description stands below its entry
and blank lines part the entries.
-/

namespace BoardHighlight
set_option autoImplicit false

/-- An entry of a list: how it is written, what it is for, and where its value may come from. -/
structure HelpEntry where
  term : List Char
  purpose : String
  origin : Option (List Char) := none

namespace HelpEntry

/-- Starts every line but the first in the given column. -/
def indent (column : Nat) (text : List Char) : List Char :=
  text.flatMap fun c => if c == '\n' then c :: List.replicate column ' ' else [c]

def description (entry : HelpEntry) (separator : String) : List Char :=
  entry.purpose.toList ++ (entry.origin.map (separator.toList ++ ·)).getD []

/-- The entry on one line; `width` is that of the longest term of the list. -/
def short (width : Nat) (entry : HelpEntry) : List Char :=
  ' ' :: ' ' :: entry.term.rightpad (width + 2) ' ' ++
    indent (width + 4) (entry.description " ")

def full (entry : HelpEntry) : List Char :=
  ' ' :: ' ' :: entry.term ++ indent 10 ('\n' :: entry.description "\n\n")

end HelpEntry

structure HelpList where
  title : String
  entries : List HelpEntry

namespace HelpList

def width (list : HelpList) : Nat := (list.entries.map (·.term.length)).foldl max 0

def body (list : HelpList) (full : Bool) : List Char :=
  if full then List.intercalate ['\n', '\n'] (list.entries.map HelpEntry.full)
  else List.intercalate ['\n'] (list.entries.map (HelpEntry.short list.width))

def text (list : HelpList) (full : Bool) : List Char :=
  list.title.toList ++ ':' :: '\n' :: list.body full

end HelpList

namespace CommandName

def summary : CommandName → String
  | highlight => "Print highlighted source"
  | tokens => "Dump the token stream"
  | check => "Report lexical errors"

def details : CommandName → String
  | highlight => "Lexes each input and prints it as ANSI-coloured text, HTML, JSON token arrays " ++
    "or plain `line:col style lexeme` rows."
  | tokens => "Prints every token with its position and kind, and the lexer state at the end of " ++
    "each line."
  | check => "Lists stray characters, unterminated literals and unclosed comments. Exits with a " ++
    "non-zero status when anything was found."

/-- The inputs of a command. -/
def inputs : CommandName → HelpEntry
  | tokens => ⟨"<INPUT>".toList, "Input file (`-` for standard input)", none⟩
  | highlight | check => ⟨"<INPUTS>...".toList, "Input files (`-` for standard input)", none⟩

end CommandName

namespace HelpTopic

/-- Only commands say more in full. -/
def isFull (topic : HelpTopic) (full : Bool) : Bool :=
  match topic with
  | command _ => full
  | program | help => false

def summary : HelpTopic → String
  | program => "Highlight and check BoGL sources"
  | command name => name.summary
  | help => "Print this message or the help of the given subcommand(s)"

def about (topic : HelpTopic) (full : Bool) : List Char :=
  match topic with
  | command name =>
    name.summary.toList ++ if full then '\n' :: '\n' :: name.details.toList else []
  | program | help => topic.summary.toList

/-- How the topic is called, behind the name of the program. -/
def usage : HelpTopic → List Char
  | program => "[OPTIONS] <COMMAND>".toList
  | command name => name.text.toList ++ " [OPTIONS] ".toList ++ name.inputs.term
  | help => "help [COMMAND]...".toList

def commands : List HelpEntry :=
  (CommandName.all.map fun name => ⟨name.text.toList, name.summary, none⟩) ++
    [⟨"help".toList, help.summary, none⟩]

def optionTerm (letter : Option Char) (name : String) (value : String) : List Char :=
  (match letter with
    | some c => ['-', c, ',', ' ']
    | none => [' ', ' ', ' ', ' ']) ++ "--".toList ++ name.toList ++ value.toList

/-- The variable that stands in for an option, with its value. -/
def variableOrigin (vars : Invocation.Variables) (name : String) : Option (List Char) :=
  some ("[env: ".toList ++ name.toList ++ '=' :: (vars name).getD [] ++ [']'])

/-- What the option for help says of itself: commands name the other form. -/
def helpPurpose (topic : HelpTopic) (full : Bool) : String :=
  match topic with
  | program | help => "Print help"
  | command _ =>
    if full then "Print help (see a summary with '-h')" else "Print help (see more with '--help')"

def options (vars : Invocation.Variables) (topic : HelpTopic) (full : Bool) : List HelpEntry :=
  (if topic = command .highlight then
    [⟨optionTerm (some 'F') "format" " <FORMAT>", "Output format (ansi, html, json, plain)", none⟩]
  else []) ++
  [⟨optionTerm (some 'v') "verbose" "", "Enable verbose output",
      variableOrigin vars "BOGLT_VERBOSE"⟩,
    ⟨optionTerm (some 'c') "config" " <CONFIG>", "Path to configuration file",
      variableOrigin vars "BOGLT_CONFIG"⟩,
    ⟨optionTerm none "no-color" "", "Disable color output",
      variableOrigin vars "BOGLT_NO_COLOR"⟩,
    ⟨optionTerm (some 'h') "help" "", helpPurpose topic full, none⟩,
    ⟨optionTerm (some 'V') "version" "", "Print version", none⟩]

def lists (vars : Invocation.Variables) (topic : HelpTopic) (full : Bool) : List HelpList :=
  match topic with
  | program => [⟨"Commands", commands⟩, ⟨"Options", options vars topic full⟩]
  | command name => [⟨"Arguments", [name.inputs]⟩, ⟨"Options", options vars topic full⟩]
  | help => [⟨"Arguments", [⟨"[COMMAND]...".toList, "Print help for the subcommand(s)", none⟩]⟩]

/-- The help on a topic of the program of a name. -/
def text (program : String) (vars : Invocation.Variables) (topic : HelpTopic) (full : Bool) :
    List Char :=
  let full := topic.isFull full
  List.intercalate ['\n', '\n']
    (topic.about full :: ("Usage: ".toList ++ program.toList ++ ' ' :: topic.usage) ::
      (topic.lists vars full).map (HelpList.text · full)) ++ ['\n']

end HelpTopic

end BoardHighlight
