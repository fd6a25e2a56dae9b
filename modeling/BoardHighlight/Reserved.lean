import BoardHighlight.Token

/-!
# Reserved words

Keywords and builtins are told from other lexemes by their exact spelling, after the lexer has
found where the lexeme ends. The overlay looks at the whole lexeme and at nothing else, in every
mode of the lexer.
-/

namespace BoardHighlight
set_option autoImplicit false

namespace Reserved

def keywords : List String :=
  ["do", "if", "then", "else", "in", "let", "of", "type", "where", "game", "break", "while",
    "..", ":", "\\", "<-", "->", "!", "="]

def builtinOperators : List String :=
  ["&&", "+", "-", ".", "/", "/=", "<", "<=", "==", ">", ">=", "||", "*", "?"]

def builtinTypes : List String :=
  ["Bool", "False", "True", "Int", "Board", "Array", "Input", "Player", "Content"]

def builtinFunctions : List String :=
  ["input", "place", "countBoard", "countCol", "countRow", "countDiag", "isFull", "inARow", "not",
    "or", "and"]

def builtins : List String := builtinOperators ++ builtinTypes ++ builtinFunctions

def all : List String := keywords ++ builtins

/-- The kind of a reserved word; other lexemes have none of their own. -/
def kind? (lexeme : List Char) : Option Kind :=
  let word := String.ofList lexeme
  if word ∈ keywords then some .keyword
  else if word ∈ builtins then some .builtin
  else none

def isKeyword (lexeme : List Char) : Bool := kind? lexeme == some .keyword

def isBuiltin (lexeme : List Char) : Bool := kind? lexeme == some .builtin

/-- The overlay: a reserved word has its own kind, whatever kind the lexer gave. -/
def classify (lexeme : List Char) (generic : Kind) : Kind := (kind? lexeme).getD generic

/-- Every reserved word with its kind, in code point order. -/
def table : List (String × Kind) :=
  (keywords.map (·, Kind.keyword) ++ builtins.map (·, Kind.builtin)).mergeSort
    (fun a b => decide (a.1 ≤ b.1))

theorem nodup_all : all.Nodup := by decide

@[simp] theorem kind?_nil : kind? [] = none := by decide

theorem mem_all_of_kind? {lexeme : List Char} (h : kind? lexeme ≠ none) :
    String.ofList lexeme ∈ all := by
  unfold kind? at h
  dsimp only at h
  split at h
  · exact List.mem_append_left _ ‹_›
  · split at h
    · exact List.mem_append_right _ ‹_›
    · exact absurd rfl h

end Reserved

end BoardHighlight
