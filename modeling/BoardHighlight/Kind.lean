/-!
# Kinds of tokens

Every token has one of thirteen kinds. A kind has a name, for dumps and data, and all but
`plain` have a style tag, which themes and style sheets use. `string error` is one tag of two
words.
-/

namespace BoardHighlight
set_option autoImplicit false

inductive Kind where
  | keyword
  | builtin
  | qualifier
  | typeOrConstructor
  | identifier
  | integer
  | number
  | string
  | badString
  | comment
  | pragma
  | invalid
  | plain
  deriving DecidableEq

namespace Kind

def all : List Kind :=
  [keyword, builtin, qualifier, typeOrConstructor, identifier, integer, number, string, badString,
    comment, pragma, invalid, plain]

def name : Kind → String
  | keyword => "Keyword"
  | builtin => "Builtin"
  | qualifier => "Qualifier"
  | typeOrConstructor => "TypeOrConstructorRef"
  | identifier => "Identifier"
  | integer => "IntegerLiteral"
  | number => "NumberLiteral"
  | string => "StringLiteral"
  | badString => "StringError"
  | comment => "Comment"
  | pragma => "MetaComment"
  | invalid => "Error"
  | plain => "None"

/-- The tag under which themes and style sheets know the kind. -/
def style? : Kind → Option String
  | keyword => some "keyword"
  | builtin => some "builtin"
  | qualifier => some "qualifier"
  | typeOrConstructor => some "variable-2"
  | identifier => some "variable"
  | integer => some "integer"
  | number => some "number"
  | string => some "string"
  | badString => some "string error"
  | comment => some "comment"
  | pragma => some "meta"
  | invalid => some "error"
  | plain => none

/-- The style tag, with a word of its own for the kind that has none. -/
def tag (kind : Kind) : String := kind.style?.getD "none"

def ofName? (name : String) : Option Kind := all.find? (·.name == name)

def ofTag? (tag : String) : Option Kind := all.find? (·.tag == tag)

/-- The kinds of characters that start no token and of literals that do not end. -/
def isError : Kind → Bool
  | invalid | badString => true
  | _ => false

def isComment : Kind → Bool
  | comment | pragma => true
  | _ => false

theorem mem_all (kind : Kind) : kind ∈ all := by cases kind <;> decide

theorem nodup_all : all.Nodup := by decide

@[simp] theorem ofName?_name (kind : Kind) : ofName? kind.name = some kind := by
  cases kind <;> decide

@[simp] theorem ofTag?_tag (kind : Kind) : ofTag? kind.tag = some kind := by
  cases kind <;> decide

theorem style?_eq_none_iff {kind : Kind} : kind.style? = none ↔ kind = plain := by
  cases kind <;> decide

end Kind

end BoardHighlight
