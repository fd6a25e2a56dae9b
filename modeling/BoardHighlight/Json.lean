import BoardHighlight.Text.JsonString

/-!
# JSON values and their text

The values that highlighted source is written as: null, strings, arrays and objects whose fields
keep their order. They are written compactly, or with every item and field on a line of its own,
two spaces deeper than the brackets around it. An empty array is written without a line end.
-/

namespace BoardHighlight
set_option autoImplicit false

inductive Json where
  | null
  | string (text : List Char)
  | array (items : List Json)
  | object (fields : List (String × Json))

namespace Json

mutual

/-- The text without any blanks. -/
def compact : Json → List Char
  | null => "null".toList
  | string text => JsonString.encode text
  | array items => '[' :: compactItems items ++ [']']
  | object fields => '{' :: compactFields fields ++ ['}']

def compactItems : List Json → List Char
  | [] => []
  | [item] => item.compact
  | item :: next :: rest => item.compact ++ ',' :: compactItems (next :: rest)

def compactFields : List (String × Json) → List Char
  | [] => []
  | [(name, value)] => JsonString.encode name.toList ++ ':' :: value.compact
  | (name, value) :: next :: rest =>
    JsonString.encode name.toList ++ ':' :: value.compact ++ ',' :: compactFields (next :: rest)

end

/-- A new line at a depth. -/
def newLine (depth : Nat) : List Char := '\n' :: List.replicate (2 * depth) ' '

mutual

/-- The text with one item or field a line, the value standing at the given depth. -/
def pretty (depth : Nat) : Json → List Char
  | null => "null".toList
  | string text => JsonString.encode text
  | array [] => "[]".toList
  | array (item :: rest) =>
    '[' :: prettyItems (depth + 1) (item :: rest) ++ newLine depth ++ [']']
  | object [] => "\x7b\x7d".toList
  | object (field :: rest) =>
    '{' :: prettyFields (depth + 1) (field :: rest) ++ newLine depth ++ ['}']

def prettyItems (depth : Nat) : List Json → List Char
  | [] => []
  | [item] => newLine depth ++ item.pretty depth
  | item :: next :: rest =>
    newLine depth ++ item.pretty depth ++ ',' :: prettyItems depth (next :: rest)

def prettyFields (depth : Nat) : List (String × Json) → List Char
  | [] => []
  | [(name, value)] =>
    newLine depth ++ JsonString.encode name.toList ++ ": ".toList ++ value.pretty depth
  | (name, value) :: next :: rest =>
    newLine depth ++ JsonString.encode name.toList ++ ": ".toList ++ value.pretty depth ++
      ',' :: prettyFields depth (next :: rest)

end

end Json

end BoardHighlight
