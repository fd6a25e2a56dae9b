import BoardHighlight.Kind
import BoardHighlight.Text.Quoted

/-!
# Tokens

A token is a kind and the characters that it covers. The tokens of a line follow each other
without a gap, so their columns are sums of lexeme lengths.
-/

namespace BoardHighlight
set_option autoImplicit false

structure Token where
  kind : Kind
  lexeme : List Char
  deriving DecidableEq

namespace Token

/-- The tag and the quoted lexeme. -/
def describe (token : Token) : List Char :=
  token.kind.tag.toList ++ ' ' :: Quoted.quote token.lexeme

/-- Pairs each token with its column, the first one starting at `column`. -/
def withColumnsFrom (column : Nat) : List Token → List (Nat × Token)
  | [] => []
  | token :: rest => (column, token) :: withColumnsFrom (column + token.lexeme.length) rest

/-- Columns count from one. -/
def withColumns (tokens : List Token) : List (Nat × Token) := withColumnsFrom 1 tokens

/-- All the text that the tokens cover. -/
def text (tokens : List Token) : List Char := tokens.flatMap (·.lexeme)

@[simp] theorem text_nil : text [] = [] := rfl

@[simp] theorem text_cons (token : Token) (rest : List Token) :
    text (token :: rest) = token.lexeme ++ text rest := rfl

@[simp] theorem text_append (xs ys : List Token) : text (xs ++ ys) = text xs ++ text ys := by
  simp [text]

@[simp] theorem map_snd_withColumnsFrom (column : Nat) (tokens : List Token) :
    (withColumnsFrom column tokens).map Prod.snd = tokens := by
  induction tokens generalizing column with
  | nil => rfl
  | cons token rest ih => simp [withColumnsFrom, ih]

@[simp] theorem withColumnsFrom_length (column : Nat) (tokens : List Token) :
    (withColumnsFrom column tokens).length = tokens.length := by
  rw [← List.length_map (f := Prod.snd), map_snd_withColumnsFrom]

end Token

/-- The message about a tag that no kind has. -/
def Kind.unknownTagMessage (tag : List Char) : List Char :=
  "unknown token style: ".toList ++ Quoted.quote tag

end BoardHighlight
