import BoardHighlight.Document
import BoardHighlight.Text.Quoted

/-!
# Lexical problems

A problem is a token of an error kind, at its line and column, or a comment or string gap that is
still open at the end of a document; that one stands behind the last character of the last line.
-/

namespace BoardHighlight
set_option autoImplicit false

inductive Cause where
  | unterminated (lexeme : List Char)
  | unexpected (lexeme : List Char)
  | openComments (depth : Depth)
  | openGap
  deriving DecidableEq

namespace Cause

def message : Cause → List Char
  | unterminated lexeme =>
    "unterminated string or character literal ".toList ++ Quoted.quote lexeme
  | unexpected lexeme => "unexpected ".toList ++ Quoted.quote lexeme
  | openComments depth =>
    Nat.toDigits 10 depth.val ++ " block comment(s) still open at end of file".toList
  | openGap => "string gap still open at end of file".toList

/-- What is wrong with a token. -/
def ofToken? (token : Token) : Option Cause :=
  match token.kind with
  | .badString => some (unterminated token.lexeme)
  | .invalid => some (unexpected token.lexeme)
  | _ => none

/-- What is wrong with a document that ends in a mode. A string that is open there was reported
with its token. -/
def ofEnd? : Mode → Option Cause
  | .normal | .string => none
  | .stringGap => some openGap
  | .blockComment _ depth => some (openComments depth)

end Cause

/-- A cause with its place; lines and columns count from one. -/
structure Problem where
  line : Nat
  column : Nat
  cause : Cause
  deriving DecidableEq

namespace Problem

/-- The problems of one line's tokens. -/
def ofLine (line : Nat) (tokens : List Token) : List Problem :=
  (Token.withColumns tokens).filterMap fun (column, token) =>
    (Cause.ofToken? token).map fun cause => ⟨line, column, cause⟩

/-- The problems of lines, the first of them with the given number. -/
def ofLines (line : Nat) : List (List Token) → List Problem
  | [] => []
  | tokens :: rest => ofLine line tokens ++ ofLines (line + 1) rest

/-- `line:column: message`, behind the name of the source. -/
def row (name : List Char) (problem : Problem) : List Char :=
  name ++ ':' :: Nat.toDigits 10 problem.line ++ ':' :: Nat.toDigits 10 problem.column ++
    ": ".toList ++ problem.cause.message

end Problem

namespace Document

/-- What is still open at the end, at the last line or, without lines, at the first. -/
def problemAtEnd? (doc : Document) : Option Problem :=
  (Cause.ofEnd? doc.endMode).map fun cause =>
    ⟨max doc.lineCount 1, (doc.lines.getLast?.getD []).length + 1, cause⟩

/-- All problems, in the order of their places. -/
def problems (doc : Document) : List Problem :=
  Problem.ofLines 1 doc.lineTokens ++ doc.problemAtEnd?.toList

end Document

end BoardHighlight
