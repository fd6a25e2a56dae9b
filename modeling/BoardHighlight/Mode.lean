import BoardHighlight.Kind

/-!
# Modes of the lexer

A mode is all that the lexer remembers between two tokens, and so between two lines. Nesting of
block comments is counted by a number that is never zero and stops at 2^32 - 1.
-/

namespace BoardHighlight
set_option autoImplicit false

/-- How many block comments are open: at least one, and counted up to a limit. -/
structure Depth where
  val : Nat
  pos : 0 < val
  le_limit : val ≤ 4294967295
  deriving DecidableEq

namespace Depth

/-- Deeper nesting than this is not counted. -/
def limit : Nat := 4294967295

def one : Depth := ⟨1, by decide, by decide⟩

def ofNat? (n : Nat) : Option Depth :=
  if h : 0 < n ∧ n ≤ 4294967295 then some ⟨n, h.1, h.2⟩ else none

/-- One level more, which at the limit changes nothing. -/
def deeper (depth : Depth) : Depth :=
  if h : depth.val < 4294967295 then ⟨depth.val + 1, by omega, h⟩ else depth

/-- One level less; the outermost level has none around it. -/
def shallower? (depth : Depth) : Option Depth :=
  if h : 1 < depth.val then
    some ⟨depth.val - 1, by omega, by have := depth.le_limit; omega⟩
  else none

theorem ext_val {a b : Depth} (h : a.val = b.val) : a = b := by
  cases a; cases b; cases h; rfl

@[simp] theorem val_one : one.val = 1 := rfl

theorem val_deeper (depth : Depth) : depth.deeper.val = min (depth.val + 1) limit := by
  have := depth.le_limit
  unfold deeper limit
  split
  · show depth.val + 1 = _
    omega
  · omega

theorem shallower?_eq_none_iff {depth : Depth} : depth.shallower? = none ↔ depth.val = 1 := by
  have := depth.pos
  unfold shallower?
  split
  · exact iff_of_false (by simp) (by omega)
  · exact iff_of_true rfl (by omega)

theorem shallower?_eq_some_iff {depth outer : Depth} :
    depth.shallower? = some outer ↔ depth.val = outer.val + 1 := by
  have := depth.pos
  have := outer.pos
  unfold shallower?
  split
  · simp only [Option.some.injEq]
    exact ⟨fun h => by rw [← h]; dsimp only; omega, fun h => ext_val (by dsimp only; omega)⟩
  · exact iff_of_false (by simp) (by omega)

theorem ofNat?_val (depth : Depth) : ofNat? depth.val = some depth := by
  simp [ofNat?, depth.pos, depth.le_limit]

end Depth

/-- A block comment is ordinary, or a pragma that opens with one more sign. -/
inductive CommentKind where
  | ordinary
  | pragma
  deriving DecidableEq

namespace CommentKind

def all : List CommentKind := [ordinary, pragma]

def name : CommentKind → String
  | ordinary => "Comment"
  | pragma => "Meta"

def ofName? (name : String) : Option CommentKind := all.find? (·.name == name)

/-- The kind of the tokens that make up such a comment. -/
def tokenKind : CommentKind → Kind
  | ordinary => .comment
  | pragma => .pragma

end CommentKind

/-- Where the lexer stands before a token. -/
inductive Mode where
  | normal
  | string
  | stringGap
  | blockComment (kind : CommentKind) (depth : Depth)
  deriving DecidableEq

namespace Mode

/-- Just after the opener of a comment. -/
def opened (kind : CommentKind) : Mode := .blockComment kind .one

def isNormal : Mode → Bool
  | normal => true
  | _ => false

/-- Something that an earlier line opened is still open. -/
def isContinuation (mode : Mode) : Bool := !mode.isNormal

def commentDepth : Mode → Nat
  | blockComment _ depth => depth.val
  | _ => 0

/-- The mode as dumps show it. -/
def describe : Mode → List Char
  | normal => "Normal".toList
  | string => "InStringLiteral".toList
  | stringGap => "InStringGap".toList
  | blockComment kind depth =>
    "InBlockComment \x7b kind: ".toList ++ kind.name.toList ++ ", depth: ".toList ++
      Nat.toDigits 10 depth.val ++ " \x7d".toList

end Mode

end BoardHighlight
