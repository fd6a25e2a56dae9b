import BoardHighlight.Proofs.ByteOffsets
import BoardHighlight.Proofs.CommentNesting

/-!
# Readers for the modes

Every mode is written here a second time, as a reader that knows nothing of the line but what a
cursor answers: it peeks, takes a character or a run, and asks for the end of the line. The loop of a
comment counts with a bare number, and has no answer where one would have to be taken from zero.
-/

namespace BoardHighlight
set_option autoImplicit false

namespace Cursor
variable {line : String}

/-- How a reader ends: it gives the kind of what was taken and the mode behind it, or another mode
goes on with the same lexeme. -/
inductive Turn where
  | emit (kind : Kind) (next : Mode)
  | enter (mode : Mode)
  deriving DecidableEq

def Turn.normal (kind : Kind) : Turn := .emit kind .normal

/-- Takes the next character if the condition holds and the character passes the test; without the
condition it is not looked at. -/
def eatIf (condition : Bool) (test : Char → Bool) (cursor : Cursor line) : Bool × Cursor line :=
  if condition then cursor.eat test else (false, cursor)

/-! ## Readers for ordinary code

Each of these is called behind the character that it is for. -/

def readLower (cursor : Cursor line) : Turn × Cursor line :=
  (.normal .identifier, (cursor.eatWhile isIdentContinue).2)

def readUpper (cursor : Cursor line) : Turn × Cursor line :=
  let name := (cursor.eatWhile isIdentContinue).2
  let dot := name.eat (· == '.')
  (.normal (if dot.1 then .qualifier else .typeOrConstructor), dot.2)

def fractionTests : List (Char → Bool) := [(· == '.'), isDigit]

def passFraction (cursor : Cursor line) : Cursor line :=
  let point := cursor.matchSeq fractionTests
  if point.1 then (point.2.eatWhile isDigit).2 else point.2

def passExponent (cursor : Cursor line) : Cursor line :=
  let marker := cursor.eat Number.isExponentMarker
  if marker.1 then ((marker.2.eat Number.isSign).2.eatWhile isDigit).2 else marker.2

def readDecimal (cursor : Cursor line) : Turn × Cursor line :=
  (.normal .number, (cursor.eatWhile isDigit).2.passFraction.passExponent)

def readNumber (first : Char) (cursor : Cursor line) : Turn × Cursor line :=
  let hex := cursor.eatIf (first == '0') Number.isHexMarker
  if hex.1 then (.normal .integer, (hex.2.eatWhile isHexDigit).2)
  else
    let oct := hex.2.eatIf (first == '0') Number.isOctMarker
    if oct.1 then (.normal .number, (oct.2.eatWhile isOctDigit).2)
    else oct.2.readDecimal

def readSymbols (first : Char) (cursor : Cursor line) : Turn × Cursor line :=
  (.normal (Operator.genericKind first), (cursor.eatWhile isOperatorSymbol).2)

def readOperator (first : Char) (cursor : Cursor line) : Turn × Cursor line :=
  let dash := cursor.eatIf (first == '-') (· == '-')
  if dash.1 then
    let symbol := (dash.2.eatWhile (· == '-')).2.eat isOperatorSymbol
    if symbol.1 then symbol.2.readSymbols first else (.normal .comment, symbol.2.skipToEnd)
  else dash.2.readSymbols first

def readChar (cursor : Cursor line) : Turn × Cursor line :=
  let escaped := (cursor.eat (· == '\\')).2.next.2
  let close := escaped.eat (· == '\'')
  (.normal (if close.1 then .string else .badString), close.2)

def readPunctuation (mark : Char) (cursor : Cursor line) : Turn × Cursor line :=
  let dash := cursor.eatIf (mark == '{') (· == '-')
  if dash.1 then
    let sign := dash.2.eat (· == '#')
    (.enter (.opened (if sign.1 then .pragma else .ordinary)), sign.2)
  else (.normal .plain, dash.2)

/-! ## Readers for the modes -/

def readNormal (cursor : Cursor line) : Turn × Cursor line :=
  let blanks := cursor.eatWhile isBlank
  if blanks.1 then (.normal .plain, blanks.2)
  else
    match blanks.2.next with
    | (none, behind) => (.normal .plain, behind)
    | (some c, behind) =>
      if isPunctuation c then behind.readPunctuation c
      else if c == '\'' then behind.readChar
      else if c == '"' then (.enter .string, behind)
      else if isUpperStart c then behind.readUpper
      else if isLowerStart c then behind.readLower
      else if isDigit c then behind.readNumber c
      else
        let dots := behind.eatIf (c == '.') (· == '.')
        if dots.1 then (.normal .keyword, dots.2)
        else if isOperatorSymbol c then dots.2.readOperator c
        else (.normal .invalid, dots.2)

def readGap (cursor : Cursor line) : Turn × Cursor line :=
  let blanks := cursor.eatWhile isBlank
  if blanks.1 && blanks.2.atEnd then (.emit .string .stringGap, blanks.2)
  else
    let slash := blanks.2.eat (· == '\\')
    if slash.1 then (.enter .string, slash.2)
    else (.normal .invalid, slash.2.next.2)

/-- How many characters are left. -/
def left (cursor : Cursor line) : Nat := cursor.remaining.toList.length

theorem View.left_eq {cursor : Cursor line} {before current rest : List Char}
    (h : View cursor before current rest) : cursor.left = rest.length := by
  rw [left, h.toList_remaining]

theorem left_advance_lt {cursor : Cursor line} {c : Char} (h : cursor.peek? = some c) :
    cursor.advance.left < cursor.left := by
  obtain ⟨before, current, rest, hview⟩ := cursor.exists_view
  rw [hview.peek?_eq] at h
  obtain ⟨rest, rfl⟩ := List.head?_eq_some_iff.mp h
  rw [hview.advance.left_eq, hview.left_eq]
  exact Nat.lt_succ_self rest.length

theorem left_advance_le (cursor : Cursor line) : cursor.advance.left ≤ cursor.left := by
  cases hpeek : cursor.peek? with
  | some c => exact Nat.le_of_lt (left_advance_lt hpeek)
  | none =>
    obtain ⟨before, current, rest, hview⟩ := cursor.exists_view
    rw [hview.peek?_eq, List.head?_eq_none_iff] at hpeek
    subst hpeek
    rw [hview.advance_nil]

theorem left_eat_le (test : Char → Bool) (cursor : Cursor line) :
    (cursor.eat test).2.left ≤ cursor.left := by
  unfold eat
  split
  · split
    · exact left_advance_le cursor
    · exact Nat.le_refl _
  · exact Nat.le_refl _

theorem left_eatIf_le (condition : Bool) (test : Char → Bool) (cursor : Cursor line) :
    (cursor.eatIf condition test).2.left ≤ cursor.left := by
  unfold eatIf
  split
  · exact left_eat_le test cursor
  · exact Nat.le_refl _

/-- Runs to the closing quote, a gap or the end of the line. -/
def readString (cursor : Cursor line) : Turn × Cursor line :=
  match _h : cursor.peek? with
  | none => (.normal .badString, cursor)
  | some c =>
    if c == '"' then (.normal .string, cursor.advance)
    else if c == '\\' then
      if cursor.advance.atEnd then (.emit .string .stringGap, cursor.advance)
      else
        let blank := cursor.advance.eat isBlank
        if blank.1 then (.emit .string .stringGap, blank.2) else readString blank.2.advance
    else readString cursor.advance
termination_by cursor.left
decreasing_by
  · refine Nat.lt_of_le_of_lt ?_ (left_advance_lt _h)
    exact Nat.le_trans (left_advance_le _) (left_eat_le _ _)
  · exact left_advance_lt _h

/-- Counts openers and closers on a bare number, up to the closer that makes it zero. There is no
answer where one would have to be taken from zero. -/
def readComment? (kind : CommentKind) (counter : Nat) (cursor : Cursor line) :
    Option (Turn × Cursor line) :=
  match _h : cursor.peek? with
  | none => some (.emit kind.tokenKind ((BlockComment.Stop.lineEnd counter).mode kind), cursor)
  | some c =>
    let opener := cursor.advance.eatIf (c == '{') (· == '-')
    if opener.1 then readComment? kind (min (counter + 1) Depth.limit) opener.2
    else
      let closer := opener.2.eatIf (c == '-') (· == '}')
      if closer.1 then
        if counter = 0 then none
        else if counter - 1 = 0 then some (.normal kind.tokenKind, closer.2)
        else readComment? kind (counter - 1) closer.2
      else readComment? kind counter closer.2
termination_by cursor.left
decreasing_by
  all_goals
    refine Nat.lt_of_le_of_lt ?_ (left_advance_lt _h)
  · exact left_eatIf_le _ _ _
  · exact Nat.le_trans (left_eatIf_le _ _ _) (left_eatIf_le _ _ _)
  · exact Nat.le_trans (left_eatIf_le _ _ _) (left_eatIf_le _ _ _)

theorem readString_of_none {cursor : Cursor line} (h : cursor.peek? = none) :
    cursor.readString = (.normal .badString, cursor) := by
  rw [readString]
  split
  · rfl
  · simp_all

theorem readString_of_some {cursor : Cursor line} {c : Char} (h : cursor.peek? = some c) :
    cursor.readString =
      if c == '"' then (.normal .string, cursor.advance)
      else if c == '\\' then
        if cursor.advance.atEnd then (.emit .string .stringGap, cursor.advance)
        else
          let blank := cursor.advance.eat isBlank
          if blank.1 then (.emit .string .stringGap, blank.2) else blank.2.advance.readString
      else cursor.advance.readString := by
  rw [readString]
  split
  · simp_all
  · rename_i hsome
    obtain rfl := Option.some.inj (h.symm.trans hsome)
    rfl

theorem readComment?_of_none {kind : CommentKind} {counter : Nat} {cursor : Cursor line}
    (h : cursor.peek? = none) :
    cursor.readComment? kind counter =
      some (.emit kind.tokenKind ((BlockComment.Stop.lineEnd counter).mode kind), cursor) := by
  rw [readComment?]
  split
  · rfl
  · simp_all

theorem readComment?_of_some {kind : CommentKind} {counter : Nat} {cursor : Cursor line} {c : Char}
    (h : cursor.peek? = some c) :
    cursor.readComment? kind counter =
      let opener := cursor.advance.eatIf (c == '{') (· == '-')
      if opener.1 then opener.2.readComment? kind (min (counter + 1) Depth.limit)
      else
        let closer := opener.2.eatIf (c == '-') (· == '}')
        if closer.1 then
          if counter = 0 then none
          else if counter - 1 = 0 then some (.normal kind.tokenKind, closer.2)
          else closer.2.readComment? kind (counter - 1)
        else closer.2.readComment? kind counter := by
  rw [readComment?]
  split
  · simp_all
  · rename_i hsome
    obtain rfl := Option.some.inj (h.symm.trans hsome)
    rfl

def readMode? (mode : Mode) (cursor : Cursor line) : Option (Turn × Cursor line) :=
  match mode with
  | .normal => some cursor.readNormal
  | .string => some cursor.readString
  | .stringGap => some cursor.readGap
  | .blockComment kind depth => cursor.readComment? kind depth.val

end Cursor

end BoardHighlight
