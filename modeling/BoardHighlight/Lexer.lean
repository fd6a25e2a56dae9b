import BoardHighlight.Lexeme.BlockComment
import BoardHighlight.Lexeme.Name
import BoardHighlight.Lexeme.Number
import BoardHighlight.Lexeme.Operator
import BoardHighlight.Lexeme.StringLiteral
import BoardHighlight.Reserved

/-!
# The lexer

`nextToken?` reads one token from the characters that are left of a line. The mode decides how;
a mode that meets the opener of a string or a comment hands over to the mode of its body, and no
mode of a body hands over again. The overlay then gives reserved words their own kind.

`ends` says whether the reader reports the end of its text. An ordinary reader does, and is asked
for no token there. One that does not is always given a token: with nothing left to read it is an
invalid token without characters.
-/

namespace BoardHighlight
set_option autoImplicit false

/-- A bracket or a separator, or the opener of a block comment. -/
def punctuationStep (mark : Char) (rest : List Char) : Step :=
  if mark == '{' && rest.head? == some '-' then
    if rest.tail.head? == some '#' then .enter 3 (.opened .pragma)
    else .enter 2 (.opened .ordinary)
  else .emit (.normal .plain 1)

/-- Ordinary code: the first character decides. -/
def normalStep : List Char → Step
  | [] => .emit (.normal .plain 0)
  | c :: rest =>
    if isBlank c then .emit (.normal .plain (runLength isBlank (c :: rest)))
    else if isPunctuation c then punctuationStep c rest
    else if c == '\'' then .emit (StringLiteral.charCut rest)
    else if c == '"' then .enter 1 .string
    else if isUpperStart c then .emit (Name.upperCut rest)
    else if isLowerStart c then .emit (Name.lowerCut rest)
    else if isDigit c then .emit (Number.cut (c :: rest))
    else if isOperatorSymbol c then .emit (Operator.cut c rest)
    else .emit (.normal .invalid 1)

namespace Mode

/-- What a mode makes of the characters that are left. -/
def step (ends : Bool) : Mode → List Char → Step
  | normal, cs => normalStep cs
  | string, cs => .emit (StringLiteral.bodyCut ends cs)
  | stringGap, cs => StringLiteral.gapStep ends cs
  | blockComment kind depth, cs => .emit (BlockComment.cut kind depth cs)

/-- How many modes may still take over within one token. -/
def handovers : Mode → Nat
  | normal | stringGap => 1
  | string | blockComment _ _ => 0

theorem handovers_opened (kind : CommentKind) : (opened kind).handovers = 0 := rfl

theorem handovers_of_punctuationStep {mark : Char} {rest : List Char} {size : Nat} {next : Mode}
    (h : punctuationStep mark rest = .enter size next) : next.handovers = 0 := by
  unfold punctuationStep at h
  split at h
  · split at h <;> · cases h; rfl
  · cases h

theorem handovers_of_normalStep {cs : List Char} {size : Nat} {next : Mode}
    (h : normalStep cs = .enter size next) : next.handovers = 0 := by
  unfold normalStep at h
  split at h
  · cases h
  · repeat' split at h
    all_goals first
      | exact handovers_of_punctuationStep h
      | (cases h; rfl)
      | cases h

theorem handovers_of_gapStep {ends : Bool} {cs : List Char} {size : Nat} {next : Mode}
    (h : StringLiteral.gapStep ends cs = .enter size next) : next.handovers = 0 := by
  unfold StringLiteral.gapStep at h
  dsimp only at h
  repeat' split at h
  all_goals cases h
  rfl

/-- Only a mode with a handover left hands over, and the mode behind it has none. -/
theorem handovers_of_step {ends : Bool} {mode next : Mode} {cs : List Char} {size : Nat}
    (h : mode.step ends cs = .enter size next) : mode.handovers = 1 ∧ next.handovers = 0 := by
  cases mode with
  | normal => exact ⟨rfl, handovers_of_normalStep h⟩
  | stringGap => exact ⟨rfl, handovers_of_gapStep h⟩
  | string => cases h
  | blockComment kind depth => cases h

theorem handovers_lt_of_step {ends : Bool} {mode next : Mode} {cs : List Char} {size : Nat}
    (h : mode.step ends cs = .enter size next) : next.handovers < mode.handovers := by
  have := handovers_of_step h
  omega

/-- Runs modes until one of them emits; the lexeme is all that they took. -/
def cut (ends : Bool) (mode : Mode) (cs : List Char) : Cut :=
  match _h : mode.step ends cs with
  | .emit cut => cut
  | .enter size next => (cut ends next (cs.drop size)).shift size
termination_by mode.handovers
decreasing_by exact handovers_lt_of_step _h

theorem cut_of_emit {ends : Bool} {mode : Mode} {cs : List Char} {cut : Cut}
    (h : mode.step ends cs = .emit cut) : mode.cut ends cs = cut := by
  rw [Mode.cut]
  split
  · simp_all
  · simp_all

theorem cut_of_enter {ends : Bool} {mode next : Mode} {cs : List Char} {size : Nat}
    (h : mode.step ends cs = .enter size next) :
    mode.cut ends cs = (next.cut ends (cs.drop size)).shift size := by
  rw [Mode.cut]
  split
  · simp_all
  · simp_all

end Mode

/-- The next token and the mode after it, or none at the reported end of the text.

A mode that takes nothing would stall its reader, so one character is then given up as invalid. -/
def nextToken? (ends : Bool) (mode : Mode) (cs : List Char) : Option (Token × Mode) :=
  if ends && cs.isEmpty then none
  else
    let cut := mode.cut ends cs
    let lexeme := cs.take cut.size
    if lexeme.isEmpty then some (⟨.invalid, cs.take 1⟩, .normal)
    else some (⟨Reserved.classify lexeme cut.kind, lexeme⟩, cut.next)

@[simp] theorem nextToken?_end (mode : Mode) : nextToken? true mode [] = none := rfl

theorem nextToken?_eq_none_iff {mode : Mode} {cs : List Char} :
    nextToken? true mode cs = none ↔ cs = [] := by
  cases cs with
  | nil => simp
  | cons c rest =>
    unfold nextToken?
    simp only [List.isEmpty_cons, Bool.and_false, Bool.false_eq_true, if_false]
    split <;> simp

/-- The lexeme is what the token takes off the front of the text. -/
theorem take_lexeme_length {ends : Bool} {mode next : Mode} {cs : List Char} {token : Token}
    (h : nextToken? ends mode cs = some (token, next)) :
    cs.take token.lexeme.length = token.lexeme := by
  unfold nextToken? at h
  split at h
  · cases h
  · dsimp only at h
    split at h <;> · cases h; simp [List.take_eq_take_iff, List.length_take]

/-- On the characters of a line, every token takes some of them. -/
theorem lexeme_length_pos {mode next : Mode} {cs : List Char} {token : Token}
    (h : nextToken? true mode cs = some (token, next)) :
    0 < token.lexeme.length ∧ token.lexeme.length ≤ cs.length := by
  cases cs with
  | nil => simp at h
  | cons c rest =>
    unfold nextToken? at h
    simp only [List.isEmpty_cons, Bool.and_false, Bool.false_eq_true, if_false] at h
    split at h
    · cases h
      simp
    · rename_i hne
      cases h
      simp only [List.isEmpty_iff] at hne
      exact ⟨List.length_pos_iff.mpr hne, List.length_take_le' _ _⟩

/-- The tokens of a line's characters, each with the mode after it. -/
def lexFrom (mode : Mode) (cs : List Char) : List (Token × Mode) :=
  match _h : nextToken? true mode cs with
  | none => []
  | some (token, next) => (token, next) :: lexFrom next (cs.drop token.lexeme.length)
termination_by cs.length
decreasing_by
  have := lexeme_length_pos _h
  simp only [List.length_drop]
  omega

theorem lexFrom_of_none {mode : Mode} {cs : List Char} (h : nextToken? true mode cs = none) :
    lexFrom mode cs = [] := by
  rw [lexFrom]
  split <;> simp_all

theorem lexFrom_of_some {mode next : Mode} {cs : List Char} {token : Token}
    (h : nextToken? true mode cs = some (token, next)) :
    lexFrom mode cs = (token, next) :: lexFrom next (cs.drop token.lexeme.length) := by
  rw [lexFrom]
  split <;> simp_all

@[simp] theorem lexFrom_nil (mode : Mode) : lexFrom mode [] = [] := lexFrom_of_none rfl

/-- Nothing gets lost: the lexemes of a line's tokens are its characters. -/
theorem text_lexFrom (mode : Mode) (cs : List Char) :
    Token.text ((lexFrom mode cs).map Prod.fst) = cs := by
  fun_induction lexFrom mode cs with
  | case1 mode cs h => simpa using (nextToken?_eq_none_iff.mp h).symm
  | case2 mode cs token next h ih =>
    rw [List.map_cons, Token.text_cons, ih]
    conv => lhs; arg 1; rw [← take_lexeme_length h]
    exact List.take_append_drop _ _

/-- At most `limit` tokens from a reader that need not report the end of its text. -/
def lexStream (ends : Bool) : Nat → Mode → List Char → List (Token × Mode)
  | 0, _, _ => []
  | limit + 1, mode, cs =>
    match nextToken? ends mode cs with
    | none => []
    | some (token, next) =>
      (token, next) :: lexStream ends limit next (cs.drop token.lexeme.length)

/-- The mode after the last of some tokens. -/
def modeAfter (start : Mode) (read : List (Token × Mode)) : Mode :=
  (read.getLast?.map Prod.snd).getD start

@[simp] theorem modeAfter_nil (start : Mode) : modeAfter start [] = start := rfl

@[simp] theorem modeAfter_cons (start : Mode) (first : Token × Mode) (rest : List (Token × Mode)) :
    modeAfter start (first :: rest) = modeAfter first.2 rest := by
  cases rest with
  | nil => rfl
  | cons second rest => simp [modeAfter, List.getLast?_cons]

end BoardHighlight
