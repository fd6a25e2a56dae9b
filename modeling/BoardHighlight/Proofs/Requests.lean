import BoardHighlight.Line

/-!
# Successive requests

`Requests` follows a reader that asks for one token after the other on one line. `Line.readAll`
lexes lines in order with one mode carried from each to the next, and `lexLines` does the same with
lines that come without their terminators.
-/

namespace BoardHighlight
set_option autoImplicit false

/-- From a mode and the characters left of a line, some requests, each with the mode after it, lead
to a mode and the characters that are still left. -/
inductive Requests : Mode → List Char → List (Token × Mode) → Mode → List Char → Prop where
  | done (mode : Mode) (cs : List Char) : Requests mode cs [] mode cs
  | next {mode next last : Mode} {cs rest : List Char} {token : Token} {read : List (Token × Mode)} :
      nextToken? true mode cs = some (token, next) →
      Requests next (cs.drop token.lexeme.length) read last rest →
      Requests mode cs ((token, next) :: read) last rest

namespace Requests
variable {mode last : Mode} {cs rest : List Char} {read : List (Token × Mode)}

theorem cons {next : Mode} {kind : Kind} {lexeme : List Char}
    (hnext : nextToken? true mode (lexeme ++ cs) = some (⟨kind, lexeme⟩, next))
    (h : Requests next cs read last rest) :
    Requests mode (lexeme ++ cs) ((⟨kind, lexeme⟩, next) :: read) last rest :=
  .next hnext (by rwa [List.drop_left])

theorem lexFrom_eq (h : Requests mode cs read last rest) :
    lexFrom mode cs = read ++ lexFrom last rest := by
  induction h with
  | done => rfl
  | next hnext _ ih => rw [lexFrom_of_some hnext, ih, List.cons_append]

theorem modeAfter_eq (h : Requests mode cs read last rest) : modeAfter mode read = last := by
  induction h with
  | done => rfl
  | next _ _ ih => rw [modeAfter_cons, ih]

/-- What the requests take and what they leave is the text. -/
theorem text_append (h : Requests mode cs read last rest) :
    Token.text (read.map Prod.fst) ++ rest = cs := by
  induction h with
  | done => rfl
  | @next _ _ _ cs _ token _ hnext _ ih =>
    rw [List.map_cons, Token.text_cons, List.append_assoc, ih]
    conv => lhs; arg 1; rw [← take_lexeme_length hnext]
    exact List.take_append_drop _ cs

theorem lexeme_ne_nil (h : Requests mode cs read last rest) :
    ∀ call ∈ read, call.1.lexeme ≠ [] := by
  induction h with
  | done => simp
  | next hnext _ ih =>
    rw [List.forall_mem_cons]
    exact ⟨List.length_pos_iff.mp (lexeme_length_pos hnext).1, ih⟩

theorem length_add_le (h : Requests mode cs read last rest) :
    read.length + rest.length ≤ cs.length := by
  induction h with
  | done => simp
  | next hnext _ ih =>
    have hpos := lexeme_length_pos hnext
    rw [List.length_drop] at ih
    rw [List.length_cons]
    omega

end Requests

theorem nextToken?_of_cut {mode next : Mode} {kind : Kind} {lexeme rest : List Char}
    (hne : lexeme ≠ []) (hcut : mode.cut true (lexeme ++ rest) = ⟨kind, lexeme.length, next⟩) :
    nextToken? true mode (lexeme ++ rest) = some (⟨Reserved.classify lexeme kind, lexeme⟩, next) := by
  have hsome : lexeme ++ rest ≠ [] := List.append_ne_nil_of_left_ne_nil hne rest
  rw [nextToken?, if_neg (by simp [hsome]), hcut]
  dsimp only
  rw [List.take_left, if_neg (by simpa using hne)]

theorem modeAfter_append (start : Mode) (xs ys : List (Token × Mode)) :
    modeAfter start (xs ++ ys) = modeAfter (modeAfter start xs) ys := by
  induction xs generalizing start with
  | nil => rfl
  | cons x xs ih => rw [List.cons_append, modeAfter_cons, modeAfter_cons, ih]

theorem modeAfter_eq_of_forall {start mode : Mode} {read : List (Token × Mode)} (hne : read ≠ [])
    (h : ∀ call ∈ read, call.2 = mode) : modeAfter start read = mode := by
  rw [modeAfter, List.getLast?_eq_some_getLast hne, Option.map_some, Option.getD_some]
  exact h _ (List.getLast_mem hne)

/-- Lexes the characters of lines in order, with one mode carried from each line to the next. -/
def lexLines (mode : Mode) : List (List Char) → List (List (Token × Mode))
  | [] => []
  | cs :: rest => lexFrom mode cs :: lexLines (modeAfter mode (lexFrom mode cs)) rest

@[simp] theorem lexLines_nil_cons (mode : Mode) (lines : List (List Char)) :
    lexLines mode ([] :: lines) = [] :: lexLines mode lines := by
  rw [lexLines, lexFrom_nil, modeAfter_nil]

theorem Requests.lexLines_eq {mode last : Mode} {cs rest : List Char} {read : List (Token × Mode)}
    (h : Requests mode cs read last rest) (lines : List (List Char)) :
    lexLines mode (cs :: lines) = (lexLines last (rest :: lines)).modifyHead (read ++ ·) := by
  rw [lexLines, lexLines, List.modifyHead_cons, h.lexFrom_eq, modeAfter_append, h.modeAfter_eq]

/-- Requests that leave nothing of a line end in the mode in which the line ends. -/
theorem Requests.endMode_eq {mode last : Mode} {text : List Char} {read : List (Token × Mode)}
    (h : Requests mode (Lines.dropTerminator text) read last []) : Line.endMode mode text = last := by
  rw [Line.endMode, Line.read, h.lexFrom_eq, lexFrom_nil, List.append_nil, h.modeAfter_eq]

namespace Line

def carry (mode : Mode) (texts : List (List Char)) : Mode := texts.foldl endMode mode

/-- Lexes lines in order. The mode that is carried from each to the next is the one behind its last
token. -/
def readAll (mode : Mode) : List (List Char) → List (List (Token × Mode))
  | [] => []
  | text :: rest => read mode text :: readAll (modeAfter mode (read mode text)) rest

@[simp] theorem carry_cons (mode : Mode) (text : List Char) (rest : List (List Char)) :
    carry mode (text :: rest) = carry (endMode mode text) rest := rfl

theorem carry_append (mode : Mode) (xs ys : List (List Char)) :
    carry mode (xs ++ ys) = carry (carry mode xs) ys := List.foldl_append

/-- What a line gives depends on the lines before it through the carried mode only. -/
theorem readAll_getElem? (mode : Mode) (texts : List (List Char)) (i : Nat) :
    (readAll mode texts)[i]? = texts[i]?.map (read (carry mode (texts.take i))) := by
  induction texts generalizing mode i with
  | nil => rfl
  | cons text rest ih =>
    cases i with
    | zero => rfl
    | succ i => simpa [readAll, endMode] using ih (modeAfter mode (read mode text)) i

theorem readAll_take (mode : Mode) (texts : List (List Char)) (i : Nat) :
    readAll mode (texts.take i) = (readAll mode texts).take i := by
  induction texts generalizing mode i with
  | nil => simp [readAll]
  | cons text rest ih =>
    cases i with
    | zero => rfl
    | succ i => simp [readAll, ih]

theorem readAll_eq_lexLines (mode : Mode) (texts : List (List Char)) :
    readAll mode texts = lexLines mode (texts.map Lines.dropTerminator) := by
  induction texts generalizing mode with
  | nil => rfl
  | cons text rest ih => rw [readAll, List.map_cons, lexLines, ih, read]

theorem carry_eq_modeAfter (mode : Mode) (texts : List (List Char)) :
    carry mode texts = modeAfter mode (readAll mode texts).flatten := by
  induction texts generalizing mode with
  | nil => rfl
  | cons text rest ih =>
    rw [carry_cons, ih, readAll, List.flatten_cons, modeAfter_append, endMode]

end Line

end BoardHighlight
