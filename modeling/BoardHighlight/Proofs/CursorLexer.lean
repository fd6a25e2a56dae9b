import BoardHighlight.Proofs.CursorReaders
import BoardHighlight.Proofs.SelfDelimiting

/-!
# The lexer on a cursor

What a reader gives, and where it leaves the cursor, is what its mode cuts off the characters that
are left. Every operation of a cursor is a skip of some of them, so that the sizes of a reader add up
to the size of the cut. A request made with the readers therefore always has an answer, and it is
that of the lexer.
-/

namespace BoardHighlight
set_option autoImplicit false

/-! ## Sizes by the next character -/

theorem runLength_drop {p : Char → Bool} {cs : List Char} {n : Nat} (h : n ≤ runLength p cs) :
    runLength p (cs.drop n) = runLength p cs - n := by
  induction n generalizing cs with
  | zero => rfl
  | succ n ih =>
    cases cs with
    | nil => exact absurd h (Nat.not_succ_le_zero n)
    | cons c cs =>
      rw [runLength_cons] at h ⊢
      split at h
      · rename_i hc
        rw [if_pos hc, List.drop_succ_cons, ih (Nat.le_of_succ_le_succ h), Nat.add_sub_add_right]
      · exact absurd h (Nat.not_succ_le_zero n)

theorem runLength_lt_of_any {p q : Char → Bool} (hpq : ∀ c, p c = true → q c = true)
    {cs : List Char} (h : (cs.dropWhile p).head?.any q = true) :
    runLength p cs < runLength q cs := by
  cases hdrop : cs.dropWhile p with
  | nil =>
    rw [hdrop] at h
    cases h
  | cons c rest =>
    rw [hdrop] at h
    exact runLength_lt_of_dropWhile hpq hdrop h

namespace Number
open Cursor (Passes passes_nil not_passes_nil passes_cons_iff fractionTests)

theorem fractionSize_eq (cs : List Char) :
    fractionSize cs =
      if Passes fractionTests cs then 2 + runLength isDigit (cs.drop 2) else 0 := by
  cases cs with
  | nil => exact (if_neg (not_passes_nil _ _)).symm
  | cons point cs =>
    cases cs with
    | nil => exact (if_neg fun h => not_passes_nil _ _ (passes_cons_iff.mp h).2).symm
    | cons digit cs =>
      have hpasses : Passes fractionTests (point :: digit :: cs) ↔
          (point == '.' && isDigit digit) = true := by
        simp [fractionTests, passes_cons_iff, passes_nil]
      simp only [fractionSize, hpasses]
      rfl

theorem decimalSize_cons {c : Char} (h : isDigit c = true) (cs : List Char) :
    decimalSize (c :: cs) = 1 + decimalSize cs := by
  have hrun : runLength isDigit (c :: cs) = runLength isDigit cs + 1 := by
    rw [runLength_cons, if_pos h]
  simp only [decimalSize, hrun, Nat.succ_add, List.drop_succ_cons]
  omega

theorem cut_cons (c : Char) (rest : List Char) :
    Number.cut (c :: rest) =
      if c == '0' && rest.head?.any isHexMarker then
        .normal .integer (2 + runLength isHexDigit (rest.drop 1))
      else if c == '0' && rest.head?.any isOctMarker then
        .normal .number (2 + runLength isOctDigit (rest.drop 1))
      else .normal .number (decimalSize (c :: rest)) := by
  by_cases hzero : c = '0'
  · subst hzero
    cases rest with
    | nil => rfl
    | cons marker rest => rfl
  · have hfalse : (c == '0') = false := beq_eq_false_iff_ne.mpr hzero
    simp [Number.cut, hfalse, hzero]

theorem exponentSize_eq (cs : List Char) :
    exponentSize cs =
      if cs.head?.any isExponentMarker then
        1 + ((cs.drop 1).head?.any isSign).toNat +
          runLength isDigit (cs.drop (1 + ((cs.drop 1).head?.any isSign).toNat))
      else 0 := by
  cases cs with
  | nil => rfl
  | cons marker cs =>
    cases cs with
    | nil => rfl
    | cons sign cs =>
      simp only [exponentSize, signedDigitsSize, List.head?_cons, Option.any_some,
        List.drop_succ_cons, List.drop_zero]
      cases isSign sign with
      | true => simp [← Nat.add_assoc]
      | false => simp

end Number

/-- Behind two dashes, what stands behind all of them decides between an operator and a comment. -/
theorem Operator.cut_dashes (tail : List Char) :
    cut '-' ('-' :: tail) =
      if (tail.dropWhile (· == '-')).head?.any isOperatorSymbol then
        .normal (genericKind '-') (2 + runLength isOperatorSymbol tail)
      else .normal .comment (2 + tail.length) := by
  have hdots : ('-' == '.') = false := by decide
  have hrun : runLength isOperatorSymbol ('-' :: tail) = runLength isOperatorSymbol tail + 1 := by
    rw [runLength_cons, if_pos (by decide)]
  have hback : ('-' :: tail).dropWhile (· == '-') = tail.dropWhile (· == '-') := rfl
  have hone : ∀ n, 1 + (n + 1) = 2 + n := by omega
  simp only [cut, hdots, hback, hrun, List.head?_cons, List.length_cons, hone,
    beq_self_eq_true, Bool.and_self, Bool.false_and, Bool.false_eq_true, if_false, if_true]
  cases tail.dropWhile (· == '-') with
  | nil => rfl
  | cons symbol more => rfl

namespace Cursor
variable {line : String}

/-! ## Operations as skips -/

theorem skip_skip (m n : Nat) (cursor : Cursor line) :
    (cursor.skip m).skip n = cursor.skip (m + n) := by
  induction m generalizing cursor with
  | zero => rw [skip_zero, Nat.zero_add]
  | succ m ih => rw [skip_succ, ih, Nat.succ_add, skip_succ]

theorem advance_eq (cursor : Cursor line) : cursor.advance = cursor.skip 1 := rfl

theorem advance_skip (n : Nat) (cursor : Cursor line) :
    (cursor.skip n).advance = cursor.skip (n + 1) := skip_skip n 1 cursor

namespace View
variable {cursor other : Cursor line} {before current rest : List Char}

/-- The parts of the line determine the cursor. -/
theorem unique (h : View cursor before current rest) (hother : View other before current rest) :
    cursor = other := by
  obtain ⟨start, position, hle⟩ := cursor
  obtain ⟨start', position', hle'⟩ := other
  obtain rfl : start = start' := h.start.pos_eq hother.start
  obtain rfl : position = position' := h.position.pos_eq hother.position
  rfl

theorem skip_take (h : View cursor before current rest) (n : Nat) :
    View (cursor.skip n) before (current ++ rest.take n) (rest.drop n) := by
  induction n generalizing cursor current rest with
  | zero => simpa using h
  | succ n ih =>
    rw [skip_succ]
    cases rest with
    | nil =>
      rw [h.advance_nil]
      simpa using ih h
    | cons c rest => simpa using ih h.advance

theorem skip_length_take (h : View cursor before current rest) (n : Nat) :
    cursor.skip (rest.take n).length = cursor.skip n := by
  have hsplit : View cursor before current (rest.take n ++ rest.drop n) := by
    rwa [List.take_append_drop]
  exact hsplit.skip.unique (h.skip_take n)

theorem eat_skip (h : View cursor before current rest) (n : Nat) (test : Char → Bool) :
    (cursor.skip n).eat test =
      ((rest.drop n).head?.any test, cursor.skip (n + ((rest.drop n).head?.any test).toNat)) := by
  rw [eat, (h.skip_take n).peek?_eq]
  cases hhead : (rest.drop n).head? with
  | none => rfl
  | some c =>
    cases htest : test c with
    | false => simp [htest]
    | true => simp [htest, advance_skip]

theorem eatIf_skip (h : View cursor before current rest) (n : Nat) (condition : Bool)
    (test : Char → Bool) :
    (cursor.skip n).eatIf condition test =
      (condition && (rest.drop n).head?.any test,
        cursor.skip (n + (condition && (rest.drop n).head?.any test).toNat)) := by
  unfold eatIf
  cases condition with
  | false => simp
  | true => simp [h.eat_skip]

theorem eatWhile_skip (h : View cursor before current rest) (n : Nat) (test : Char → Bool) :
    (cursor.skip n).eatWhile test =
      (decide (0 < runLength test (rest.drop n)),
        cursor.skip (n + runLength test (rest.drop n))) := by
  obtain ⟨htruth, hview⟩ := (h.skip_take n).eatWhile test
  refine Prod.ext ?_ ?_
  · rw [htruth, runLength, Bool.eq_iff_iff]
    simp [List.length_pos_iff]
  · rw [← skip_skip]
    apply hview.unique
    have hskip := (h.skip_take n).skip_take (runLength test (rest.drop n))
    rwa [take_runLength, drop_runLength] at hskip

theorem eatWhile_eq (h : View cursor before current rest) (test : Char → Bool) :
    cursor.eatWhile test =
      (decide (0 < runLength test rest), cursor.skip (runLength test rest)) := by
  have hskip := h.eatWhile_skip 0 test
  rwa [skip_zero, Nat.zero_add, List.drop_zero] at hskip

theorem matchSeq_skip (h : View cursor before current rest) (n : Nat) (tests : List (Char → Bool)) :
    (cursor.skip n).matchSeq tests =
      if Passes tests (rest.drop n) then (true, cursor.skip (n + tests.length))
      else (false, cursor.skip n) := by
  split
  · rename_i hpasses
    obtain ⟨htruth, hview⟩ := (h.skip_take n).matchSeq_passes hpasses
    refine Prod.ext htruth ?_
    rw [← skip_skip]
    exact hview.unique ((h.skip_take n).skip_take tests.length)
  · rename_i hpasses
    exact (h.skip_take n).matchSeq_fails hpasses

theorem skipToEnd_skip (h : View cursor before current rest) {n : Nat} (hn : n ≤ rest.length) :
    (cursor.skip n).skipToEnd = cursor.skip rest.length := by
  have hskip := (h.skip_take n).skip_take (rest.drop n).length
  rw [List.take_length, List.drop_length, skip_skip, List.length_drop, Nat.add_sub_cancel' hn]
    at hskip
  exact (h.skip_take n).skipToEnd.unique hskip

theorem skip_of_le (h : View cursor before current rest) {n : Nat} (hn : rest.length ≤ n) :
    cursor.skip n = cursor.skip rest.length := by
  have hskip := h.skip_take n
  rw [List.take_of_length_le hn, List.drop_of_length_le hn] at hskip
  have hend := h.skip_take rest.length
  rw [List.take_length, List.drop_length] at hend
  exact hskip.unique hend

theorem atEnd_skip (h : View cursor before current rest) (n : Nat) :
    (cursor.skip n).atEnd = (rest.drop n).isEmpty := by
  rw [Bool.eq_iff_iff, (h.skip_take n).atEnd_iff, List.isEmpty_iff]

end View

/-! ## Readers as steps -/

/-- How a reader ends that does what a step does. -/
def turnOf : Step → Turn
  | .emit cut => .emit cut.kind cut.next
  | .enter _ mode => .enter mode

/-- A step, made on a cursor. -/
def take (step : Step) (cursor : Cursor line) : Turn × Cursor line :=
  (turnOf step, cursor.skip step.taken)

theorem take_normal (kind : Kind) {m n : Nat} (h : m = n) (cursor : Cursor line) :
    (.normal kind, cursor.skip m) = cursor.take (.emit (.normal kind n)) := by
  rw [h]
  rfl

theorem take_shift (n : Nat) (cut : Cut) (cursor : Cursor line) :
    cursor.take (.emit (cut.shift n)) = (cursor.skip n).take (.emit cut) := by
  simp only [take, turnOf, Step.taken, Cut.shift_kind, Cut.shift_next, Cut.shift_size, skip_skip]

/-- How the loop of a comment ends on a cursor, from what it takes and how it stops. -/
def stopAt (kind : CommentKind) (cursor : Cursor line) (found : Nat × BlockComment.Stop) :
    Turn × Cursor line :=
  (.emit kind.tokenKind (found.2.mode kind), cursor.skip found.1)

theorem stopAt_shift (kind : CommentKind) (cursor : Cursor line) (n size : Nat)
    (stop : BlockComment.Stop) :
    cursor.stopAt kind (n + size, stop) = (cursor.skip n).stopAt kind (size, stop) := by
  rw [stopAt, stopAt, skip_skip]

theorem any_beq (found : Option Char) (c : Char) : found.any (· == c) = (found == some c) := by
  cases found <;> rfl

namespace View
variable {cursor : Cursor line} {before current rest : List Char} {c : Char}

theorem readLower_eq (h : View cursor before current (c :: rest)) :
    (cursor.skip 1).readLower = cursor.take (.emit (Name.lowerCut rest)) := by
  rw [readLower, h.eatWhile_skip]
  rfl

theorem readUpper_eq (h : View cursor before current (c :: rest)) :
    (cursor.skip 1).readUpper = cursor.take (.emit (Name.upperCut rest)) := by
  have hdot : ((c :: rest).drop (1 + runLength isIdentContinue rest)).head? =
      (rest.dropWhile isIdentContinue).head? := by
    rw [Nat.add_comm, List.drop_succ_cons, drop_runLength]
  simp only [readUpper, h.eatWhile_skip, h.eat_skip, List.drop_succ_cons, List.drop_zero, hdot,
    any_beq, Name.upperCut]
  cases (rest.dropWhile isIdentContinue).head? == some '.' <;> rfl

end View

/-! ## Numbers -/

namespace View
variable {cursor : Cursor line} {before current rest : List Char} {c : Char}

theorem passFraction_skip (h : View cursor before current rest) (n : Nat) :
    (cursor.skip n).passFraction = cursor.skip (n + Number.fractionSize (rest.drop n)) := by
  rw [passFraction, h.matchSeq_skip, Number.fractionSize_eq]
  by_cases hpasses : Passes fractionTests (rest.drop n)
  · simp only [if_pos hpasses, if_true, h.eatWhile_skip, List.drop_drop]
    rw [Nat.add_assoc]
    rfl
  · simp only [if_neg hpasses]
    rfl

theorem passExponent_skip (h : View cursor before current rest) (n : Nat) :
    (cursor.skip n).passExponent = cursor.skip (n + Number.exponentSize (rest.drop n)) := by
  simp only [passExponent, h.eat_skip, h.eatWhile_skip, Number.exponentSize_eq, List.drop_drop]
  cases (rest.drop n).head?.any Number.isExponentMarker with
  | false => rfl
  | true => simp [Nat.add_assoc]

theorem readDecimal_skip (h : View cursor before current rest) (n : Nat) :
    (cursor.skip n).readDecimal =
      (.normal .number, cursor.skip (n + Number.decimalSize (rest.drop n))) := by
  simp only [readDecimal, h.eatWhile_skip, h.passFraction_skip, h.passExponent_skip,
    Number.decimalSize, List.drop_drop, Nat.add_assoc]

theorem readNumber_eq (h : View cursor before current (c :: rest)) (hdigit : isDigit c = true) :
    (cursor.skip 1).readNumber c = cursor.take (.emit (Number.cut (c :: rest))) := by
  simp only [readNumber, h.eatIf_skip, List.drop_succ_cons, List.drop_zero, Number.cut_cons]
  cases c == '0' && rest.head?.any Number.isHexMarker with
  | true =>
    simp only [Bool.toNat_true, if_true, h.eatWhile_skip, List.drop_succ_cons]
    rfl
  | false =>
    simp only [Bool.toNat_false, Nat.add_zero, List.drop_succ_cons, List.drop_zero,
      Bool.false_eq_true, if_false]
    cases c == '0' && rest.head?.any Number.isOctMarker with
    | true =>
      simp only [Bool.toNat_true, if_true, h.eatWhile_skip, List.drop_succ_cons]
      rfl
    | false =>
      simp only [Bool.toNat_false, Nat.add_zero, Bool.false_eq_true, if_false, h.readDecimal_skip,
        List.drop_succ_cons, List.drop_zero, Number.decimalSize_cons hdigit]
      rfl

end View

/-! ## Operators, characters and marks -/

namespace View
variable {cursor : Cursor line} {before current rest : List Char} {c : Char}

theorem readSymbols_skip (h : View cursor before current rest) (first : Char) (n : Nat) :
    (cursor.skip n).readSymbols first =
      (.normal (Operator.genericKind first),
        cursor.skip (n + runLength isOperatorSymbol (rest.drop n))) := by
  rw [readSymbols, h.eatWhile_skip]

/-- What stands behind two dashes or more decides between an operator and a comment. -/
theorem readOperator_eq (h : View cursor before current (c :: rest))
    (hdots : (c == '.' && rest.head? == some '.') = false) :
    (cursor.skip 1).readOperator c = cursor.take (.emit (Operator.cut c rest)) := by
  simp only [readOperator, h.eatIf_skip, List.drop_succ_cons, List.drop_zero, any_beq]
  cases hdash : c == '-' && rest.head? == some '-' with
  | false =>
    simp only [Bool.toNat_false, Nat.add_zero, Bool.false_eq_true, if_false, h.readSymbols_skip,
      List.drop_succ_cons, List.drop_zero, Operator.cut, hdots, hdash]
    rfl
  | true =>
    simp only [Bool.and_eq_true, beq_iff_eq] at hdash
    obtain ⟨rfl, hhead⟩ := hdash
    obtain ⟨tail, rfl⟩ := List.head?_eq_some_iff.mp hhead
    have hback : ('-' :: '-' :: tail).drop (1 + 1 + runLength (· == '-') tail) =
        tail.dropWhile (· == '-') := by
      rw [Nat.add_comm, List.drop_succ_cons, List.drop_succ_cons, drop_runLength]
    simp only [Bool.toNat_true, if_true, h.eatWhile_skip, h.eat_skip, List.drop_succ_cons,
      List.drop_zero, hback, Operator.cut_dashes]
    cases hsymbol : (tail.dropWhile (· == '-')).head?.any isOperatorSymbol with
    | false =>
      have hle := runLength_le (· == '-') tail
      simp only [Bool.toNat_false, Bool.false_eq_true, if_false]
      rw [h.skipToEnd_skip (by simp only [List.length_cons]; omega)]
      exact take_normal _ (Nat.add_comm tail.length 2) cursor
    | true =>
      have hlt := runLength_lt_of_any Operator.isOperatorSymbol_of_dash hsymbol
      have hsize : (1 + 1 + runLength (· == '-') tail + 1) = runLength (· == '-') tail + 3 := by
        omega
      simp only [Bool.toNat_true, if_true, h.readSymbols_skip, hsize, List.drop_succ_cons,
        runLength_drop hlt]
      exact take_normal _ (by omega) cursor

theorem readChar_eq (h : View cursor before current (c :: rest)) :
    (cursor.skip 1).readChar = cursor.take (.emit (StringLiteral.charCut rest)) := by
  have hescape : (if rest.head? == some '\\' then 1 else 0) = (rest.head? == some '\\').toNat := by
    cases rest.head? == some '\\' <;> rfl
  simp only [readChar, next, advance_skip, h.eat_skip, List.drop_succ_cons, List.drop_zero, any_beq,
    StringLiteral.charCut, hescape]
  generalize (rest.head? == some '\\').toNat = escape
  have hclose : rest.drop (1 + escape) = (rest.drop escape).tail := by
    rw [List.tail_drop, Nat.add_comm]
  rw [hclose]
  generalize hquote : ((rest.drop escape).tail.head? == some '\'') = quote
  cases hdrop : rest.drop escape with
  | nil =>
    rw [hdrop] at hquote
    subst hquote
    -- the line ends where the character should stand, so one step more leads nowhere
    have hlength : (c :: rest).length ≤ 1 + escape := by
      rw [List.length_cons, Nat.add_comm]
      exact Nat.add_le_add_left (List.drop_eq_nil_iff.mp hdrop) 1
    refine Prod.ext rfl ?_
    exact (h.skip_of_le (Nat.le_succ_of_le hlength)).trans (h.skip_of_le hlength).symm
  | cons taken close =>
    rw [hdrop, List.tail_cons] at hquote
    simp only [hquote]
    cases quote with
    | false =>
      exact take_normal .badString (show 1 + escape + 1 = 2 + escape by omega) cursor
    | true =>
      exact take_normal .string (show 1 + escape + 1 + 1 = 3 + escape by omega) cursor

theorem readPunctuation_eq (h : View cursor before current (c :: rest)) :
    (cursor.skip 1).readPunctuation c = cursor.take (punctuationStep c rest) := by
  simp only [readPunctuation, h.eatIf_skip, h.eat_skip, List.drop_succ_cons, List.drop_zero, any_beq,
    punctuationStep]
  cases c == '{' && rest.head? == some '-' with
  | false => rfl
  | true =>
    simp only [Bool.toNat_true, if_true, List.drop_succ_cons, List.drop_one]
    cases rest.tail.head? == some '#' <;> rfl

end View

/-! ## Modes -/

namespace View
variable {cursor : Cursor line} {before current rest : List Char}

theorem readNormal_eq (h : View cursor before current rest) :
    cursor.readNormal = cursor.take (normalStep rest) := by
  rw [readNormal, h.eatWhile_eq]
  cases rest with
  | nil =>
    rw [runLength_nil, skip_zero, next, h.peek?_eq, h.advance_nil]
    rfl
  | cons c rest =>
    rw [normalStep_cons]
    by_cases hblank : isBlank c = true
    · rw [if_pos hblank, runLength_cons, if_pos hblank]
      rfl
    · rw [if_neg hblank, runLength_cons, if_neg hblank, skip_zero, next, h.peek?_eq]
      simp only [Nat.lt_irrefl, decide_false, Bool.false_eq_true, if_false, List.head?_cons,
        advance_eq, h.readPunctuation_eq, h.readChar_eq, h.readUpper_eq, h.readLower_eq,
        h.eatIf_skip, List.drop_succ_cons, List.drop_zero, any_beq]
      split
      · rfl
      split
      · rfl
      split
      · rfl
      split
      · rfl
      split
      · rfl
      split
      · rename_i hdigit
        exact h.readNumber_eq hdigit
      cases hdots : c == '.' && rest.head? == some '.' with
      | true =>
        have hsymbol : isOperatorSymbol c = true := by
          rw [Bool.and_eq_true, beq_iff_eq] at hdots
          rw [hdots.1]
          decide
        have hcut : Operator.cut c rest = .normal .keyword 2 := by
          rw [Operator.cut, if_pos hdots]
        rw [if_pos rfl, if_pos hsymbol, hcut]
        rfl
      | false =>
        simp only [Bool.toNat_false, Nat.add_zero, Bool.false_eq_true, if_false,
          h.readOperator_eq hdots]
        split <;> rfl

theorem readGap_eq (h : View cursor before current rest) :
    cursor.readGap = cursor.take (StringLiteral.gapStep true rest) := by
  simp only [readGap, h.eatWhile_eq, h.atEnd_skip, h.eat_skip, next, advance_skip, drop_runLength,
    StringLiteral.gapStep, Bool.true_and]
  cases hdrop : rest.dropWhile isBlank with
  | nil =>
    have hlength : rest.length ≤ runLength isBlank rest := by
      rw [← List.drop_eq_nil_iff, drop_runLength, hdrop]
    simp only [List.isEmpty_nil, Bool.and_true, List.head?_nil, Option.any_none, Bool.toNat_false,
      Bool.false_eq_true, if_false, Nat.add_zero,
      (h.skip_of_le (Nat.le_succ_of_le hlength)).trans (h.skip_of_le hlength).symm]
    split <;> rfl
  | cons c behind =>
    simp only [List.isEmpty_cons, Bool.and_false, Bool.false_eq_true, if_false, List.head?_cons,
      Option.any_some]
    by_cases hslash : (c == '\\') = true
    · simp only [hslash, if_true, Bool.toNat_true]
      rfl
    · simp only [hslash, Bool.toNat_false]
      rfl

/-- A backslash takes the next character with it, and a blank one opens a gap. -/
theorem readString_escape {c escaped : Char}
    (h : View cursor before current (c :: escaped :: rest)) (hquote : ¬(c == '"') = true)
    (hslash : (c == '\\') = true) :
    cursor.readString =
      if isBlank escaped then (.emit .string .stringGap, cursor.skip 2)
      else (cursor.skip 2).readString := by
  have hopen : ¬cursor.advance.atEnd = true := by
    rw [h.advance.atEnd_iff]
    exact List.cons_ne_nil escaped rest
  rw [readString_of_some h.peek?_eq, if_neg hquote, if_pos hslash, if_neg hopen, advance_eq,
    h.eat_skip]
  simp only [List.drop_succ_cons, List.drop_zero, List.head?_cons, Option.any_some]
  cases isBlank escaped <;> rfl

theorem readString_eq (h : View cursor before current rest) :
    cursor.readString = cursor.take (.emit (StringLiteral.bodyCut true rest)) := by
  generalize hends : true = ends
  fun_induction StringLiteral.bodyCut ends rest generalizing cursor current with
  | case1 => exact readString_of_none h.peek?_eq
  | case2 c rest hquote =>
    rw [readString_of_some h.peek?_eq, if_pos hquote]
    rfl
  | case3 c hquote hslash =>
    have hend : cursor.advance.atEnd = true := h.advance.atEnd_iff.mpr rfl
    rw [readString_of_some h.peek?_eq, if_neg hquote, if_pos hslash, if_pos hend]
    rfl
  | case4 c hquote hslash hfalse => exact absurd hends.symm hfalse
  | case5 c hquote hslash escaped rest hblank =>
    rw [h.readString_escape hquote hslash, if_pos hblank]
    rfl
  | case6 c hquote hslash escaped rest hblank ih =>
    rw [h.readString_escape hquote hslash, if_neg hblank, take_shift]
    exact ih h.advance.advance
  | case7 c rest hquote hslash ih =>
    rw [readString_of_some h.peek?_eq, if_neg hquote, if_neg hslash, ih h.advance, take_shift,
      advance_eq]

/-- A delimiter is taken off as one; any other character is taken off by itself. -/
theorem readComment?_cons {c : Char} (h : View cursor before current (c :: rest))
    (kind : CommentKind) (counter : Nat) :
    cursor.readComment? kind counter =
      if c == '{' && rest.head? == some '-' then
        (cursor.skip 2).readComment? kind (min (counter + 1) Depth.limit)
      else if c == '-' && rest.head? == some '}' then
        if counter = 0 then none
        else if counter - 1 = 0 then some (.normal kind.tokenKind, cursor.skip 2)
        else (cursor.skip 2).readComment? kind (counter - 1)
      else (cursor.skip 1).readComment? kind counter := by
  rw [readComment?_of_some h.peek?_eq]
  simp only [advance_eq, h.eatIf_skip, any_beq, List.drop_succ_cons, List.drop_zero]
  cases hopener : c == '{' && rest.head? == some '-' with
  | true => rfl
  | false =>
    simp only [Bool.false_eq_true, if_false, Bool.toNat_false, Nat.add_zero, List.drop_succ_cons,
      List.drop_zero]
    cases hcloser : c == '-' && rest.head? == some '}' with
    | true => rfl
    | false => rfl

theorem readComment?_eq (h : View cursor before current rest) (kind : CommentKind) (counter : Nat) :
    cursor.readComment? kind counter =
      (BlockComment.count? rest counter).map (cursor.stopAt kind) := by
  fun_induction BlockComment.count? rest counter generalizing cursor current with
  | case1 counter => exact readComment?_of_none h.peek?_eq
  | case2 c counter =>
    rw [h.readComment?_cons, if_neg (by simp), if_neg (by simp)]
    exact readComment?_of_none h.advance.peek?_eq
  | case3 a b rest counter hopener ih =>
    simp only [Option.map_map, Function.comp_def, stopAt_shift]
    rw [h.readComment?_cons, if_pos (by simpa using hopener)]
    exact ih h.advance.advance
  | case4 a b rest hopener hcloser =>
    rw [h.readComment?_cons, if_neg (by simpa using hopener), if_pos (by simpa using hcloser)]
    rfl
  | case5 a b rest counter hopener hcloser hne hlast =>
    rw [h.readComment?_cons, if_neg (by simpa using hopener), if_pos (by simpa using hcloser),
      if_neg hne, if_pos hlast]
    rfl
  | case6 a b rest counter hopener hcloser hne hmore ih =>
    simp only [Option.map_map, Function.comp_def, stopAt_shift]
    rw [h.readComment?_cons, if_neg (by simpa using hopener), if_pos (by simpa using hcloser),
      if_neg hne, if_neg hmore]
    exact ih h.advance.advance
  | case7 a b rest counter hopener hcloser ih =>
    simp only [Option.map_map, Function.comp_def, stopAt_shift]
    rw [h.readComment?_cons, if_neg (by simpa using hopener), if_neg (by simpa using hcloser)]
    exact ih h.advance

/-- Every reader does what its mode does with the characters that are left; the one for comments
always has an answer, as it starts from a depth. -/
theorem readMode?_eq (h : View cursor before current rest) (mode : Mode) :
    cursor.readMode? mode = some (cursor.take (mode.step true rest)) := by
  cases mode with
  | normal => exact congrArg some h.readNormal_eq
  | string => exact congrArg some h.readString_eq
  | stringGap => exact congrArg some h.readGap_eq
  | blockComment kind depth =>
    rw [readMode?, h.readComment?_eq, BlockComment.count?_eq, Option.map_some, Mode.step,
      BlockComment.cut]
    cases BlockComment.scan rest depth with
    | mk size left =>
      cases left with
      | none => rfl
      | some inner =>
        rw [stopAt, BlockComment.Stop.ofDepth?, BlockComment.Stop.mode, Depth.ofNat?_val]
        rfl

end View

/-! ## Requests -/

theorem handovers_lt_of_readMode? {mode inner : Mode} {cursor middle : Cursor line}
    (h : cursor.readMode? mode = some (.enter inner, middle)) :
    inner.handovers < mode.handovers := by
  obtain ⟨before, current, rest, hview⟩ := cursor.exists_view
  rw [hview.readMode?_eq, Option.some.injEq, take, Prod.mk.injEq] at h
  cases hstep : mode.step true rest with
  | emit cut =>
    rw [hstep] at h
    cases h.1
  | enter size next =>
    rw [hstep] at h
    cases h.1
    exact Mode.handovers_lt_of_step hstep

/-- Runs readers until one of them emits. -/
def runModes? (mode : Mode) (cursor : Cursor line) : Option (Kind × Mode × Cursor line) :=
  match _h : cursor.readMode? mode with
  | none => none
  | some (.emit kind next, behind) => some (kind, next, behind)
  | some (.enter inner, middle) => runModes? inner middle
termination_by mode.handovers
decreasing_by exact handovers_lt_of_readMode? _h

section Runs
variable {mode inner next : Mode} {kind : Kind} {cursor middle behind : Cursor line}

theorem runModes?_of_emit (h : cursor.readMode? mode = some (.emit kind next, behind)) :
    cursor.runModes? mode = some (kind, next, behind) := by
  rw [runModes?]
  split <;> simp_all

theorem runModes?_of_enter (h : cursor.readMode? mode = some (.enter inner, middle)) :
    cursor.runModes? mode = middle.runModes? inner := by
  rw [runModes?]
  split <;> simp_all

end Runs

/-- Asks for a token: there is none at the end of the line. Where the readers have taken nothing,
one character is given up. -/
def request? (mode : Mode) (cursor : Cursor line) : Option (Option (Token × Mode × Cursor line)) :=
  if cursor.atEnd then some none
  else
    (cursor.markStart.runModes? mode).map fun (kind, next, behind) =>
      let lexeme := behind.current.toList
      if lexeme.isEmpty then
        some (⟨.invalid, behind.advance.current.toList⟩, .normal, behind.advance)
      else some (⟨Reserved.classify lexeme kind, lexeme⟩, next, behind)

namespace View
variable {cursor : Cursor line} {before current rest : List Char}

theorem runModes?_eq (h : View cursor before current rest) (mode : Mode) :
    cursor.runModes? mode =
      some ((mode.cut true rest).kind, (mode.cut true rest).next,
        cursor.skip (mode.cut true rest).size) := by
  fun_induction Mode.cut true mode rest generalizing cursor current with
  | case1 mode rest cut hstep =>
    have hread := h.readMode?_eq mode
    rw [hstep] at hread
    exact runModes?_of_emit hread
  | case2 mode rest size next hstep ih =>
    have hread := h.readMode?_eq mode
    rw [hstep] at hread
    rw [runModes?_of_enter hread, Step.taken, ih (h.skip_take size), skip_skip]
    rfl

end View

/-- On a line the lexer is what its readers do on a cursor. A request made with them always has an
answer: the token, the mode behind it and the cursor of the lexer's own, or the end of the line. -/
theorem request?_eq (mode : Mode) (cursor : Cursor line) :
    cursor.request? mode = some (cursor.nextToken? mode) := by
  obtain ⟨before, current, rest, h⟩ := cursor.exists_view
  unfold request?
  by_cases hend : cursor.atEnd = true
  · rw [if_pos hend, (h.nextToken?_eq_none_iff mode).mpr hend]
  · have hrest : rest ≠ [] := fun hnil => hend (h.atEnd_iff.mpr hnil)
    obtain ⟨hlexeme, hnext⟩ := nextToken?_eq true mode hrest
    have hbehind := h.markStart.skip_take (mode.cut true rest).size
    have hcurrent : (cursor.markStart.skip (mode.cut true rest).size).current.toList =
        rest.take (mode.cut true rest).size := hbehind.toList_current
    rw [if_neg hend, h.markStart.runModes?_eq, Option.map_some, nextToken?, h.toList_remaining, hnext,
      Option.map_some]
    simp only [hcurrent, h.markStart.skip_length_take]
    rw [if_neg (by simpa using hlexeme)]

/-- Asks for tokens up to the end of the line, at most `limit` of them. -/
def requests? : Nat → Mode → Cursor line → Option (List (Token × Mode × Cursor line))
  | 0, _, _ => some []
  | limit + 1, mode, cursor => do
    match ← cursor.request? mode with
    | none => some []
    | some (token, next, behind) =>
      let read ← requests? limit next behind
      some ((token, next, behind) :: read)

theorem requests?_eq (limit : Nat) (mode : Mode) (cursor : Cursor line) :
    requests? limit mode cursor = some (readings limit mode cursor) := by
  induction limit generalizing mode cursor with
  | zero => rfl
  | succ limit ih =>
    rw [requests?, request?_eq, readings]
    cases cursor.nextToken? mode with
    | none => rfl
    | some call =>
      simp only [Option.bind_eq_bind, Option.bind_some, ih]

/-- So whole lines are read alike. -/
theorem requests?_readLine (mode : Mode) (line : String) :
    requests? line.length mode (atStart line) = some (readLine mode line) :=
  requests?_eq line.length mode (atStart line)

end Cursor

end BoardHighlight
