import BoardHighlight.Proofs.Progress

/-!
# Tokens that delimit themselves

A scan looks ahead: a dot, a dash or a quote decides what stands in front of it. What it takes is
settled all the same, in that the text may be cut off anywhere behind it and the scan still takes
the same. This holds of each scan for itself, hence of a mode and of all the modes of one request,
and a lexeme that is lexed alone gives back its token.
-/

namespace BoardHighlight
set_option autoImplicit false

/-- The scan is given what stands behind `front` characters, which count among those it takes. No
character behind the ones it takes has a say in its answer: the text may be cut off there. -/
def Settled {α : Type} (front : Nat) (taken : α → Nat) (scan : List Char → α) : Prop :=
  ∀ cs n, taken (scan cs) ≤ front + n → scan (cs.take n) = scan cs

namespace Settled
variable {α : Type} {front : Nat} {taken : α → Nat} {f g : List Char → α}

theorem const (x : α) : Settled front taken (fun _ => x) := fun _ _ _ => rfl

/-- A condition on the characters in front does not change with the text behind them. -/
theorem ite {c : Prop} [Decidable c] (hf : Settled front taken f) (hg : Settled front taken g) :
    Settled front taken (fun cs => if c then f cs else g cs) := by
  intro cs n h
  dsimp only at h ⊢
  split
  · rename_i hc
    rw [if_pos hc] at h
    exact hf cs n h
  · rename_i hc
    rw [if_neg hc] at h
    exact hg cs n h

theorem cons (hf : Settled front taken f) (c : Char) :
    Settled (front + 1) taken (fun rest => f (c :: rest)) := by
  intro rest n h
  exact hf (c :: rest) (n + 1) (by dsimp only at h; omega)

/-- A scan that looks at its first character: it is settled behind that, and without it if it takes
nothing more than what stands in front. -/
theorem of_cons (hnil : ∀ c rest, taken (f (c :: rest)) ≤ front → f [] = f (c :: rest))
    (hcons : ∀ c, Settled (front + 1) taken (fun rest => f (c :: rest))) :
    Settled front taken f := by
  intro cs n h
  match cs, n with
  | [], _ => rw [List.take_nil]
  | c :: rest, 0 => exact hnil c rest h
  | c :: rest, n + 1 => exact hcons c rest n (by dsimp only; omega)

theorem add {size : List Char → Nat} (h : Settled front id size) (k : Nat) :
    Settled (front + k) id (fun cs => k + size cs) := by
  intro cs n hle
  simp only [id_eq] at hle
  dsimp only
  rw [h cs n (by simp only [id_eq]; omega)]

theorem normal {size : List Char → Nat} (h : Settled front id size) (kind : Kind) :
    Settled front Cut.size (fun cs => .normal kind (size cs)) :=
  fun cs n hle => congrArg (Cut.normal kind) (h cs n hle)

theorem emit {cut : List Char → Cut} (h : Settled front Cut.size cut) :
    Settled front Step.taken (fun cs => .emit (cut cs)) :=
  fun cs n hle => congrArg Step.emit (h cs n hle)

end Settled

theorem runLength_take (p : Char → Bool) (cs : List Char) (n : Nat) :
    runLength p (cs.take n) = min n (runLength p cs) := by
  induction cs generalizing n with
  | nil => simp
  | cons c cs ih =>
    cases n with
    | zero => simp
    | succ n =>
      rw [List.take_succ_cons, runLength_cons, runLength_cons]
      split
      · rw [ih]
        omega
      · omega

theorem runLength_take_of_le {p : Char → Bool} {cs : List Char} {n : Nat}
    (h : runLength p cs ≤ n) : runLength p (cs.take n) = runLength p cs := by
  rw [runLength_take, Nat.min_eq_right h]

theorem dropWhile_take_of_le {p : Char → Bool} {cs : List Char} {n : Nat}
    (h : runLength p cs ≤ n) :
    (cs.take n).dropWhile p = (cs.dropWhile p).take (n - runLength p cs) := by
  rw [← drop_runLength, ← drop_runLength, runLength_take_of_le h, List.drop_take]

theorem runLength_lt_of_dropWhile {p q : Char → Bool} (hpq : ∀ c, p c = true → q c = true)
    {cs rest : List Char} {c : Char} (h : cs.dropWhile p = c :: rest) (hc : q c = true) :
    runLength p cs < runLength q cs := by
  induction cs with
  | nil => cases h
  | cons d cs ih =>
    rw [List.dropWhile_cons] at h
    rw [runLength_cons, runLength_cons]
    split at h
    · rename_i hd
      have hlt := ih h
      rw [if_pos hd, if_pos (hpq d hd)]
      omega
    · rename_i hd
      cases h
      rw [if_neg hd, if_pos hc]
      omega

theorem settled_runLength (p : Char → Bool) : Settled 0 id (runLength p) :=
  fun _ _ h => runLength_take_of_le (by simpa using h)

theorem head?_take_ne {rest : List Char} {c : Char} (h : rest.head? ≠ some c) (n : Nat) :
    (rest.take n).head? ≠ some c := by
  cases n with
  | zero => simp
  | succ n => rwa [List.head?_take, if_neg (Nat.succ_ne_zero n)]

/-- A scan that looks one character ahead, and takes that character if it is the one. -/
theorem settled_lookahead {α : Type} {front : Nat} {taken : α → Nat} (c : Char) {x : α} (y : α)
    (hx : front < taken x) :
    Settled front taken (fun rest => if rest.head? == some c then x else y) := by
  intro rest n h
  dsimp only at h ⊢
  split at h
  · rename_i hhead
    rw [List.head?_take, if_neg (show ¬n = 0 by omega)]
  · rename_i hhead
    have hbehind : ¬((rest.take n).head? == some c) = true := by
      rw [beq_iff_eq] at hhead ⊢
      exact head?_take_ne hhead n
    rw [if_neg hhead, if_neg hbehind]

namespace Number

theorem settled_fractionSize : Settled 0 id fractionSize := by
  refine .of_cons (fun _ _ h => (Nat.le_zero.mp h).symm) fun point => ?_
  refine .of_cons ?_ fun digit => ?_
  · intro digit rest h
    simp only [id_eq, fractionSize] at h ⊢
    split at h
    · omega
    · rename_i hpoint
      rw [if_neg hpoint]
  · exact .ite ((settled_runLength isDigit).add 2) (.const 0)

theorem settled_signedDigitsSize : Settled 0 id signedDigitsSize := by
  refine .of_cons (fun _ _ h => (Nat.le_zero.mp h).symm) fun sign => ?_
  exact .ite ((settled_runLength isDigit).add 1) ((settled_runLength isDigit).cons sign)

theorem settled_exponentSize : Settled 0 id exponentSize := by
  refine .of_cons (fun _ _ h => (Nat.le_zero.mp h).symm) fun marker => ?_
  exact .ite (settled_signedDigitsSize.add 1) (.const 0)

/-- Each part of a number starts where the one before it ends, and looks no further than into the
part behind it. -/
theorem settled_decimalSize : Settled 0 id decimalSize := by
  intro cs n h
  simp only [id_eq, decimalSize] at h ⊢
  rw [runLength_take_of_le (by omega)]
  generalize runLength isDigit cs = whole at h ⊢
  have hfraction : fractionSize ((cs.take n).drop whole) = fractionSize (cs.drop whole) := by
    rw [List.drop_take]
    exact settled_fractionSize _ _ (by simp only [id_eq]; omega)
  rw [hfraction]
  generalize fractionSize (cs.drop whole) = fraction at h ⊢
  rw [List.drop_take, settled_exponentSize _ _ (by simp only [id_eq]; omega)]

theorem cut_of_ne_zero {c : Char} (h : c ≠ '0') (rest : List Char) :
    Number.cut (c :: rest) = .normal .number (decimalSize (c :: rest)) := by
  unfold Number.cut
  split
  · rename_i heq
    cases heq
    exact absurd rfl h
  · rfl

theorem cut_zero (marker : Char) (rest : List Char) :
    Number.cut ('0' :: marker :: rest) =
      if isHexMarker marker then .normal .integer (2 + runLength isHexDigit rest)
      else if isOctMarker marker then .normal .number (2 + runLength isOctDigit rest)
      else .normal .number (decimalSize ('0' :: marker :: rest)) := rfl

theorem settled_cut_zero (marker : Char) :
    Settled 2 Cut.size (fun rest => Number.cut ('0' :: marker :: rest)) :=
  .ite (((settled_runLength isHexDigit).add 2).normal .integer)
    (.ite (((settled_runLength isOctDigit).add 2).normal .number)
      (((settled_decimalSize.cons '0').cons marker).normal .number))

/-- A number that is no longer than its first digit is a decimal one. -/
theorem cut_of_size_le_one {c : Char} {rest : List Char} (h : (Number.cut (c :: rest)).size ≤ 1) :
    Number.cut (c :: rest) = .normal .number (decimalSize (c :: rest)) := by
  by_cases hzero : c = '0'
  · subst hzero
    cases rest with
    | nil => rfl
    | cons marker rest =>
      rw [cut_zero] at h ⊢
      split at h
      · rw [Cut.normal_size] at h
        omega
      · rename_i hhex
        split at h
        · rw [Cut.normal_size] at h
          omega
        · rename_i hoct
          rw [if_neg hhex, if_neg hoct]
  · exact cut_of_ne_zero hzero rest

theorem settled_cut : Settled 0 Cut.size Number.cut := by
  refine .of_cons ?_ fun c => ?_
  · intro c rest h
    have hcut := cut_of_size_le_one (Nat.le_succ_of_le h)
    rw [hcut, Cut.normal_size] at h
    rw [hcut, Nat.le_zero.mp h]
    rfl
  by_cases hzero : c = '0'
  · subst hzero
    refine .of_cons ?_ settled_cut_zero
    intro marker rest h
    have hcut := cut_of_size_le_one h
    rw [hcut, Cut.normal_size] at h
    rw [hcut, ← settled_decimalSize _ 1 h]
    rfl
  · rw [funext (cut_of_ne_zero hzero)]
    exact (settled_decimalSize.cons c).normal .number

end Number

namespace Name

theorem settled_lowerCut : Settled 1 Cut.size lowerCut :=
  ((settled_runLength isIdentContinue).add 1).normal .identifier

theorem settled_upperCut : Settled 1 Cut.size upperCut := by
  intro rest n h
  simp only [upperCut] at h ⊢
  split at h
  · rename_i hdot
    simp only [Cut.normal_size] at h
    rw [dropWhile_take_of_le (by omega), runLength_take_of_le (by omega), List.head?_take,
      if_neg (show ¬n - runLength isIdentContinue rest = 0 by omega), if_pos hdot]
  · rename_i hdot
    simp only [Cut.normal_size] at h
    have hbehind : ¬((rest.dropWhile isIdentContinue).take
        (n - runLength isIdentContinue rest)).head? == some '.' := by
      rw [beq_iff_eq] at hdot ⊢
      exact head?_take_ne hdot _
    rw [dropWhile_take_of_le (by omega), runLength_take_of_le (by omega), if_neg hbehind,
      if_neg hdot]

end Name

namespace Operator

/-- Dashes open a comment, with no operator symbol right behind them. -/
def OpensComment (first : Char) (rest : List Char) : Prop :=
  first = '-' ∧ rest.head? = some '-' ∧
    ∀ symbol tail, rest.dropWhile (· == '-') = symbol :: tail → isOperatorSymbol symbol = false

section Shapes
variable {first : Char} {rest : List Char}

theorem cut_of_dots (h : first = '.' ∧ rest.head? = some '.') :
    Operator.cut first rest = .normal .keyword 2 := by
  obtain ⟨rfl, hhead⟩ := h
  simp [Operator.cut, hhead]

theorem cut_of_comment (h : OpensComment first rest) :
    Operator.cut first rest = .normal .comment (1 + rest.length) := by
  obtain ⟨rfl, hhead, hbehind⟩ := h
  have hdots : ('-' == '.') = false := by decide
  simp only [Operator.cut, hhead, hdots, Bool.false_and, Bool.false_eq_true, if_false,
    beq_self_eq_true, Bool.and_self, if_true]
  split
  · rfl
  · rename_i symbol tail hdrop
    rw [hbehind symbol tail hdrop, if_neg Bool.false_ne_true]

theorem cut_of_run (hdots : ¬(first = '.' ∧ rest.head? = some '.'))
    (hcomment : ¬OpensComment first rest) :
    Operator.cut first rest =
      .normal (genericKind first) (1 + runLength isOperatorSymbol rest) := by
  have hdots : ¬(first == '.' && rest.head? == some '.') = true := by simpa using hdots
  simp only [Operator.cut, if_neg hdots]
  split
  · rename_i hdashes
    simp only [Bool.and_eq_true, beq_iff_eq] at hdashes
    split
    · rename_i hdrop
      refine absurd ⟨hdashes.1, hdashes.2, ?_⟩ hcomment
      intro symbol tail hsymbol
      rw [hdrop] at hsymbol
      cases hsymbol
    · rename_i symbol tail hdrop
      split
      · rfl
      · rename_i hsymbol
        refine absurd ⟨hdashes.1, hdashes.2, ?_⟩ hcomment
        intro symbol' tail' hdrop'
        rw [hdrop] at hdrop'
        cases hdrop'
        exact Bool.eq_false_iff.mpr hsymbol
  · rfl

theorem isOperatorSymbol_of_dash (c : Char) (h : (c == '-') = true) :
    isOperatorSymbol c = true := by
  rw [eq_of_beq h]
  decide

/-- A symbol behind the dashes belongs to the run, so that it is still there if the run is. -/
theorem not_opensComment_take {n : Nat} (h : ¬OpensComment first rest)
    (hle : runLength isOperatorSymbol rest ≤ n) : ¬OpensComment first (rest.take n) := by
  rintro ⟨hfirst, hhead, hbehind⟩
  have hhead' : rest.head? = some '-' := by
    refine Decidable.byContradiction fun hne => ?_
    exact head?_take_ne hne n hhead
  refine h ⟨hfirst, hhead', ?_⟩
  intro symbol tail hdrop
  refine Bool.eq_false_iff.mpr fun hsymbol => ?_
  have hlt := runLength_lt_of_dropWhile isOperatorSymbol_of_dash hdrop hsymbol
  have hdrop' : (rest.take n).dropWhile (· == '-') =
      (rest.dropWhile (· == '-')).take (n - runLength (· == '-') rest) :=
    dropWhile_take_of_le (by omega)
  obtain ⟨k, hk⟩ := Nat.exists_eq_succ_of_ne_zero
    (show n - runLength (· == '-') rest ≠ 0 by omega)
  rw [hdrop, hk, List.take_succ_cons] at hdrop'
  rw [hbehind symbol _ hdrop'] at hsymbol
  exact Bool.false_ne_true hsymbol

end Shapes

theorem settled_cut (first : Char) : Settled 1 Cut.size (Operator.cut first) := by
  intro rest n h
  by_cases hdots : first = '.' ∧ rest.head? = some '.'
  · rw [cut_of_dots hdots, Cut.normal_size] at h
    have hhead : (rest.take n).head? = some '.' := by
      rw [List.head?_take, if_neg (show ¬n = 0 by omega), hdots.2]
    rw [cut_of_dots hdots, cut_of_dots ⟨hdots.1, hhead⟩]
  by_cases hcomment : OpensComment first rest
  · rw [cut_of_comment hcomment, Cut.normal_size] at h
    rw [List.take_of_length_le (by omega)]
  · rw [cut_of_run hdots hcomment, Cut.normal_size] at h
    have hle : runLength isOperatorSymbol rest ≤ n := by omega
    have hdots' : ¬(first = '.' ∧ (rest.take n).head? = some '.') := by
      rintro ⟨hfirst, hhead⟩
      exact head?_take_ne (fun hrest => hdots ⟨hfirst, hrest⟩) n hhead
    rw [cut_of_run hdots hcomment, cut_of_run hdots' (not_opensComment_take hcomment hle),
      runLength_take_of_le hle]

end Operator

namespace StringLiteral

/-- A character literal of which `size` characters are read, up to its closing quote. -/
def closing (size : Nat) (close : List Char) : Cut :=
  if close.head? == some '\'' then .normal .string (size + 1) else .normal .badString size

theorem settled_closing (size : Nat) : Settled size Cut.size (closing size) :=
  settled_lookahead '\'' (Cut.normal .badString size) (Nat.lt_succ_self size)

theorem charCut_cons {c : Char} (h : c ≠ '\\') (close : List Char) :
    charCut (c :: close) = closing 2 close := by
  have hescape : ¬((c :: close).head? == some '\\') = true := by simpa using h
  rw [charCut, if_neg hescape]
  rfl

theorem charCut_escape (c : Char) (close : List Char) :
    charCut ('\\' :: c :: close) = closing 3 close := rfl

theorem le_size_closing (size : Nat) (close : List Char) : size ≤ (closing size close).size := by
  unfold closing
  split <;> simp

theorem two_le_size_charCut (c : Char) (close : List Char) : 2 ≤ (charCut (c :: close)).size := by
  by_cases hslash : c = '\\'
  · subst hslash
    cases close with
    | nil => exact Nat.le_refl 2
    | cons c close => exact Nat.le_trans (Nat.le_succ 2) (le_size_closing 3 close)
  · rw [charCut_cons hslash]
    exact le_size_closing 2 close

theorem settled_charCut : Settled 1 Cut.size charCut := by
  refine .of_cons ?_ fun c => ?_
  · intro c close h
    have hsize := two_le_size_charCut c close
    omega
  by_cases hslash : c = '\\'
  · subst hslash
    refine .of_cons ?_ fun c => settled_closing 3
    intro c close h
    have hsize := le_size_closing 3 close
    rw [charCut_escape] at h
    omega
  · rw [funext (charCut_cons hslash)]
    exact settled_closing 2

theorem settled_bodyCut (ends : Bool) : Settled 0 Cut.size (bodyCut ends) := by
  intro cs n h
  rw [Nat.zero_add] at h
  fun_induction bodyCut ends cs generalizing n with
  | case1 => simp [bodyCut]
  | case2 c rest hquote =>
    obtain ⟨n, rfl⟩ := Nat.exists_eq_add_of_le' (show 1 ≤ n from h)
    rw [List.take_succ_cons, bodyCut.eq_def]
    simp [hquote]
  | case3 c hquote hslash hends =>
    obtain ⟨n, rfl⟩ := Nat.exists_eq_add_of_le' (show 1 ≤ n from h)
    simp [bodyCut, hquote, hslash, hends]
  | case4 c hquote hslash hends =>
    obtain ⟨n, rfl⟩ := Nat.exists_eq_add_of_le' (show 1 ≤ n from h)
    simp [bodyCut, hquote, hslash, hends]
  | case5 c hquote hslash escaped rest hblank =>
    obtain ⟨n, rfl⟩ := Nat.exists_eq_add_of_le' (show 2 ≤ n from h)
    simp [bodyCut, hquote, hslash, hblank]
  | case6 c hquote hslash escaped rest hblank ih =>
    rw [Cut.shift_size] at h
    obtain ⟨n, rfl⟩ := Nat.exists_eq_add_of_le' (show 2 ≤ n by omega)
    simp [bodyCut, hquote, hslash, hblank, ih n (by omega)]
  | case7 c rest hquote hslash ih =>
    rw [Cut.shift_size] at h
    obtain ⟨n, rfl⟩ := Nat.exists_eq_add_of_le' (show 1 ≤ n by omega)
    rw [List.take_succ_cons, bodyCut.eq_def]
    simp [hquote, hslash, ih n (by omega)]

theorem settled_gapStep (ends : Bool) : Settled 0 Step.taken (gapStep ends) := by
  intro cs n h
  have hle : runLength isBlank cs ≤ n := by
    simp only [gapStep] at h
    repeat' split at h
    all_goals
      simp only [Step.taken, Cut.normal_size] at h
      omega
  simp only [gapStep] at h ⊢
  rw [dropWhile_take_of_le hle, runLength_take_of_le hle]
  cases hdrop : cs.dropWhile isBlank with
  | nil => simp
  | cons c rest =>
    rw [hdrop] at h
    have hpos : ¬n - runLength isBlank cs = 0 := by
      dsimp only at h
      split at h <;> · simp only [Step.taken, Cut.normal_size] at h; omega
    obtain ⟨k, hk⟩ := Nat.exists_eq_succ_of_ne_zero hpos
    rw [hk, List.take_succ_cons]

end StringLiteral

theorem settled_punctuationStep (mark : Char) :
    Settled 1 Step.taken (punctuationStep mark) := by
  refine .of_cons ?_ fun c => ?_
  · intro c rest h
    unfold punctuationStep at h ⊢
    split at h
    · split at h <;> · rw [Step.taken] at h; omega
    · rename_i hopener
      rw [if_neg hopener]
      simp
  · have hpragma : Settled 2 Step.taken (fun rest : List Char =>
        if rest.head? == some '#' then .enter 3 (.opened .pragma)
        else .enter 2 (.opened .ordinary)) :=
      settled_lookahead '#' _ (Nat.lt_succ_self 2)
    exact Settled.ite (c := (mark == '{' && some c == some '-') = true) hpragma (.const _)

theorem settled_normalStep : Settled 0 Step.taken normalStep := by
  refine .of_cons ?_ fun c => ?_
  · intro c rest h
    have hpos := normalStep_taken_pos c rest
    omega
  refine .ite (((settled_runLength isBlank).cons c).normal .plain).emit ?_
  refine .ite (settled_punctuationStep c) ?_
  refine .ite StringLiteral.settled_charCut.emit ?_
  refine .ite (.const _) ?_
  refine .ite Name.settled_upperCut.emit ?_
  refine .ite Name.settled_lowerCut.emit ?_
  refine .ite (Number.settled_cut.cons c).emit ?_
  exact .ite (Operator.settled_cut c).emit (.const _)

namespace BlockComment

theorem scan_take_of_le (cs : List Char) (depth : Depth) :
    ∀ n, (scan cs depth).1 ≤ n → scan (cs.take n) depth = scan cs depth := by
  fun_induction scan cs depth with
  | case1 depth => simp [scan]
  | case2 c depth =>
    intro n h
    obtain ⟨n, rfl⟩ := Nat.exists_eq_add_of_le' (show 1 ≤ n from h)
    simp [scan]
  | case3 a b rest depth hopener found ih =>
    intro n h
    simp only [found] at h
    obtain ⟨n, rfl⟩ := Nat.exists_eq_add_of_le' (show 2 ≤ n by omega)
    rw [List.take_succ_cons, List.take_succ_cons, scan, if_pos hopener, ih n (by omega)]
  | case4 a b rest depth hopener hcloser hnone =>
    intro n h
    obtain ⟨n, rfl⟩ := Nat.exists_eq_add_of_le' (show 2 ≤ n from h)
    simp [scan, hopener, hcloser, hnone]
  | case5 a b rest depth hopener hcloser outer hsome found ih =>
    intro n h
    simp only [found] at h
    obtain ⟨n, rfl⟩ := Nat.exists_eq_add_of_le' (show 2 ≤ n by omega)
    rw [List.take_succ_cons, List.take_succ_cons, scan, if_neg hopener, if_pos hcloser, hsome]
    dsimp only
    rw [ih n (by omega)]
  | case6 a b rest depth hopener hcloser found ih =>
    intro n h
    -- the scan goes on within the text, so at least one more character is taken
    have hpos := scan_size_pos (List.cons_ne_nil b rest) depth
    simp only [found] at h
    obtain ⟨n, rfl⟩ := Nat.exists_eq_add_of_le' (show 2 ≤ n by omega)
    have hrest := ih (n + 1) (by omega)
    rw [List.take_succ_cons] at hrest
    rw [List.take_succ_cons, List.take_succ_cons, scan, if_neg hopener, if_neg hcloser, hrest]

theorem settled_cut (kind : CommentKind) (depth : Depth) :
    Settled 0 Cut.size (BlockComment.cut kind depth) := by
  intro cs n h
  rw [cut_size, Nat.zero_add] at h
  unfold BlockComment.cut
  rw [scan_take_of_le cs depth n h]

end BlockComment

namespace Mode

theorem settled_step (ends : Bool) (mode : Mode) : Settled 0 Step.taken (mode.step ends) := by
  intro cs n h
  cases mode with
  | normal => exact settled_normalStep cs n h
  | string => exact congrArg Step.emit (StringLiteral.settled_bodyCut ends cs n h)
  | stringGap => exact StringLiteral.settled_gapStep ends cs n h
  | blockComment kind depth => exact congrArg Step.emit (BlockComment.settled_cut kind depth cs n h)

/-- What one request takes is settled by the characters that it takes. -/
theorem settled_cut (ends : Bool) (mode : Mode) : Settled 0 Cut.size (mode.cut ends) := by
  intro cs n h
  rw [Nat.zero_add] at h
  fun_induction Mode.cut ends mode cs generalizing n with
  | case1 mode cs cut hstep =>
    refine cut_of_emit ?_
    rw [settled_step ends mode cs n (by rwa [hstep, Nat.zero_add]), hstep]
  | case2 mode cs size next hstep ih =>
    rw [Cut.shift_size] at h
    have hstep' : mode.step ends (cs.take n) = .enter size next := by
      rw [settled_step ends mode cs n (by rw [hstep, Step.taken]; omega), hstep]
    rw [cut_of_enter hstep', List.drop_take, ih _ (by omega)]

end Mode

section Requests
variable {mode next : Mode} {cs : List Char} {token : Token}

/-- A token is the same if the text ends anywhere behind it. -/
theorem nextToken?_take (h : nextToken? true mode cs = some (token, next)) {n : Nat}
    (hn : token.lexeme.length ≤ n) : nextToken? true mode (cs.take n) = some (token, next) := by
  have hne : cs ≠ [] := by
    rintro rfl
    cases h
  obtain ⟨hlexeme, hnext⟩ := nextToken?_eq true mode hne
  obtain ⟨rfl, rfl⟩ := Prod.mk.inj (Option.some.inj (h.symm.trans hnext))
  rw [List.length_take] at hn
  rcases Nat.lt_or_ge n cs.length with hcut | hall
  · have hsize : (mode.cut true cs).size ≤ n := by omega
    have hsettled := Mode.settled_cut true mode cs n (by omega)
    have htake : (cs.take n).take (mode.cut true cs).size = cs.take (mode.cut true cs).size := by
      rw [List.take_take, Nat.min_eq_left hsize]
    have hne' : cs.take n ≠ [] := by
      intro hnil
      rw [hnil, List.take_nil] at htake
      exact hlexeme htake.symm
    rw [(nextToken?_eq true mode hne').2, hsettled, htake]
  · rwa [List.take_of_length_le hall]

theorem nextToken?_lexeme (h : nextToken? true mode cs = some (token, next)) :
    nextToken? true mode token.lexeme = some (token, next) := by
  have htake := nextToken?_take h (Nat.le_refl _)
  rwa [take_lexeme_length h] at htake

theorem lexFrom_lexeme (h : nextToken? true mode cs = some (token, next)) :
    lexFrom mode token.lexeme = [(token, next)] := by
  rw [lexFrom_of_some (nextToken?_lexeme h), List.drop_length, lexFrom_nil]

end Requests

theorem lexFrom_eq_cons {mode next : Mode} {cs : List Char} {token : Token}
    {back : List (Token × Mode)} (h : lexFrom mode cs = (token, next) :: back) :
    nextToken? true mode cs = some (token, next) ∧
      lexFrom next (cs.drop token.lexeme.length) = back := by
  cases hnext : nextToken? true mode cs with
  | none =>
    rw [lexFrom_of_none hnext] at h
    cases h
  | some call =>
    obtain ⟨token', next'⟩ := call
    rw [lexFrom_of_some hnext] at h
    cases h
    exact ⟨rfl, rfl⟩

/-- The tokens of a text come from requests, one after the other. -/
theorem requests_of_lexFrom {mode : Mode} {cs : List Char} {front back : List (Token × Mode)}
    (h : lexFrom mode cs = front ++ back) :
    ∃ rest, Requests mode cs front (modeAfter mode front) rest ∧
      lexFrom (modeAfter mode front) rest = back := by
  induction front generalizing mode cs with
  | nil => exact ⟨cs, .done mode cs, h⟩
  | cons call front ih =>
    obtain ⟨hnext, hbehind⟩ := lexFrom_eq_cons h
    obtain ⟨rest, hrequests, hback⟩ := ih hbehind
    rw [modeAfter_cons]
    exact ⟨rest, .next hnext hrequests, hback⟩

theorem Lines.dropTerminator_of_not_mem {text : List Char} (hfeed : '\n' ∉ text)
    (hreturn : '\r' ∉ text) : dropTerminator text = text := by
  have hlast : ∀ c, c ∉ text → dropFinal c text = text := by
    intro c hc
    exact dropFinal_of_getLast?_ne fun h => hc (List.mem_of_getLast? h)
  rw [dropTerminator, hlast _ hfeed, hlast _ hreturn]

namespace Line

/-- The request behind some tokens of a line. -/
theorem nextToken?_of_read {start next : Mode} {text : List Char} {token : Token}
    {front back : List (Token × Mode)} (h : read start text = front ++ (token, next) :: back) :
    ∃ rest, Requests start (Lines.dropTerminator text) front (modeAfter start front) rest ∧
      nextToken? true (modeAfter start front) rest = some (token, next) := by
  obtain ⟨rest, hrequests, hback⟩ := requests_of_lexFrom h
  exact ⟨rest, hrequests, (lexFrom_eq_cons hback).1⟩

/-- Every token delimits itself: its lexeme, lexed alone from the mode in which the token was
requested, gives that one token and ends in the mode behind it. So wherever a lexeme is read in a
mode, it has the same kind and leads to the same mode, whatever follows it. -/
theorem tokens_lexeme_of_read {start next : Mode} {text : List Char} {token : Token}
    {front back : List (Token × Mode)} (hfeed : '\n' ∉ text) (hreturn : '\r' ∉ text)
    (h : read start text = front ++ (token, next) :: back) :
    tokens (modeAfter start front) token.lexeme = [token] ∧
    endMode (modeAfter start front) token.lexeme = next ∧
    ∀ start' text' front' token' next' back',
      read start' text' = front' ++ (token', next') :: back' →
      modeAfter start' front' = modeAfter start front → token'.lexeme = token.lexeme →
      token' = token ∧ next' = next := by
  obtain ⟨rest, hrequests, hnext⟩ := nextToken?_of_read h
  have hsubset : ∀ c ∈ token.lexeme, c ∈ text := by
    intro c hc
    have hrest : c ∈ rest := by
      rw [← take_lexeme_length hnext] at hc
      exact List.mem_of_mem_take hc
    have htext := hrequests.text_append
    rw [Lines.dropTerminator_of_not_mem hfeed hreturn] at htext
    rw [← htext]
    exact List.mem_append_right _ hrest
  have hread : read (modeAfter start front) token.lexeme = [(token, next)] := by
    rw [read, Lines.dropTerminator_of_not_mem (fun hc => hfeed (hsubset _ hc))
      (fun hc => hreturn (hsubset _ hc)), lexFrom_lexeme hnext]
  refine ⟨by rw [tokens, hread]; rfl, by rw [endMode, hread]; rfl, ?_⟩
  intro start' text' front' token' next' back' h' hmode hlexeme
  obtain ⟨rest', -, hnext'⟩ := nextToken?_of_read h'
  have halone := nextToken?_lexeme hnext'
  rw [hmode, hlexeme, nextToken?_lexeme hnext] at halone
  obtain ⟨rfl, rfl⟩ := Prod.mk.inj (Option.some.inj halone)
  exact ⟨rfl, rfl⟩

/-- Dashes with a symbol behind them, and then a digit in front of a point that no digit follows. -/
theorem tokens_lexeme_of_read_point :
    let front := [(⟨.identifier, "--|".toList⟩, .normal)]
    let back := [(⟨.builtin, ['.']⟩, .normal), (⟨.identifier, ['x']⟩, .normal)]
    read .normal "--|3.x".toList = front ++ (⟨.number, ['3']⟩, .normal) :: back ∧
    tokens .normal ['3'] = [⟨.number, ['3']⟩] ∧ endMode .normal ['3'] = .normal := by
  intro front back
  have hread : read .normal "--|3.x".toList = front ++ (⟨.number, ['3']⟩, .normal) :: back := by
    decide +kernel
  have h := tokens_lexeme_of_read (by decide) (by decide) hread
  exact ⟨hread, h.1, h.2.1⟩

end Line

end BoardHighlight
