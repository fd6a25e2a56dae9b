import BoardHighlight.Proofs.Progress

/-!
# Nesting of block comments

A comment is read here by a scanner of its own: a line is first cut into units, an opener or a
closer being one unit of two characters, and a counter then runs over the units until it is zero.
The lexer takes exactly what the scanner reads, on one line and over any number of lines, so a
comment ends at the closer that matches its opener.

The loop over a line may also run on a bare counter. It then has no answer where the counter would
fall below zero, and tests at the end of the line whether anything is open. Started at a depth it
always has an answer, and the test never fails.
-/

namespace BoardHighlight
set_option autoImplicit false

namespace BlockComment

/-- The units in which a comment is read. -/
inductive Mark where
  | opener
  | closer
  | plain (c : Char)
  deriving DecidableEq

namespace Mark

def text : Mark → List Char
  | opener => ['{', '-']
  | closer => ['-', '}']
  | plain c => [c]

/-- The depth behind a unit that is read at depth `n`. -/
def level (n : Nat) : Mark → Nat
  | opener => min (n + 1) Depth.limit
  | closer => n - 1
  | plain _ => n

end Mark

/-- The units of a line, from left to right. -/
def marks : List Char → List Mark
  | [] => []
  | '{' :: '-' :: rest => .opener :: marks rest
  | '-' :: '}' :: rest => .closer :: marks rest
  | c :: rest => .plain c :: marks rest

/-- The units that the scanner reads from depth `n` on: it stops as soon as the depth is zero. -/
def reach (n : Nat) : List Mark → List Mark
  | [] => []
  | mark :: rest => if n = 0 then [] else mark :: reach (mark.level n) rest

def depthBehind (n : Nat) (read : List Mark) : Nat := read.foldl Mark.level n

/-- The front of a line that the scanner reads from depth `n` on. -/
def extent (n : Nat) (cs : List Char) : List Char := (reach n (marks cs)).flatMap Mark.text

/-- The depth at which the scanner stops on a line; zero if the comment ends there. -/
def depthAfter (n : Nat) (cs : List Char) : Nat := depthBehind n (reach n (marks cs))

theorem reach_zero (units : List Mark) : reach 0 units = [] := by
  cases units <;> rfl

theorem reach_cons {n : Nat} (h : 0 < n) (mark : Mark) (rest : List Mark) :
    reach n (mark :: rest) = mark :: reach (mark.level n) rest :=
  if_neg (Nat.ne_of_gt h)

theorem marks_cons {a b : Char} (rest : List Char) (hopener : ¬(a = '{' ∧ b = '-'))
    (hcloser : ¬(a = '-' ∧ b = '}')) :
    marks (a :: b :: rest) = .plain a :: marks (b :: rest) := by
  rw [marks]
  · rintro tail rfl h
    exact hopener ⟨rfl, (List.cons.inj h).1⟩
  · rintro tail rfl h
    exact hcloser ⟨rfl, (List.cons.inj h).1⟩

section Scanner
variable {n : Nat} {cs rest : List Char}

theorem extent_of_marks_cons (h : 0 < n) {mark : Mark} (hmarks : marks cs = mark :: marks rest) :
    extent n cs = mark.text ++ extent (mark.level n) rest := by
  rw [extent, hmarks, reach_cons h, List.flatMap_cons, extent]

theorem depthAfter_of_marks_cons (h : 0 < n) {mark : Mark}
    (hmarks : marks cs = mark :: marks rest) :
    depthAfter n cs = depthAfter (mark.level n) rest := by
  rw [depthAfter, hmarks, reach_cons h, depthAfter, depthBehind, List.foldl_cons, depthBehind]

@[simp] theorem extent_zero (cs : List Char) : extent 0 cs = [] := by
  rw [extent, reach_zero, List.flatMap_nil]

@[simp] theorem depthAfter_zero (cs : List Char) : depthAfter 0 cs = 0 := by
  rw [depthAfter, reach_zero]
  rfl

@[simp] theorem extent_nil (n : Nat) : extent n [] = [] := rfl

@[simp] theorem depthAfter_nil (n : Nat) : depthAfter n [] = n := rfl

end Scanner

/-- The counter of the lexer, which is never zero, is that of the scanner up to the closer that
would make it so. -/
theorem scan_eq (cs : List Char) (depth : Depth) :
    scan cs depth =
      ((extent depth.val cs).length, Depth.ofNat? (depthAfter depth.val cs)) := by
  fun_induction scan cs depth with
  | case1 depth => simp [Depth.ofNat?_val]
  | case2 c depth =>
    have hmarks : marks [c] = .plain c :: marks [] := by simp [marks]
    rw [extent_of_marks_cons depth.pos hmarks, depthAfter_of_marks_cons depth.pos hmarks]
    simp [Mark.text, Mark.level, Depth.ofNat?_val]
  | case3 a b rest depth h found ih =>
    simp only [Bool.and_eq_true, beq_iff_eq] at h
    obtain ⟨rfl, rfl⟩ := h
    have hmarks : marks ('{' :: '-' :: rest) = .opener :: marks rest := rfl
    rw [extent_of_marks_cons depth.pos hmarks, depthAfter_of_marks_cons depth.pos hmarks,
      show Mark.level depth.val .opener = depth.deeper.val from depth.val_deeper.symm]
    simp only [found, ih, Mark.text, List.length_append, List.length_cons, List.length_nil]
  -- the closer of the outermost level: the scanner goes on at depth zero, where it reads nothing
  | case4 a b rest depth _ h hnone =>
    simp only [Bool.and_eq_true, beq_iff_eq] at h
    obtain ⟨rfl, rfl⟩ := h
    have hmarks : marks ('-' :: '}' :: rest) = .closer :: marks rest := rfl
    have hone : depth.val = 1 := Depth.shallower?_eq_none_iff.mp hnone
    rw [extent_of_marks_cons depth.pos hmarks, depthAfter_of_marks_cons depth.pos hmarks,
      show Mark.level depth.val .closer = 0 by rw [hone]; rfl]
    simp [Mark.text, Depth.ofNat?]
  | case5 a b rest depth _ h outer hsome found ih =>
    simp only [Bool.and_eq_true, beq_iff_eq] at h
    obtain ⟨rfl, rfl⟩ := h
    have hmarks : marks ('-' :: '}' :: rest) = .closer :: marks rest := rfl
    have houter : depth.val = outer.val + 1 := Depth.shallower?_eq_some_iff.mp hsome
    rw [extent_of_marks_cons depth.pos hmarks, depthAfter_of_marks_cons depth.pos hmarks,
      show Mark.level depth.val .closer = outer.val by rw [houter]; rfl]
    simp only [found, ih, Mark.text, List.length_append, List.length_cons, List.length_nil]
  | case6 a b rest depth hopener hcloser found ih =>
    simp only [Bool.and_eq_true, beq_iff_eq] at hopener hcloser
    have hmarks := marks_cons rest hopener hcloser
    rw [extent_of_marks_cons depth.pos hmarks, depthAfter_of_marks_cons depth.pos hmarks]
    simp only [found, ih, Mark.text, Mark.level, List.length_append, List.length_cons,
      List.length_nil]

theorem flatMap_marks (cs : List Char) : (marks cs).flatMap Mark.text = cs := by
  fun_induction marks cs with
  | case1 => rfl
  | case2 rest ih => rw [List.flatMap_cons, ih]; rfl
  | case3 rest ih => rw [List.flatMap_cons, ih]; rfl
  | case4 c rest _ _ ih => rw [List.flatMap_cons, ih]; rfl

theorem reach_append (n : Nat) (units : List Mark) :
    ∃ left, units = reach n units ++ left ∧
      (depthBehind n (reach n units) ≠ 0 → left = []) := by
  induction units generalizing n with
  | nil => exact ⟨[], rfl, fun _ => rfl⟩
  | cons mark rest ih =>
    by_cases hn : n = 0
    · subst hn
      rw [reach_zero]
      exact ⟨mark :: rest, rfl, fun h => absurd rfl h⟩
    · obtain ⟨left, hleft, hopen⟩ := ih (mark.level n)
      rw [reach_cons (Nat.pos_of_ne_zero hn)]
      exact ⟨left, congrArg (List.cons mark) hleft, hopen⟩

theorem extent_append (n : Nat) (cs : List Char) :
    ∃ back, cs = extent n cs ++ back ∧ (depthAfter n cs ≠ 0 → back = []) := by
  obtain ⟨left, hleft, hopen⟩ := reach_append n (marks cs)
  refine ⟨left.flatMap Mark.text, ?_, fun h => by rw [hopen h]; rfl⟩
  conv => lhs; rw [← flatMap_marks cs, hleft]
  exact List.flatMap_append

/-- The depth is not zero in front of any unit that is read. -/
theorem depthBehind_pos {n : Nat} {units before after : List Mark} {mark : Mark}
    (h : reach n units = before ++ mark :: after) : 0 < depthBehind n before := by
  induction before generalizing n units with
  | nil =>
    rcases Nat.eq_zero_or_pos n with rfl | hn
    · rw [reach_zero] at h
      cases h
    · exact hn
  | cons first before ih =>
    rcases Nat.eq_zero_or_pos n with rfl | hn
    · rw [reach_zero] at h
      cases h
    · cases units with
      | nil => cases h
      | cons unit rest =>
        rw [reach_cons hn, List.cons_append, List.cons.injEq] at h
        obtain ⟨rfl, hrest⟩ := h
        exact ih hrest

theorem level_le {n : Nat} (h : n ≤ Depth.limit) (mark : Mark) : mark.level n ≤ Depth.limit := by
  cases mark with
  | opener => exact Nat.min_le_right _ _
  | closer => exact Nat.le_trans (Nat.sub_le n 1) h
  | plain c => exact h

theorem depthBehind_le {n : Nat} (h : n ≤ Depth.limit) (units : List Mark) :
    depthBehind n units ≤ Depth.limit := by
  induction units generalizing n with
  | nil => exact h
  | cons mark rest ih => exact ih (level_le h mark)

/-- A comment that ends does so with a closer, read when one level is open. -/
theorem reach_eq_append_closer {n : Nat} {units : List Mark} (h : 0 < n)
    (hzero : depthBehind n (reach n units) = 0) :
    ∃ before, reach n units = before ++ [.closer] ∧ depthBehind n before = 1 := by
  rcases List.eq_nil_or_concat (reach n units) with hnil | ⟨before, mark, hlast⟩
  · rw [hnil] at hzero
    exact absurd hzero (Nat.ne_of_gt h)
  · rw [List.concat_eq_append] at hlast
    have hpos := depthBehind_pos hlast
    rw [hlast, depthBehind, List.foldl_append] at hzero
    change mark.level (depthBehind n before) = 0 at hzero
    cases mark with
    | opener =>
      simp only [Mark.level, Depth.limit] at hzero
      omega
    | closer =>
      simp only [Mark.level] at hzero
      exact ⟨before, hlast, by omega⟩
    | plain c => exact absurd hzero (Nat.ne_of_gt hpos)

end BlockComment

/-- The mode within a comment that is `n` levels deep, and outside of it at depth zero. -/
def CommentKind.modeAt (kind : CommentKind) (n : Nat) : Mode :=
  match Depth.ofNat? n with
  | none => .normal
  | some depth => .blockComment kind depth

@[simp] theorem CommentKind.modeAt_zero (kind : CommentKind) : kind.modeAt 0 = .normal := rfl

@[simp] theorem CommentKind.modeAt_val (kind : CommentKind) (depth : Depth) :
    kind.modeAt depth.val = .blockComment kind depth := by
  rw [modeAt, Depth.ofNat?_val]

namespace BlockComment

theorem cut_eq (kind : CommentKind) (depth : Depth) (cs : List Char) :
    BlockComment.cut kind depth cs =
      ⟨kind.tokenKind, (extent depth.val cs).length, kind.modeAt (depthAfter depth.val cs)⟩ := by
  unfold BlockComment.cut CommentKind.modeAt
  rw [scan_eq]
  cases Depth.ofNat? (depthAfter depth.val cs) <;> rfl

/-- How the loop over a line stops: behind the closer that makes its counter zero, or at the end of
the line. -/
inductive Stop where
  | closed
  | lineEnd (counter : Nat)
  deriving DecidableEq

namespace Stop

/-- The mode behind the loop; a counter of zero at the end of the line leaves nothing open. -/
def mode (kind : CommentKind) : Stop → Mode
  | closed => .normal
  | lineEnd counter =>
    match Depth.ofNat? counter with
    | some depth => .blockComment kind depth
    | none => .normal

def ofDepth? : Option Depth → Stop
  | none => closed
  | some depth => lineEnd depth.val

theorem ofDepth?_ne (left : Option Depth) : ofDepth? left ≠ lineEnd 0 := by
  cases left with
  | none => exact Stop.noConfusion
  | some depth =>
    intro h
    exact Nat.ne_of_gt depth.pos (lineEnd.inj h)

theorem mode_ofDepth? (kind : CommentKind) (n : Nat) :
    (ofDepth? (Depth.ofNat? n)).mode kind = kind.modeAt n := by
  unfold CommentKind.modeAt
  cases Depth.ofNat? n with
  | none => rfl
  | some depth =>
    rw [ofDepth?, mode, Depth.ofNat?_val]

end Stop

/-- The loop over a line on a bare counter: how many characters it takes, and how it stops. There is
no answer where one would have to be taken from zero. -/
def count? : List Char → Nat → Option (Nat × Stop)
  | [], counter => some (0, .lineEnd counter)
  | [_], counter => some (1, .lineEnd counter)
  | a :: b :: rest, counter =>
    if a == '{' && b == '-' then
      (count? rest (min (counter + 1) Depth.limit)).map fun found => (2 + found.1, found.2)
    else if a == '-' && b == '}' then
      if counter = 0 then none
      else if counter - 1 = 0 then some (2, .closed)
      else (count? rest (counter - 1)).map fun found => (2 + found.1, found.2)
    else (count? (b :: rest) counter).map fun found => (1 + found.1, found.2)

/-- From a depth the bare counter always has an answer, and it is that of the depth. -/
theorem count?_eq (cs : List Char) (depth : Depth) :
    count? cs depth.val = some ((scan cs depth).1, Stop.ofDepth? (scan cs depth).2) := by
  fun_induction scan cs depth with
  | case1 depth => rfl
  | case2 c depth => rfl
  | case3 a b rest depth hopener found ih =>
    rw [count?, if_pos hopener, ← depth.val_deeper, ih]
    rfl
  | case4 a b rest depth hopener hcloser hnone =>
    have hone : depth.val = 1 := Depth.shallower?_eq_none_iff.mp hnone
    rw [count?, if_neg hopener, if_pos hcloser, if_neg (by omega), if_pos (by omega)]
    rfl
  | case5 a b rest depth hopener hcloser outer hsome found ih =>
    have houter : depth.val = outer.val + 1 := Depth.shallower?_eq_some_iff.mp hsome
    have hpos := outer.pos
    rw [count?, if_neg hopener, if_pos hcloser, if_neg (by omega), if_neg (by omega),
      show depth.val - 1 = outer.val by omega, ih]
    rfl
  | case6 a b rest depth hopener hcloser found ih =>
    rw [count?, if_neg hopener, if_neg hcloser, ih]
    rfl

/-- A request in `mode` reads a comment that is `depth` levels deep behind `lead`: one that is open
already, or one that `lead` opens. -/
inductive Enters : Mode → List Char → CommentKind → Depth → List Char → Prop where
  | inside (kind : CommentKind) (depth : Depth) (rest : List Char) :
      Enters (.blockComment kind depth) [] kind depth rest
  | ordinary {rest : List Char} :
      rest.head? ≠ some '#' → Enters .normal ['{', '-'] .ordinary .one rest
  | pragma (rest : List Char) : Enters .normal ['{', '-', '#'] .pragma .one rest

theorem normal_step_opener (rest : List Char) :
    Mode.normal.step true ('{' :: '-' :: rest) =
      if rest.head? == some '#' then .enter 3 (.opened .pragma)
      else .enter 2 (.opened .ordinary) := by
  have hblank : isBlank '{' = false := by decide
  have hmark : isPunctuation '{' = true := by decide
  simp only [Mode.step, normalStep_cons, hblank, hmark, punctuationStep, List.head?_cons,
    List.tail_cons, beq_self_eq_true, Bool.and_self, if_true, Bool.false_eq_true, if_false]
  rfl

section Lines
variable {mode : Mode} {lead rest : List Char} {kind : CommentKind} {depth : Depth}

theorem Enters.cut_eq (h : Enters mode lead kind depth rest) :
    mode.cut true (lead ++ rest) =
      ⟨kind.tokenKind, (lead ++ extent depth.val rest).length,
        kind.modeAt (depthAfter depth.val rest)⟩ := by
  rw [List.length_append]
  cases h with
  | inside =>
    rw [List.nil_append, List.length_nil, Nat.zero_add, ← BlockComment.cut_eq]
    exact Mode.cut_of_emit rfl
  | ordinary hsign =>
    have hstep := normal_step_opener rest
    rw [if_neg (by simpa using hsign)] at hstep
    have hbody : (Mode.opened .ordinary).step true rest = .emit (cut .ordinary .one rest) := rfl
    exact (Mode.cut_of_enter hstep).trans (by
      rw [List.drop_succ_cons, List.drop_succ_cons, List.drop_zero, Mode.cut_of_emit hbody,
        BlockComment.cut_eq]
      rfl)
  | pragma =>
    have hstep := normal_step_opener ('#' :: rest)
    rw [if_pos (by rfl)] at hstep
    have hbody : (Mode.opened .pragma).step true rest = .emit (cut .pragma .one rest) := rfl
    exact (Mode.cut_of_enter hstep).trans (by
      rw [List.drop_succ_cons, List.drop_succ_cons, List.drop_succ_cons, List.drop_zero,
        Mode.cut_of_emit hbody, BlockComment.cut_eq]
      rfl)

/-- The token of a comment on one line, if the line holds any of it. -/
def part (kind : CommentKind) (lead : List Char) (n : Nat) (rest : List Char) :
    List (Token × Mode) :=
  if lead ++ extent n rest = [] then []
  else [(⟨Reserved.classify (lead ++ extent n rest) kind.tokenKind, lead ++ extent n rest⟩,
    kind.modeAt (depthAfter n rest))]

theorem Enters.nextToken?_eq (h : Enters mode lead kind depth rest) (hne : lead ++ rest ≠ []) :
    nextToken? true mode (lead ++ rest) =
      some (⟨Reserved.classify (lead ++ extent depth.val rest) kind.tokenKind,
        lead ++ extent depth.val rest⟩, kind.modeAt (depthAfter depth.val rest)) ∧
      lead ++ extent depth.val rest ≠ [] := by
  obtain ⟨back, hback, -⟩ := extent_append depth.val rest
  have hline : lead ++ rest = (lead ++ extent depth.val rest) ++ back := by
    rw [List.append_assoc, ← hback]
  obtain ⟨hlexeme, hnext⟩ := BoardHighlight.nextToken?_eq true mode hne
  rw [h.cut_eq, hline, List.take_left] at hlexeme hnext
  exact ⟨hline ▸ hnext, hlexeme⟩

/-- On one line the requests of a comment take what the scanner reads, and stop where it stops. -/
theorem Enters.requests (h : Enters mode lead kind depth rest) {back : List Char}
    (hback : rest = extent depth.val rest ++ back) :
    Requests mode (lead ++ rest) (part kind lead depth.val rest)
      (kind.modeAt (depthAfter depth.val rest)) back := by
  by_cases hne : lead ++ rest = []
  · obtain ⟨rfl, rfl⟩ := List.append_eq_nil_iff.mp hne
    obtain rfl : [] = back := hback
    cases h with
    | inside => simpa [part] using Requests.done (.blockComment kind depth) []
  · obtain ⟨hnext, hlexeme⟩ := h.nextToken?_eq hne
    have hline : lead ++ rest = (lead ++ extent depth.val rest) ++ back := by
      rw [List.append_assoc, ← hback]
    rw [part, if_neg hlexeme]
    rw [hline] at hnext ⊢
    exact .cons hnext (.done _ back)

/-- The depth behind whole lines; zero once the comment has ended. -/
def depthOver (n : Nat) (lines : List (List Char)) : Nat := lines.foldl depthAfter n

@[simp] theorem depthOver_cons (n : Nat) (cs : List Char) (lines : List (List Char)) :
    depthOver n (cs :: lines) = depthOver (depthAfter n cs) lines := rfl

theorem depthOver_zero (lines : List (List Char)) : depthOver 0 lines = 0 := by
  induction lines with
  | nil => rfl
  | cons cs lines ih => rw [depthOver_cons, depthAfter_zero, ih]

theorem depthOver_le {n : Nat} (h : n ≤ Depth.limit) (lines : List (List Char)) :
    depthOver n lines ≤ Depth.limit := by
  induction lines generalizing n with
  | nil => exact h
  | cons cs lines ih => exact ih (depthBehind_le h _)

theorem pos_of_depthOver_pos {n : Nat} {lines : List (List Char)} (h : 0 < depthOver n lines) :
    0 < n := by
  rcases Nat.eq_zero_or_pos n with rfl | hpos
  · rw [depthOver_zero] at h
    exact absurd h (Nat.lt_irrefl 0)
  · exact hpos

theorem exists_depth {n : Nat} (hpos : 0 < n) (hle : n ≤ Depth.limit) :
    ∃ depth : Depth, depth.val = n := ⟨⟨n, hpos, hle⟩, rfl⟩

theorem Enters.endMode_eq (h : Enters mode lead kind depth rest) {first : Mode} {text : List Char}
    {front : List (Token × Mode)}
    (hfront : Requests first (Lines.dropTerminator text) front mode (lead ++ rest))
    (hopen : 0 < depthAfter depth.val rest) :
    Line.endMode first text = kind.modeAt (depthAfter depth.val rest) := by
  obtain ⟨back, hback, hwhole⟩ := extent_append depth.val rest
  obtain rfl := hwhole (Nat.ne_of_gt hopen)
  have hrequests := h.requests hback
  rw [Line.endMode, Line.read, hfront.lexFrom_eq, hrequests.lexFrom_eq, lexFrom_nil,
    List.append_nil, modeAfter_append, hfront.modeAfter_eq, hrequests.modeAfter_eq]

theorem enters_modeAt (kind : CommentKind) (depth : Depth) (cs : List Char) :
    Enters (kind.modeAt depth.val) [] kind depth cs := by
  rw [CommentKind.modeAt_val]
  exact .inside kind depth cs

/-- As long as a comment is open, lines carry the depth of the scanner. -/
theorem carry_modeAt (kind : CommentKind) {n : Nat} (hle : n ≤ Depth.limit)
    {texts : List (List Char)} (hopen : 0 < depthOver n (texts.map Lines.dropTerminator)) :
    Line.carry (kind.modeAt n) texts =
      kind.modeAt (depthOver n (texts.map Lines.dropTerminator)) := by
  induction texts generalizing n with
  | nil => rfl
  | cons text texts ih =>
    obtain ⟨depth, rfl⟩ := exists_depth (pos_of_depthOver_pos hopen) hle
    rw [List.map_cons, depthOver_cons] at hopen ⊢
    have hafter := pos_of_depthOver_pos hopen
    rw [Line.carry_cons, (enters_modeAt kind depth _).endMode_eq (.done _ _) hafter]
    exact ih (depthBehind_le hle _) hopen

/-- The requests on the rest of a line that a comment opens: the first reads what the scanner
reads, and the others read what it leaves, which is ordinary code. -/
def ReadBy (kind : CommentKind) (lead : List Char) (n : Nat) (rest : List Char)
    (read : List (Token × Mode)) : Prop :=
  ∃ back, rest = extent n rest ++ back ∧ (depthAfter n rest ≠ 0 → back = []) ∧
    read = part kind lead n rest ++ lexFrom .normal back

theorem Enters.readBy (h : Enters mode lead kind depth rest) :
    ReadBy kind lead depth.val rest (lexFrom mode (lead ++ rest)) := by
  obtain ⟨back, hback, hopen⟩ := extent_append depth.val rest
  refine ⟨back, hback, hopen, ?_⟩
  rw [(h.requests hback).lexFrom_eq]
  by_cases hzero : depthAfter depth.val rest = 0
  · rw [hzero, CommentKind.modeAt_zero]
  · rw [hopen hzero, lexFrom_nil, lexFrom_nil]

theorem Enters.carry_eq (h : Enters mode lead kind depth rest) {first : Mode} {text : List Char}
    {front : List (Token × Mode)}
    (hfront : Requests first (Lines.dropTerminator text) front mode (lead ++ rest))
    {texts : List (List Char)}
    (hopen : 0 < depthOver depth.val (rest :: texts.map Lines.dropTerminator)) :
    Line.carry first (text :: texts) =
      kind.modeAt (depthOver depth.val (rest :: texts.map Lines.dropTerminator)) := by
  rw [depthOver_cons] at hopen ⊢
  rw [Line.carry_cons, h.endMode_eq hfront (pos_of_depthOver_pos hopen)]
  exact carry_modeAt kind (depthBehind_le depth.le_limit _) hopen

/-- A comment that a request meets is read by the scanner, on its line and on all that follow. The
loop on a bare counter reads as much and goes on in the same mode, without a counter of zero at the
end of a line. -/
structure Nests (mode : Mode) (lead : List Char) (kind : CommentKind) (depth : Depth)
    (rest : List Char) : Prop where
  token : lead ++ rest ≠ [] → nextToken? true mode (lead ++ rest) =
    some (⟨Reserved.classify (lead ++ extent depth.val rest) kind.tokenKind,
      lead ++ extent depth.val rest⟩, kind.modeAt (depthAfter depth.val rest))
  counter : ∀ before mark after, reach depth.val (marks rest) = before ++ mark :: after →
    0 < depthBehind depth.val before ∧ depthBehind depth.val before ≤ Depth.limit
  loop : ∃ stop, count? rest depth.val = some ((extent depth.val rest).length, stop) ∧
    stop ≠ .lineEnd 0 ∧ stop.mode kind = kind.modeAt (depthAfter depth.val rest)
  closed : depthAfter depth.val rest = 0 → ∃ before,
    reach depth.val (marks rest) = before ++ [.closer] ∧ depthBehind depth.val before = 1
  line : ∀ first text front, Requests first (Lines.dropTerminator text) front mode (lead ++ rest) →
    ∃ read, Line.read first text = front ++ read ∧ ReadBy kind lead depth.val rest read
  lines : ∀ first text front, Requests first (Lines.dropTerminator text) front mode (lead ++ rest) →
    ∀ texts next, 0 < depthOver depth.val (rest :: texts.map Lines.dropTerminator) →
    Line.carry first (text :: texts) =
      kind.modeAt (depthOver depth.val (rest :: texts.map Lines.dropTerminator)) ∧
    ReadBy kind [] (depthOver depth.val (rest :: texts.map Lines.dropTerminator))
      (Lines.dropTerminator next) (Line.read (Line.carry first (text :: texts)) next)

/-- Block comments nest over any number of lines: the lexer takes what the scanner reads, up to the
closer that brings the depth to zero and no other, and is then back in ordinary code. -/
theorem nests_of_enters (h : Enters mode lead kind depth rest) :
    Nests mode lead kind depth rest where
  token hne := (h.nextToken?_eq hne).1
  counter before mark after hreach :=
    ⟨depthBehind_pos hreach, depthBehind_le depth.le_limit before⟩
  loop := by
    refine ⟨_, ?_, Stop.ofDepth?_ne _, Stop.mode_ofDepth? kind _⟩
    rw [count?_eq, scan_eq]
  closed hzero := reach_eq_append_closer depth.pos hzero
  line first text front hfront := by
    refine ⟨lexFrom mode (lead ++ rest), ?_, h.readBy⟩
    rw [Line.read, hfront.lexFrom_eq]
  lines first text front hfront texts next hopen := by
    have hcarry := h.carry_eq hfront hopen
    refine ⟨hcarry, ?_⟩
    obtain ⟨inner, hinner⟩ := exists_depth hopen (depthOver_le depth.le_limit _)
    rw [hcarry, ← hinner]
    exact (enters_modeAt kind inner (Lines.dropTerminator next)).readBy

end Lines

/-- An opener whose dash is no closer's, one that its line cuts off, and the closer that matches
the first one two lines below. -/
theorem nests_of_enters_three_lines :
    let rest := "\x7b-\x7d\x7b".toList
    let texts := ["x-\x7d\x7b\r\n".toList]
    let front := [(⟨.identifier, ['a']⟩, .normal), (⟨.plain, [' ']⟩, .normal)]
    Enters .normal ['{', '-'] .ordinary .one rest ∧
    Requests .normal (Lines.dropTerminator "a \x7b-\x7b-\x7d\x7b\n".toList) front .normal
      (['{', '-'] ++ rest) ∧
    depthOver 1 (rest :: texts.map Lines.dropTerminator) = 1 ∧
    Line.carry .normal ("a \x7b-\x7b-\x7d\x7b\n".toList :: texts) = .opened .ordinary ∧
    ∃ back, "--\x7d b -\x7d".toList = "--\x7d".toList ++ back ∧
      Line.read (.opened .ordinary) "--\x7d b -\x7d\n".toList =
        (⟨.comment, "--\x7d".toList⟩, .normal) :: lexFrom .normal back := by
  intro rest texts front
  have henters : Enters .normal ['{', '-'] .ordinary .one rest := .ordinary (by decide)
  have hfront : Requests .normal (Lines.dropTerminator "a \x7b-\x7b-\x7d\x7b\n".toList) front
      .normal (['{', '-'] ++ rest) :=
    .next (by decide +kernel) (.next (by decide +kernel) (.done _ _))
  have hdepth : depthOver 1 (rest :: texts.map Lines.dropTerminator) = 1 := by decide
  obtain ⟨hcarry, hread⟩ := (nests_of_enters henters).lines _ _ _ hfront texts
    "--\x7d b -\x7d\n".toList (by rw [Depth.val_one, hdepth]; exact Nat.one_pos)
  rw [Depth.val_one, hdepth] at hcarry hread
  rw [hcarry] at hread
  obtain ⟨back, hback, -, hread⟩ := hread
  exact ⟨henters, hfront, hdepth, hcarry, back, hback, hread⟩

end BlockComment

end BoardHighlight
