import Mathlib.Data.List.TakeWhile
import BoardHighlight.Proofs.HiddenErrors

/-!
# A reader that does not report its end

Three places of the lexer ask whether the text has ended: the front of every request, the backslash
that may open a gap, and the blanks that may rest in one. A reader that never says so is given the
same tokens as an ordinary one, up to the last. That one differs if it needed the end to leave a gap
open. Behind it there is nothing left, and every further request is answered by an empty invalid
token in whatever mode it is made.
-/

namespace BoardHighlight
set_option autoImplicit false

/-- The end of the text is needed to open a gap: the cut takes all of it and leaves a gap open
behind a backslash. -/
def Cut.OpensAtEnd (cs : List Char) (cut : Cut) : Prop :=
  cut.next = .stringGap ∧ cs.length ≤ cut.size ∧ cs.getLast? = some '\\'

/-- The end of the text is needed to stay within a gap: all of it is blank. -/
def Mode.RestsAtEnd (mode : Mode) (cs : List Char) : Prop :=
  mode = .stringGap ∧ ∀ c ∈ cs, isBlank c = true

theorem Mode.not_restsAtEnd {mode : Mode} (h : mode ≠ .stringGap) (cs : List Char) :
    ¬mode.RestsAtEnd cs := fun hrests => h hrests.1

/-- What a mode cuts from a text whose end is reported, and what it cuts if it is not. -/
inductive Unreported (mode : Mode) (cs : List Char) : Cut → Cut → Prop where
  | opens : cs.getLast? = some '\\' →
      Unreported mode cs ⟨.string, cs.length, .stringGap⟩ (.normal .badString cs.length)
  | rests : mode.RestsAtEnd cs →
      Unreported mode cs ⟨.string, cs.length, .stringGap⟩ (.normal .invalid cs.length)
  | same {cut : Cut} : ¬cut.OpensAtEnd cs → ¬mode.RestsAtEnd cs → Unreported mode cs cut cut

namespace Unreported
variable {mode : Mode} {cs : List Char}

theorem same_of_ne {cut : Cut} (hcut : cut.next ≠ .stringGap) (hmode : ¬mode.RestsAtEnd cs) :
    Unreported mode cs cut cut :=
  .same (fun h => hcut h.1) hmode

/-- What stands in front of a string does not matter, unless nothing stands behind it. -/
theorem shift (front : List Char) {rest : List Char} {cut cut' : Cut}
    (h : Unreported .string rest cut cut') (hnil : rest = [] → cut.next ≠ .stringGap)
    (hmode : ¬mode.RestsAtEnd (front ++ rest)) :
    Unreported mode (front ++ rest) (cut.shift front.length) (cut'.shift front.length) := by
  have hlast : rest ≠ [] → (front ++ rest).getLast? = rest.getLast? := by
    intro hne
    rw [List.getLast?_append, List.getLast?_eq_some_getLast hne, Option.some_or]
  cases h with
  | opens h =>
    have hne : rest ≠ [] := by
      rintro rfl
      cases h
    have hopens : Unreported mode (front ++ rest) _ _ := .opens ((hlast hne).trans h)
    rwa [List.length_append] at hopens
  | rests h => cases h.1
  | same hcut =>
    refine .same ?_ hmode
    rintro ⟨hnext, hsize, hslash⟩
    have hne : rest ≠ [] := fun hrest => hnil hrest hnext
    rw [List.length_append, Cut.shift_size] at hsize
    exact hcut ⟨hnext, Nat.le_of_add_le_add_left hsize, (hlast hne).symm.trans hslash⟩

end Unreported

namespace StringLiteral

theorem bodyCut_nil_next (ends : Bool) {rest : List Char} (h : rest = []) :
    (bodyCut ends rest).next ≠ .stringGap := by
  rw [h]
  decide +revert

theorem unreported_bodyCut (cs : List Char) :
    Unreported .string cs (bodyCut true cs) (bodyCut false cs) := by
  have hmode : ∀ cs, ¬Mode.string.RestsAtEnd cs := Mode.not_restsAtEnd (by decide)
  fun_induction bodyCut true cs with
  | case1 => exact .same_of_ne (by decide) (hmode _)
  | case2 c rest hquote =>
    have hcut : bodyCut false (c :: rest) = .normal .string 1 := by
      rw [bodyCut.eq_def]
      simp [hquote]
    rw [hcut]
    exact .same_of_ne (by decide) (hmode _)
  | case3 c hquote hslash =>
    obtain rfl : c = '\\' := beq_iff_eq.mp hslash
    exact .opens rfl
  | case4 c hquote hslash hends => exact absurd rfl hends
  | case5 c hquote hslash escaped rest hblank =>
    have hcut : bodyCut false (c :: escaped :: rest) = ⟨.string, 2, .stringGap⟩ := by
      simp [bodyCut, hquote, hslash, hblank]
    rw [hcut]
    refine .same ?_ (hmode _)
    -- a gap that a blank opens does not end in a backslash
    rintro ⟨-, hsize, hlast⟩
    cases rest with
    | nil =>
      obtain rfl : escaped = '\\' := Option.some.inj hlast
      exact absurd hblank (by decide)
    | cons d rest => simp at hsize
  | case6 c hquote hslash escaped rest hblank ih =>
    have hcut : bodyCut false (c :: escaped :: rest) = (bodyCut false rest).shift 2 := by
      simp [bodyCut, hquote, hslash, hblank]
    rw [hcut]
    exact ih.shift [c, escaped] (bodyCut_nil_next true) (hmode _)
  | case7 c rest hquote hslash ih =>
    have hcut : bodyCut false (c :: rest) = (bodyCut false rest).shift 1 := by
      rw [bodyCut.eq_def]
      simp [hquote, hslash]
    rw [hcut]
    exact ih.shift [c] (bodyCut_nil_next true) (hmode _)

/-- Where a gap is left, nothing is asked about the end. -/
theorem gapStep_eq {cs : List Char} (h : ¬∀ c ∈ cs, isBlank c = true) (ends : Bool) :
    gapStep ends cs = gapStep true cs := by
  cases hdrop : cs.dropWhile isBlank with
  | nil => exact absurd (List.dropWhile_eq_nil_iff.mp hdrop) h
  | cons c rest => simp only [gapStep, hdrop]

end StringLiteral

theorem BlockComment.cut_next_ne_gap (kind : CommentKind) (depth : Depth) (cs : List Char) :
    (BlockComment.cut kind depth cs).next ≠ .stringGap := by
  unfold BlockComment.cut
  split
  · exact Mode.noConfusion
  · exact Mode.noConfusion

namespace Mode

theorem unreported_of_enter {mode : Mode} {front rest : List Char}
    (hstep : ∀ ends, mode.step ends (front ++ rest) = .enter front.length .string)
    (hmode : ¬mode.RestsAtEnd (front ++ rest)) :
    Unreported mode (front ++ rest) (mode.cut true (front ++ rest))
      (mode.cut false (front ++ rest)) := by
  have hcut : ∀ ends, mode.cut ends (front ++ rest) =
      (StringLiteral.bodyCut ends rest).shift front.length := by
    intro ends
    rw [cut_of_enter (hstep ends), List.drop_left, cut_of_emit rfl]
  rw [hcut, hcut]
  exact (StringLiteral.unreported_bodyCut rest).shift front
    (StringLiteral.bodyCut_nil_next true) hmode

theorem unreported_of_comment {mode : Mode} {cs : List Char} {size : Nat} {kind : CommentKind}
    (hstep : ∀ ends, mode.step ends cs = .enter size (.opened kind))
    (hmode : ¬mode.RestsAtEnd cs) : Unreported mode cs (mode.cut true cs) (mode.cut false cs) := by
  have hcut : ∀ ends, mode.cut ends cs =
      (BlockComment.cut kind .one (cs.drop size)).shift size := by
    intro ends
    rw [cut_of_enter (hstep ends), cut_of_emit rfl]
  rw [hcut, hcut]
  exact .same_of_ne (BlockComment.cut_next_ne_gap kind .one _) hmode

theorem unreported_of_emit {mode : Mode} {cs : List Char} {cut : Cut}
    (hstep : ∀ ends, mode.step ends cs = .emit cut) (hcut : cut.next ≠ .stringGap)
    (hmode : ¬mode.RestsAtEnd cs) : Unreported mode cs (mode.cut true cs) (mode.cut false cs) := by
  rw [cut_of_emit (hstep true), cut_of_emit (hstep false)]
  exact .same_of_ne hcut hmode

theorem unreported_normal {cs : List Char} (hne : cs ≠ []) :
    Unreported .normal cs (normal.cut true cs) (normal.cut false cs) := by
  obtain ⟨c, rest, rfl⟩ := List.exists_cons_of_ne_nil hne
  have hmode : ¬normal.RestsAtEnd (c :: rest) := not_restsAtEnd (by decide) _
  have hordinary := ordinary_normalStep c rest
  cases hstep : normalStep (c :: rest) with
  | emit cut =>
    rw [hstep] at hordinary
    refine unreported_of_emit (fun _ => hstep) ?_ hmode
    rw [hordinary.next_eq]
    decide
  | enter size next =>
    rw [hstep] at hordinary
    cases hordinary with
    | comment => exact unreported_of_comment (fun _ => hstep) hmode
    | pragma => exact unreported_of_comment (fun _ => hstep) hmode
    | string =>
      have hstring : ∀ ends, normal.step ends ([c] ++ rest) = .enter [c].length .string :=
        fun _ => hstep
      exact unreported_of_enter hstring hmode

theorem unreported_gap {cs : List Char} (hne : cs ≠ []) :
    Unreported .stringGap cs (stringGap.cut true cs) (stringGap.cut false cs) := by
  rcases StringLiteral.blanks_cases cs with hblanks | ⟨blanks, c, rest, hblanks, hc, rfl⟩
  · have hfalse : stringGap.step false cs = .emit (.normal .invalid cs.length) := by
      have hdrop := List.dropWhile_eq_nil_iff.mpr hblanks
      simp only [step, StringLiteral.gapStep, hdrop, runLength_of_blank hblanks]
      rfl
    have htrue : stringGap.step true cs = .emit ⟨.string, cs.length, .stringGap⟩ :=
      StringLiteral.gapStep_blank hblanks hne
    rw [cut_of_emit htrue, cut_of_emit hfalse]
    exact .rests ⟨rfl, hblanks⟩
  · have hsome : ¬∀ d ∈ blanks ++ c :: rest, isBlank d = true := by
      intro hall
      rw [hall c (List.mem_append_right _ List.mem_cons_self)] at hc
      cases hc
    have hmode : ¬stringGap.RestsAtEnd (blanks ++ c :: rest) := fun h => hsome h.2
    have hstep : ∀ ends, stringGap.step ends (blanks ++ c :: rest) =
        StringLiteral.gapStep true (blanks ++ c :: rest) := StringLiteral.gapStep_eq hsome
    by_cases hslash : c = '\\'
    · subst hslash
      rw [StringLiteral.gapStep_resuming hblanks] at hstep
      have hsplit : blanks ++ '\\' :: rest = (blanks ++ ['\\']) ++ rest := by
        rw [List.append_assoc, List.singleton_append]
      rw [hsplit] at hstep hmode ⊢
      refine unreported_of_enter ?_ hmode
      intro ends
      rw [hstep, List.length_append, List.length_singleton]
    · rw [StringLiteral.gapStep_breaking hblanks hc hslash] at hstep
      exact unreported_of_emit hstep (by simp) hmode

/-- Of all that a mode cuts, the end matters to the opening of a gap and to blanks within one. -/
theorem unreported_cut (mode : Mode) {cs : List Char} (hne : cs ≠ []) :
    Unreported mode cs (mode.cut true cs) (mode.cut false cs) := by
  cases mode with
  | normal => exact unreported_normal hne
  | stringGap => exact unreported_gap hne
  | string =>
    have hcut : ∀ ends, string.cut ends cs = StringLiteral.bodyCut ends cs :=
      fun _ => cut_of_emit rfl
    rw [hcut, hcut]
    exact StringLiteral.unreported_bodyCut cs
  | blockComment kind depth =>
    exact unreported_of_emit (fun _ => rfl) (BlockComment.cut_next_ne_gap kind depth cs)
      (not_restsAtEnd (by simp) cs)

end Mode

/-- How the last request on a text is answered if its end is not reported. The request is made in
`mode`, and its ordinary answer is `token` with `next` behind it. -/
inductive LastAnswer (mode : Mode) (token : Token) (next : Mode) : Token → Mode → Prop where
  | opens : next = .stringGap → token.lexeme.getLast? = some '\\' →
      (mode.cut false token.lexeme).kind = .badString →
      LastAnswer mode token next
        ⟨Reserved.classify token.lexeme .badString, token.lexeme⟩ .normal
  | rests : mode.RestsAtEnd token.lexeme →
      LastAnswer mode token next ⟨.invalid, token.lexeme⟩ .normal
  | same : ¬(next = .stringGap ∧ token.lexeme.getLast? = some '\\') →
      ¬mode.RestsAtEnd token.lexeme → LastAnswer mode token next token next

theorem LastAnswer.lexeme_eq {mode next next' : Mode} {token token' : Token}
    (h : LastAnswer mode token next token' next') : token'.lexeme = token.lexeme := by
  cases h <;> rfl

section Requests
variable {mode next : Mode} {cs : List Char} {token : Token}

theorem nextToken?_isSome (mode : Mode) (cs : List Char) :
    (nextToken? false mode cs).isSome := by
  unfold nextToken?
  simp only [Bool.false_and, Bool.false_eq_true, if_false]
  split <;> rfl

/-- With nothing left, every mode takes nothing, and a token is made up. -/
theorem nextToken?_nil (mode : Mode) :
    nextToken? false mode [] = some (⟨.invalid, []⟩, .normal) := by
  simp [nextToken?]

/-- A request that leaves something of the text does not get to its end. -/
theorem nextToken?_of_ne (h : nextToken? true mode cs = some (token, next))
    (hrest : token.lexeme ≠ cs) : nextToken? false mode cs = some (token, next) := by
  have hne : cs ≠ [] := by
    rintro rfl
    cases h
  rw [(nextToken?_eq true mode hne).2] at h
  rw [(nextToken?_eq false mode hne).2, ← h]
  obtain ⟨rfl, -⟩ := Prod.mk.inj (Option.some.inj h)
  have hcut := mode.unreported_cut hne
  generalize mode.cut true cs = cut at hcut hrest
  generalize mode.cut false cs = cut' at hcut
  cases hcut with
  | opens => exact absurd List.take_length hrest
  | rests => exact absurd List.take_length hrest
  | same => rfl

theorem Mode.RestsAtEnd.classify_eq (h : mode.RestsAtEnd cs) (hne : cs ≠ []) (kind : Kind) :
    Reserved.classify cs kind = kind := by
  obtain ⟨c, hmem⟩ := List.exists_mem_of_ne_nil cs hne
  rw [Reserved.classify, StringLiteral.kind?_eq_none_of_blank hmem (h.2 c hmem)]
  rfl

theorem exists_lastAnswer (h : nextToken? true mode cs = some (token, next))
    (hrest : token.lexeme = cs) :
    ∃ token' next', LastAnswer mode token next token' next' ∧
      nextToken? false mode cs = some (token', next') := by
  have hne : cs ≠ [] := by
    rintro rfl
    cases h
  refine ⟨_, _, ?_, (nextToken?_eq false mode hne).2⟩
  rw [(nextToken?_eq true mode hne).2] at h
  obtain ⟨rfl, rfl⟩ := Prod.mk.inj (Option.some.inj h)
  have hcut := mode.unreported_cut hne
  generalize mode.cut true cs = cut at hcut hrest
  generalize hfalse : mode.cut false cs = cut' at hcut
  dsimp only at hrest
  cases hcut with
  | opens hslash =>
    rw [Cut.normal_size, Cut.normal_kind, List.take_length]
    refine .opens rfl hslash ?_
    rw [hfalse, Cut.normal_kind]
  | rests hblank =>
    rw [Cut.normal_size, Cut.normal_kind, List.take_length, hblank.classify_eq hne .invalid]
    exact .rests hblank
  | same hopens hblank =>
    refine .same ?_ (by rwa [hrest])
    rintro ⟨hnext, hslash⟩
    have hlength := congrArg List.length hrest
    rw [List.length_take] at hlength
    rw [hrest] at hslash
    exact hopens ⟨hnext, by omega, hslash⟩

end Requests

/-- What is seen in place of the tokens of a text if its end is not reported: all but the last are
the same. -/
inductive SeenAs (start : Mode) : List (Token × Mode) → List (Token × Mode) → Prop where
  | nothing : SeenAs start [] []
  | last {front : List (Token × Mode)} {token token' : Token} {next next' : Mode} :
      LastAnswer (modeAfter start front) token next token' next' →
      SeenAs start (front ++ [(token, next)]) (front ++ [(token', next')])

namespace SeenAs
variable {start : Mode} {read seen : List (Token × Mode)}

theorem cons (first : Token × Mode) (hne : read ≠ []) (h : SeenAs first.2 read seen) :
    SeenAs start (first :: read) (first :: seen) := by
  cases h with
  | nothing => exact absurd rfl hne
  | @last front _ _ _ _ hlast =>
    rw [← modeAfter_cons start first front] at hlast
    exact .last hlast

theorem map_lexeme (h : SeenAs start read seen) :
    seen.map (·.1.lexeme) = read.map (·.1.lexeme) := by
  cases h with
  | nothing => rfl
  | last hlast => rw [List.map_append, List.map_append, List.map_singleton, List.map_singleton,
      hlast.lexeme_eq]

end SeenAs

/-- The token that is made up where nothing is left. -/
def emptyAnswer : Token × Mode := (⟨.invalid, []⟩, .normal)

theorem lexStream_nil (limit : Nat) (mode : Mode) :
    lexStream false limit mode [] = List.replicate limit emptyAnswer := by
  induction limit generalizing mode with
  | zero => rfl
  | succ limit ih =>
    rw [lexStream, nextToken?_nil, List.replicate_succ]
    exact congrArg _ (ih .normal)

theorem lexFrom_ne_nil (mode : Mode) {cs : List Char} (h : cs ≠ []) : lexFrom mode cs ≠ [] := by
  intro hnil
  have htext := text_lexFrom mode cs
  rw [hnil] at htext
  exact h htext.symm

/-- The run of a reader that does not report its end beside that of an ordinary one. -/
theorem exists_seenAs (start : Mode) (cs : List Char) :
    ∃ seen, SeenAs start (lexFrom start cs) seen ∧ ∀ more,
      lexStream false (seen.length + more) start cs = seen ++ List.replicate more emptyAnswer := by
  fun_induction lexFrom start cs with
  | case1 mode cs hnone =>
    obtain rfl := nextToken?_eq_none_iff.mp hnone
    refine ⟨[], .nothing, ?_⟩
    intro more
    rw [List.length_nil, Nat.zero_add, List.nil_append]
    exact lexStream_nil more mode
  | case2 mode cs token next hnext ih =>
    have hsplit : token.lexeme ++ cs.drop token.lexeme.length = cs := by
      conv => lhs; arg 1; rw [← take_lexeme_length hnext]
      exact List.take_append_drop _ cs
    by_cases hrest : cs.drop token.lexeme.length = []
    · -- the last request of the ordinary reader
      rw [hrest, List.append_nil] at hsplit
      obtain ⟨token', next', hlast, hanswer⟩ := exists_lastAnswer hnext hsplit
      refine ⟨[(token', next')], ?_, ?_⟩
      · rw [hrest, lexFrom_nil]
        show SeenAs mode ([] ++ [(token, next)]) ([] ++ [(token', next')])
        exact .last hlast
      · intro more
        rw [List.length_singleton, Nat.add_comm, lexStream, hanswer]
        dsimp only
        rw [hlast.lexeme_eq, hrest, lexStream_nil]
        rfl
    · obtain ⟨seen, hseen, hstream⟩ := ih
      have hne : token.lexeme ≠ cs := by
        intro heq
        rw [heq, List.drop_length] at hrest
        exact hrest rfl
      refine ⟨(token, next) :: seen, hseen.cons (token, next) (lexFrom_ne_nil next hrest), ?_⟩
      intro more
      rw [List.length_cons, Nat.add_right_comm, lexStream, nextToken?_of_ne hnext hne]
      dsimp only
      rw [hstream, List.cons_append]

namespace Line

/-- A reader that never reports the end of its text does not stall the lexer: every request is
answered. For as many requests as the line has tokens the lexemes are those of the line, and so are
the kinds and the modes behind them, but for the last token where a gap is opened or left open by
the end of the text. All further requests are answered by an empty invalid token, in any mode. -/
theorem seenAs_of_unreported (start : Mode) (text : List Char) :
    (∀ mode cs, (nextToken? false mode cs).isSome) ∧
    (∀ mode, nextToken? false mode [] = some emptyAnswer) ∧
    ∃ seen, SeenAs start (read start text) seen ∧
      seen.map (·.1.lexeme) = (read start text).map (·.1.lexeme) ∧
      ∀ more, lexStream false ((read start text).length + more) start (Lines.dropTerminator text) =
        seen ++ List.replicate more emptyAnswer := by
  obtain ⟨seen, hseen, hstream⟩ := exists_seenAs start (Lines.dropTerminator text)
  have hlexemes := hseen.map_lexeme
  have hlength := congrArg List.length hlexemes
  rw [List.length_map, List.length_map] at hlength
  refine ⟨nextToken?_isSome, nextToken?_nil, seen, hseen, hlexemes, ?_⟩
  intro more
  rw [read, ← hlength]
  exact hstream more

example : lexStream false 3 .normal "x\"a\\".toList =
    [(⟨.identifier, ['x']⟩, .normal), (⟨.badString, "\"a\\".toList⟩, .normal),
      (⟨.invalid, []⟩, .normal)] := by decide +kernel

end Line

end BoardHighlight
