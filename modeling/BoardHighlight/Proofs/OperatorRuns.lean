import Mathlib.Data.List.TakeWhile
import BoardHighlight.Proofs.Overlay

/-!
# Runs of operator symbols

What an operator symbol starts is a matter of the whole run of symbols at its place, although the
lexer decides it from the first few. Two dots in front of the run are a token of their own. A run of
dashes, if there is more than one, opens a comment that takes the rest of the line. Every other run
is one operator, also one that has dashes in front or behind.
-/

namespace BoardHighlight
set_option autoImplicit false

namespace Operator

/-- The longest run of operator symbols at the front of a text, and what stands behind it. -/
structure IsRun (cs run tail : List Char) : Prop where
  eq_append : cs = run ++ tail
  symbols : ∀ c ∈ run, isOperatorSymbol c = true
  longest : ∀ c, tail.head? = some c → isOperatorSymbol c = false

/-- Nothing but dashes, and more than one. -/
def IsDashes (run : List Char) : Prop := 2 ≤ run.length ∧ ∀ c ∈ run, c = '-'

/-- What a run is read as, with `tail` behind it. -/
inductive ReadAs (run tail : List Char) : Token → Prop where
  | dots : ['.', '.'] <+: run → ReadAs run tail ⟨.keyword, ['.', '.']⟩
  | comment : ¬['.', '.'] <+: run → IsDashes run → ReadAs run tail ⟨.comment, run ++ tail⟩
  | keyword : ¬['.', '.'] <+: run → ¬IsDashes run → String.ofList run ∈ Reserved.keywords →
      ReadAs run tail ⟨.keyword, run⟩
  | builtin : ¬['.', '.'] <+: run → ¬IsDashes run → String.ofList run ∈ Reserved.builtins →
      ReadAs run tail ⟨.builtin, run⟩
  | constructor : ¬['.', '.'] <+: run → ¬IsDashes run → String.ofList run ∉ Reserved.all →
      run.head? = some ':' → ReadAs run tail ⟨.typeOrConstructor, run⟩
  | name : ¬['.', '.'] <+: run → ¬IsDashes run → String.ofList run ∉ Reserved.all →
      run.head? ≠ some ':' → ReadAs run tail ⟨.identifier, run⟩

theorem isRun_takeWhile (cs : List Char) :
    IsRun cs (cs.takeWhile isOperatorSymbol) (cs.dropWhile isOperatorSymbol) where
  eq_append := List.takeWhile_append_dropWhile.symm
  symbols := fun _ hc => List.mem_takeWhile_imp hc
  longest := by
    intro c hc
    have hhead := List.head?_dropWhile_not isOperatorSymbol cs
    rw [hc] at hhead
    simpa using hhead

section Run
variable {first : Char} {rest body tail : List Char}

theorem IsRun.exists_cons {run : List Char} (h : IsRun (first :: rest) run tail)
    (hfirst : isOperatorSymbol first = true) : ∃ body, run = first :: body ∧ rest = body ++ tail := by
  have happend := h.eq_append
  cases run with
  | nil =>
    -- the first symbol would stand behind the run
    rw [List.nil_append] at happend
    rw [h.longest first (by rw [← happend]; rfl)] at hfirst
    cases hfirst
  | cons c body =>
    obtain ⟨rfl, rfl⟩ := List.cons.inj happend
    exact ⟨body, rfl, rfl⟩

section Shape
variable (h : IsRun (first :: (body ++ tail)) (first :: body) tail)
include h

theorem IsRun.runLength_eq : runLength isOperatorSymbol (body ++ tail) = body.length := by
  have hbody : ∀ c ∈ body, isOperatorSymbol c = true :=
    fun c hc => h.symbols c (List.mem_cons_of_mem first hc)
  have htail : tail.takeWhile isOperatorSymbol = [] := by
    cases tail with
    | nil => rfl
    | cons c tail => exact List.takeWhile_cons_of_neg (by simp [h.longest c rfl])
  rw [runLength, List.takeWhile_append_of_pos hbody, htail, List.append_nil]

/-- A symbol right behind the first one belongs to the run. -/
theorem IsRun.head?_eq_iff {c : Char} (hc : isOperatorSymbol c = true) :
    (body ++ tail).head? = some c ↔ body.head? = some c := by
  cases body with
  | nil =>
    refine iff_of_false ?_ (by simp)
    intro hhead
    rw [h.longest c hhead] at hc
    cases hc
  | cons d body => rfl

theorem IsRun.dots_iff :
    (first = '.' ∧ (body ++ tail).head? = some '.') ↔ ['.', '.'] <+: first :: body := by
  rw [h.head?_eq_iff (by decide), List.cons_prefix_cons, eq_comm]
  apply and_congr_right
  intro _
  cases body with
  | nil => simp
  | cons d body => simp [eq_comm]

/-- The dashes that open a comment are the whole run. -/
theorem IsRun.opensComment_iff : OpensComment first (body ++ tail) ↔ IsDashes (first :: body) := by
  unfold OpensComment IsDashes
  rw [h.head?_eq_iff (by decide), List.forall_mem_cons]
  constructor
  · rintro ⟨hfirst, hhead, hbehind⟩
    have hlength : 0 < body.length := by
      apply List.length_pos_iff.mpr
      rintro rfl
      cases hhead
    refine ⟨Nat.succ_le_succ hlength, hfirst, ?_⟩
    cases hdrop : body.dropWhile (· == '-') with
    | nil => simpa using List.dropWhile_eq_nil_iff.mp hdrop
    | cons symbol back =>
      -- a symbol of the run that is no dash would be the one behind the dashes
      have hsymbol : isOperatorSymbol symbol = false := by
        apply hbehind symbol (back ++ tail)
        rw [List.dropWhile_append, hdrop]
        rfl
      have hmem : symbol ∈ body := by
        apply (List.dropWhile_suffix (· == '-')).subset
        rw [hdrop]
        exact List.mem_cons_self
      rw [h.symbols symbol (List.mem_cons_of_mem first hmem)] at hsymbol
      cases hsymbol
  · rintro ⟨hlength, hfirst, hbody⟩
    refine ⟨hfirst, ?_, ?_⟩
    · cases body with
      | nil => simp at hlength
      | cons d body => rw [hbody d List.mem_cons_self]; rfl
    · intro symbol back hdrop
      rw [List.dropWhile_append_of_pos (by simpa using hbody)] at hdrop
      cases tail with
      | nil => cases hdrop
      | cons d tail =>
        have hsymbol := h.longest d rfl
        rw [List.dropWhile_cons] at hdrop
        split at hdrop
        · rename_i hdash
          rw [beq_iff_eq.mp hdash] at hsymbol
          exact absurd hsymbol (by decide)
        · obtain ⟨rfl, rfl⟩ := List.cons.inj hdrop
          exact hsymbol

end Shape

theorem normalStep_of_symbol (h : isOperatorSymbol first = true) (rest : List Char) :
    normalStep (first :: rest) = .emit (Operator.cut first rest) := by
  have hclasses : (operatorSymbols.all fun c => !(isBlank c || isPunctuation c || c == '\'' ||
      c == '"' || isUpperStart c || isLowerStart c || isDigit c)) = true := by decide
  have hfirst := List.all_eq_true.mp hclasses first (List.contains_iff_mem.mp h)
  simp only [Bool.not_eq_true', Bool.or_eq_false_iff] at hfirst
  obtain ⟨⟨⟨⟨⟨⟨hblank, hmark⟩, hquote⟩, hquotes⟩, hupper⟩, hlower⟩, hdigit⟩ := hfirst
  simp [normalStep_cons, hblank, hmark, hquote, hquotes, hupper, hlower, hdigit, h]

theorem nextToken?_of_symbol (h : isOperatorSymbol first = true) (rest : List Char) :
    nextToken? true .normal (first :: rest) =
      some (⟨Reserved.classify ((first :: rest).take (Operator.cut first rest).size)
        (Operator.cut first rest).kind, (first :: rest).take (Operator.cut first rest).size⟩, .normal) := by
  have hcut : Mode.normal.cut true (first :: rest) = Operator.cut first rest :=
    Mode.cut_of_emit (normalStep_of_symbol h rest)
  rw [(nextToken?_eq true .normal (List.cons_ne_nil first rest)).2, hcut,
    (Operator.cut_returns first rest).2]

/-- The overlay finds no reserved word in a line comment. -/
theorem classify_of_opensComment (h : OpensComment first rest) :
    Reserved.classify (first :: rest) .comment = .comment := by
  apply Reserved.classify_of_not_mem
  intro hmem
  have hshape := (Reserved.shape_of_mem_all _ hmem).1
  obtain ⟨back, rfl⟩ := List.head?_eq_some_iff.mp h.2.1
  rw [String.toList_ofList, h.1] at hshape
  exact hshape rfl

theorem readAs_classify (hdots : ¬['.', '.'] <+: first :: body) (hdashes : ¬IsDashes (first :: body))
    (tail : List Char) :
    ReadAs (first :: body) tail
      ⟨Reserved.classify (first :: body) (genericKind first), first :: body⟩ := by
  by_cases hlisted : String.ofList (first :: body) ∈ Reserved.all
  · rcases Reserved.mem_all_iff.mp hlisted with hkeyword | hbuiltin
    · rw [Reserved.classify_of_mem_keywords hkeyword]
      exact .keyword hdots hdashes hkeyword
    · rw [Reserved.classify_of_mem_builtins hbuiltin]
      exact .builtin hdots hdashes hbuiltin
  · rw [Reserved.classify_of_not_mem hlisted]
    by_cases hcolon : first = ':'
    · subst hcolon
      exact .constructor hdots hdashes hlisted rfl
    · have hgeneric : genericKind first = .identifier := if_neg (by simpa using hcolon)
      rw [hgeneric]
      exact .name hdots hdashes hlisted (by simpa using hcolon)

theorem IsRun.exists_readAs {run : List Char} (h : IsRun (first :: rest) run tail)
    (hfirst : isOperatorSymbol first = true) :
    ∃ token, ReadAs run tail token ∧
      nextToken? true .normal (first :: rest) = some (token, .normal) := by
  obtain ⟨body, rfl, rfl⟩ := h.exists_cons hfirst
  refine ⟨_, ?_, nextToken?_of_symbol hfirst (body ++ tail)⟩
  by_cases hdots : ['.', '.'] <+: first :: body
  · rw [cut_of_dots (h.dots_iff.mpr hdots), Cut.normal_size, Cut.normal_kind]
    obtain ⟨back, hback⟩ := hdots
    rw [← List.cons_append, ← hback]
    exact .dots (List.prefix_append _ back)
  by_cases hdashes : IsDashes (first :: body)
  · have hopens := h.opensComment_iff.mpr hdashes
    have hwhole : (first :: (body ++ tail)).take (1 + (body ++ tail).length) = first :: (body ++ tail) := by
      rw [Nat.add_comm, ← List.length_cons, List.take_length]
    rw [cut_of_comment hopens, Cut.normal_size, Cut.normal_kind, hwhole,
      classify_of_opensComment hopens]
    exact .comment hdots hdashes
  · have hrun : (first :: (body ++ tail)).take (1 + body.length) = first :: body := by
      rw [Nat.add_comm, ← List.length_cons, ← List.cons_append, List.take_left]
    rw [cut_of_run (mt h.dots_iff.mp hdots) (mt h.opensComment_iff.mp hdashes), Cut.normal_size,
      Cut.normal_kind, h.runLength_eq, hrun]
    exact readAs_classify hdots hdashes tail

end Run

end Operator

namespace Line

/-- The law of operators: whatever was read of a line before, a token that is asked for in ordinary
code at an operator symbol is what the whole run of symbols there is read as, and ordinary code goes
on behind it. -/
theorem readAs_of_requests {start : Mode} {text rest : List Char} {first : Char}
    {front : List (Token × Mode)}
    (h : Requests start (Lines.dropTerminator text) front .normal (first :: rest))
    (hfirst : isOperatorSymbol first = true) :
    (∃ run tail, Operator.IsRun (first :: rest) run tail) ∧
    ∀ run tail, Operator.IsRun (first :: rest) run tail →
      ∃ token, Operator.ReadAs run tail token ∧ read start text =
        front ++ (token, .normal) :: lexFrom .normal ((first :: rest).drop token.lexeme.length) := by
  refine ⟨⟨_, _, Operator.isRun_takeWhile (first :: rest)⟩, ?_⟩
  intro run tail hrun
  obtain ⟨token, hread, hnext⟩ := hrun.exists_readAs hfirst
  refine ⟨token, hread, ?_⟩
  rw [read, h.lexFrom_eq, lexFrom_of_some hnext]

/-- Dashes with a bar behind them, after the end of a comment that an earlier line has opened. -/
theorem readAs_of_requests_bar :
    let text := "-\x7d--| --\r\n".toList
    let front : List (Token × Mode) := [(⟨.comment, ['-', '}']⟩, .normal)]
    Requests (.opened .ordinary) (Lines.dropTerminator text) front .normal "--| --".toList ∧
    Operator.IsRun "--| --".toList ['-', '-', '|'] " --".toList ∧
    read (.opened .ordinary) text = front ++ (⟨.identifier, ['-', '-', '|']⟩, .normal) ::
      lexFrom .normal " --".toList := by
  intro text front
  have hrequests : Requests (.opened .ordinary) (Lines.dropTerminator text) front .normal
      "--| --".toList := .next (by decide +kernel) (.done _ _)
  have hrun : Operator.IsRun "--| --".toList ['-', '-', '|'] " --".toList :=
    Operator.isRun_takeWhile "--| --".toList
  obtain ⟨token, hread, hline⟩ := (readAs_of_requests hrequests (by decide)).2 _ _ hrun
  refine ⟨hrequests, hrun, ?_⟩
  cases hread with
  | dots hdots => exact absurd hdots (by decide)
  | comment _ hdashes => exact absurd (hdashes.2 '|' (by decide)) (by decide)
  | keyword _ _ hkeyword => exact absurd hkeyword (by decide)
  | builtin _ _ hbuiltin => exact absurd hbuiltin (by decide)
  | constructor _ _ _ hcolon => exact absurd hcolon (by decide)
  | name => exact hline

end Line

end BoardHighlight
