import Mathlib.Data.List.Forall2
import BoardHighlight.Proofs.Columns

/-!
# Cursors step by step

A cursor is asked for one thing after another: to look at characters, to take some, to start a
lexeme, to be kept and to be gone back to. Here a line is also walked as a plain list of characters
with two indices into it, and both ways give the same answers to any sequence of requests. What a
single operation does is said once, on the three parts of the line at the cursor.
-/

namespace BoardHighlight
set_option autoImplicit false

namespace Cursor
open String (ofList)

/-- What can be asked of a cursor, with any tests for characters. -/
inductive Operation where
  | peek
  | next
  | eat (test : Char → Bool)
  | eatWhile (test : Char → Bool)
  | matchSeq (tests : List (Char → Bool))
  | skipToEnd
  | markStart
  | atEnd
  | current
  | remaining
  | startColumn
  | startOffset
  | offset

inductive Answer where
  | done
  | char (c : Option Char)
  | truth (value : Bool)
  | text (cs : List Char)
  | number (n : Nat)
  deriving DecidableEq

/-- An operation, or a snapshot of the cursor, or going back to the snapshot with a number. -/
inductive Action where
  | operate (operation : Operation)
  | snapshot
  | restore (i : Nat)

/-- A cursor of some kind and the snapshots that were taken of it, the oldest first. -/
structure Session (σ : Type) where
  cursor : σ
  saved : List σ

namespace Session
variable {σ τ : Type}

def opened (cursor : σ) : Session σ := ⟨cursor, []⟩

/-- Where an operation fails, there is no answer. Going back to a number that no snapshot has is
no request of a user; it changes nothing. -/
def act? (perform : Operation → σ → Option (Answer × σ)) (session : Session σ) :
    Action → Option (Answer × Session σ)
  | .operate operation =>
    (perform operation session.cursor).map fun (answer, cursor) => (answer, { session with cursor })
  | .snapshot =>
    some (.number session.saved.length,
      { session with saved := session.saved ++ [session.cursor] })
  | .restore i =>
    some (.done, { session with cursor := session.saved[i]?.getD session.cursor })

/-- The answers to a sequence of actions, and the session behind it. -/
def run? (perform : Operation → σ → Option (Answer × σ)) :
    Session σ → List Action → Option (List Answer × Session σ)
  | session, [] => some ([], session)
  | session, action :: actions => do
    let (answer, session) ← session.act? perform action
    let (answers, session) ← session.run? perform actions
    some (answer :: answers, session)

/-- Two kinds of cursors answer every operation, and alike, as long as they are related. -/
def Alike (R : σ → τ → Prop) (f : Operation → σ → Option (Answer × σ))
    (g : Operation → τ → Option (Answer × τ)) : Prop :=
  ∀ operation s t, R s t → ∃ answer s' t',
    f operation s = some (answer, s') ∧ g operation t = some (answer, t') ∧ R s' t'

structure Together (R : σ → τ → Prop) (s : Session σ) (t : Session τ) : Prop where
  cursor : R s.cursor t.cursor
  saved : List.Forall₂ R s.saved t.saved

variable {R : σ → τ → Prop} {f : Operation → σ → Option (Answer × σ)}
  {g : Operation → τ → Option (Answer × τ)} {s : Session σ} {t : Session τ}

theorem together_opened {c : σ} {d : τ} (h : R c d) : Together R (opened c) (opened d) :=
  ⟨h, .nil⟩

theorem Together.restored (h : Together R s t) (i : Nat) :
    R (s.saved[i]?.getD s.cursor) (t.saved[i]?.getD t.cursor) := by
  have hlength := h.saved.length_eq
  by_cases hi : i < s.saved.length
  · have hi' : i < t.saved.length := by omega
    rw [List.getElem?_eq_getElem hi, List.getElem?_eq_getElem hi']
    exact h.saved.get hi hi'
  · rw [List.getElem?_eq_none (by omega), List.getElem?_eq_none (by omega)]
    exact h.cursor

theorem Together.act? (h : Together R s t) (hfg : Alike R f g) (action : Action) :
    ∃ answer s' t', s.act? f action = some (answer, s') ∧ t.act? g action = some (answer, t') ∧
      Together R s' t' := by
  cases action with
  | operate operation =>
    obtain ⟨answer, c, d, hf, hg, hcd⟩ := hfg operation s.cursor t.cursor h.cursor
    refine ⟨answer, { s with cursor := c }, { t with cursor := d }, ?_, ?_, hcd, h.saved⟩
    · rw [Session.act?, hf]
      rfl
    · rw [Session.act?, hg]
      rfl
  | snapshot =>
    refine ⟨.number s.saved.length, { s with saved := s.saved ++ [s.cursor] },
      { t with saved := t.saved ++ [t.cursor] }, rfl, ?_, h.cursor, ?_⟩
    · rw [Session.act?, h.saved.length_eq]
    · exact List.rel_append h.saved (.cons h.cursor .nil)
  | restore i => exact ⟨_, _, _, rfl, rfl, h.restored i, h.saved⟩

theorem Together.run? (h : Together R s t) (hfg : Alike R f g) (actions : List Action) :
    ∃ answers s' t', s.run? f actions = some (answers, s') ∧
      t.run? g actions = some (answers, t') ∧ Together R s' t' := by
  induction actions generalizing s t with
  | nil => exact ⟨[], s, t, rfl, rfl, h⟩
  | cons action actions ih =>
    obtain ⟨answer, s', t', hs, ht, h'⟩ := h.act? hfg action
    obtain ⟨answers, s'', t'', hs', ht', h''⟩ := ih h'
    refine ⟨answer :: answers, s'', t'', ?_, ?_, h''⟩
    · simp [Session.run?, hs, hs']
    · simp [Session.run?, ht, ht']

end Session

/-! ## Indices of a list -/

/-- Where a lexeme starts and where the cursor stands, as numbers. -/
structure Places where
  start : Nat
  position : Nat
  deriving DecidableEq

/-- There is a character for every test, and each passes its own. -/
def Passes (tests : List (Char → Bool)) (cs : List Char) : Prop :=
  tests.length ≤ cs.length ∧ ∀ pair ∈ tests.zip cs, pair.1 pair.2 = true

instance (tests : List (Char → Bool)) (cs : List Char) : Decidable (Passes tests cs) :=
  inferInstanceAs (Decidable (_ ∧ _))

theorem passes_nil (cs : List Char) : Passes [] cs := ⟨Nat.zero_le _, by simp⟩

theorem not_passes_nil (test : Char → Bool) (tests : List (Char → Bool)) :
    ¬Passes (test :: tests) [] := by
  intro h
  have hlength := h.1
  simp at hlength

theorem passes_cons_iff {test : Char → Bool} {tests : List (Char → Bool)} {c : Char}
    {cs : List Char} : Passes (test :: tests) (c :: cs) ↔ test c = true ∧ Passes tests cs := by
  simp only [Passes, List.length_cons, Nat.add_le_add_iff_right, List.zip_cons_cons,
    List.forall_mem_cons]
  exact and_left_comm

namespace Places

def front : Places := ⟨0, 0⟩

/-- A cursor over a list of characters; its places are indices of the list. -/
def perform (chars : List Char) (operation : Operation) (places : Places) : Answer × Places :=
  let rest := chars.drop places.position
  match operation with
  | .peek => (.char chars[places.position]?, places)
  | .next =>
    (.char chars[places.position]?,
      { places with position := min (places.position + 1) chars.length })
  | .eat test =>
    if chars[places.position]?.any test then
      (.truth true, { places with position := places.position + 1 })
    else (.truth false, places)
  | .eatWhile test =>
    let run := rest.takeWhile test
    (.truth (!run.isEmpty), { places with position := places.position + run.length })
  | .matchSeq tests =>
    if Passes tests rest then
      (.truth true, { places with position := places.position + tests.length })
    else (.truth false, places)
  | .skipToEnd => (.done, { places with position := chars.length })
  | .markStart => (.done, { places with start := places.position })
  | .atEnd => (.truth (chars.length ≤ places.position), places)
  | .current => (.text ((chars.take places.position).drop places.start), places)
  | .remaining => (.text rest, places)
  | .startColumn => (.number (places.start + 1), places)
  | .startOffset => (.number (ofList (chars.take places.start)).utf8ByteSize, places)
  | .offset => (.number (ofList (chars.take places.position)).utf8ByteSize, places)

end Places

variable {line : String}

def perform (operation : Operation) (cursor : Cursor line) : Answer × Cursor line :=
  match operation with
  | .peek => (.char cursor.peek?, cursor)
  | .next => (.char cursor.next.1, cursor.next.2)
  | .eat test => (.truth (cursor.eat test).1, (cursor.eat test).2)
  | .eatWhile test => (.truth (cursor.eatWhile test).1, (cursor.eatWhile test).2)
  | .matchSeq tests => (.truth (cursor.matchSeq tests).1, (cursor.matchSeq tests).2)
  | .skipToEnd => (.done, cursor.skipToEnd)
  | .markStart => (.done, cursor.markStart)
  | .atEnd => (.truth cursor.atEnd, cursor)
  | .current => (.text cursor.current.toList, cursor)
  | .remaining => (.text cursor.remaining.toList, cursor)
  | .startColumn => (.number cursor.startColumn, cursor)
  | .startOffset => (.number cursor.startOffset, cursor)
  | .offset => (.number cursor.offset, cursor)

/-! ## Positions and the characters behind them -/

section Positions
variable {position : line.Pos} {front rest : List Char} {c : Char}

theorem splits_next (h : position.Splits (ofList front) (ofList (c :: rest))) :
    ∃ hne : position ≠ line.endPos, position.get hne = c ∧
      (position.next hne).Splits (ofList (front ++ [c])) (ofList rest) := by
  have hsplit : position.Splits (ofList front) (String.singleton c ++ ofList rest) := by
    simpa using h
  have hnext := hsplit.next
  refine ⟨hsplit.ne_endPos_of_singleton, hnext.get_eq_of_singleton, ?_⟩
  rwa [String.ofList_append, ← String.singleton_eq_ofList]

theorem eq_endPos_of_splits (h : position.Splits (ofList front) (ofList [])) :
    position = line.endPos := by
  rw [h.eq_endPos_iff, String.ofList_eq_empty_iff]

/-- A run ends behind the longest front of what is left that passes the test. -/
theorem splits_runEnd (test : Char → Bool) (h : position.Splits (ofList front) (ofList rest)) :
    (runEnd test position).Splits (ofList (front ++ rest.takeWhile test))
      (ofList (rest.dropWhile test)) := by
  induction rest generalizing position front with
  | nil =>
    rw [runEnd, dif_pos (eq_endPos_of_splits h)]
    simpa using h
  | cons c rest ih =>
    obtain ⟨hne, hget, hnext⟩ := splits_next h
    rw [runEnd, dif_neg hne, hget, List.takeWhile_cons, List.dropWhile_cons]
    by_cases hc : test c = true
    · rw [if_pos hc, if_pos hc, if_pos hc]
      simpa using ih hnext
    · rw [if_neg hc, if_neg hc, if_neg hc]
      simpa using h

theorem splits_seqEnd? {tests : List (Char → Bool)} (hpasses : Passes tests rest)
    (h : position.Splits (ofList front) (ofList rest)) :
    ∃ stop, seqEnd? tests position = some stop ∧
      stop.Splits (ofList (front ++ rest.take tests.length)) (ofList (rest.drop tests.length)) := by
  induction tests generalizing position front rest with
  | nil => exact ⟨position, rfl, by simpa using h⟩
  | cons test tests ih =>
    cases rest with
    | nil => exact absurd hpasses (not_passes_nil test tests)
    | cons c rest =>
      obtain ⟨hc, hrest⟩ := passes_cons_iff.mp hpasses
      obtain ⟨hne, hget, hnext⟩ := splits_next h
      obtain ⟨stop, hstop, hsplits⟩ := ih hrest hnext
      refine ⟨stop, ?_, by simpa using hsplits⟩
      rw [seqEnd?, dif_neg hne, hget, if_pos hc, hstop]

theorem seqEnd?_eq_none {tests : List (Char → Bool)} (hpasses : ¬Passes tests rest)
    (h : position.Splits (ofList front) (ofList rest)) : seqEnd? tests position = none := by
  induction tests generalizing position front rest with
  | nil => exact absurd (passes_nil rest) hpasses
  | cons test tests ih =>
    cases rest with
    | nil => rw [seqEnd?, dif_pos (eq_endPos_of_splits h)]
    | cons c rest =>
      obtain ⟨hne, hget, hnext⟩ := splits_next h
      rw [seqEnd?, dif_neg hne, hget]
      by_cases hc : test c = true
      · rw [if_pos hc]
        apply ih _ hnext
        intro hrest
        exact hpasses (passes_cons_iff.mpr ⟨hc, hrest⟩)
      · rw [if_neg hc]

end Positions

section MatchSeq
variable {tests : List (Char → Bool)} {cursor : Cursor line}

theorem matchSeq_of_some {stop : line.Pos} (h : seqEnd? tests cursor.position = some stop) :
    cursor.matchSeq tests = (true, cursor.moveTo stop (le_of_seqEnd? h)) := by
  unfold matchSeq
  split
  · rename_i found hfound
    obtain rfl := Option.some.inj (h.symm.trans hfound)
    rfl
  · rename_i hnone
    rw [h] at hnone
    cases hnone

theorem matchSeq_of_none (h : seqEnd? tests cursor.position = none) :
    cursor.matchSeq tests = (false, cursor) := by
  unfold matchSeq
  split
  · rename_i found hfound
    rw [h] at hfound
    cases hfound
  · rfl

end MatchSeq

namespace View
variable {cursor : Cursor line} {before current rest : List Char}

theorem moveTo {taken : List Char} {stop : line.Pos} (h : View cursor before current (taken ++ rest))
    (hstop : stop.Splits (ofList (before ++ current ++ taken)) (ofList rest))
    (hle : cursor.position ≤ stop) :
    View (cursor.moveTo stop hle) before (current ++ taken) rest where
  start := by simpa using h.start
  position := by simpa using hstop

theorem toList_current (h : View cursor before current rest) : cursor.current.toList = current := by
  rw [h.current_eq, String.toList_ofList]

theorem toList_remaining (h : View cursor before current rest) : cursor.remaining.toList = rest := by
  rw [h.remaining_eq, String.toList_ofList]

theorem take_before (h : View cursor before current rest) :
    line.toList.take before.length = before := by
  rw [h.toList_eq, List.append_assoc, List.take_left]

theorem take_front (h : View cursor before current rest) :
    line.toList.take (before ++ current).length = before ++ current := by
  rw [h.toList_eq, List.take_left]

theorem startOffset_eq_take (h : View cursor before current rest) :
    cursor.startOffset = (ofList (line.toList.take before.length)).utf8ByteSize := by
  rw [h.take_before, h.startOffset_eq]

theorem offset_eq_take (h : View cursor before current rest) :
    cursor.offset = (ofList (line.toList.take (before ++ current).length)).utf8ByteSize := by
  rw [h.take_front, h.offset_eq, h.startOffset_eq, String.ofList_append, String.utf8ByteSize_append]

theorem drop_front (h : View cursor before current rest) :
    line.toList.drop (before ++ current).length = rest := by
  rw [h.toList_eq, List.drop_left]

theorem getElem?_front (h : View cursor before current rest) :
    line.toList[(before ++ current).length]? = rest.head? := by
  rw [← List.head?_drop, h.drop_front]

theorem length_eq (h : View cursor before current rest) :
    line.toList.length = (before ++ current).length + rest.length := by
  rw [h.toList_eq, List.length_append]

theorem peek?_eq (h : View cursor before current rest) : cursor.peek? = rest.head? := by
  cases rest with
  | nil => rw [peek?, h.position_eq_endPos_iff.mpr rfl, charAt?_end, List.head?_nil]
  | cons c rest =>
    obtain ⟨hne, hget, -⟩ := splits_next h.position
    rw [peek?, charAt?_of_ne hne, hget, List.head?_cons]

theorem advance_nil (h : View cursor before current []) : cursor.advance = cursor := by
  rw [Cursor.advance, dif_pos (h.position_eq_endPos_iff.mpr rfl)]

theorem eatWhile (h : View cursor before current rest) (test : Char → Bool) :
    (cursor.eatWhile test).1 = !(rest.takeWhile test).isEmpty ∧
      View (cursor.eatWhile test).2 before (current ++ rest.takeWhile test)
        (rest.dropWhile test) := by
  have hstop := splits_runEnd test h.position
  have hview : View cursor before current (rest.takeWhile test ++ rest.dropWhile test) := by
    rwa [List.takeWhile_append_dropWhile]
  refine ⟨?_, hview.moveTo hstop (le_runEnd test cursor.position)⟩
  -- the cursor has moved exactly if the part in front of it has grown
  have hmoved : runEnd test cursor.position = cursor.position ↔ rest.takeWhile test = [] := by
    constructor
    · intro heq
      rw [heq] at hstop
      have hfront := String.ofList_injective (hstop.eq_left h.position)
      simpa using hfront
    · intro hnil
      rw [hnil, List.append_nil] at hstop
      exact hstop.pos_eq h.position
  rw [Cursor.eatWhile, Bool.eq_iff_iff, bne_iff_ne, Ne, hmoved]
  simp

theorem matchSeq_passes {tests : List (Char → Bool)} (h : View cursor before current rest)
    (hpasses : Passes tests rest) :
    (cursor.matchSeq tests).1 = true ∧
      View (cursor.matchSeq tests).2 before (current ++ rest.take tests.length)
        (rest.drop tests.length) := by
  obtain ⟨stop, hseq, hstop⟩ := splits_seqEnd? hpasses h.position
  have hview : View cursor before current (rest.take tests.length ++ rest.drop tests.length) := by
    rwa [List.take_append_drop]
  rw [matchSeq_of_some hseq]
  exact ⟨rfl, hview.moveTo hstop (le_of_seqEnd? hseq)⟩

theorem matchSeq_fails {tests : List (Char → Bool)} (h : View cursor before current rest)
    (hpasses : ¬Passes tests rest) : cursor.matchSeq tests = (false, cursor) :=
  matchSeq_of_none (seqEnd?_eq_none hpasses h.position)

theorem skipToEnd (h : View cursor before current rest) :
    View cursor.skipToEnd before (current ++ rest) [] := by
  have hend : line.endPos.Splits (ofList (before ++ current ++ rest)) (ofList []) := by
    rw [← h.toList_eq, String.ofList_toList]
    exact String.splits_endPos line
  exact moveTo (by simpa using h) hend _

end View

/-- The indices count the characters in front of the lexeme, and those in front of the position. -/
def InStep (places : Places) (cursor : Cursor line) : Prop :=
  ∃ before current rest, View cursor before current rest ∧
    places = ⟨before.length, (before ++ current).length⟩

theorem inStep_atStart (line : String) : InStep Places.front (atStart line) :=
  ⟨[], [], line.toList, view_atStart line, rfl⟩

/-- Every operation has the same answer on the characters and on the cursor, and moves both
alike. -/
theorem perform_inStep {places : Places} {cursor : Cursor line} (hstep : InStep places cursor)
    (operation : Operation) :
    (places.perform line.toList operation).1 = (cursor.perform operation).1 ∧
      InStep (places.perform line.toList operation).2 (cursor.perform operation).2 := by
  obtain ⟨before, current, rest, h, rfl⟩ := hstep
  -- what a mere question leaves as it was
  have hstep : InStep ⟨before.length, (before ++ current).length⟩ cursor := ⟨_, _, _, h, rfl⟩
  cases operation with
  | peek =>
    simp only [Places.perform, perform, h.getElem?_front, h.peek?_eq]
    exact ⟨trivial, hstep⟩
  | next =>
    simp only [Places.perform, perform, h.getElem?_front, next, h.peek?_eq]
    refine ⟨trivial, ?_⟩
    cases rest with
    | nil =>
      rw [h.advance_nil, h.length_eq]
      simpa using hstep
    | cons c rest =>
      refine ⟨before, current ++ [c], rest, h.advance, ?_⟩
      simp only [h.length_eq, List.length_append, List.length_cons, List.length_nil]
      congr 1
      omega
  | eat test =>
    simp only [Places.perform, perform, h.getElem?_front, eat, h.peek?_eq]
    cases rest with
    | nil => exact ⟨rfl, hstep⟩
    | cons c rest =>
      by_cases hc : test c = true
      · simp only [List.head?_cons, Option.any_some, hc, if_true]
        refine ⟨trivial, before, current ++ [c], rest, h.advance, ?_⟩
        simp [Nat.add_assoc]
      · simp only [List.head?_cons, Option.any_some, hc]
        exact ⟨rfl, hstep⟩
  | eatWhile test =>
    obtain ⟨htruth, hview⟩ := h.eatWhile test
    simp only [Places.perform, perform, h.drop_front, htruth]
    refine ⟨trivial, _, _, _, hview, ?_⟩
    simp [Nat.add_assoc]
  | matchSeq tests =>
    simp only [Places.perform, perform, h.drop_front]
    by_cases hpasses : Passes tests rest
    · obtain ⟨htruth, hview⟩ := h.matchSeq_passes hpasses
      rw [if_pos hpasses, htruth]
      refine ⟨rfl, _, _, _, hview, ?_⟩
      simp [Nat.add_assoc, List.length_take_of_le hpasses.1]
    · rw [if_neg hpasses, h.matchSeq_fails hpasses]
      exact ⟨rfl, hstep⟩
  | skipToEnd =>
    refine ⟨rfl, _, _, _, h.skipToEnd, ?_⟩
    simp [Places.perform, h.length_eq, Nat.add_assoc]
  | markStart =>
    refine ⟨rfl, _, _, _, h.markStart, ?_⟩
    simp [Places.perform]
  | atEnd =>
    refine ⟨?_, hstep⟩
    simp only [Places.perform, perform, Answer.truth.injEq]
    rw [Bool.eq_iff_iff, h.atEnd_iff, decide_eq_true_iff, h.length_eq, ← List.length_eq_zero_iff]
    omega
  | current =>
    refine ⟨?_, hstep⟩
    simp only [Places.perform, perform, Answer.text.injEq]
    rw [h.take_front, List.drop_left, h.toList_current]
  | remaining =>
    refine ⟨?_, hstep⟩
    simp only [Places.perform, perform, Answer.text.injEq]
    rw [h.drop_front, h.toList_remaining]
  | startColumn =>
    refine ⟨?_, hstep⟩
    simp only [Places.perform, perform, Answer.number.injEq]
    exact h.startColumn_eq.symm
  | startOffset =>
    refine ⟨?_, hstep⟩
    simp only [Places.perform, perform, Answer.number.injEq]
    exact h.startOffset_eq_take.symm
  | offset =>
    refine ⟨?_, hstep⟩
    simp only [Places.perform, perform, Answer.number.injEq]
    exact h.offset_eq_take.symm

end Cursor

end BoardHighlight
