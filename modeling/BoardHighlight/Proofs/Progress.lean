import BoardHighlight.Proofs.CursorView
import BoardHighlight.Proofs.Requests

/-!
# Progress of the lexer

Every mode takes a character off a text that is not empty, and a mode hands over at most once, so a
request takes a lexeme that is not empty after two modes at the most. On a cursor, requests go on to
the end of the line, each lexeme starting where the one before it ended.
-/

namespace BoardHighlight
set_option autoImplicit false

/-- How many characters a step takes before it emits or hands over. -/
def Step.taken : Step → Nat
  | .emit cut => cut.size
  | .enter size _ => size

theorem StringLiteral.charCut_size_pos (rest : List Char) : 0 < (charCut rest).size := by
  unfold charCut
  generalize (if rest.head? == some '\\' then 1 else 0) = escape
  dsimp only
  split
  · exact Nat.add_pos_left Nat.one_pos escape
  · split
    · exact Nat.add_pos_left (Nat.succ_pos 2) escape
    · exact Nat.add_pos_left Nat.two_pos escape

theorem StringLiteral.bodyCut_size_pos (ends : Bool) {cs : List Char} (h : cs ≠ []) :
    0 < (bodyCut ends cs).size := by
  cases cs with
  | nil => exact absurd rfl h
  | cons c rest =>
    unfold bodyCut
    repeat' split
    all_goals
      simp only [Cut.normal_size, Cut.shift_size]
      omega

theorem StringLiteral.gapStep_taken_pos (ends : Bool) {cs : List Char} (h : cs ≠ []) :
    0 < (gapStep ends cs).taken := by
  unfold gapStep
  dsimp only
  split
  · rename_i hblank
    have hrun : runLength isBlank cs = cs.length := by
      have hlength := congrArg List.length (List.takeWhile_append_dropWhile (p := isBlank) (l := cs))
      rw [hblank, List.append_nil] at hlength
      exact hlength
    have hpos : 0 < cs.length := List.length_pos_iff.mpr h
    split <;> simpa only [Step.taken, Cut.normal_size, hrun] using hpos
  · split <;> simp only [Step.taken, Cut.normal_size] <;> omega

theorem Number.cut_size_pos {c : Char} (rest : List Char) (h : isDigit c = true) :
    0 < (Number.cut (c :: rest)).size := by
  have hdecimal : 0 < decimalSize (c :: rest) := by
    simp only [decimalSize, runLength_cons, h, if_true]
    omega
  unfold Number.cut
  split
  · repeat' split
    all_goals simp only [Cut.normal_size]
    all_goals omega
  · simpa only [Cut.normal_size] using hdecimal

theorem Operator.cut_size_pos (first : Char) (rest : List Char) :
    0 < (Operator.cut first rest).size := by
  unfold Operator.cut
  dsimp only
  repeat' split
  all_goals
    simp only [Cut.normal_size]
    omega

theorem Name.upperCut_size_pos (rest : List Char) : 0 < (Name.upperCut rest).size := by
  unfold Name.upperCut
  dsimp only
  split <;> simp only [Cut.normal_size] <;> omega

theorem punctuationStep_taken_pos (mark : Char) (rest : List Char) :
    0 < (punctuationStep mark rest).taken := by
  unfold punctuationStep
  repeat' split
  all_goals simp [Step.taken]

theorem normalStep_cons (c : Char) (rest : List Char) :
    normalStep (c :: rest) =
      if isBlank c then .emit (.normal .plain (runLength isBlank (c :: rest)))
      else if isPunctuation c then punctuationStep c rest
      else if c == '\'' then .emit (StringLiteral.charCut rest)
      else if c == '"' then .enter 1 .string
      else if isUpperStart c then .emit (Name.upperCut rest)
      else if isLowerStart c then .emit (Name.lowerCut rest)
      else if isDigit c then .emit (Number.cut (c :: rest))
      else if isOperatorSymbol c then .emit (Operator.cut c rest)
      else .emit (.normal .invalid 1) := rfl

theorem normalStep_taken_pos (c : Char) (rest : List Char) :
    0 < (normalStep (c :: rest)).taken := by
  rw [normalStep_cons]
  split
  · rename_i hblank
    simp only [Step.taken, Cut.normal_size, runLength_cons, hblank, if_true]
    omega
  split
  · exact punctuationStep_taken_pos c rest
  split
  · exact StringLiteral.charCut_size_pos rest
  split
  · exact Nat.one_pos
  split
  · exact Name.upperCut_size_pos rest
  split
  · exact Nat.add_pos_left Nat.one_pos _
  split
  · rename_i hdigit
    exact Number.cut_size_pos rest hdigit
  split
  · exact Operator.cut_size_pos c rest
  · exact Nat.one_pos

theorem BlockComment.scan_size_pos {cs : List Char} (h : cs ≠ []) (depth : Depth) :
    0 < (scan cs depth).1 := by
  unfold scan
  split
  · exact absurd rfl h
  · simp
  · repeat' split
    all_goals
      simp only
      omega

theorem BlockComment.cut_size (kind : CommentKind) (depth : Depth) (cs : List Char) :
    (BlockComment.cut kind depth cs).size = (scan cs depth).1 := by
  unfold BlockComment.cut
  split <;> simp_all

namespace Mode

/-- A mode that is run before the end of a text takes some of it. -/
theorem step_taken_pos (ends : Bool) (mode : Mode) {cs : List Char} (h : cs ≠ []) :
    0 < (mode.step ends cs).taken := by
  cases mode with
  | normal =>
    obtain ⟨c, rest, rfl⟩ := List.exists_cons_of_ne_nil h
    exact normalStep_taken_pos c rest
  | string => exact StringLiteral.bodyCut_size_pos ends h
  | stringGap => exact StringLiteral.gapStep_taken_pos ends h
  | blockComment kind depth =>
    show 0 < (BlockComment.cut kind depth cs).size
    rw [BlockComment.cut_size]
    exact BlockComment.scan_size_pos h depth

/-- The modes that one request runs, each but the last handing over to the next, and the cut that
they make together. -/
inductive Runs (ends : Bool) : Mode → List Char → List Mode → Cut → Prop where
  | emit {mode : Mode} {cs : List Char} {cut : Cut} :
      mode.step ends cs = .emit cut → Runs ends mode cs [mode] cut
  | enter {mode next : Mode} {cs : List Char} {size : Nat} {modes : List Mode} {cut : Cut} :
      mode.step ends cs = .enter size next → Runs ends next (cs.drop size) modes cut →
      Runs ends mode cs (mode :: modes) (cut.shift size)

theorem exists_runs (ends : Bool) (mode : Mode) (cs : List Char) :
    ∃ modes, Runs ends mode cs modes (mode.cut ends cs) := by
  fun_induction Mode.cut ends mode cs with
  | case1 mode cs cut h => exact ⟨[mode], .emit h⟩
  | case2 mode cs size next h ih =>
    obtain ⟨modes, hmodes⟩ := ih
    exact ⟨mode :: modes, .enter h hmodes⟩

theorem Runs.unique {ends : Bool} {mode : Mode} {cs : List Char} {modes modes' : List Mode}
    {cut cut' : Cut} (h : Runs ends mode cs modes cut) (h' : Runs ends mode cs modes' cut') :
    modes = modes' ∧ cut = cut' := by
  induction h generalizing modes' cut' with
  | emit hstep =>
    cases h' with
    | emit hstep' => rw [hstep] at hstep'; cases hstep'; exact ⟨rfl, rfl⟩
    | enter hstep' _ => rw [hstep] at hstep'; cases hstep'
  | enter hstep _ ih =>
    cases h' with
    | emit hstep' => rw [hstep] at hstep'; cases hstep'
    | enter hstep' hrest =>
      rw [hstep] at hstep'
      cases hstep'
      obtain ⟨rfl, rfl⟩ := ih hrest
      exact ⟨rfl, rfl⟩

theorem Runs.length_le {ends : Bool} {mode : Mode} {cs : List Char} {modes : List Mode} {cut : Cut}
    (h : Runs ends mode cs modes cut) : modes.length ≤ mode.handovers + 1 := by
  induction h with
  | emit => exact Nat.le_add_left 1 _
  | enter hstep _ ih =>
    have hlt := handovers_lt_of_step hstep
    rw [List.length_cons]
    omega

theorem handovers_le_one (mode : Mode) : mode.handovers ≤ 1 := by
  cases mode <;> simp [handovers]

theorem Runs.size_pos {ends : Bool} {mode : Mode} {cs : List Char} {modes : List Mode} {cut : Cut}
    (h : Runs ends mode cs modes cut) (hne : cs ≠ []) : 0 < cut.size := by
  have htaken := step_taken_pos ends mode hne
  cases h with
  | emit hstep => rwa [hstep] at htaken
  | enter hstep _ =>
    rw [hstep, Step.taken] at htaken
    rw [Cut.shift_size]
    omega

end Mode

/-- Before the end of a text a request is answered from what its modes cut, which is not empty. -/
theorem nextToken?_eq (ends : Bool) (mode : Mode) {cs : List Char} (h : cs ≠ []) :
    cs.take (mode.cut ends cs).size ≠ [] ∧
      nextToken? ends mode cs =
        some (⟨Reserved.classify (cs.take (mode.cut ends cs).size) (mode.cut ends cs).kind,
          cs.take (mode.cut ends cs).size⟩, (mode.cut ends cs).next) := by
  obtain ⟨modes, hmodes⟩ := mode.exists_runs ends cs
  have htake : cs.take (mode.cut ends cs).size ≠ [] := by
    rw [Ne, List.take_eq_nil_iff, not_or]
    exact ⟨Nat.ne_of_gt (hmodes.size_pos h), h⟩
  refine ⟨htake, ?_⟩
  rw [nextToken?, if_neg (by simp [h])]
  dsimp only
  rw [if_neg (by simpa using htake)]

namespace Lines

/-- What is left of a text when a line feed at its end is taken off, and then a carriage return at
its end. -/
inductive Leaves : (text line : List Char) → Prop where
  | whole {line : List Char} : line.getLast? ≠ some '\n' → line.getLast? ≠ some '\r' →
      Leaves line line
  | lineFeed {line : List Char} : line.getLast? ≠ some '\r' → Leaves (line ++ ['\n']) line
  | carriageReturn (line : List Char) : Leaves (line ++ ['\r']) line
  | both (line : List Char) : Leaves (line ++ ['\r', '\n']) line

theorem leaves_dropTerminator (text : List Char) : Leaves text (dropTerminator text) := by
  unfold dropTerminator
  by_cases hfeed : text.getLast? = some '\n'
  · obtain ⟨front, rfl⟩ := List.getLast?_eq_some_iff.mp hfeed
    rw [dropFinal_append_self]
    by_cases hreturn : front.getLast? = some '\r'
    · obtain ⟨line, rfl⟩ := List.getLast?_eq_some_iff.mp hreturn
      rw [dropFinal_append_self, List.append_assoc]
      exact .both line
    · rw [dropFinal_of_getLast?_ne hreturn]
      exact .lineFeed hreturn
  · rw [dropFinal_of_getLast?_ne hfeed]
    by_cases hreturn : text.getLast? = some '\r'
    · obtain ⟨line, rfl⟩ := List.getLast?_eq_some_iff.mp hreturn
      rw [dropFinal_append_self]
      exact .carriageReturn line
    · rw [dropFinal_of_getLast?_ne hreturn]
      exact .whole hfeed hreturn

/-- There is one such rest of a text. -/
theorem leaves_iff {text line : List Char} : Leaves text line ↔ line = dropTerminator text := by
  constructor
  · intro h
    cases h with
    | whole hfeed hreturn =>
      rw [dropTerminator, dropFinal_of_getLast?_ne hfeed, dropFinal_of_getLast?_ne hreturn]
    | lineFeed hreturn =>
      rw [dropTerminator, dropFinal_append_self, dropFinal_of_getLast?_ne hreturn]
    | carriageReturn =>
      have hfeed : (line ++ ['\r']).getLast? ≠ some '\n' := by simp
      rw [dropTerminator, dropFinal_of_getLast?_ne hfeed, dropFinal_append_self]
    | both =>
      have hsplit : line ++ ['\r', '\n'] = (line ++ ['\r']) ++ ['\n'] := by simp
      rw [hsplit, dropTerminator, dropFinal_append_self, dropFinal_append_self]
  · intro h
    rw [h]
    exact leaves_dropTerminator text

end Lines

namespace Cursor
variable {line : String}

/-- Requests on a cursor, each with the mode and the cursor behind its token. -/
inductive Calls : Mode → Cursor line → List (Token × Mode × Cursor line) → Mode → Cursor line →
    Prop where
  | done (mode : Mode) (cursor : Cursor line) : Calls mode cursor [] mode cursor
  | next {mode next last : Mode} {cursor behind stop : Cursor line} {token : Token}
      {read : List (Token × Mode × Cursor line)} :
      cursor.nextToken? mode = some (token, next, behind) → Calls next behind read last stop →
      Calls mode cursor ((token, next, behind) :: read) last stop

/-- Each lexeme starts where the one before it ended, and is the text up to where its cursor is. -/
def Abutting (cursor : Cursor line) : List (Token × Mode × Cursor line) → Prop
  | [] => True
  | (token, _, behind) :: read =>
    behind.start = cursor.position ∧ behind.current.toList = token.lexeme ∧ Abutting behind read

theorem View.nextToken?_eq_none_iff {cursor : Cursor line} {before current rest : List Char}
    (h : View cursor before current rest) (mode : Mode) :
    cursor.nextToken? mode = none ↔ cursor.atEnd = true := by
  rw [Cursor.nextToken?, h.remaining_eq, String.toList_ofList, Option.map_eq_none_iff,
    BoardHighlight.nextToken?_eq_none_iff, h.atEnd_iff]

/-- Calls on a cursor are requests on the characters that are left behind it. -/
theorem View.calls {cursor stop : Cursor line} {before current rest : List Char} {mode last : Mode}
    {read : List (Token × Mode × Cursor line)} (h : View cursor before current rest)
    (hcalls : Calls mode cursor read last stop) :
    Abutting cursor read ∧ ∃ before' current' rest', View stop before' current' rest' ∧
      Requests mode rest (read.map fun call => (call.1, call.2.1)) last rest' := by
  induction hcalls generalizing before current rest with
  | done mode cursor => exact ⟨trivial, before, current, rest, h, .done mode rest⟩
  | next hnext _ ih =>
    obtain ⟨hrequest, hbehind⟩ := h.nextToken? hnext
    obtain ⟨habut, before', current', rest', hstop, hrequests⟩ := ih hbehind
    refine ⟨⟨hbehind.start.pos_eq h.position, ?_, habut⟩, before', current', rest', hstop,
      .next hrequest hrequests⟩
    rw [hbehind.current_eq, String.toList_ofList]

/-- The calls of `readings` go on until one is refused or the limit is used up. -/
theorem calls_readings (limit : Nat) (mode : Mode) (cursor : Cursor line) :
    ∃ last stop, Calls mode cursor (readings limit mode cursor) last stop ∧
      (stop.nextToken? last = none ∨ (readings limit mode cursor).length = limit) := by
  induction limit generalizing mode cursor with
  | zero => exact ⟨mode, cursor, .done mode cursor, .inr rfl⟩
  | succ limit ih =>
    cases hnext : cursor.nextToken? mode with
    | none =>
      simp only [readings, hnext]
      exact ⟨mode, cursor, .done mode cursor, .inl hnext⟩
    | some call =>
      obtain ⟨token, next, behind⟩ := call
      obtain ⟨last, stop, hcalls, hstop⟩ := ih next behind
      simp only [readings, hnext, List.length_cons, Nat.add_right_cancel_iff]
      exact ⟨last, stop, .next hnext hcalls, hstop⟩

/-- What reading a line comes to: calls up to the end of the line, whose lexemes are not empty,
follow each other and make up the line, which is the text without its terminator. The call behind the last one is refused in any mode, and
leaves the mode that the line ends in. -/
structure ReadsWhole (start : Mode) (text : List Char)
    (read : List (Token × Mode × Cursor (lineOf text))) : Prop where
  finishes : ∃ stop, Calls start (atStart (lineOf text)) read (Line.endMode start text) stop ∧
    stop.atEnd = true ∧ ∀ mode, stop.nextToken? mode = none
  reads : read.map (fun call => (call.1, call.2.1)) = Line.read start text
  covers : Token.text (read.map (·.1)) = Lines.dropTerminator text
  leaves : Lines.Leaves text (Token.text (read.map (·.1)))
  abutting : Abutting (atStart (lineOf text)) read
  nonempty : ∀ call ∈ read, call.1.lexeme ≠ []
  count : read.length ≤ (Lines.dropTerminator text).length

theorem readsWhole_readLine (start : Mode) (text : List Char) :
    ReadsWhole start text (readLine start (lineOf text)) := by
  have hview := view_atStart (lineOf text)
  obtain ⟨last, stop, hcalls, hstop⟩ :=
    calls_readings (lineOf text).length start (atStart (lineOf text))
  obtain ⟨habut, before, current, rest, hstopView, hrequests⟩ := hview.calls hcalls
  have hlength := hrequests.length_add_le
  rw [List.length_map, toList_lineOf] at hlength
  -- each call takes a character, so a call for each of them is enough to get to the end
  have hend : stop.atEnd = true := by
    rcases hstop with hnone | hlimit
    · exact (hstopView.nextToken?_eq_none_iff last).mp hnone
    · have hline : (lineOf text).length = (Lines.dropTerminator text).length := by
        rw [← String.length_toList, toList_lineOf]
      rw [hstopView.atEnd_iff, ← List.length_eq_zero_iff]
      omega
  have hrest : rest = [] := hstopView.atEnd_iff.mp hend
  subst hrest
  have hcovers := hrequests.text_append
  rw [List.append_nil, List.map_map] at hcovers
  have hread := hrequests.lexFrom_eq
  rw [lexFrom_nil, List.append_nil, toList_lineOf] at hread
  have hmode : Line.endMode start text = last := by
    rw [Line.endMode, Line.read, hread, hrequests.modeAfter_eq]
  exact {
    finishes := ⟨stop, hmode ▸ hcalls, hend,
      fun mode => (hstopView.nextToken?_eq_none_iff mode).mpr hend⟩
    reads := hread.symm
    covers := hcovers.trans (toList_lineOf text)
    leaves := Lines.leaves_iff.mpr (hcovers.trans (toList_lineOf text))
    abutting := habut
    nonempty := fun call hcall => hrequests.lexeme_ne_nil _ (List.mem_map_of_mem hcall)
    count := Nat.le_of_add_right_le hlength }

/-- Lexing a line ends, makes progress and loses nothing, from any mode and for any text. A call
returns a token as long as the cursor is not at the end. It runs one mode or two, which together
take some of the text, so that the token is theirs and never one made up for an empty lexeme. -/
theorem readLine_whole (start : Mode) (text : List Char) :
    ReadsWhole start text (readLine start (lineOf text)) ∧
    (∀ read last stop, Calls start (atStart (lineOf text)) read last stop →
      read.length ≤ (Lines.dropTerminator text).length ∧
      ((stop.nextToken? last).isSome ↔ stop.atEnd = false)) ∧
    ∀ mode cs, cs ≠ [] → ∃ modes cut, Mode.Runs true mode cs modes cut ∧
      (∀ modes' cut', Mode.Runs true mode cs modes' cut' → modes' = modes ∧ cut' = cut) ∧
      modes.length ≤ 2 ∧ cs.take cut.size ≠ [] ∧
      BoardHighlight.nextToken? true mode cs =
        some (⟨Reserved.classify (cs.take cut.size) cut.kind, cs.take cut.size⟩, cut.next) := by
  refine ⟨readsWhole_readLine start text, ?_, ?_⟩
  · intro read last stop hcalls
    obtain ⟨-, before, current, rest, hstop, hrequests⟩ :=
      (view_atStart (lineOf text)).calls hcalls
    have hlength := hrequests.length_add_le
    rw [List.length_map, toList_lineOf] at hlength
    refine ⟨Nat.le_of_add_right_le hlength, ?_⟩
    have hnone := hstop.nextToken?_eq_none_iff last
    rw [← Option.ne_none_iff_isSome, Ne, hnone, Bool.not_eq_true]
  · intro mode cs hcs
    obtain ⟨modes, hmodes⟩ := mode.exists_runs true cs
    have hlength := hmodes.length_le
    have hhandovers := mode.handovers_le_one
    refine ⟨modes, mode.cut true cs, hmodes, fun _ _ h => h.unique hmodes, by omega, ?_⟩
    exact nextToken?_eq true mode hcs

/-- A string is resumed by the last character of its line, so that the second mode finds nothing. -/
theorem readLine_whole_resumed_at_end :
    let text := "\\\r\n".toList
    ReadsWhole .stringGap text (readLine .stringGap (lineOf text)) ∧
    ((atStart (lineOf text)).nextToken? .stringGap).isSome ∧
    ∃ modes cut, Mode.Runs true .stringGap ['\\'] modes cut ∧ modes.length ≤ 2 ∧
      ['\\'].take cut.size ≠ [] := by
  intro text
  have h := readLine_whole .stringGap text
  have hstart : (atStart (lineOf text)).atEnd = false := by decide +kernel
  obtain ⟨modes, cut, hruns, -, hlength, htake, -⟩ := h.2.2 .stringGap ['\\'] (by decide)
  exact ⟨h.1, (h.2.1 _ _ _ (.done _ _)).2.mpr hstart, modes, cut, hruns, hlength, htake⟩

end Cursor

end BoardHighlight
