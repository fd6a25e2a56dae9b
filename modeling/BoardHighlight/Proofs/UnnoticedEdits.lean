import BoardHighlight.Proofs.CommentBreaks
import BoardHighlight.Proofs.ModeBehind
import BoardHighlight.Proofs.RelexedLines
import BoardHighlight.Proofs.StringLayout

/-!
# Edits that other lines do not notice

The lines below an edit depend on the lines above them only through the mode that is carried down.
Two kinds of edit leave it as it was. A line inside a comment may be broken in two wherever the
break does not fall between the characters of a delimiter. A line of blanks may be put in anywhere,
because every mode in which a line can start reads blanks and stays what it is.
-/

namespace BoardHighlight
set_option autoImplicit false

namespace Document

/-- One line of a document is as one line of another: no question tells them apart. -/
structure SameLine (doc : Document) (i : Nat) (other : Document) (j : Nat) : Prop where
  text : other.line? j = doc.line? i
  start : other.modeBefore? j = doc.modeBefore? i
  tokens : i < doc.lineCount → other.tokens j = doc.tokens i
  listed : other.lineTokens[j]? = doc.lineTokens[i]?

theorem lineTokens_getElem?_eq (doc : Document) (i : Nat) :
    doc.lineTokens[i]? =
      (doc.modeBefore? i).bind fun mode => (doc.line? i).map (Line.tokens mode) := by
  rw [lineTokens, List.getElem?_zipWith, modeBefore?, line?, lines, List.getElem?_map]
  cases doc.modes[i]? <;> cases doc.entries[i]? <;> rfl

/-- The text and the mode before it are all that the tokens of a line depend on. -/
theorem SameLine.of_start {doc other : Document} {i j : Nat} (htext : other.line? j = doc.line? i)
    (hstart : other.modeBefore? j = doc.modeBefore? i) : SameLine doc i other j where
  text := htext
  start := hstart
  tokens := by
    intro hi
    obtain ⟨text, hline⟩ := Option.isSome_iff_exists.mp (line?_isSome_iff.mpr hi)
    obtain ⟨mode, hmode⟩ :=
      Option.isSome_iff_exists.mp (modeBefore?_isSome_iff.mpr (Nat.le_of_lt hi))
    simp only [Document.tokens, htext, hstart, hline, hmode]
  listed := by rw [lineTokens_getElem?_eq, lineTokens_getElem?_eq, htext, hstart]

section Lines
variable {doc other : Document} {front front' back back' : List (List Char)}

theorem lineCount_eq (doc : Document) : doc.lineCount = doc.lines.length :=
  (List.length_map _).symm

theorem Consistent.modeBefore?_behind (h : doc.Consistent) (hlines : doc.lines = front ++ back)
    (k : Nat) : doc.modeBefore? (front.length + k) =
      if k ≤ back.length then some (Line.carry (Line.carry .normal front) (back.take k)) else none := by
  have hcount : doc.lineCount = front.length + back.length := by
    rw [lineCount_eq, hlines, List.length_append]
  split
  · rw [h.modeBefore?_eq (by omega), hlines, List.take_length_add_append, Line.carry_append]
  · rw [← Option.not_isSome_iff_eq_none, modeBefore?_isSome_iff]
    omega

theorem Consistent.sameLine_above (h : doc.Consistent) (hother : other.Consistent)
    (hlines : doc.lines = front ++ back) (hlines' : other.lines = front ++ back') {k : Nat}
    (hk : k < front.length) : SameLine doc k other k := by
  have hcount : k ≤ doc.lineCount ∧ k ≤ other.lineCount := by
    rw [lineCount_eq, lineCount_eq, hlines, hlines', List.length_append, List.length_append]
    omega
  apply SameLine.of_start
  · rw [line?, line?, hlines, hlines', List.getElem?_append_left hk, List.getElem?_append_left hk]
  · rw [h.modeBefore?_eq hcount.1, hother.modeBefore?_eq hcount.2, hlines, hlines',
      List.take_append_of_le_length (Nat.le_of_lt hk), List.take_append_of_le_length (Nat.le_of_lt hk)]

/-- Lines below an edit are as they were if the mode that is carried to them is. -/
theorem Consistent.sameLine_below (h : doc.Consistent) (hother : other.Consistent)
    (hlines : doc.lines = front ++ back) (hlines' : other.lines = front' ++ back)
    (hcarry : Line.carry .normal front' = Line.carry .normal front) {i j : Nat} (k : Nat)
    (hi : i = front.length + k) (hj : j = front'.length + k) : SameLine doc i other j := by
  subst hi hj
  apply SameLine.of_start
  · rw [line?, line?, hlines, hlines', List.getElem?_append_right (Nat.le_add_right _ _),
      List.getElem?_append_right (Nat.le_add_right _ _), Nat.add_sub_cancel_left,
      Nat.add_sub_cancel_left]
  · rw [h.modeBefore?_behind hlines, hother.modeBefore?_behind hlines', hcarry]

theorem Consistent.endMode_eq (h : doc.Consistent) : doc.endMode = Line.carry .normal doc.lines := by
  have hlast := h.lexedAfresh.last_mode
  rw [h.modeBefore?_eq (Nat.le_refl _), lineCount_eq, List.take_length] at hlast
  exact (Option.some.inj hlast).symm

theorem Consistent.endMode_below (h : doc.Consistent) (hother : other.Consistent)
    (hlines : doc.lines = front ++ back) (hlines' : other.lines = front' ++ back)
    (hcarry : Line.carry .normal front' = Line.carry .normal front) :
    other.endMode = doc.endMode := by
  rw [h.endMode_eq, hother.endMode_eq, hlines, hlines', Line.carry_append, Line.carry_append, hcarry]

end Lines

theorem insertIdx_length_append {α : Type} (front back : List α) (x : α) :
    (front ++ back).insertIdx front.length x = front ++ x :: back :=
  List.modifyTailIdx_add (List.cons x) 0 front back

section Made
variable {doc changed : Document} {edit : Edit} {count : Nat}

theorem lines_of_edit (h : doc.edit edit = .ok (count, changed)) :
    changed.lines = edit.applyTo doc.lines := by
  obtain ⟨front, old, new, hentries, hfront, hedited, hrelex⟩ := edit_cases h
  obtain rfl : doc = ⟨front ++ old⟩ := by rw [← hentries]
  have hchanged : changed = (relexFrom edit.line (front ++ new)).2 := congrArg Prod.snd hrelex
  rw [hedited.lines_eq hfront, hchanged, relexFrom_lines]
  rfl

theorem Reachable.of_edit (hdoc : Reachable doc) (h : doc.edit edit = .ok (count, changed)) :
    Reachable changed := by
  have hafter : doc.after edit = changed := by rw [Document.after, h]
  exact hafter ▸ hdoc.edit edit

theorem exists_replace {i : Nat} {text : List Char} (hi : i < doc.lineCount) (htext : '\n' ∉ text) :
    ∃ count changed, doc.edit (.replace i text) = .ok (count, changed) := by
  simp only [Document.edit, replace, if_neg (Nat.not_le_of_lt hi), if_neg htext]
  exact ⟨_, _, rfl⟩

theorem exists_insert {i : Nat} {text : List Char} (hi : i ≤ doc.lineCount) (htext : '\n' ∉ text) :
    ∃ count changed, doc.edit (.insert i text) = .ok (count, changed) := by
  obtain ⟨mode, hmode⟩ := Option.isSome_iff_exists.mp (modeBefore?_isSome_iff.mpr hi)
  simp only [Document.edit, insert, hmode, if_neg htext]
  exact ⟨_, _, rfl⟩

end Made

/-! ## Breaking a line of a comment -/

theorem exists_lines_eq {doc : Document} {i : Nat} {text : List Char} (h : doc.line? i = some text) :
    ∃ front back, doc.lines = front ++ text :: back ∧ front.length = i := by
  obtain ⟨hi, hget⟩ := List.getElem?_eq_some_iff.mp h
  refine ⟨doc.lines.take i, doc.lines.drop (i + 1), ?_, List.length_take_of_le (Nat.le_of_lt hi)⟩
  rw [← hget, ← List.drop_eq_getElem_cons, List.take_append_drop]

/-- Line `i` is `u` and `v`, lies inside a comment that has all of it, and can be broken between
them. -/
structure Breaks (doc : Document) (i : Nat) (u v : List Char) : Prop where
  line : doc.line? i = some (u ++ v)
  comment : ∃ kind depth, doc.modeBefore? i = some (.blockComment kind depth)
  token : ∃ token, doc.tokens i = .ok [token]
  not_cuts : ¬BlockComment.Cuts u v

theorem Breaks.carry_eq {doc : Document} {u v : List Char} {front back : List (List Char)}
    (h : Breaks doc front.length u v) (hdoc : doc.Consistent)
    (hlines : doc.lines = front ++ (u ++ v) :: back) (hfeed : '\n' ∉ u ++ v) :
    Line.carry .normal (front ++ [u, v]) = Line.carry .normal (front ++ [u ++ v]) := by
  obtain ⟨kind, depth, hmode⟩ := h.comment
  obtain ⟨token, htoken⟩ := h.token
  simp only [tokens, hmode, h.line, Except.ok.injEq] at htoken
  have hstart := hdoc.modeBefore?_behind hlines 0
  rw [Nat.add_zero, hmode, if_pos (Nat.zero_le _), Option.some.injEq] at hstart
  have hjoin := BlockComment.endMode_append kind depth.le_limit hfeed h.not_cuts
    (BlockComment.whole_of_tokens htoken)
  rw [CommentKind.modeAt_val, hstart] at hjoin
  rw [Line.carry_append, Line.carry_append]
  exact hjoin

/-- Breaking a line of a comment changes nothing behind it. -/
theorem sameLine_of_breaks {doc : Document} (hdoc : Reachable doc)
    (hfeeds : ∀ text ∈ doc.lines, '\n' ∉ text) {i : Nat} {u v : List Char} (h : Breaks doc i u v) :
    ∃ count changed count' broken, doc.edit (.replace i u) = .ok (count, changed) ∧
      changed.edit (.insert (i + 1) v) = .ok (count', broken) ∧
      (∀ j, i < j → SameLine doc j broken (j + 1)) ∧ broken.endMode = doc.endMode := by
  obtain ⟨front, back, hlines, rfl⟩ := exists_lines_eq h.line
  have hfeed : '\n' ∉ u ++ v := by
    apply hfeeds
    rw [hlines]
    exact List.mem_append_right front List.mem_cons_self
  have hfeeds' : '\n' ∉ u ∧ '\n' ∉ v := by simpa using hfeed
  have hi : front.length < doc.lineCount := line?_isSome_iff.mp (by rw [h.line]; rfl)
  obtain ⟨count, changed, hreplace⟩ := exists_replace hi hfeeds'.1
  have hchanged : changed.lines = front ++ u :: back := by
    rw [lines_of_edit hreplace, Edit.applyTo, hlines, List.set_append_right _ _ (Nat.le_refl _),
      Nat.sub_self, List.set_cons_zero]
  have hi' : front.length + 1 ≤ changed.lineCount := by
    rw [lineCount_eq, hchanged, List.length_append, List.length_cons]
    omega
  obtain ⟨count', broken, hinsert⟩ := exists_insert hi' hfeeds'.2
  have hbroken : broken.lines = (front ++ [u, v]) ++ back := by
    have hinserted := insertIdx_length_append (front ++ [u]) back v
    rw [List.length_append, List.append_assoc, List.append_assoc] at hinserted
    rw [lines_of_edit hinsert, Edit.applyTo, hchanged, List.append_assoc]
    exact hinserted
  have hlines' : doc.lines = (front ++ [u ++ v]) ++ back := by
    rw [hlines, List.append_assoc]
    rfl
  -- the same lines stand below two fronts that carry one mode
  have hcarry := h.carry_eq hdoc.consistent hlines hfeed
  have hreach := (hdoc.of_edit hreplace).of_edit hinsert
  refine ⟨count, changed, count', broken, hreplace, hinsert, ?_,
    hdoc.consistent.endMode_below hreach.consistent hlines' hbroken hcarry⟩
  intro j hj
  obtain ⟨k, rfl⟩ := Nat.exists_eq_add_of_lt hj
  apply hdoc.consistent.sameLine_below hreach.consistent hlines' hbroken hcarry k
  · rw [List.length_append, List.length_singleton]
    omega
  · rw [List.length_append, List.length_cons, List.length_singleton]
    omega

/-- A pragma goes on with a comment inside it, and both end with the line, which still carries a
carriage return. The line is broken within the inner comment, between two dashes. -/
theorem sameLine_of_breaks_return :
    let doc := (ofText "\x7b-# a\nb\nif x".toList).after (.replace 1 "\x7b--\x7d-\x7d\r".toList)
    Breaks doc 1 ['{', '-'] "-\x7d-\x7d\r".toList ∧
      ∃ count changed count' broken, doc.edit (.replace 1 ['{', '-']) = .ok (count, changed) ∧
        changed.edit (.insert 2 "-\x7d-\x7d\r".toList) = .ok (count', broken) ∧
        (∀ j, 1 < j → SameLine doc j broken (j + 1)) ∧ broken.endMode = doc.endMode := by
  intro doc
  have htokens : (doc.tokens 1).toOption = some [⟨.pragma, "\x7b--\x7d-\x7d".toList⟩] := by
    decide +kernel
  have hbreaks : Breaks doc 1 ['{', '-'] "-\x7d-\x7d\r".toList :=
    ⟨by decide +kernel, ⟨.pragma, .one, by decide +kernel⟩, ⟨_, eq_ok_of_toOption htokens⟩,
      by simp [BlockComment.Cuts]⟩
  have hfeeds : ∀ text ∈ doc.lines, '\n' ∉ text := by decide +kernel
  exact ⟨hbreaks, sameLine_of_breaks (.edit _ (.text _)) hfeeds hbreaks⟩

end Document

/-! ## Lines of blanks -/

section Blanks
variable {blanks : List Char}

/-- Every mode but that of strings takes blanks up to the end of the line, and goes on behind them. -/
theorem Mode.cut_of_blank {mode : Mode} (hmode : mode ≠ .string)
    (h : ∀ c ∈ blanks, isBlank c = true) (hne : blanks ≠ []) :
    ∃ kind, mode.cut true (blanks ++ []) = ⟨kind, blanks.length, mode⟩ := by
  rw [List.append_nil]
  cases mode with
  | normal =>
    obtain ⟨c, rest, rfl⟩ := List.exists_cons_of_ne_nil hne
    have hstep : Mode.normal.step true (c :: rest) =
        .emit (.normal .plain (runLength isBlank (c :: rest))) := by
      rw [Mode.step, normalStep_cons, if_pos (h c List.mem_cons_self)]
    rw [Mode.cut_of_emit hstep, runLength_of_blank h]
    exact ⟨.plain, rfl⟩
  | string => exact absurd rfl hmode
  | stringGap => exact ⟨.string, Mode.cut_of_emit (StringLiteral.gapStep_blank h hne)⟩
  | blockComment kind depth =>
    have hdash : '-' ∉ blanks := not_mem_of_blank h (by decide)
    obtain ⟨hwhole, hdepth⟩ := BlockComment.whole_of_dash_not_mem depth.pos hdash
    have hstep : (Mode.blockComment kind depth).step true blanks =
        .emit (BlockComment.cut kind depth blanks) := rfl
    rw [Mode.cut_of_emit hstep, BlockComment.cut_eq, hwhole, hdepth, CommentKind.modeAt_val]
    exact ⟨kind.tokenKind, rfl⟩

theorem Line.endMode_of_blank {mode : Mode} (hmode : mode ≠ .string)
    (h : ∀ c ∈ blanks, isBlank c = true) : Line.endMode mode blanks = mode := by
  -- a line without text has no token, and any other line of blanks has one
  by_cases hne : blanks = []
  · rw [hne, Line.endMode_nil]
  · have hline : Lines.dropTerminator blanks = blanks :=
      Lines.dropTerminator_of_not_mem (not_mem_of_blank h (by decide)) (not_mem_of_blank h (by decide))
    obtain ⟨kind, hcut⟩ := Mode.cut_of_blank hmode h hne
    have hrequests := Requests.cons (nextToken?_of_cut hne hcut) (.done mode [])
    rw [List.append_nil, ← hline] at hrequests
    exact hrequests.endMode_eq

end Blanks

namespace Document

/-- A new line `i` starts and ends in one mode, which is the one before it, and every other line is
as it was. -/
structure Unnoticed (doc : Document) (i : Nat) (text : List Char) (changed : Document) : Prop where
  inserted : changed.line? i = some text
  starts_ends : ∃ mode, doc.modeBefore? i = some mode ∧ changed.modeBefore? i = some mode ∧
    changed.modeBefore? (i + 1) = some mode
  above : ∀ j, j < i → SameLine doc j changed j
  below : ∀ j, i ≤ j → SameLine doc j changed (j + 1)
  end_mode : changed.endMode = doc.endMode

/-- A new line that ends in the mode in which it starts is the only one that is lexed again. -/
theorem count_of_insert {doc changed : Document} {i count : Nat} {text : List Char} {mode : Mode}
    (h : doc.edit (.insert i text) = .ok (count, changed)) (hmode : doc.modeBefore? i = some mode)
    (hend : Line.endMode mode text = mode) : count = 1 := by
  obtain ⟨front, old, new, hentries, hfront, hedited, hrelex⟩ := edit_cases h
  obtain rfl : doc = ⟨front ++ old⟩ := by rw [← hentries]
  obtain rfl : front.length = i := hfront
  rw [modeBefore?_append, Option.some.injEq] at hmode
  rw [Edit.line, relexFrom_append, Prod.mk.injEq, hmode] at hrelex
  rw [hrelex.1]
  cases hedited with
  | insert i text rest => rw [relex, hmode, if_pos hend]

theorem Consistent.unnoticed {doc changed : Document} (hdoc : doc.Consistent)
    (hchanged : changed.Consistent) {front back : List (List Char)} {text : List Char}
    (hlines : doc.lines = front ++ back) (hinserted : changed.lines = front ++ text :: back)
    (hend : Line.endMode (Line.carry .normal front) text = Line.carry .normal front) :
    Unnoticed doc front.length text changed := by
  have hlines' : changed.lines = (front ++ [text]) ++ back := by
    rw [hinserted, List.append_assoc]
    rfl
  have hcarry : Line.carry .normal (front ++ [text]) = Line.carry .normal front := by
    rw [Line.carry_append]
    exact hend
  have hmode := hdoc.modeBefore?_behind hlines 0
  have hmode' := hchanged.modeBefore?_behind hinserted 0
  rw [if_pos (Nat.zero_le _), List.take_zero] at hmode hmode'
  have hbelow : ∀ j, front.length ≤ j → SameLine doc j changed (j + 1) := by
    intro j hj
    obtain ⟨k, rfl⟩ := Nat.exists_eq_add_of_le hj
    apply hdoc.sameLine_below hchanged hlines hlines' hcarry k rfl
    rw [List.length_append, List.length_singleton]
    omega
  exact {
    inserted := by
      rw [line?, hinserted, List.getElem?_append_right (Nat.le_refl _), Nat.sub_self]
      rfl
    starts_ends := ⟨_, hmode, hmode', (hbelow _ (Nat.le_refl _)).start.trans hmode⟩
    above := fun j hj => hdoc.sameLine_above hchanged hlines hinserted hj
    below := hbelow
    end_mode := hdoc.endMode_below hchanged hlines hlines' hcarry }

/-- Lines of blanks are invisible, whatever edits led to the document and wherever they stand. -/
theorem unnoticed_of_blank {doc : Document} (hdoc : Reachable doc) {i : Nat} (hi : i ≤ doc.lineCount)
    {text : List Char} (h : ∀ c ∈ text, isBlank c = true) :
    ∃ changed, doc.edit (.insert i text) = .ok (1, changed) ∧ Unnoticed doc i text changed := by
  have hmode := hdoc.consistent.modeBefore?_eq hi
  have hend := Line.endMode_of_blank (hdoc.modeBefore?_ne_string hmode) h
  have hfeed : '\n' ∉ text := not_mem_of_blank h (by decide)
  obtain ⟨count, changed, hinsert⟩ := exists_insert hi hfeed
  obtain rfl := count_of_insert hinsert hmode hend
  refine ⟨changed, hinsert, ?_⟩
  have hlength : (doc.lines.take i).length = i := List.length_take_of_le (by rwa [← lineCount_eq])
  have hlines : doc.lines = doc.lines.take i ++ doc.lines.drop i := (List.take_append_drop i _).symm
  have hinserted : changed.lines = doc.lines.take i ++ text :: doc.lines.drop i := by
    rw [lines_of_edit hinsert, Edit.applyTo, ← insertIdx_length_append, ← hlines, hlength]
  have hunnoticed := hdoc.consistent.unnoticed (hdoc.of_edit hinsert).consistent hlines hinserted hend
  rwa [hlength] at hunnoticed

/-- All four blanks, put between the lines of a string and of its gap; a comment opens below. -/
theorem unnoticed_of_blank_in_gap :
    let doc := (ofText "\"a\\\n\\b\" \x7b-".toList).after (.insert 0 "x".toList)
    let text := [' ', '\t', '\x0b', '\x0c']
    doc.modeBefore? 2 = some .stringGap ∧ doc.endMode = .opened .ordinary ∧
      ∃ changed, doc.edit (.insert 2 text) = .ok (1, changed) ∧ Unnoticed doc 2 text changed := by
  intro doc text
  have hblanks : ∀ c ∈ text, isBlank c = true := List.all_eq_true.mp (by decide)
  exact ⟨by decide +kernel, by decide +kernel,
    unnoticed_of_blank (.edit _ (.text _)) (by decide +kernel) hblanks⟩

end Document

end BoardHighlight
