import BoardHighlight.Proofs.Requests

/-!
# String literals over several lines

A string is written here as a text of its own, with line feeds: a quote, segments with gaps between
them, and a quote. The text is cut into lines and the lines are lexed in order. Every token up to the
closing quote is then of the kind of strings, and the lexer is within a gap wherever one token or
one line of the string ends.
-/

namespace BoardHighlight
set_option autoImplicit false

theorem not_mem_of_blank {c : Char} {blanks : List Char} (h : ∀ c ∈ blanks, isBlank c = true)
    (hc : isBlank c = false) : c ∉ blanks := by
  intro hmem
  rw [h c hmem] at hc
  cases hc

theorem runLength_of_blank {blanks : List Char} (h : ∀ c ∈ blanks, isBlank c = true) :
    runLength isBlank blanks = blanks.length := by
  have htake : (blanks ++ []).takeWhile isBlank = blanks ++ [] := List.takeWhile_append_of_pos h
  rw [List.append_nil] at htake
  rw [runLength, htake]

namespace StringLiteral

/-- The part of a string between two gaps: characters that stand for themselves, and escapes. -/
inductive Segment : List Char → Prop where
  | nil : Segment []
  | plain {c : Char} {s : List Char} :
      c ≠ '"' → c ≠ '\\' → c ≠ '\n' → Segment s → Segment (c :: s)
  | escape {c : Char} {s : List Char} :
      isBlank c = false → c ≠ '\n' → Segment s → Segment ('\\' :: c :: s)

/-- What stands between the two backslashes of a gap. -/
def Spacing (space : List Char) : Prop := ∀ c ∈ space, isBlank c = true ∨ c = '\n'

instance (space : List Char) : Decidable (Spacing space) := List.decidableBAll _ space

/-- Segments with gaps between them, the last of which is `last`. -/
inductive Body (last : List Char) : List Char → Prop where
  | segment : Segment last → Body last last
  | gap {s space rest : List Char} : Segment s → space ≠ [] → Spacing space → Body last rest →
      Body last (s ++ '\\' :: (space ++ '\\' :: rest))

/-- A request in `mode` takes `lead` and goes on within a string: it opens the string, or resumes
it behind a gap. -/
inductive Leads : Mode → List Char → Prop where
  | opening : Leads .normal ['"']
  | resuming {blanks : List Char} :
      (∀ c ∈ blanks, isBlank c = true) → Leads .stringGap (blanks ++ ['\\'])

theorem Segment.newline_not_mem {s : List Char} (h : Segment s) : '\n' ∉ s := by
  induction h with
  | nil => exact List.not_mem_nil
  | plain _ _ hc _ ih =>
    rw [List.mem_cons, not_or]
    exact ⟨fun h => hc h.symm, ih⟩
  | escape _ hc _ ih =>
    rw [List.mem_cons, List.mem_cons, not_or, not_or]
    exact ⟨by decide, fun h => hc h.symm, ih⟩

theorem Leads.newline_not_mem {mode : Mode} {lead : List Char} (h : Leads mode lead) :
    '\n' ∉ lead := by
  cases h with
  | opening => decide
  | resuming hblanks =>
    rw [List.mem_append, not_or]
    exact ⟨not_mem_of_blank hblanks (by decide), by decide⟩

theorem Leads.ne_nil {mode : Mode} {lead : List Char} (h : Leads mode lead) : lead ≠ [] := by
  cases h with
  | opening => exact List.cons_ne_nil _ _
  | resuming => exact List.append_ne_nil_of_right_ne_nil _ (List.cons_ne_nil _ _)

theorem shift_shift (m n : Nat) (cut : Cut) : (cut.shift n).shift m = cut.shift (m + n) := by
  rw [Cut.shift, Cut.shift, Cut.shift, Nat.add_assoc]

/-- The body of a string goes through a segment without looking into it. -/
theorem Segment.bodyCut_append {s : List Char} (h : Segment s) (rest : List Char) :
    bodyCut true (s ++ rest) = (bodyCut true rest).shift s.length := by
  induction h with
  | nil => rw [List.nil_append, List.length_nil, Cut.shift, Nat.zero_add]
  | @plain c s hquote hslash _ _ ih =>
    have hstep : bodyCut true (c :: (s ++ rest)) = (bodyCut true (s ++ rest)).shift 1 := by
      rw [bodyCut.eq_def]
      simp [hquote, hslash]
    rw [List.cons_append, hstep, ih, shift_shift, List.length_cons, Nat.add_comm]
  | @escape c s hblank _ _ ih =>
    have hstep : bodyCut true ('\\' :: c :: (s ++ rest)) = (bodyCut true (s ++ rest)).shift 2 := by
      simp [bodyCut, hblank]
    rw [List.cons_append, List.cons_append, hstep, ih, shift_shift, List.length_cons,
      List.length_cons, Nat.add_comm]

theorem gapStep_resuming {blanks : List Char} (h : ∀ c ∈ blanks, isBlank c = true)
    (rest : List Char) :
    gapStep true (blanks ++ '\\' :: rest) = .enter (blanks.length + 1) .string := by
  have hslash : isBlank '\\' = false := by decide
  unfold gapStep runLength
  rw [List.dropWhile_append_of_pos h, List.takeWhile_append_of_pos h,
    List.dropWhile_cons_of_neg (by simp [hslash]), List.takeWhile_cons_of_neg (by simp [hslash]),
    List.append_nil]
  rfl

theorem gapStep_blank {blanks : List Char} (h : ∀ c ∈ blanks, isBlank c = true)
    (hne : blanks ≠ []) :
    gapStep true blanks = .emit ⟨.string, blanks.length, .stringGap⟩ := by
  have hdrop : (blanks ++ []).dropWhile isBlank = [] := List.dropWhile_append_of_pos h
  rw [List.append_nil] at hdrop
  unfold gapStep
  rw [hdrop, runLength_of_blank h]
  exact if_pos (by simpa using List.length_pos_iff.mpr hne)

theorem Leads.cut_eq {mode : Mode} {lead : List Char} (h : Leads mode lead) (cs : List Char) :
    mode.cut true (lead ++ cs) = (bodyCut true cs).shift lead.length := by
  have hbody : Mode.string.cut true cs = bodyCut true cs := Mode.cut_of_emit rfl
  cases h with
  | opening =>
    have hstep : Mode.normal.step true ('"' :: cs) = .enter 1 .string := rfl
    rw [List.cons_append, List.nil_append, Mode.cut_of_enter hstep]
    rw [List.drop_succ_cons, List.drop_zero, hbody]
    rfl
  | @resuming blanks hblanks =>
    have hstep : Mode.stringGap.step true (blanks ++ '\\' :: cs) =
        .enter (blanks.length + 1) .string := gapStep_resuming hblanks cs
    rw [List.append_assoc, List.cons_append, List.nil_append, Mode.cut_of_enter hstep,
      List.drop_length_add_append, List.drop_succ_cons, List.drop_zero, hbody, List.length_append]
    rfl

theorem spelling_of_mem_all : ∀ word ∈ Reserved.all, '"' ∉ word.toList ∧
    word.toList.all (fun c => !isBlank c) = true ∧
    (word.toList.head? = some '\\' → word.toList = ['\\']) := by
  decide

/-- No reserved word holds a quote or a blank, and only the lone backslash starts with one. -/
theorem spelling_of_reserved {lexeme : List Char} (h : Reserved.kind? lexeme ≠ none) :
    '"' ∉ lexeme ∧ (∀ c ∈ lexeme, isBlank c = false) ∧
      (lexeme.head? = some '\\' → lexeme = ['\\']) := by
  obtain ⟨hquote, hblank, hslash⟩ := spelling_of_mem_all _ (Reserved.mem_all_of_kind? h)
  rw [String.toList_ofList] at hquote hblank hslash
  refine ⟨hquote, ?_, hslash⟩
  intro c hc
  have hc := List.all_eq_true.mp hblank c hc
  rwa [Bool.not_eq_true'] at hc

theorem kind?_eq_none_of_blank {lexeme : List Char} {c : Char} (hmem : c ∈ lexeme)
    (hblank : isBlank c = true) : Reserved.kind? lexeme = none := by
  refine Decidable.byContradiction fun hsome => ?_
  rw [(spelling_of_reserved hsome).2.1 c hmem] at hblank
  exact absurd hblank Bool.false_ne_true

/-- Behind the lead of a string, the overlay knows the lone backslash only. -/
theorem Leads.kind?_eq_none {mode : Mode} {lead : List Char} (h : Leads mode lead) {s : List Char}
    (hlone : lead ++ s ≠ ['\\']) : Reserved.kind? (lead ++ s) = none := by
  refine Decidable.byContradiction fun hsome => ?_
  obtain ⟨hquote, -, hslash⟩ := spelling_of_reserved hsome
  cases h with
  | opening => exact hquote List.mem_cons_self
  | @resuming blanks hblanks =>
    cases blanks with
    | nil => exact hlone (hslash rfl)
    | cons c blanks =>
      exact hsome (kind?_eq_none_of_blank List.mem_cons_self (hblanks c List.mem_cons_self))

theorem Leads.cut_append_eq {mode : Mode} {lead s mark line : List Char} {kind : Kind} {next : Mode}
    (h : Leads mode lead) (hs : Segment s)
    (hmark : bodyCut true (mark ++ line) = ⟨kind, mark.length, next⟩) :
    mode.cut true ((lead ++ (s ++ mark)) ++ line) =
      ⟨kind, (lead ++ (s ++ mark)).length, next⟩ := by
  rw [List.append_assoc, List.append_assoc, h.cut_eq, hs.bodyCut_append, hmark, List.length_append,
    List.length_append]
  rfl

theorem Leads.nextToken?_eq {mode : Mode} {lead s mark line : List Char} {kind : Kind} {next : Mode}
    (h : Leads mode lead) (hs : Segment s)
    (hmark : bodyCut true (mark ++ line) = ⟨kind, mark.length, next⟩) :
    nextToken? true mode ((lead ++ (s ++ mark)) ++ line) =
      some (⟨Reserved.classify (lead ++ (s ++ mark)) kind, lead ++ (s ++ mark)⟩, next) := by
  apply nextToken?_of_cut
  · exact List.append_ne_nil_of_left_ne_nil h.ne_nil _
  · exact h.cut_append_eq hs hmark

/-- The overlay leaves the token alone if a mark of the string itself ends it. -/
theorem Leads.classify_eq {mode : Mode} {lead s mark : List Char} (h : Leads mode lead)
    (hmark : mark ≠ []) (kind : Kind) : Reserved.classify (lead ++ (s ++ mark)) kind = kind := by
  have hlone : lead ++ (s ++ mark) ≠ ['\\'] := by
    intro heq
    have hlength := congrArg List.length heq
    rw [List.length_append, List.length_append, List.length_singleton] at hlength
    have hlead := List.length_pos_iff.mpr h.ne_nil
    have hpos := List.length_pos_iff.mpr hmark
    omega
  rw [Reserved.classify, h.kind?_eq_none hlone]
  rfl

theorem Leads.newline_not_mem_append {mode : Mode} {lead s mark : List Char} (h : Leads mode lead)
    (hs : Segment s) (hmark : '\n' ∉ mark) : '\n' ∉ lead ++ (s ++ mark) := by
  rw [List.mem_append, List.mem_append, not_or, not_or]
  exact ⟨h.newline_not_mem, hs.newline_not_mem, hmark⟩

def spelling (row : List (Token × Mode)) : List Char := Token.text (row.map Prod.fst)

/-- Rows of tokens that spell `t` on its lines. Before the token that ends the string, every token
is of the kind of strings and stops within a gap. -/
structure Rows (t : List Char) (final : Token × Mode) (inner : List (List (Token × Mode)))
    (row : List (Token × Mode)) : Prop where
  within : ∀ call ∈ inner.flatten ++ row, call.1.kind = .string ∧ call.2 = .stringGap
  spells : (inner ++ [row ++ [final]]).map spelling = t.splitOn '\n'

/-- From `mode`, the lines of `t` and of what follows it are lexed into rows that spell `t`, the
last of which goes on with what follows. -/
def Crosses (mode : Mode) (t after : List Char) (final : Token × Mode) : Prop :=
  ∃ inner row, Rows t final inner row ∧
    lexLines mode ((t ++ after).splitOn '\n') =
      inner ++ (lexLines final.2 (after.splitOn '\n')).modifyHead (row ++ final :: ·)

theorem exists_splitOn_eq_cons (text : List Char) :
    ∃ line lines, text.splitOn '\n' = line :: lines :=
  List.exists_cons_of_ne_nil (List.splitOn_ne_nil '\n' text)

theorem splitOn_newline_cons (text : List Char) :
    ('\n' :: text).splitOn '\n' = [] :: text.splitOn '\n' := by
  rw [List.splitOn_cons_eq_if_modifyHead, if_pos (by rfl)]

theorem line_eq_nil_of_newline {text line : List Char} {lines : List (List Char)}
    (h : ('\n' :: text).splitOn '\n' = line :: lines) : line = [] := by
  rw [splitOn_newline_cons] at h
  exact (List.cons.inj h).1.symm

theorem splitOn_append_of_eq_cons {s text line : List Char} {lines : List (List Char)}
    (hs : '\n' ∉ s) (h : text.splitOn '\n' = line :: lines) :
    (s ++ text).splitOn '\n' = (s ++ line) :: lines := by
  induction s with
  | nil => exact h
  | cons c s ih =>
    rw [List.mem_cons, not_or] at hs
    rw [List.cons_append, List.splitOn_cons_eq_if_modifyHead, if_neg (by simpa using Ne.symm hs.1),
      ih hs.2, List.modifyHead_cons, List.cons_append]

namespace Crosses
variable {mode : Mode} {t after : List Char} {final : Token × Mode}

theorem last {kind : Kind} {lexeme : List Char} {next : Mode} (hlexeme : '\n' ∉ lexeme)
    (hnext : ∀ line lines, after.splitOn '\n' = line :: lines →
      nextToken? true mode (lexeme ++ line) = some (⟨kind, lexeme⟩, next)) :
    Crosses mode lexeme after (⟨kind, lexeme⟩, next) := by
  obtain ⟨line, lines, hlines⟩ := exists_splitOn_eq_cons after
  have hrequests : Requests mode (lexeme ++ line) [(⟨kind, lexeme⟩, next)] next line :=
    .cons (hnext line lines hlines) (.done _ _)
  refine ⟨[], [], ⟨by simp, ?_⟩, ?_⟩
  · rw [List.splitOn_eq_singleton hlexeme]
    simp [spelling]
  · rw [splitOn_append_of_eq_cons hlexeme hlines, hrequests.lexLines_eq, hlines]
    rfl

/-- A token in front of the string's part of a line. -/
theorem token {lexeme : List Char} (hlexeme : '\n' ∉ lexeme)
    (hnext : ∀ line lines, (t ++ after).splitOn '\n' = line :: lines →
      nextToken? true mode (lexeme ++ line) = some (⟨.string, lexeme⟩, .stringGap))
    (h : Crosses .stringGap t after final) : Crosses mode (lexeme ++ t) after final := by
  obtain ⟨inner, row, hrows, hlex⟩ := h
  obtain ⟨line, lines, hlines⟩ := exists_splitOn_eq_cons (t ++ after)
  have hrequests : Requests mode (lexeme ++ line) [(⟨.string, lexeme⟩, .stringGap)] .stringGap line :=
    .cons (hnext line lines hlines) (.done _ _)
  have hread := hrequests.lexLines_eq lines
  rw [← splitOn_append_of_eq_cons hlexeme hlines, ← List.append_assoc, ← hlines, hlex] at hread
  have hwithin : ∀ call ∈ (⟨.string, lexeme⟩, .stringGap) :: (inner.flatten ++ row),
      call.1.kind = .string ∧ call.2 = .stringGap :=
    List.forall_mem_cons.mpr ⟨⟨rfl, rfl⟩, hrows.within⟩
  have hspells := hrows.spells
  -- the token joins the first row, which is the last one if the string has no line break
  cases inner with
  | nil =>
    refine ⟨[], (⟨.string, lexeme⟩, .stringGap) :: row, ⟨hwithin, ?_⟩, ?_⟩
    · exact (splitOn_append_of_eq_cons hlexeme hspells.symm).symm
    · rw [hread, List.nil_append, List.modifyHead_modifyHead]
      rfl
  | cons first inner =>
    refine ⟨((⟨.string, lexeme⟩, .stringGap) :: first) :: inner, row, ⟨hwithin, ?_⟩, hread⟩
    exact (splitOn_append_of_eq_cons hlexeme hspells.symm).symm

theorem line (h : Crosses mode t after final) : Crosses mode ('\n' :: t) after final := by
  obtain ⟨inner, row, hrows, hlex⟩ := h
  refine ⟨[] :: inner, row, ⟨hrows.within, ?_⟩, ?_⟩
  · rw [splitOn_newline_cons, ← hrows.spells]
    rfl
  · rw [List.cons_append, splitOn_newline_cons, lexLines_nil_cons, hlex, List.cons_append]

end Crosses

theorem nextToken?_blank {blanks : List Char} (h : ∀ c ∈ blanks, isBlank c = true)
    (hne : blanks ≠ []) :
    nextToken? true .stringGap (blanks ++ []) = some (⟨.string, blanks⟩, .stringGap) := by
  obtain ⟨c, hmem⟩ := List.exists_mem_of_ne_nil blanks hne
  have hcut : Mode.stringGap.cut true (blanks ++ []) = ⟨.string, blanks.length, .stringGap⟩ := by
    rw [List.append_nil]
    exact Mode.cut_of_emit (gapStep_blank h hne)
  rw [nextToken?_of_cut hne hcut, Reserved.classify, kind?_eq_none_of_blank hmem (h c hmem)]
  rfl

/-- A gap comes down to the lead behind its last line break; `blanks` are those in front of the
spacing that stand on its first line. -/
theorem Spacing.exists_lead {space : List Char} (hspace : Spacing space) (blanks : List Char)
    (hblanks : ∀ c ∈ blanks, isBlank c = true) :
    ∃ lead, Leads .stringGap lead ∧ ∀ rest after final,
      Crosses .stringGap (lead ++ rest) after final →
      Crosses .stringGap (blanks ++ (space ++ '\\' :: rest)) after final := by
  induction space generalizing blanks with
  | nil =>
    refine ⟨blanks ++ ['\\'], .resuming hblanks, ?_⟩
    intro rest after final h
    rwa [List.append_assoc] at h
  | cons c space ih =>
    have hrest : Spacing space := fun d hd => hspace d (List.mem_cons_of_mem c hd)
    rcases hspace c List.mem_cons_self with hblank | rfl
    · obtain ⟨lead, hlead, hgap⟩ := ih hrest (blanks ++ [c]) (by
        rw [List.forall_mem_append, List.forall_mem_singleton]
        exact ⟨hblanks, hblank⟩)
      refine ⟨lead, hlead, ?_⟩
      intro rest after final h
      simpa using hgap rest after final h
    · obtain ⟨lead, hlead, hgap⟩ := ih hrest [] (by simp)
      refine ⟨lead, hlead, ?_⟩
      intro rest after final h
      have hline := (hgap rest after final h).line
      by_cases hne : blanks = []
      · subst hne
        exact hline
      · refine Crosses.token (not_mem_of_blank hblanks (by decide)) ?_ hline
        intro line lines hlines
        obtain rfl := line_eq_nil_of_newline hlines
        exact nextToken?_blank hblanks hne

theorem Leads.crosses_gap {mode : Mode} {lead s mark t after : List Char} {final : Token × Mode}
    (hlead : Leads mode lead) (hs : Segment s) (hne : mark ≠ []) (hmark : '\n' ∉ mark)
    (hcut : ∀ line lines, (t ++ after).splitOn '\n' = line :: lines →
      bodyCut true (mark ++ line) = ⟨.string, mark.length, .stringGap⟩)
    (h : Crosses .stringGap t after final) :
    Crosses mode (lead ++ (s ++ mark) ++ t) after final := by
  refine Crosses.token (hlead.newline_not_mem_append hs hmark) ?_ h
  intro line lines hlines
  rw [hlead.nextToken?_eq hs (hcut line lines hlines), hlead.classify_eq hne]

/-- A segment and the gap behind it come down to the lead that resumes the string. -/
theorem Leads.exists_resuming {mode : Mode} {lead s space : List Char} (hlead : Leads mode lead)
    (hs : Segment s) (hne : space ≠ []) (hspace : Spacing space) :
    ∃ resumed, Leads .stringGap resumed ∧ ∀ rest after final,
      Crosses .stringGap (resumed ++ rest) after final →
      Crosses mode (lead ++ (s ++ '\\' :: (space ++ '\\' :: rest))) after final := by
  obtain ⟨c, space, rfl⟩ := List.exists_cons_of_ne_nil hne
  -- a blank goes into the token that opens the gap, a line break ends that token
  rcases hspace c List.mem_cons_self with hblank | rfl
  · have hbehind : Spacing space := fun d hd => hspace d (List.mem_cons_of_mem c hd)
    obtain ⟨resumed, hresumed, hgap⟩ := hbehind.exists_lead [] (by simp)
    refine ⟨resumed, hresumed, ?_⟩
    intro rest after final h
    have hmark : '\n' ∉ ['\\', c] := by
      intro hmem
      rcases List.mem_cons.mp hmem with hslash | hmem
      · exact absurd hslash (by decide)
      · rw [← List.mem_singleton.mp hmem] at hblank
        exact absurd hblank (by decide)
    have hcut : ∀ line, bodyCut true (['\\', c] ++ line) = ⟨.string, 2, .stringGap⟩ := by
      intro line
      simp [bodyCut, hblank]
    have hfirst := hlead.crosses_gap hs (List.cons_ne_nil _ _) hmark (fun line _ _ => hcut line)
      (hgap rest after final h)
    simpa using hfirst
  · obtain ⟨resumed, hresumed, hgap⟩ := hspace.exists_lead [] (by simp)
    refine ⟨resumed, hresumed, ?_⟩
    intro rest after final h
    have hcut : ∀ line lines, ('\n' :: (space ++ '\\' :: rest) ++ after).splitOn '\n' = line :: lines →
        bodyCut true (['\\'] ++ line) = ⟨.string, 1, .stringGap⟩ := by
      intro line lines hlines
      obtain rfl := line_eq_nil_of_newline hlines
      rfl
    have hfirst := hlead.crosses_gap hs (List.cons_ne_nil '\\' []) (by decide) hcut
      (hgap rest after final h)
    simpa using hfirst

/-- A string is crossed from a lead on, if its last segment is so from every lead. -/
theorem Body.crosses {last body tail after : List Char} {final : List Char → Token × Mode}
    (h : Body last body) (hlast : ∀ mode lead, Leads mode lead →
      Crosses mode (lead ++ (last ++ tail)) after (final lead))
    {mode : Mode} {lead : List Char} (hlead : Leads mode lead) :
    ∃ mode' lead', Leads mode' lead' ∧
      Crosses mode (lead ++ (body ++ tail)) after (final lead') := by
  induction h generalizing mode lead with
  | segment => exact ⟨mode, lead, hlead, hlast mode lead hlead⟩
  | gap hs hne hspace _ ih =>
    obtain ⟨resumed, hresumed, hgap⟩ := hlead.exists_resuming hs hne hspace
    obtain ⟨mode', lead', hlead', hcross⟩ := ih hresumed
    refine ⟨mode', lead', hlead', ?_⟩
    simpa using hgap _ _ _ hcross

theorem Body.segment_last {last body : List Char} (h : Body last body) : Segment last := by
  induction h with
  | segment hlast => exact hlast
  | gap _ _ _ _ ih => exact ih

theorem Leads.crosses_closing {mode : Mode} {lead last : List Char} (h : Leads mode lead)
    (hlast : Segment last) (after : List Char) :
    Crosses mode (lead ++ (last ++ ['"'])) after
      (⟨.string, lead ++ (last ++ ['"'])⟩, .normal) := by
  have hquote : '\n' ∉ ['"'] := by decide
  refine Crosses.last (h.newline_not_mem_append hlast hquote) ?_
  intro line lines _
  have hcut : bodyCut true (['"'] ++ line) = ⟨.string, ['"'].length, .normal⟩ := by
    rw [bodyCut.eq_def]
    rfl
  rw [h.nextToken?_eq hlast hcut, h.classify_eq (List.cons_ne_nil _ _)]

/-- The kind of a token in which a string is cut off. The overlay takes the backslash that resumes
a string for a word of its own if nothing follows it. -/
def unfinishedKind (lexeme : List Char) : Kind :=
  if lexeme = ['\\'] then .keyword else .badString

theorem Leads.classify_badString {mode : Mode} {lead s : List Char} (h : Leads mode lead) :
    Reserved.classify (lead ++ s) .badString = unfinishedKind (lead ++ s) := by
  unfold unfinishedKind
  split
  · rename_i hlone
    rw [hlone]
    decide
  · rename_i hlone
    rw [Reserved.classify, h.kind?_eq_none hlone]
    rfl

theorem Leads.crosses_unfinished {mode : Mode} {lead last after : List Char} (h : Leads mode lead)
    (hlast : Segment last) (hafter : after = [] ∨ ∃ behind, after = '\n' :: behind) :
    Crosses mode (lead ++ (last ++ [])) after
      (⟨unfinishedKind (lead ++ (last ++ [])), lead ++ (last ++ [])⟩, .normal) := by
  refine Crosses.last (h.newline_not_mem_append hlast List.not_mem_nil) ?_
  intro line lines hlines
  have hline : line = [] := by
    rcases hafter with rfl | ⟨behind, rfl⟩
    · exact (List.cons.inj hlines).1.symm
    · exact line_eq_nil_of_newline hlines
  subst hline
  have hcut : bodyCut true ([] ++ []) = ⟨.badString, 0, .normal⟩ := rfl
  rw [h.nextToken?_eq hlast hcut, h.classify_badString]

/-- What the lines of a text give that has the string `t` behind some tokens of its first line. The
lines are read into the rows that spell `t`, and the lexer is within a gap at every line break of
the string. -/
structure Recognised (start : Mode) (texts : List (List Char)) (front : List (Token × Mode))
    (t after : List Char) (final : Token × Mode) (inner : List (List (Token × Mode)))
    (row : List (Token × Mode)) : Prop extends Rows t final inner row where
  reads : Line.readAll start texts =
    (inner ++ (lexLines final.2 (after.splitOn '\n')).modifyHead (row ++ final :: ·)).modifyHead
      (front ++ ·)
  breaks : ∀ i, i < inner.length → Line.carry start (texts.take (i + 1)) = .stringGap

theorem Rows.carry_eq {t : List Char} {final : Token × Mode} {first : List (Token × Mode)}
    {inner : List (List (Token × Mode))} {row front : List (Token × Mode)} {start : Mode}
    {texts : List (List Char)} {later : List (List (Token × Mode))}
    (h : Rows t final (first :: inner) row) (hfirst : first ≠ [])
    (hreads : Line.readAll start texts = (front ++ first) :: (inner ++ later)) {i : Nat}
    (hi : i ≤ inner.length) : Line.carry start (texts.take (i + 1)) = .stringGap := by
  rw [Line.carry_eq_modeAfter, Line.readAll_take, hreads, List.take_succ_cons,
    List.take_append_of_le_length hi, List.flatten_cons, List.append_assoc, modeAfter_append]
  refine modeAfter_eq_of_forall (List.append_ne_nil_of_left_ne_nil hfirst _) ?_
  intro call hcall
  refine (h.within call (List.mem_append_left _ ?_)).2
  rw [List.flatten_cons]
  rcases List.mem_append.mp hcall with hmem | hmem
  · exact List.mem_append_left _ hmem
  · obtain ⟨calls, hcalls, hmem⟩ := List.mem_flatten.mp hmem
    exact List.mem_append_right _ (List.mem_flatten.mpr ⟨calls, List.mem_of_mem_take hcalls, hmem⟩)

theorem Crosses.recognised {t after : List Char} {final : Token × Mode}
    (h : Crosses .normal ('"' :: t) after final) {start : Mode} {first opening : List Char}
    {more : List (List Char)} {front : List (Token × Mode)}
    (hfront : Requests start (Lines.dropTerminator first) front .normal opening)
    (hlines : opening :: more.map Lines.dropTerminator = ('"' :: t ++ after).splitOn '\n') :
    ∃ inner row, Recognised start (first :: more) front ('"' :: t) after final inner row := by
  obtain ⟨inner, row, hrows, hlex⟩ := h
  have hreads := hfront.lexLines_eq (more.map Lines.dropTerminator)
  rw [← List.map_cons, ← Line.readAll_eq_lexLines, hlines, hlex] at hreads
  refine ⟨inner, row, hrows, hreads, ?_⟩
  intro i hi
  cases inner with
  | nil => exact absurd hi (Nat.not_lt_zero i)
  | cons first inner =>
    refine hrows.carry_eq ?_ hreads (Nat.le_of_lt_succ hi)
    rintro rfl
    have hspells := hrows.spells
    rw [List.splitOn_cons_eq_if_modifyHead, if_neg (by decide)] at hspells
    obtain ⟨line, lines, hsplit⟩ := exists_splitOn_eq_cons t
    rw [hsplit] at hspells
    exact absurd (List.cons.inj hspells).1 (List.cons_ne_nil _ _).symm

/-- String literals are recognised whole, over however many lines. With its closing quote, a string
is made of string tokens alone, between which the lexer is within a gap, and ordinary code is read
behind it. If instead the line ends within the last segment, the token that holds the segment runs to
the end of the line and the string is over. -/
theorem recognised_of_body {last body : List Char} (hbody : Body last body) {start : Mode}
    {first opening : List Char} {more : List (List Char)} {front : List (Token × Mode)}
    (hfront : Requests start (Lines.dropTerminator first) front .normal opening) (after : List Char) :
    (opening :: more.map Lines.dropTerminator = ('"' :: (body ++ '"' :: after)).splitOn '\n' →
      ∃ inner row lexeme, Recognised start (first :: more) front ('"' :: (body ++ ['"'])) after
        (⟨.string, lexeme⟩, .normal) inner row) ∧
    (opening :: more.map Lines.dropTerminator = ('"' :: (body ++ after)).splitOn '\n' →
      (after = [] ∨ ∃ behind, after = '\n' :: behind) →
      ∃ inner row mode lead, Leads mode lead ∧
        mode.cut true (lead ++ last) = .normal .badString (lead ++ last).length ∧
        Recognised start (first :: more) front ('"' :: body) after
          (⟨unfinishedKind (lead ++ last), lead ++ last⟩, .normal) inner row ∧
        (lexLines .normal (after.splitOn '\n')).head? = some []) := by
  have hlast := hbody.segment_last
  constructor
  · intro hlines
    obtain ⟨mode, lead, -, hcross⟩ := hbody.crosses
      (fun mode lead hlead => hlead.crosses_closing hlast after) .opening
    obtain ⟨inner, row, hrecognised⟩ := hcross.recognised hfront (by simpa using hlines)
    exact ⟨inner, row, _, hrecognised⟩
  · intro hlines hafter
    obtain ⟨mode, lead, hlead, hcross⟩ := hbody.crosses
      (fun mode lead hlead => hlead.crosses_unfinished hlast hafter) .opening
    rw [List.append_nil] at hcross
    obtain ⟨inner, row, hrecognised⟩ := hcross.recognised hfront hlines
    have hend : bodyCut true ([] ++ []) = ⟨.badString, 0, .normal⟩ := rfl
    have hcut := hlead.cut_append_eq hlast hend
    rw [List.append_nil, List.append_nil] at hcut
    rw [List.append_nil] at hrecognised
    refine ⟨inner, row, mode, lead, hlead, hcut, hrecognised, ?_⟩
    rcases hafter with rfl | ⟨behind, rfl⟩
    · rw [List.splitOn_nil, lexLines_nil_cons, List.head?_cons]
    · rw [splitOn_newline_cons, lexLines_nil_cons, List.head?_cons]

/-- A gap over a line break, one between two words and an escaped quote; the string is closed, or
its second line ends behind the escape. -/
theorem recognised_of_body_two_lines :
    let last := ['c', '\\', '"']
    let body := ['a'] ++ '\\' :: (['\n', '\t'] ++ '\\' :: (['b'] ++ '\\' :: ([' '] ++ '\\' :: last)))
    let first := "x\"a\\\r\n".toList
    let closing := "\t\\b\\ \\c\\\"\" y".toList
    let cutOff := "\t\\b\\ \\c\\\"\n".toList
    let front := [(⟨.identifier, ['x']⟩, .normal)]
    (∃ inner row lexeme, Recognised .normal [first, closing] front ('"' :: (body ++ ['"']))
      [' ', 'y'] (⟨.string, lexeme⟩, .normal) inner row) ∧
    Line.carry .normal [first] = .stringGap ∧
    ∃ inner row mode lead, Leads mode lead ∧ Recognised .normal [first, cutOff] front ('"' :: body)
      [] (⟨unfinishedKind (lead ++ last), lead ++ last⟩, .normal) inner row := by
  intro last body first closing cutOff front
  have hlast : Segment last :=
    .plain (by decide) (by decide) (by decide) (.escape (by decide) (by decide) .nil)
  have hb : Segment ['b'] := .plain (by decide) (by decide) (by decide) .nil
  have ha : Segment ['a'] := .plain (by decide) (by decide) (by decide) .nil
  have hbody : Body last body :=
    .gap ha (by decide) (by decide) (.gap hb (by decide) (by decide) (.segment hlast))
  have hfront : Requests .normal (Lines.dropTerminator first) front .normal ['"', 'a', '\\'] :=
    .next (by decide +kernel) (.done _ _)
  have hclosing : ['"', 'a', '\\'] :: [closing].map Lines.dropTerminator =
      ('"' :: (body ++ '"' :: [' ', 'y'])).splitOn '\n' := by decide +kernel
  have hcutOff : ['"', 'a', '\\'] :: [cutOff].map Lines.dropTerminator =
      ('"' :: (body ++ [])).splitOn '\n' := by decide +kernel
  obtain ⟨inner, row, lexeme, h⟩ := (recognised_of_body hbody hfront _).1 hclosing
  obtain ⟨inner', row', mode, lead, hlead, -, h', -⟩ :=
    (recognised_of_body hbody hfront _).2 hcutOff (.inl rfl)
  have hbreaks : 0 < inner.length := by
    have hlength := congrArg List.length h.spells
    have htwo : (('"' :: (body ++ ['"'])).splitOn '\n').length = 2 := by decide +kernel
    rw [htwo, List.length_map, List.length_append, List.length_singleton] at hlength
    omega
  exact ⟨⟨inner, row, lexeme, h⟩, h.breaks 0 hbreaks, inner', row', mode, lead, hlead, h'⟩

end StringLiteral

end BoardHighlight
