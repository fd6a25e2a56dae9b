import BoardHighlight.Program
import BoardHighlight.Proofs.ProblemOrder
import BoardHighlight.Proofs.StringLayout

/-!
# Errors that the overlay hides

The overlay sees the lexeme of an error as it sees any other. The errors of ordinary code start with
a character that no reserved word starts with, so they stay errors. Within a string gap, the
character that breaks the gap may be a reserved word by itself, and then nothing is reported. All
other errors of the modes are reported where they stand, and a check that reads them fails.
-/

namespace BoardHighlight
set_option autoImplicit false

namespace Reserved

/-- The reserved words of one character. -/
def singles : List (List Char) := "\\:!=+-./<>*?".toList.map fun c => [c]

theorem start_of_mem_all : ∀ word ∈ all, (word.toList.head?.all fun c =>
    isUpperStart c || isLowerStart c || isOperatorSymbol c) = true := by
  decide

theorem mem_singles_of_mem_all : ∀ word ∈ all, word.toList.length = 1 → word.toList ∈ singles := by
  decide

theorem kind?_single : ∀ lexeme ∈ singles, kind? lexeme ≠ none := by
  decide

theorem start_of_kind? {c : Char} {rest : List Char} (h : kind? (c :: rest) ≠ none) :
    isUpperStart c = true ∨ isLowerStart c = true ∨ isOperatorSymbol c = true := by
  have hstart := start_of_mem_all _ (mem_all_of_kind? h)
  rw [String.toList_ofList] at hstart
  simpa [or_assoc] using hstart

theorem mem_singles_of_kind? {lexeme : List Char} (h : kind? lexeme ≠ none)
    (hlength : lexeme.length = 1) : lexeme ∈ singles := by
  have hsingle := mem_singles_of_mem_all _ (mem_all_of_kind? h)
  rw [String.toList_ofList] at hsingle
  exact hsingle hlength

theorem isError_classify_iff {lexeme : List Char} {kind : Kind} :
    (classify lexeme kind).isError = true ↔ kind? lexeme = none ∧ kind.isError = true := by
  unfold classify kind?
  dsimp only
  split
  · simp [Kind.isError]
  split
  · simp [Kind.isError]
  · simp

end Reserved

theorem Cut.Returns.isError_eq_false {kinds : List Kind} {cut : Cut} (h : cut.Returns kinds)
    (hkinds : ∀ kind ∈ kinds, kind.isError = false) : cut.kind.isError = false := hkinds _ h.1

theorem Mode.isError_cut_blockComment (kind : CommentKind) (depth : Depth) (cs : List Char) :
    ((blockComment kind depth).cut true cs).kind.isError = false := by
  have hcut : (blockComment kind depth).cut true cs = BlockComment.cut kind depth cs :=
    cut_of_emit rfl
  rw [hcut, BlockComment.cut]
  cases kind <;> split <;> rfl

/-- The characters at which ordinary code finds an error: quotes, and those that start nothing. -/
def StartsError (c : Char) : Prop :=
  c = '\'' ∨ c = '"' ∨
    isUpperStart c = false ∧ isLowerStart c = false ∧ isOperatorSymbol c = false

theorem StartsError.kind?_eq_none {c : Char} (h : StartsError c) (rest : List Char) :
    Reserved.kind? (c :: rest) = none := by
  refine Decidable.byContradiction fun hsome => ?_
  have hstart := Reserved.start_of_kind? hsome
  rcases h with rfl | rfl | ⟨hupper, hlower, hoperator⟩
  · exact absurd hstart (by decide)
  · exact absurd hstart (by decide)
  · simp [hupper, hlower, hoperator] at hstart

theorem Ordinary.startsError {c : Char} {rest : List Char} {cut : Cut}
    (h : Ordinary c rest (.emit cut)) (herror : cut.kind.isError = true) : StartsError c := by
  cases h with
  | blanks => cases herror
  | mark => cases herror
  | character hquote => exact .inl hquote
  | upper =>
    rw [(Name.upperCut_returns rest).isError_eq_false (by decide)] at herror
    cases herror
  | lower => cases herror
  | number =>
    rw [(Number.cut_returns _).isError_eq_false (by decide)] at herror
    cases herror
  | operator =>
    rw [(Operator.cut_returns c rest).isError_eq_false (by decide)] at herror
    cases herror
  | stray hupper hlower hoperator => exact .inr (.inr ⟨hupper, hlower, hoperator⟩)

theorem startsError_of_normal {c : Char} {rest : List Char}
    (h : (Mode.normal.cut true (c :: rest)).kind.isError = true) : StartsError c := by
  have hordinary : Ordinary c rest (Mode.normal.step true (c :: rest)) := ordinary_normalStep c rest
  cases hstep : Mode.normal.step true (c :: rest) with
  | emit cut =>
    rw [Mode.cut_of_emit hstep] at h
    rw [hstep] at hordinary
    exact hordinary.startsError h
  | enter size next =>
    rw [Mode.cut_of_enter hstep, Cut.shift_kind] at h
    rw [hstep] at hordinary
    cases hordinary with
    | string hquote => exact .inr (.inl hquote)
    | comment =>
      rw [Mode.opened, Mode.isError_cut_blockComment] at h
      cases h
    | pragma =>
      rw [Mode.opened, Mode.isError_cut_blockComment] at h
      cases h

namespace StringLiteral

theorem gapStep_breaking {blanks : List Char} (h : ∀ c ∈ blanks, isBlank c = true) {c : Char}
    (hblank : isBlank c = false) (hslash : c ≠ '\\') (rest : List Char) :
    gapStep true (blanks ++ c :: rest) = .emit (.normal .invalid (blanks.length + 1)) := by
  unfold gapStep runLength
  rw [List.dropWhile_append_of_pos h, List.takeWhile_append_of_pos h,
    List.dropWhile_cons_of_neg (by simp [hblank]), List.takeWhile_cons_of_neg (by simp [hblank]),
    List.append_nil]
  dsimp only
  rw [if_neg (by simpa using hslash)]

theorem blanks_cases (cs : List Char) : (∀ c ∈ cs, isBlank c = true) ∨
    ∃ blanks c rest, (∀ b ∈ blanks, isBlank b = true) ∧ isBlank c = false ∧
      cs = blanks ++ c :: rest := by
  have hblanks : ∀ b ∈ cs.takeWhile isBlank, isBlank b = true :=
    List.all_eq_true.mp List.all_takeWhile
  have hsplit := (List.takeWhile_append_dropWhile (p := isBlank) (l := cs)).symm
  cases hdrop : cs.dropWhile isBlank with
  | nil =>
    rw [hdrop, List.append_nil] at hsplit
    rw [hsplit]
    exact .inl hblanks
  | cons c rest =>
    have hhead := List.head?_dropWhile_not isBlank cs
    rw [hdrop] at hhead hsplit
    exact .inr ⟨_, c, rest, hblanks, by simpa using hhead, hsplit⟩

/-- An error within a gap is the character that breaks it, or the resumed string up to the end of
its line, with the blanks in front. -/
theorem lexeme_of_gap {cs : List Char} (hne : cs ≠ [])
    (h : (Mode.stringGap.cut true cs).kind.isError = true) :
    ∃ blanks c tail, (∀ b ∈ blanks, isBlank b = true) ∧ (tail = [] ∨ c = '\\') ∧
      cs.take (Mode.stringGap.cut true cs).size = blanks ++ c :: tail := by
  rcases blanks_cases cs with hblanks | ⟨blanks, c, rest, hblanks, hc, rfl⟩
  · have hstep : Mode.stringGap.step true cs = .emit ⟨.string, cs.length, .stringGap⟩ :=
      gapStep_blank hblanks hne
    rw [Mode.cut_of_emit hstep] at h
    cases h
  · by_cases hslash : c = '\\'
    · subst hslash
      refine ⟨blanks, '\\', rest.take (bodyCut true rest).size, hblanks, .inr rfl, ?_⟩
      have hcut := (Leads.resuming hblanks).cut_eq rest
      rw [List.append_assoc, List.singleton_append] at hcut
      rw [hcut, Cut.shift_size, List.length_append, List.length_singleton, Nat.add_assoc,
        List.take_length_add_append, Nat.add_comm 1, List.take_succ_cons]
    · refine ⟨blanks, c, [], hblanks, .inl rfl, ?_⟩
      have hstep : Mode.stringGap.step true (blanks ++ c :: rest) =
          .emit (.normal .invalid (blanks.length + 1)) := gapStep_breaking hblanks hc hslash rest
      rw [Mode.cut_of_emit hstep, Cut.normal_size, List.take_length_add_append]
      rfl

theorem length_of_reserved_gap {cs : List Char} (hne : cs ≠ [])
    (h : (Mode.stringGap.cut true cs).kind.isError = true)
    (hreserved : Reserved.kind? (cs.take (Mode.stringGap.cut true cs).size) ≠ none) :
    (cs.take (Mode.stringGap.cut true cs).size).length = 1 := by
  obtain ⟨blanks, c, tail, hblanks, htail, hlexeme⟩ := lexeme_of_gap hne h
  rw [hlexeme] at hreserved ⊢
  cases blanks with
  | cons b blanks =>
    -- the blanks belong to the lexeme, and no reserved word holds one
    have hblank := hblanks b List.mem_cons_self
    exact absurd (kind?_eq_none_of_blank List.mem_cons_self hblank) hreserved
  | nil =>
    rcases htail with rfl | rfl
    · rfl
    · rw [List.nil_append] at hreserved ⊢
      rw [(spelling_of_reserved hreserved).2.2 rfl]
      rfl

end StringLiteral

/-- A token that is asked for within a string gap and is one of the short reserved words. -/
def Hidden (mode : Mode) (lexeme : List Char) : Prop :=
  mode = .stringGap ∧ lexeme ∈ Reserved.singles

/-- The overlay replaces an error in a gap only, and there only the short reserved words. -/
theorem kind?_of_error_iff {mode : Mode} {cs : List Char} (hmode : mode ≠ .string) (hne : cs ≠ [])
    (h : (mode.cut true cs).kind.isError = true) :
    Reserved.kind? (cs.take (mode.cut true cs).size) ≠ none ↔
      Hidden mode (cs.take (mode.cut true cs).size) := by
  constructor
  · intro hreserved
    cases mode with
    | normal =>
      -- the first character of the text is that of the lexeme, and rules reserved words out
      obtain ⟨c, rest, rfl⟩ := List.exists_cons_of_ne_nil hne
      have hlexeme := (nextToken?_eq true .normal hne).1
      cases hsize : (Mode.normal.cut true (c :: rest)).size with
      | zero =>
        rw [hsize] at hlexeme
        exact absurd rfl hlexeme
      | succ n =>
        rw [hsize, List.take_succ_cons] at hreserved
        exact absurd ((startsError_of_normal h).kind?_eq_none _) hreserved
    | string => exact absurd rfl hmode
    | stringGap =>
      have hlength := StringLiteral.length_of_reserved_gap hne h hreserved
      exact ⟨rfl, Reserved.mem_singles_of_kind? hreserved hlength⟩
    | blockComment kind depth =>
      rw [Mode.isError_cut_blockComment] at h
      cases h
  · rintro ⟨-, hsingle⟩
    exact Reserved.kind?_single _ hsingle

namespace Document

/-- The modes themselves, before the overlay, find an error at a place; `mode` is the one in which
its token is asked for. -/
inductive RawError (doc : Document) : Nat × Nat → Mode → List Char → Prop where
  | intro {i : Nat} {text rest : List Char} {start mode : Mode} {front : List (Token × Mode)} :
      doc.line? i = some text → doc.modeBefore? i = some start →
      Requests start (Lines.dropTerminator text) front mode rest → rest ≠ [] →
      (mode.cut true rest).kind.isError = true →
      RawError doc (i + 1, (Token.text (front.map Prod.fst)).length + 1) mode
        (rest.take (mode.cut true rest).size)

variable {doc : Document} {place : Nat × Nat} {mode : Mode} {lexeme : List Char}

theorem RawError.exists_token (h : RawError doc place mode lexeme) :
    ∃ kind, kind.isError = true ∧
      (place, ⟨Reserved.classify lexeme kind, lexeme⟩) ∈ doc.placedTokens := by
  cases h with
  | @intro i text rest start mode front hline hstart hrequests hne herror =>
    have htokens : Line.tokens start text =
        front.map Prod.fst ++ (lexFrom mode rest).map Prod.fst := by
      rw [Line.tokens, Line.read, hrequests.lexFrom_eq, List.map_append]
    refine ⟨_, herror, mem_placedTokens_iff.mpr ⟨i, Line.tokens start text, front.length, ?_, ?_, ?_⟩⟩
    · obtain ⟨entry, hentry, rfl⟩ := line?_eq_some hline
      exact List.getElem?_zipWith_eq_some.mpr ⟨start, entry, hstart, hentry, rfl⟩
    · rw [htokens, lexFrom_of_some (nextToken?_eq true mode hne).2]
      simp
    · rw [htokens, List.take_left' (List.length_map _)]

theorem RawError.ne_string (hdoc : Reachable doc) (h : RawError doc place mode lexeme) :
    mode ≠ .string := by
  obtain ⟨-, hstart, hrequests, -, -⟩ := h
  exact hrequests.ne_string (hdoc.modeBefore?_ne_string hstart)

theorem RawError.kind?_ne_none_iff (hdoc : Reachable doc) (h : RawError doc place mode lexeme) :
    Reserved.kind? lexeme ≠ none ↔ Hidden mode lexeme := by
  have hmode := h.ne_string hdoc
  obtain ⟨-, -, -, hne, herror⟩ := h
  exact kind?_of_error_iff hmode hne herror

/-- An error of the modes is reported where it stands, unless the overlay hides it. -/
theorem RawError.exists_problem_iff (hdoc : Reachable doc) (h : RawError doc place mode lexeme) :
    (∃ problem ∈ doc.problems, problem.place = place) ↔ ¬Hidden mode lexeme := by
  obtain ⟨kind, herror, htoken⟩ := h.exists_token
  rw [exists_problem_at_iff htoken, Reserved.isError_classify_iff, ← h.kind?_ne_none_iff hdoc,
    Decidable.not_not]
  exact and_iff_left herror

end Document

namespace Verdict

theorem count_eq_zero_iff {texts : List (List Char × List Char)} :
    count texts = 0 ↔ ∀ x ∈ texts, problems x.2 = [] := by
  rw [count, List.length_eq_zero_iff, List.flatMap_eq_nil_iff]

/-- A check passes only if it can read all of its inputs and finds nothing in any of them. -/
theorem failure_eq_none_iff {sources : Sources} {inputs : List (List Char)} :
    (run sources inputs).failure = none ↔
      (sources.readAll inputs).2 = none ∧ ∀ x ∈ (sources.readAll inputs).1, problems x.2 = [] := by
  unfold run
  dsimp only
  rw [Option.or_eq_none_iff, ← count_eq_zero_iff]
  simp

end Verdict

namespace Program

/-- The arguments ask for a check, which reads the source. -/
def Checks (env : Environment) (arguments : List (List Char)) (source : List Char) : Prop :=
  ∃ invocation inputs path, Invocation.read env.vars arguments = .ok invocation ∧
    invocation.command = .check inputs ∧ (path, source) ∈ (env.sources.readAll inputs).1

theorem exitCode_of_checks {env : Environment} {arguments : List (List Char)} {source : List Char}
    (h : Checks env arguments source) (hproblems : (Document.ofText source).problems ≠ []) :
    (run env arguments).exitCode = 1 := by
  obtain ⟨invocation, inputs, path, hread, hcommand, hmem⟩ := h
  unfold run
  rw [hread]
  dsimp only
  split
  · -- a configuration that cannot be read is a failure of its own
    rfl
  · have hfailure : (Verdict.run env.sources inputs).failure ≠ none := by
      intro hnone
      exact hproblems ((Verdict.failure_eq_none_iff.mp hnone).2 _ hmem)
    rw [execute, hcommand, finish]
    dsimp only
    rw [if_pos (Option.isSome_iff_ne_none.mpr hfailure)]

end Program

namespace Document

/-- Whatever the modes take for an error in a source is reported where it stands, and every check
that reads the source fails, with the one exception of the short reserved words in a string gap;
nothing is reported at those. -/
theorem reported_of_rawError {source : List Char} {place : Nat × Nat} {mode : Mode}
    {lexeme : List Char} (h : RawError (ofText source) place mode lexeme) :
    ((∃ problem ∈ (ofText source).problems, problem.place = place) ↔ ¬Hidden mode lexeme) ∧
    (¬Hidden mode lexeme → ∀ env arguments, Program.Checks env arguments source →
      (Program.run env arguments).exitCode = 1) := by
  have hreported := h.exists_problem_iff (.text source)
  refine ⟨hreported, ?_⟩
  intro hshown env arguments hchecks
  obtain ⟨problem, hmem, -⟩ := hreported.mpr hshown
  exact Program.exitCode_of_checks hchecks (List.ne_nil_of_mem hmem)

/-- A tab in front of the sign that breaks the gap is part of the lexeme, and keeps the overlay from
it. The source is read from the standard input. -/
theorem reported_of_rawError_behind_tab :
    let source := "\"a\\\n\t= x"
    let env : Environment := { sources := ⟨fun _ => .error .missing, source.toUTF8⟩ }
    (∃ problem ∈ (ofText source.toList).problems, problem.place = (2, 1)) ∧
      (Program.run env ["check".toList, ['-']]).exitCode = 1 := by
  intro source env
  have herror : RawError (ofText source.toList) (2, 1) .stringGap ['\t', '='] := by
    have hline : (ofText source.toList).line? 1 = some "\t= x".toList := by decide +kernel
    have hstart : (ofText source.toList).modeBefore? 1 = some .stringGap := by decide +kernel
    have hlexeme : (Lines.dropTerminator "\t= x".toList).take
        (Mode.stringGap.cut true (Lines.dropTerminator "\t= x".toList)).size = ['\t', '='] := by
      decide +kernel
    rw [← hlexeme]
    exact .intro hline hstart (.done _ _) (by decide) (by decide +kernel)
  have hshown : ¬Hidden .stringGap ['\t', '='] := by
    rintro ⟨-, hsingle⟩
    exact absurd hsingle (by decide)
  have h := reported_of_rawError herror
  refine ⟨h.1.mpr hshown, h.2 hshown env _ ⟨_, _, ['-'], rfl, rfl, ?_⟩⟩
  decide +kernel

/-- An equals sign at the start of a line breaks the gap of the line above, but it is a keyword. -/
theorem not_reported_of_broken_gap :
    ¬∀ source place mode lexeme, RawError (ofText source) place mode lexeme →
      (∃ problem ∈ (ofText source).problems, problem.place = place) ∧
      ∀ env arguments, Program.Checks env arguments source →
        (Program.run env arguments).exitCode = 1 := by
  intro hall
  have hline : (ofText "\"a\\\n=".toList).line? 1 = some ['='] := by decide +kernel
  have hstart : (ofText "\"a\\\n=".toList).modeBefore? 1 = some .stringGap := by decide +kernel
  have hnone : (ofText "\"a\\\n=".toList).problems = [] := by decide +kernel
  obtain ⟨⟨problem, hmem, -⟩, -⟩ := hall _ _ _ _
    (.intro hline hstart (.done _ _) (by decide) (by decide +kernel))
  rw [hnone] at hmem
  cases hmem

end Document

end BoardHighlight
