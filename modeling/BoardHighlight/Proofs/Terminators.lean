import BoardHighlight.Proofs.Relexing

/-!
# Line terminators

Terminators are taken off in two places: a text is cut at its line feeds, each with the carriage
return in front of it, and a stored line loses one more carriage return at its end when it is lexed.
The second step finds something to drop where a line of the text ends in a carriage return of its
own. Joining lines and cutting the text again gives the lines back exactly if none of them holds a
line feed, none but the last ends in a carriage return, and the last one is not empty.
-/

namespace BoardHighlight
set_option autoImplicit false

namespace Lines

/-- The text with every pair of a carriage return and a line feed replaced by a line feed. -/
def unifyFeeds : List Char → List Char
  | '\r' :: '\n' :: rest => '\n' :: unifyFeeds rest
  | c :: rest => c :: unifyFeeds rest
  | [] => []

theorem dropFinal_cons {c d : Char} {text : List Char} (h : text ≠ []) :
    dropFinal c (d :: text) = d :: dropFinal c text := by
  obtain ⟨e, rest, rfl⟩ := List.exists_cons_of_ne_nil h
  simp only [dropFinal, List.getLast?_cons_cons, List.dropLast_cons_cons]
  split <;> rfl

theorem dropFinal_append {c : Char} {v : List Char} (u : List Char) (hv : v ≠ []) :
    dropFinal c (u ++ v) = u ++ dropFinal c v := by
  induction u with
  | nil => rfl
  | cons d u ih =>
    rw [List.cons_append, dropFinal_cons (List.append_ne_nil_of_right_ne_nil u hv), ih,
      List.cons_append]

theorem dropFinal_cases (c : Char) (text : List Char) :
    dropFinal c text = text ∨ text = dropFinal c text ++ [c] := by
  rcases List.eq_nil_or_concat text with rfl | ⟨front, last, rfl⟩
  · exact .inl rfl
  · rw [List.concat_eq_append]
    by_cases hlast : last = c
    · rw [hlast, dropFinal_append_self]
      exact .inr rfl
    · exact .inl (dropFinal_of_getLast?_ne (by simpa using hlast))

theorem dropFinal_eq_self_iff {c : Char} {text : List Char} :
    dropFinal c text = text ↔ text.getLast? ≠ some c := by
  constructor
  · intro h hlast
    have hne : text ≠ [] := by
      rintro rfl
      cases hlast
    have hlength := congrArg List.length h
    have hpos := List.length_pos_iff.mpr hne
    rw [dropFinal, if_pos (by simp [hlast]), List.length_dropLast] at hlength
    omega
  · exact dropFinal_of_getLast?_ne

theorem mem_of_mem_dropFinal {c d : Char} {text : List Char} (h : c ∈ dropFinal d text) :
    c ∈ text := by
  unfold dropFinal at h
  split at h
  · exact List.dropLast_subset text h
  · exact h

theorem mem_of_mem_dropTerminator {c : Char} {text : List Char} (h : c ∈ dropTerminator text) :
    c ∈ text :=
  mem_of_mem_dropFinal (mem_of_mem_dropFinal h)

theorem dropTerminator_of_newline_not_mem {line : List Char} (h : '\n' ∉ line) :
    dropTerminator line = dropFinal '\r' line := by
  have hlast : line.getLast? ≠ some '\n' := fun hlast => h (List.mem_of_getLast? hlast)
  rw [dropTerminator, dropFinal_of_getLast?_ne hlast]

/-! ## Cutting -/

theorem split_newline (text : List Char) : split ('\n' :: text) = [] :: split text := by
  simp [split]

theorem split_pair (text : List Char) : split ('\r' :: '\n' :: text) = split ('\n' :: text) := by
  simp [split]

theorem split_singleton {c : Char} (h : c ≠ '\n') : split [c] = [[c]] := by
  simp [split, h]

theorem split_cons {c : Char} {rest line : List Char} {lines : List (List Char)} (hfeed : c ≠ '\n')
    (hreturn : c = '\r' → rest.head? ≠ some '\n') (h : split rest = line :: lines) :
    split (c :: rest) = (c :: line) :: lines := by
  have hpair : (c == '\r' && rest.head? == some '\n') = false := by
    rw [Bool.and_eq_false_imp]
    intro hc
    simpa using hreturn (by simpa using hc)
  simp [split, hfeed, hpair, h]

theorem split_eq_nil_iff {text : List Char} : split text = [] ↔ text = [] := by
  fun_induction split text with
  | case1 => simp
  | case2 c rest hfeed ih => simp
  | case3 c rest hfeed hreturn ih =>
    have hrest : rest ≠ [] := by
      rintro rfl
      simp at hreturn
    simp [ih, hrest]
  | case4 c rest hfeed hreturn hnone ih => simp
  | case5 c rest hfeed hreturn line lines hsome ih => simp

/-- Induction over a text as it is cut: it starts with a terminator, it is a last character, or its
first character goes in front of the first line of the rest. -/
@[elab_as_elim]
theorem split_induction {motive : List Char → Prop} (nil : motive [])
    (newline : ∀ rest, motive rest → motive ('\n' :: rest))
    (pair : ∀ rest, motive ('\n' :: rest) → motive ('\r' :: '\n' :: rest))
    (last : ∀ c, c ≠ '\n' → motive [c])
    (cons : ∀ c rest line lines, c ≠ '\n' → (c = '\r' → rest.head? ≠ some '\n') →
      split rest = line :: lines → motive rest → motive (c :: rest))
    (text : List Char) : motive text := by
  fun_induction split text with
  | case1 => exact nil
  | case2 c rest hfeed ih =>
    obtain rfl : c = '\n' := by simpa using hfeed
    exact newline rest ih
  | case3 c rest hfeed hreturn ih =>
    simp only [Bool.and_eq_true, beq_iff_eq] at hreturn
    obtain ⟨rfl, hhead⟩ := hreturn
    obtain ⟨back, rfl⟩ := List.head?_eq_some_iff.mp hhead
    exact pair back ih
  | case4 c rest hfeed hreturn hnone ih =>
    obtain rfl : rest = [] := split_eq_nil_iff.mp hnone
    exact last c (by simpa using hfeed)
  | case5 c rest hfeed hreturn line lines hsome ih =>
    apply cons c rest line lines (by simpa using hfeed) _ hsome ih
    intro hc hhead
    exact hreturn (by simp [hc, hhead])

theorem newline_not_mem_split (text : List Char) : ∀ line ∈ split text, '\n' ∉ line := by
  induction text using split_induction with
  | nil => simp [split]
  | newline rest ih =>
    rw [split_newline, List.forall_mem_cons]
    exact ⟨List.not_mem_nil, ih⟩
  | pair rest ih => rwa [split_pair]
  | last c hc =>
    rw [split_singleton hc]
    simpa using Ne.symm hc
  | cons c rest line lines hc hpair hsome ih =>
    rw [hsome, List.forall_mem_cons] at ih
    rw [split_cons hc hpair hsome, List.forall_mem_cons, List.mem_cons, not_or]
    exact ⟨⟨Ne.symm hc, ih.1⟩, ih.2⟩

theorem mem_of_mem_split {text line : List Char} (h : line ∈ split text) {c : Char} (hc : c ∈ line) :
    c ∈ text := by
  induction text using split_induction generalizing line with
  | nil => cases h
  | newline rest ih =>
    rw [split_newline] at h
    rcases List.mem_cons.mp h with rfl | h
    · cases hc
    · exact List.mem_cons_of_mem _ (ih h hc)
  | pair rest ih =>
    rw [split_pair] at h
    exact List.mem_cons_of_mem _ (ih h hc)
  | last d hd =>
    rw [split_singleton hd] at h
    rwa [List.mem_singleton.mp h] at hc
  | cons d rest first lines hd hpair hsome ih =>
    rw [split_cons hd hpair hsome] at h
    rw [hsome] at ih
    rcases List.mem_cons.mp h with rfl | h
    · rcases List.mem_cons.mp hc with rfl | hc
      · exact List.mem_cons_self
      · exact List.mem_cons_of_mem d (ih List.mem_cons_self hc)
    · exact List.mem_cons_of_mem d (ih (List.mem_cons_of_mem first h) hc)

theorem split_of_newline_not_mem {line : List Char} (h : '\n' ∉ line) (hne : line ≠ []) :
    split line = [line] := by
  induction line with
  | nil => exact absurd rfl hne
  | cons c line ih =>
    rw [List.mem_cons, not_or] at h
    cases line with
    | nil => exact split_singleton (Ne.symm h.1)
    | cons d line =>
      apply split_cons (Ne.symm h.1) _ (ih h.2 (List.cons_ne_nil d line))
      intro _ hhead
      exact h.2 (List.mem_cons.mpr (.inl (Option.some.inj hhead).symm))

/-- A line feed ends the line in front of it, and takes one carriage return with it. -/
theorem split_append_newline {line : List Char} (h : '\n' ∉ line) (text : List Char) :
    split (line ++ '\n' :: text) = dropFinal '\r' line :: split text := by
  induction line with
  | nil => exact split_newline text
  | cons c line ih =>
    rw [List.mem_cons, not_or] at h
    cases line with
    | nil =>
      by_cases hc : c = '\r'
      · subst hc
        rw [List.singleton_append, split_pair, split_newline]
        rfl
      · have hdrop : dropFinal '\r' [c] = [c] := dropFinal_of_getLast?_ne (by simpa using hc)
        rw [hdrop]
        exact split_cons (Ne.symm h.1) (fun heq => absurd heq hc) (split_newline text)
    | cons d line =>
      rw [dropFinal_cons (List.cons_ne_nil d line)]
      apply split_cons (Ne.symm h.1) _ (ih h.2)
      intro _ hhead
      exact h.2 (List.mem_cons.mpr (.inl (Option.some.inj hhead).symm))

/-! ## Joining -/

theorem join_cons {line : List Char} {lines : List (List Char)} (h : lines ≠ []) :
    join (line :: lines) = line ++ '\n' :: join lines := by
  obtain ⟨next, rest, rfl⟩ := List.exists_cons_of_ne_nil h
  rfl

theorem join_cons_cons (c : Char) (line : List Char) (lines : List (List Char)) :
    join ((c :: line) :: lines) = c :: join (line :: lines) := by
  cases lines <;> rfl

theorem unifyFeeds_cons {c : Char} {rest : List Char}
    (h : c = '\r' → rest.head? ≠ some '\n') : unifyFeeds (c :: rest) = c :: unifyFeeds rest := by
  rw [unifyFeeds]
  rintro back rfl rfl
  exact h rfl rfl

theorem unifyFeeds_newline (rest : List Char) : unifyFeeds ('\n' :: rest) = '\n' :: unifyFeeds rest :=
  unifyFeeds_cons fun h => absurd h (by decide)

theorem unifyFeeds_eq_nil_iff {text : List Char} : unifyFeeds text = [] ↔ text = [] := by
  fun_cases unifyFeeds text <;> simp

/-- Joining the lines of a text loses the carriage returns in front of line feeds, and the line feed
at its end. -/
theorem join_split (text : List Char) : join (split text) = dropFinal '\n' (unifyFeeds text) := by
  induction text using split_induction with
  | nil => rfl
  | newline rest ih =>
    rw [split_newline, unifyFeeds_newline]
    by_cases hrest : rest = []
    · subst hrest
      rfl
    · rw [join_cons (mt split_eq_nil_iff.mp hrest), ih,
        dropFinal_cons (mt unifyFeeds_eq_nil_iff.mp hrest)]
      rfl
  | pair rest ih => rw [split_pair, ih, unifyFeeds, unifyFeeds_newline]
  | last c hc =>
    have hlast : [c].getLast? ≠ some '\n' := by simpa using hc
    rw [split_singleton hc, unifyFeeds_cons (by simp), unifyFeeds, dropFinal_of_getLast?_ne hlast]
    rfl
  | cons c rest line lines hc hpair hsome ih =>
    have hrest : rest ≠ [] := by
      rintro rfl
      cases hsome
    rw [hsome] at ih
    rw [split_cons hc hpair hsome, join_cons_cons, ih, unifyFeeds_cons hpair,
      dropFinal_cons (mt unifyFeeds_eq_nil_iff.mp hrest)]

theorem split_join_iff_of_newline_not_mem {lines : List (List Char)}
    (h : ∀ line ∈ lines, '\n' ∉ line) :
    split (join lines) = lines ↔
      lines.getLast? ≠ some [] ∧ ∀ line ∈ lines.dropLast, line.getLast? ≠ some '\r' := by
  induction lines with
  | nil => simp [join, split]
  | cons line lines ih =>
    rw [List.forall_mem_cons] at h
    cases lines with
    | nil =>
      by_cases hne : line = []
      · simp [hne, join, split]
      · simp [join, split_of_newline_not_mem h.1 hne, hne]
    | cons next rest =>
      rw [join_cons (List.cons_ne_nil next rest), split_append_newline h.1, List.cons.injEq,
        ih h.2, dropFinal_eq_self_iff, List.getLast?_cons_cons, List.dropLast_cons_cons,
        List.forall_mem_cons]
      exact and_left_comm

theorem split_join_iff {lines : List (List Char)} :
    split (join lines) = lines ↔
      (lines.getLast? ≠ some [] ∧ (∀ line ∈ lines, '\n' ∉ line) ∧
        ∀ line ∈ lines.dropLast, line.getLast? ≠ some '\r') := by
  constructor
  · intro h
    have hfeeds : ∀ line ∈ lines, '\n' ∉ line := by
      rw [← h]
      exact newline_not_mem_split (join lines)
    obtain ⟨hlast, hreturns⟩ := (split_join_iff_of_newline_not_mem hfeeds).mp h
    exact ⟨hlast, hfeeds, hreturns⟩
  · rintro ⟨hlast, hfeeds, hreturns⟩
    exact (split_join_iff_of_newline_not_mem hfeeds).mpr ⟨hlast, hreturns⟩

/-! ## Carriage returns that stay -/

theorem start_of_split_eq_nil_cons {text : List Char} {lines : List (List Char)}
    (h : split text = [] :: lines) : text.head? = some '\n' ∨ ['\r', '\n'] <+: text := by
  induction text using split_induction with
  | nil => cases h
  | newline rest _ => exact .inl rfl
  | pair rest _ => exact .inr ⟨rest, rfl⟩
  | last c hc =>
    rw [split_singleton hc] at h
    cases h
  | cons c rest line lines hc hpair hsome _ =>
    rw [split_cons hc hpair hsome] at h
    cases h

theorem returns_prefix_iff {c : Char} {rest line : List Char} {lines : List (List Char)}
    (hreturn : c = '\r' → rest.head? ≠ some '\n') (h : split rest = line :: lines) :
    ['\r', '\r', '\n'] <+: c :: rest ↔ c = '\r' ∧ line = [] := by
  rw [List.cons_prefix_cons]
  constructor
  · rintro ⟨rfl, back, rfl⟩
    rw [List.cons_append, List.singleton_append, split_pair, split_newline] at h
    exact ⟨rfl, (List.cons.inj h).1.symm⟩
  · rintro ⟨rfl, rfl⟩
    refine ⟨rfl, ?_⟩
    rcases start_of_split_eq_nil_cons h with hhead | hpair
    · exact absurd hhead (hreturn rfl)
    · exact hpair

theorem getLast?_cons_ne_return_iff {c : Char} {line : List Char} :
    (c :: line).getLast? ≠ some '\r' ↔ ¬(c = '\r' ∧ line = []) ∧ line.getLast? ≠ some '\r' := by
  cases line with
  | nil => simp
  | cons d line => simp

/-- A line ends in a carriage return only where two of them stand in front of a line feed, or one at
the end of the text. -/
theorem no_return_iff (text : List Char) :
    (∀ line ∈ split text, line.getLast? ≠ some '\r') ↔
      ¬['\r', '\r', '\n'] <:+: text ∧ text.getLast? ≠ some '\r' := by
  induction text using split_induction with
  | nil => simp [split]
  | newline rest ih =>
    rw [split_newline, List.forall_mem_cons, ih, List.infix_cons_iff, getLast?_cons_ne_return_iff]
    simp
  | pair rest ih =>
    rw [split_pair, ih, List.infix_cons_iff (a := '\r'), getLast?_cons_ne_return_iff (c := '\r')]
    simp
  | last c hc =>
    rw [split_singleton hc]
    simp [List.infix_cons_iff]
  | cons c rest line lines hc hpair hsome ih =>
    have hrest : rest ≠ [] := by
      rintro rfl
      cases hsome
    rw [hsome, List.forall_mem_cons] at ih
    -- the new character ends its line only if the rest starts with a terminator
    rw [split_cons hc hpair hsome, List.forall_mem_cons, getLast?_cons_ne_return_iff, and_assoc, ih,
      List.infix_cons_iff, returns_prefix_iff hpair hsome, getLast?_cons_ne_return_iff, not_or,
      and_assoc]
    simp [hrest]

end Lines

/-! ## Documents -/

theorem Line.mem_of_mem_lexeme {mode : Mode} {text : List Char} {token : Token}
    (h : token ∈ tokens mode text) {c : Char} (hc : c ∈ token.lexeme) : c ∈ text := by
  have hmem : c ∈ Token.text (tokens mode text) := List.mem_flatMap.mpr ⟨token, h, hc⟩
  rw [text_tokens] at hmem
  exact Lines.mem_of_mem_dropTerminator hmem

namespace Document

theorem mem_of_mem_lexeme {source : List Char} {token : Token}
    (h : token ∈ (ofText source).lineTokens.flatten) {c : Char} (hc : c ∈ token.lexeme) :
    c ∈ source ∧ c ≠ '\n' := by
  obtain ⟨tokens, htokens, htoken⟩ := List.mem_flatten.mp h
  obtain ⟨i, hget⟩ := List.mem_iff_getElem?.mp htokens
  obtain ⟨mode, line, -, hline, rfl⟩ := lineTokens_getElem? hget
  have hmem : line ∈ Lines.split source := by
    rw [line?, ofText, lines_ofLines] at hline
    exact List.mem_of_getElem? hline
  have hchar : c ∈ line := Line.mem_of_mem_lexeme htoken hc
  refine ⟨Lines.mem_of_mem_split hmem hchar, ?_⟩
  rintro rfl
  exact Lines.newline_not_mem_split source line hmem hchar

theorem text_tokens (doc : Document) (i : Nat) :
    (doc.tokens i).toOption.map Token.text = (doc.line? i).map Lines.dropTerminator := by
  cases hline : doc.line? i with
  | none => simp [tokens, hline, Except.toOption]
  | some text =>
    have hi : i < doc.lineCount := line?_isSome_iff.mp (by rw [hline]; rfl)
    obtain ⟨mode, hmode⟩ :=
      Option.isSome_iff_exists.mp (modeBefore?_isSome_iff.mpr (Nat.le_of_lt hi))
    simp [tokens, hline, hmode, Except.toOption, Line.text_tokens]

theorem text_tokens_of_text (source : List Char) (i : Nat) :
    ((ofText source).tokens i).toOption.map Token.text =
      ((ofText source).line? i).map (Lines.dropFinal '\r') := by
  rw [text_tokens]
  apply Option.map_congr
  intro line hline
  apply Lines.dropTerminator_of_newline_not_mem
  rw [line?, ofText, lines_ofLines] at hline
  exact Lines.newline_not_mem_split source line (List.mem_of_getElem? hline)

/-- The tokens of a line show all of it but one carriage return at its end. They therefore give
back every line of a source exactly if no line feed has two carriage returns in front of it and the
source does not end in one. -/
theorem tokens_show_lines_iff (source : List Char) :
    (∀ i, ((ofText source).tokens i).toOption.map Token.text =
      ((ofText source).line? i).map (Lines.dropFinal '\r')) ∧
    ((∀ i, ((ofText source).tokens i).toOption.map Token.text = (ofText source).line? i) ↔
      ¬['\r', '\r', '\n'] <:+: source ∧ source.getLast? ≠ some '\r') := by
  have htext := text_tokens_of_text source
  refine ⟨htext, ?_⟩
  have hlines : (ofText source).lines = Lines.split source := lines_ofLines _
  rw [← Lines.no_return_iff, ← hlines]
  constructor
  · intro h line hline
    obtain ⟨i, hi⟩ := List.mem_iff_getElem?.mp hline
    have hshown := h i
    rw [htext, line?, hi, Option.map_some, Option.some.injEq] at hshown
    exact Lines.dropFinal_eq_self_iff.mp hshown
  · intro h i
    rw [htext]
    cases hi : (ofText source).line? i with
    | none => rfl
    | some line =>
      rw [Option.map_some, Lines.dropFinal_of_getLast?_ne (h line (List.mem_of_getElem? hi))]

/-- The carriage return at the end of a source is part of its last line, but of no token. -/
theorem not_tokens_show_lines :
    ¬∀ source i, ((ofText source).tokens i).toOption.map Token.text = (ofText source).line? i := by
  intro hall
  exact absurd (hall "-- a\r".toList 0) (by decide +kernel)

/-- Opening the text of a document. A source comes back with its terminators unified and without
the last of them. A document comes back, lines and modes, exactly if it has no line, or if its last
line is not empty, no line holds a line feed, and no line but the last ends in a carriage return. -/
theorem ofText_text_iff {doc : Document} (h : Reachable doc) (source : List Char) :
    (ofText source).text = Lines.dropFinal '\n' (Lines.unifyFeeds source) ∧
    ((ofText doc.text).lines = doc.lines ↔
      doc.isEmpty = true ∨ doc.lines.getLast? ≠ some [] ∧ (∀ line ∈ doc.lines, '\n' ∉ line) ∧
        ∀ line ∈ doc.lines.dropLast, line.getLast? ≠ some '\r') ∧
    ((ofText doc.text).lines = doc.lines → ofText doc.text = doc) := by
  refine ⟨?_, ?_, ?_⟩
  · rw [text, ofText, lines_ofLines, Lines.join_split]
  · rw [text, ofText, lines_ofLines, Lines.split_join_iff]
    constructor
    · exact .inr
    · rintro (hempty | hlines)
      · have hnil : doc.lines = [] := by simpa [isEmpty, lines] using hempty
        simp [hnil]
      · exact hlines
  · intro hlines
    have hopened : (ofText doc.text).Consistent := consistent_ofLines _
    rw [consistent_iff.mp hopened, hlines, ← consistent_iff.mp h.consistent]

/-- A comment that is put above a last line with a carriage return at its end is kept with it, the
same line above the comment is not. -/
theorem ofText_text_iff_return :
    let source := "b\r\r\n\r\n".toList
    let doc := (ofText "b\r\r\n".toList).afterAll [.insert 0 "\x7b- a".toList]
    let other := (ofText "b\r\r\n".toList).afterAll [.insert 1 "\x7b- a".toList]
    (ofText source).text = "b\r\n".toList ∧ ofText doc.text = doc ∧
      (ofText other.text).lines ≠ other.lines := by
  intro source doc other
  have hdoc : Reachable doc := (Reachable.text _).afterAll _
  have hother : Reachable other := (Reachable.text _).afterAll _
  have hkept := ofText_text_iff hdoc source
  have hlost := ofText_text_iff hother source
  refine ⟨?_, hkept.2.2 (hkept.2.1.mpr (.inr ?_)), ?_⟩
  · rw [hkept.1]
    decide +kernel
  · decide +kernel
  · rw [Ne, hlost.2.1]
    decide +kernel

end Document

end BoardHighlight
