import BoardHighlight.Proofs.ReadingBack
import BoardHighlight.Proofs.Terminators
import BoardHighlight.Render.Terminal

/-!
# Colours around tokens

Terminal output is read here as a terminal reads it: an escape, a bracket, numbers between
semicolons and the letter `m` are one sequence, and all else is shown. A sequence with the single
code zero resets the colours. Tokens without an escape character of their own hold no sequence, so
the sequences of coloured output are those around its tokens: without them it is the output without
a palette, and every sequence that sets a colour is reset behind one token.
-/

namespace BoardHighlight
set_option autoImplicit false

namespace Terminal

/-! ## Reading -/

inductive Item where
  | sequence (codes : List Nat)
  | char (c : Char)

def Item.char? : Item → Option Char
  | sequence _ => none
  | char c => some c

def isParameter (c : Char) : Bool := isDigit c || c == ';'

/-- The numbers between semicolons; one that is left out is zero. -/
def readCodes (parameters : List Char) : List Nat := (parameters.splitOn ';').map (digitsValue 10)

/-- The parameters of a sequence that the text starts with, and the text behind it. -/
def sequence? : List Char → Option (List Char × List Char)
  | c :: d :: rest =>
    if c == Style.escape && d == '[' && (rest.dropWhile isParameter).head? == some 'm' then
      some (rest.takeWhile isParameter, (rest.dropWhile isParameter).drop 1)
    else none
  | _ => none

theorem length_lt_of_sequence? {cs parameters back : List Char}
    (h : sequence? cs = some (parameters, back)) : back.length < cs.length := by
  revert h
  fun_cases sequence? cs with
  | case1 c d rest hstart =>
    intro h
    have hle := (List.dropWhile_sublist (l := rest) isParameter).length_le
    rw [Option.some.injEq, Prod.mk.injEq] at h
    rw [← h.2, List.length_drop, List.length_cons, List.length_cons]
    omega
  | case2 => simp
  | case3 => simp

/-- Cuts text into sequences and characters that are shown. -/
def items : List Char → List Item
  | [] => []
  | c :: rest =>
    match _h : sequence? (c :: rest) with
    | some (parameters, back) => .sequence (readCodes parameters) :: items back
    | none => .char c :: items rest
termination_by cs => cs.length
decreasing_by
  · exact length_lt_of_sequence? _h
  · exact Nat.lt_succ_self _

/-- The text with its sequences deleted. -/
def deleteSequences (cs : List Char) : List Char := (items cs).filterMap Item.char?

/-- What a terminal reads where text is shown in a style. -/
def shown (codes : List Nat) (text : List Char) : List Item :=
  if codes.isEmpty then text.map .char
  else .sequence codes :: (text.map .char ++ [.sequence [0]])

theorem items_nil : items [] = [] := by
  rw [items]

theorem items_of_some {c : Char} {rest parameters back : List Char}
    (h : sequence? (c :: rest) = some (parameters, back)) :
    items (c :: rest) = .sequence (readCodes parameters) :: items back := by
  rw [items]
  split
  · rename_i hread
    rw [h, Option.some.injEq, Prod.mk.injEq] at hread
    rw [hread.1, hread.2]
  · rename_i hread
    rw [h] at hread
    cases hread

theorem items_of_none {c : Char} {rest : List Char} (h : sequence? (c :: rest) = none) :
    items (c :: rest) = .char c :: items rest := by
  rw [items]
  split
  · rename_i hread
    rw [h] at hread
    cases hread
  · rfl

theorem items_cons {c : Char} (hc : c ≠ Style.escape) (rest : List Char) :
    items (c :: rest) = .char c :: items rest := by
  have hnone : sequence? (c :: rest) = none := by
    cases rest with
    | nil => rfl
    | cons d rest => simp [sequence?, hc]
  exact items_of_none hnone

theorem items_text_append {text : List Char} (h : Style.escape ∉ text) (rest : List Char) :
    items (text ++ rest) = text.map .char ++ items rest := by
  induction text with
  | nil => rfl
  | cons c text ih =>
    rw [List.mem_cons, not_or] at h
    rw [List.cons_append, items_cons (Ne.symm h.1), ih h.2]
    rfl

/-! ## Sequences that are written -/

theorem isParameter_of_mem_codeList (codes : List Nat) :
    ∀ c ∈ Style.codeList codes, isParameter c = true := by
  have hdigits : ∀ code, ∀ c ∈ Nat.toDigits 10 code, isParameter c = true := by
    intro code c hc
    have hdigit : isDigit c = true := Nat.isDigit_of_mem_toDigits (by decide) (by decide) hc
    simp [isParameter, hdigit]
  induction codes with
  | nil => simp [Style.codeList]
  | cons code codes ih =>
    cases codes with
    | nil =>
      intro c hc
      apply hdigits code
      simpa [Style.codeList] using hc
    | cons next codes =>
      have hlist : Style.codeList (code :: next :: codes) =
          Nat.toDigits 10 code ++ ';' :: Style.codeList (next :: codes) := rfl
      intro c hc
      rw [hlist] at hc
      rcases List.mem_append.mp hc with hc | hc
      · exact hdigits code c hc
      · rcases List.mem_cons.mp hc with rfl | hc
        · rfl
        · exact ih c hc

theorem readCodes_codeList {codes : List Nat} (h : codes ≠ []) :
    readCodes (Style.codeList codes) = codes := by
  have hsemicolon : ∀ digits ∈ codes.map (Nat.toDigits 10), ';' ∉ digits := by
    intro digits hdigits hmem
    obtain ⟨code, -, rfl⟩ := List.mem_map.mp hdigits
    exact absurd (Nat.isDigit_of_mem_toDigits (by decide) (by decide) hmem) (by decide)
  have hsplit : (Style.codeList codes).splitOn ';' = codes.map (Nat.toDigits 10) :=
    List.splitOn_intercalate ';' hsemicolon (by simpa using h)
  rw [readCodes, hsplit, List.map_map]
  conv => rhs; rw [← List.map_id codes]
  apply List.map_congr_left
  intro code _
  exact digitsValue_toDigits (by decide) (by decide) code

theorem items_sequence_append {codes : List Nat} (h : codes ≠ []) (rest : List Char) :
    items (Style.sequence codes ++ rest) = .sequence codes :: items rest := by
  have hparameters := isParameter_of_mem_codeList codes
  have hletter : isParameter 'm' ≠ true := by decide
  have htext : Style.sequence codes ++ rest =
      Style.escape :: '[' :: (Style.codeList codes ++ 'm' :: rest) := by
    simp [Style.sequence]
  have hsome : sequence? (Style.sequence codes ++ rest) = some (Style.codeList codes, rest) := by
    rw [htext, sequence?, List.dropWhile_append_of_pos hparameters,
      List.takeWhile_append_of_pos hparameters, List.dropWhile_cons_of_neg hletter,
      List.takeWhile_cons_of_neg hletter]
    simp
  rw [htext] at hsome ⊢
  rw [items_of_some hsome, readCodes_codeList h]

theorem reset_eq : Style.reset = Style.sequence [0] := rfl

theorem items_paint_append {text : List Char} (h : Style.escape ∉ text) (style : Style)
    (rest : List Char) :
    items (style.paint text ++ rest) = shown style.codes text ++ items rest := by
  unfold Style.paint shown
  split
  · exact items_text_append h rest
  · rename_i hcodes
    have hne : style.codes ≠ [] := by simpa using hcodes
    rw [List.append_assoc, List.append_assoc, items_sequence_append hne, items_text_append h,
      reset_eq, items_sequence_append (by decide)]
    simp

theorem filterMap_char?_shown (codes : List Nat) (text : List Char) :
    (shown codes text).filterMap Item.char? = text := by
  have hchars : (text.map Item.char).filterMap Item.char? = text := by
    rw [List.filterMap_map]
    exact List.filterMap_some
  unfold shown
  split
  · exact hchars
  · rw [List.filterMap_cons, List.filterMap_append, hchars]
    exact List.append_nil text

/-! ## Sequences that are reset -/

/-- Every sequence that is no reset is followed by one, with text between them that the codes may
stand around. -/
def Closed (P : List Nat → List Char → Prop) (xs : List Item) : Prop :=
  ∀ front codes back, xs = front ++ .sequence codes :: back → codes ≠ [0] →
    ∃ text rest, back = text.map .char ++ .sequence [0] :: rest ∧ P codes text

namespace Closed
variable {P : List Nat → List Char → Prop} {xs ys : List Item}

theorem chars (text : List Char) : Closed P (text.map .char) := by
  intro front codes back h _
  have hmem : Item.sequence codes ∈ text.map Item.char := by
    rw [h]
    exact List.mem_append_right front List.mem_cons_self
  obtain ⟨c, -, hc⟩ := List.mem_map.mp hmem
  cases hc

theorem append (hxs : Closed P xs) (hys : Closed P ys) : Closed P (xs ++ ys) := by
  intro front codes back h hcodes
  rcases List.append_eq_append_iff.mp h with ⟨between, rfl, hsplit⟩ | ⟨between, hsplit, hrest⟩
  · exact hys between codes back hsplit hcodes
  · cases between with
    | nil => exact hys [] codes back hrest.symm hcodes
    | cons item between =>
      obtain ⟨rfl, rfl⟩ := List.cons.inj hrest
      obtain ⟨text, rest, rfl, htext⟩ := hxs front codes between hsplit hcodes
      exact ⟨text, rest ++ ys, by simp, htext⟩

theorem flatMap {α : Type} {f : α → List Item} {as : List α} (h : ∀ a ∈ as, Closed P (f a)) :
    Closed P (as.flatMap f) := by
  induction as with
  | nil => exact chars []
  | cons a as ih =>
    rw [List.forall_mem_cons] at h
    exact h.1.append (ih h.2)

theorem shown {codes : List Nat} {text : List Char} (h : codes ≠ [] → P codes text) :
    Closed P (shown codes text) := by
  unfold Terminal.shown
  split
  · exact chars text
  · rename_i hne
    intro front found back hsplit hfound
    cases front with
    | nil =>
      obtain ⟨hcodes, rfl⟩ := List.cons.inj hsplit
      cases hcodes
      exact ⟨text, [], rfl, h (by simpa using hne)⟩
    | cons item front =>
      -- behind the first sequence there is only the reset
      have hmem : Item.sequence found ∈ text.map Item.char ++ [.sequence [0]] := by
        rw [(List.cons.inj hsplit).2]
        exact List.mem_append_right front List.mem_cons_self
      simp only [List.mem_append, List.mem_map, reduceCtorEq, and_false, exists_false, false_or,
        List.mem_singleton, Item.sequence.injEq] at hmem
      exact absurd hmem hfound

end Closed

end Terminal

/-! ## Themes -/

theorem exists_of_map_eq_ok {ε α β : Type} {f : α → β} {result : Except ε α} {b : β}
    (h : result.map f = .ok b) : ∃ a, result = .ok a ∧ f a = b := by
  cases result with
  | error e => cases h
  | ok a => exact ⟨a, rfl, Except.ok.inj h⟩

namespace Style

theorem pos_of_wordCodes? {word : List Char} {codes : List Nat} (h : wordCodes? word = some codes) :
    ∀ code ∈ codes, 0 < code := by
  have hattribute : ∀ code, attributeCode? word = some code → 0 < code := by
    intro code hcode
    obtain ⟨entry, hfind, rfl⟩ := Option.map_eq_some_iff.mp hcode
    have hpos : ∀ x ∈ attributes, 0 < x.2 := by decide
    exact hpos entry (List.mem_of_find?_eq_some hfind)
  have hcolour : ∀ code, colourCode? word = some code → 0 < code := by
    intro code hcode
    unfold colourCode? at hcode
    split at hcode
    · obtain ⟨i, -, rfl⟩ := Option.map_eq_some_iff.mp hcode
      omega
    · obtain ⟨i, -, rfl⟩ := Option.map_eq_some_iff.mp hcode
      omega
  unfold wordCodes? at h
  split at h
  · cases h
    simp
  · obtain ⟨code, hcode, rfl⟩ := Option.map_eq_some_iff.mp h
    intro found hfound
    rw [List.mem_singleton.mp hfound]
    rcases Option.or_eq_some_iff.mp hcode with hcode | ⟨-, hcode⟩
    · exact hattribute code hcode
    · exact hcolour code hcode

theorem pos_of_ofWords {texts : List (List Char)} {codes : List Nat} (h : ofWords texts = .ok codes) :
    ∀ code ∈ codes, 0 < code := by
  induction texts generalizing codes with
  | nil =>
    cases h
    simp
  | cons text texts ih =>
    simp only [ofWords] at h
    split at h
    · cases h
    · rename_i first hfirst
      obtain ⟨rest, hrest, rfl⟩ := exists_of_map_eq_ok h
      intro code hcode
      rcases List.mem_append.mp hcode with hcode | hcode
      · exact pos_of_wordCodes? hfirst code hcode
      · exact ih hrest code hcode

theorem pos_of_ofName {name : List Char} {style : Style} (h : ofName name = .ok style) :
    ∀ code ∈ style.codes, 0 < code := by
  obtain ⟨codes, hcodes, rfl⟩ := exists_of_map_eq_ok h
  exact pos_of_ofWords hcodes

end Style

namespace Theme

/-- The style that a theme names for a kind. -/
def style? (theme : Theme) (kind : Kind) : Option Style :=
  match theme.colour? kind with
  | none => none
  | some name =>
    match Style.ofName name with
    | .ok style => some style
    | .error _ => none

def codes (theme : Theme) (kind : Kind) : List Nat := (theme.style? kind).elim [] Style.codes

/-- The theme names a style with these codes for the kind. -/
def Paints (theme : Theme) (kind : Kind) (codes : List Nat) : Prop :=
  ∃ name style, theme.colour? kind = some name ∧ Style.ofName name = .ok style ∧ style.codes = codes

theorem paints_codes {theme : Theme} {kind : Kind} (h : theme.codes kind ≠ []) :
    theme.Paints kind (theme.codes kind) := by
  unfold codes style? at h ⊢
  cases hname : theme.colour? kind with
  | none => simp [hname] at h
  | some name =>
    cases hstyle : Style.ofName name with
    | error word => simp [hname, hstyle] at h
    | ok style => exact ⟨name, style, hname, hstyle, by simp [hstyle]⟩

theorem codes_ne_reset (theme : Theme) (kind : Kind) : theme.codes kind ≠ [0] := by
  intro h
  have hne : theme.codes kind ≠ [] := by simp [h]
  obtain ⟨name, style, -, hstyle, hcodes⟩ := paints_codes hne
  have hpos := Style.pos_of_ofName hstyle 0 (by simp [hcodes, h])
  omega

end Theme

namespace Palette

theorem lookup_of_stylesOf {theme : Theme} {kinds : List Kind} {styles : List (Kind × Style)}
    (h : stylesOf theme kinds = .ok styles) (kind : Kind) :
    styles.lookup kind = if kind ∈ kinds then theme.style? kind else none := by
  induction kinds generalizing styles with
  | nil =>
    cases h
    rfl
  | cons first kinds ih =>
    simp only [stylesOf] at h
    split at h
    · rename_i hnone
      rw [ih h]
      by_cases heq : kind = first
      · simp [heq, Theme.style?, hnone]
      · simp [heq]
    · rename_i name hname
      split at h
      · cases h
      · rename_i style hstyle
        obtain ⟨rest, hrest, rfl⟩ := exists_of_map_eq_ok h
        rw [List.lookup_cons, ih hrest]
        by_cases heq : kind = first
        · simp [heq, Theme.style?, hname, hstyle]
        · have hne : (kind == first) = false := by simpa using heq
          simp [heq, hne]

theorem paint_of_ofTheme {theme : Theme} {palette : Palette} (h : ofTheme theme = .ok palette)
    (token : Token) : palette.paint token = Style.paint ⟨theme.codes token.kind⟩ token.lexeme := by
  obtain ⟨styles, hstyles, rfl⟩ := exists_of_map_eq_ok h
  rw [paint, style?, lookup_of_stylesOf hstyles, if_pos (Kind.mem_all token.kind), Theme.codes]
  cases theme.style? token.kind <;> rfl

end Palette

namespace Terminal

/-- The items of a document's lines. -/
def shownLines (theme : Theme) (rows : List (List Token)) : List Item :=
  rows.flatMap fun tokens =>
    tokens.flatMap (fun token => shown (theme.codes token.kind) token.lexeme) ++ [.char '\n']

theorem shownLines_cons (theme : Theme) (tokens : List Token) (rows : List (List Token)) :
    shownLines theme (tokens :: rows) =
      tokens.flatMap (fun token => shown (theme.codes token.kind) token.lexeme) ++ [.char '\n'] ++
        shownLines theme rows := rfl

variable {theme : Theme} {palette : Palette}

theorem items_tokens_append (htheme : Palette.ofTheme theme = .ok palette) {tokens : List Token}
    (h : ∀ token ∈ tokens, Style.escape ∉ token.lexeme) (rest : List Char) :
    items (tokens.flatMap (Terminal.token (some palette)) ++ rest) =
      tokens.flatMap (fun token => shown (theme.codes token.kind) token.lexeme) ++ items rest := by
  induction tokens with
  | nil => rfl
  | cons token tokens ih =>
    rw [List.forall_mem_cons] at h
    rw [List.flatMap_cons, List.append_assoc, Terminal.token, Palette.paint_of_ofTheme htheme,
      items_paint_append h.1, ih h.2, List.flatMap_cons, List.append_assoc]

theorem items_lines (htheme : Palette.ofTheme theme = .ok palette) {rows : List (List Token)}
    (h : ∀ token ∈ rows.flatten, Style.escape ∉ token.lexeme) :
    items (rows.flatMap (Terminal.line (some palette))) = shownLines theme rows := by
  induction rows with
  | nil => exact items_nil
  | cons tokens rows ih =>
    rw [List.flatten_cons, List.forall_mem_append] at h
    rw [List.flatMap_cons, Terminal.line, List.append_assoc, items_tokens_append htheme h.1,
      List.singleton_append, items_cons (by decide), ih h.2, shownLines_cons, List.append_assoc]
    rfl

theorem filterMap_char?_shownLines (theme : Theme) (rows : List (List Token)) :
    (shownLines theme rows).filterMap Item.char? =
      rows.flatMap fun tokens => Token.text tokens ++ ['\n'] := by
  have htokens : ∀ tokens : List Token,
      (tokens.flatMap fun token => shown (theme.codes token.kind) token.lexeme).filterMap Item.char? =
        Token.text tokens := by
    intro tokens
    rw [List.filterMap_flatMap]
    simp only [filterMap_char?_shown]
    rfl
  induction rows with
  | nil => rfl
  | cons tokens rows ih =>
    rw [shownLines_cons, List.filterMap_append, List.filterMap_append, htokens, ih]
    rfl

theorem closed_shownLines {P : List Nat → List Char → Prop} {rows : List (List Token)}
    (h : ∀ token ∈ rows.flatten, theme.codes token.kind ≠ [] →
      P (theme.codes token.kind) token.lexeme) : Closed P (shownLines theme rows) := by
  apply Closed.flatMap
  intro tokens htokens
  apply Closed.append
  · apply Closed.flatMap
    intro token htoken
    exact Closed.shown (h token (List.mem_flatten.mpr ⟨tokens, htokens, htoken⟩))
  · exact Closed.chars ['\n']

/-- The output shows rows of tokens in the colours of a theme. Every token stands in its place, with
the codes of its kind in front and a reset behind it, or by itself if there are no codes. Any
sequence that is no reset is one of these: its colour ends behind one token, and within the line. -/
structure Coloured (theme : Theme) (rows : List (List Token)) (out : List Char) : Prop where
  items_eq : items out = shownLines theme rows
  ne_reset : ∀ kind, theme.codes kind ≠ [0]
  closed : ∀ front codes back, items out = front ++ .sequence codes :: back → codes ≠ [0] →
    ∃ token ∈ rows.flatten, ∃ rest, back = token.lexeme.map .char ++ .sequence [0] :: rest ∧
      theme.Paints token.kind codes ∧ '\n' ∉ token.lexeme

end Terminal

namespace Document

/-- Colouring adds sequences around tokens and nothing else, for every theme that can be read and
every source without an escape character. -/
theorem toTerminal_coloured {theme : Theme} {palette : Palette} {source : List Char}
    (htheme : Palette.ofTheme theme = .ok palette) (hsource : Style.escape ∉ source) :
    Terminal.deleteSequences ((ofText source).toTerminal (some palette)) =
      (ofText source).toTerminal none ∧
    (ofText source).toTerminal none =
      ((ofText source).lineTokens.flatMap fun tokens => Token.text tokens ++ ['\n']) ∧
    Terminal.Coloured theme (ofText source).lineTokens
      ((ofText source).toTerminal (some palette)) := by
  have hescape : ∀ token ∈ (ofText source).lineTokens.flatten, Style.escape ∉ token.lexeme := by
    intro token htoken hmem
    exact hsource (mem_of_mem_lexeme htoken hmem).1
  have hitems : Terminal.items ((ofText source).toTerminal (some palette)) =
      Terminal.shownLines theme (ofText source).lineTokens := Terminal.items_lines htheme hescape
  refine ⟨?_, rfl, hitems, theme.codes_ne_reset, ?_⟩
  · rw [Terminal.deleteSequences, hitems, Terminal.filterMap_char?_shownLines]
    rfl
  · have hclosed : Terminal.Closed (fun codes text => ∃ token ∈ (ofText source).lineTokens.flatten,
        token.lexeme = text ∧ theme.Paints token.kind codes ∧ '\n' ∉ text)
        (Terminal.shownLines theme (ofText source).lineTokens) := by
      apply Terminal.closed_shownLines
      intro token htoken hne
      refine ⟨token, htoken, rfl, Theme.paints_codes hne, ?_⟩
      intro hfeed
      exact (mem_of_mem_lexeme htoken hfeed).2 rfl
    intro front codes back hsplit hcodes
    rw [hitems] at hsplit
    obtain ⟨text, rest, hback, token, htoken, rfl, hpaints, hfeed⟩ :=
      hclosed front codes back hsplit hcodes
    exact ⟨token, htoken, rest, hback, hpaints, hfeed⟩

/-- A theme with two codes for keywords and none for comments, and a source whose text looks like
the end of a sequence. -/
theorem toTerminal_coloured_bracket :
    let theme : Theme := { keyword := "BRIGHT-red\tbold".toList, comment := "default".toList }
    let source := "if[0m\r\n\n-- 1;m".toList
    ∃ palette, Palette.ofTheme theme = .ok palette ∧
      Terminal.deleteSequences ((ofText source).toTerminal (some palette)) =
        "if[0m\n\n-- 1;m\n".toList ∧
      Terminal.Coloured theme (ofText source).lineTokens
        ((ofText source).toTerminal (some palette)) := by
  intro theme source
  have hread : (Palette.ofTheme theme).toOption.isSome = true := by decide +kernel
  have hplain : (ofText source).toTerminal none = "if[0m\n\n-- 1;m\n".toList := by decide +kernel
  cases htheme : Palette.ofTheme theme with
  | error word =>
    rw [htheme] at hread
    cases hread
  | ok palette =>
    have h := toTerminal_coloured htheme (show Style.escape ∉ source by decide)
    exact ⟨palette, rfl, h.1.trans hplain, h.2.2⟩

end Document

end BoardHighlight
