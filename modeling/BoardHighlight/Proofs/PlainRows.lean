import BoardHighlight.Proofs.Overlay
import BoardHighlight.Proofs.ReadingBack
import BoardHighlight.Proofs.Terminators
import BoardHighlight.Render.Rows

/-!
# Plain rows without doubt

Rows quote nothing, and one style tag is another one with a word behind it: a string could pass for
a string with an error if its lexeme started as the second word does. No lexeme does so, as a string
is read from a quote, from a backslash or from blanks on. The mode of strings itself would allow it,
but no line starts in that mode. With lexemes that hold no line feed, the rows of a source give back
its styled tokens and their places.
-/

namespace BoardHighlight
set_option autoImplicit false

/-! ## The first character of a string -/

/-- The characters with which the tokens of strings start. -/
def StartsString (c : Char) : Prop := c = '"' ∨ c = '\'' ∨ c = '\\' ∨ isBlank c = true

theorem Ordinary.eq_of_string {c : Char} {rest : List Char} {cut : Cut}
    (h : Ordinary c rest (.emit cut)) (hkind : cut.kind = .string) : c = '\'' := by
  have hreturns : ∀ kinds, cut.Returns kinds → .string ∉ kinds → c = '\'' := by
    intro kinds hcut hnot
    have hmem := hcut.1
    rw [hkind] at hmem
    exact absurd hmem hnot
  cases h with
  | character hquote => exact hquote
  | blanks => cases hkind
  | mark => cases hkind
  | upper => exact hreturns _ (Name.upperCut_returns rest) (by decide)
  | lower => cases hkind
  | number => exact hreturns _ (Number.cut_returns _) (by decide)
  | operator => exact hreturns _ (Operator.cut_returns c rest) (by decide)
  | stray => cases hkind

namespace Mode

theorem cut_blockComment_ne_string (kind : CommentKind) (depth : Depth) (cs : List Char) :
    ((blockComment kind depth).cut true cs).kind ≠ .string := by
  have hcut : (blockComment kind depth).cut true cs = BlockComment.cut kind depth cs :=
    cut_of_emit rfl
  have hkind : kind.tokenKind ≠ .string := by
    cases kind <;> decide
  rw [hcut, BlockComment.cut_eq]
  exact hkind

theorem startsString_of_normal {c : Char} {rest : List Char}
    (h : (normal.cut true (c :: rest)).kind = .string) : StartsString c := by
  have hordinary : Ordinary c rest (normal.step true (c :: rest)) := ordinary_normalStep c rest
  cases hstep : normal.step true (c :: rest) with
  | emit cut =>
    rw [cut_of_emit hstep] at h
    rw [hstep] at hordinary
    exact Or.inr (Or.inl (hordinary.eq_of_string h))
  | enter size next =>
    rw [cut_of_enter hstep, Cut.shift_kind] at h
    rw [hstep] at hordinary
    cases hordinary with
    | string hquote => exact Or.inl hquote
    | comment => exact absurd h (cut_blockComment_ne_string _ _ _)
    | pragma => exact absurd h (cut_blockComment_ne_string _ _ _)

theorem startsString_of_gap {c : Char} {rest : List Char}
    (h : (stringGap.cut true (c :: rest)).kind = .string) : StartsString c := by
  by_cases hblank : isBlank c = true
  · exact Or.inr (Or.inr (Or.inr hblank))
  by_cases hslash : c = '\\'
  · exact Or.inr (Or.inr (Or.inl hslash))
  · have hstep : stringGap.step true ([] ++ c :: rest) = .emit (.normal .invalid 1) :=
      StringLiteral.gapStep_breaking (by simp) (Bool.eq_false_iff.mpr hblank) hslash rest
    rw [List.nil_append] at hstep
    rw [cut_of_emit hstep] at h
    cases h

theorem startsString_of_cut {mode : Mode} {c : Char} {rest : List Char} (hmode : mode ≠ .string)
    (h : (mode.cut true (c :: rest)).kind = .string) : StartsString c := by
  cases mode with
  | normal => exact startsString_of_normal h
  | string => exact absurd rfl hmode
  | stringGap => exact startsString_of_gap h
  | blockComment kind depth => exact absurd h (cut_blockComment_ne_string kind depth _)

end Mode

theorem startsString_of_nextToken? {mode next : Mode} {cs : List Char} {token : Token}
    (hmode : mode ≠ .string) (h : nextToken? true mode cs = some (token, next))
    (hkind : token.kind = .string) : ∃ c tail, token.lexeme = c :: tail ∧ StartsString c := by
  have hoverlaid := overlaid_of_nextToken? h
  have hraw := hoverlaid.otherwise (by rw [hkind]; decide) (by rw [hkind]; decide)
  have hlexeme := hoverlaid.lexeme_eq
  have hpos := (lexeme_length_pos h).1
  rw [hlexeme, List.length_take] at hpos
  cases cs with
  | nil => simp at hpos
  | cons c rest =>
    obtain ⟨n, hsize⟩ := Nat.exists_eq_add_of_le' (show 1 ≤ (mode.cut true (c :: rest)).size by omega)
    rw [hsize, List.take_succ_cons] at hlexeme
    exact ⟨c, _, hlexeme, Mode.startsString_of_cut hmode (hraw.symm.trans hkind)⟩

namespace Line

theorem startsString_of_mem {mode : Mode} {text : List Char} {token : Token}
    (hmode : mode ≠ .string) (h : token ∈ tokens mode text) (hkind : token.kind = .string) :
    ∃ c tail, token.lexeme = c :: tail ∧ StartsString c := by
  obtain ⟨⟨token, next⟩, hcall, rfl⟩ := List.mem_map.mp h
  obtain ⟨front, back, hread⟩ := List.append_of_mem hcall
  obtain ⟨rest, hrequests, hnext⟩ := nextToken?_of_read hread
  exact startsString_of_nextToken? (hrequests.ne_string hmode) hnext hkind

end Line

/-! ## Rows -/

namespace Kind

theorem tag_inj {a b : Kind} (h : a.tag = b.tag) : a = b := by
  have hof := congrArg ofTag? h
  rw [ofTag?_tag, ofTag?_tag] at hof
  exact Option.some.inj hof

theorem space_not_mem_tag {kind : Kind} (h : kind ≠ .badString) : ' ' ∉ kind.tag.toList := by
  cases kind <;> first | exact absurd rfl h | decide

theorem tag_badString : badString.tag.toList = string.tag.toList ++ ' ' :: "error".toList := rfl

/-- The tag of two words starts like a string whose lexeme starts with the second word. -/
theorem eq_string_of_tag_append {kind : Kind} (hkind : kind ≠ .badString) {r s : List Char}
    (h : badString.tag.toList ++ ' ' :: r = kind.tag.toList ++ ' ' :: s) :
    kind = .string ∧ s.head? = some 'e' := by
  rw [tag_badString, List.append_assoc, List.cons_append] at h
  obtain ⟨htag, hrest⟩ := append_cons_inj_of_not_mem (space_not_mem_tag (by decide))
    (space_not_mem_tag hkind) h
  refine ⟨(tag_inj (String.toList_inj.mp htag)).symm, ?_⟩
  rw [← hrest]
  rfl

theorem tag_append_inj {a b : Kind} {r s : List Char} (ha : a = .string → r.head? ≠ some 'e')
    (hb : b = .string → s.head? ≠ some 'e')
    (h : a.tag.toList ++ ' ' :: r = b.tag.toList ++ ' ' :: s) : a = b ∧ r = s := by
  by_cases hae : a = .badString
  · subst hae
    by_cases hbe : b = .badString
    · subst hbe
      exact ⟨rfl, (List.cons.inj (List.append_cancel_left h)).2⟩
    · obtain ⟨hstring, hhead⟩ := eq_string_of_tag_append hbe h
      exact absurd hhead (hb hstring)
  · by_cases hbe : b = .badString
    · subst hbe
      obtain ⟨hstring, hhead⟩ := eq_string_of_tag_append hae h.symm
      exact absurd hhead (ha hstring)
    · obtain ⟨htag, hrest⟩ := append_cons_inj_of_not_mem (space_not_mem_tag hae)
        (space_not_mem_tag hbe) h
      exact ⟨tag_inj (String.toList_inj.mp htag), hrest⟩

end Kind

namespace Rows

/-- The row of a token at its place. -/
def placedRow (x : (Nat × Nat) × Token) : List Char := Rows.token x.1.1 x.1.2 x.2

/-- A row shows the token without doubt. -/
structure Legible (x : (Nat × Nat) × Token) : Prop where
  styled : x.2.kind.style?.isSome = true
  one_line : '\n' ∉ x.2.lexeme
  string_start : x.2.kind = .string → x.2.lexeme.head? ≠ some 'e'

theorem placedRow_eq {x : (Nat × Nat) × Token} (h : x.2.kind.style?.isSome = true) :
    placedRow x = Nat.toDigits 10 x.1.1 ++ ':' :: (Nat.toDigits 10 x.1.2 ++
      ' ' :: (x.2.kind.tag.toList ++ ' ' :: (x.2.lexeme ++ ['\n']))) := by
  obtain ⟨tag, htag⟩ := Option.isSome_iff_exists.mp h
  simp [placedRow, Rows.token, row, Kind.tag, htag]

/-- A row is read from left to right: two numbers, the tag, and the lexeme up to the line feed. -/
theorem delimitedOn_placedRow : DelimitedOn Legible placedRow := by
  rintro ⟨⟨line, column⟩, token⟩ ⟨⟨line', column'⟩, token'⟩ hx hy r s h
  rw [placedRow_eq hx.styled, placedRow_eq hy.styled] at h
  simp only [List.append_assoc, List.cons_append] at h
  obtain ⟨rfl, -, h⟩ := toDigits_append_inj (by decide) (by decide) (by decide) (by decide) h
  obtain ⟨rfl, -, h⟩ := toDigits_append_inj (by decide) (by decide) (by decide) (by decide) h
  have hstart : ∀ lexeme rest : List Char, lexeme.head? ≠ some 'e' →
      (lexeme ++ '\n' :: rest).head? ≠ some 'e' := by
    intro lexeme rest hlexeme
    cases lexeme with
    | nil => simp
    | cons c tail => exact hlexeme
  obtain ⟨hkind, h⟩ := Kind.tag_append_inj (fun hkind => hstart _ _ (hx.string_start hkind))
    (fun hkind => hstart _ _ (hy.string_start hkind)) h
  obtain ⟨hlexeme, hrest⟩ := append_cons_inj_of_not_mem hx.one_line hy.one_line h
  refine ⟨?_, hrest⟩
  cases token
  cases token'
  rw [Prod.mk.injEq, Token.mk.injEq]
  exact ⟨rfl, hkind, hlexeme⟩

theorem line_eq (number : Nat) (tokens : List Token) :
    line number tokens = (Token.placed number tokens).flatMap placedRow := by
  rw [Token.placed_eq, List.flatMap_map]
  rfl

theorem lines_eq (number : Nat) (rows : List (List Token)) :
    lines number rows = ((rows.zipIdx number).flatMap fun (tokens, number) =>
      Token.placed number tokens).flatMap placedRow := by
  induction rows generalizing number with
  | nil => rfl
  | cons tokens rest ih =>
    rw [lines, line_eq, ih, List.zipIdx_cons, List.flatMap_cons, List.flatMap_append]

/-- Tokens without a style have no row. -/
theorem flatMap_filter_styled (xs : List ((Nat × Nat) × Token)) :
    (xs.filter fun x => x.2.kind.style?.isSome).flatMap placedRow = xs.flatMap placedRow := by
  induction xs with
  | nil => rfl
  | cons x xs ih =>
    rw [List.filter_cons, List.flatMap_cons]
    split
    · rw [List.flatMap_cons, ih]
    · rename_i hplain
      have hnone : x.2.kind.style? = none := by simpa using hplain
      have hrow : placedRow x = [] := by simp [placedRow, Rows.token, hnone]
      rw [hrow, List.nil_append, ih]

theorem placedRow_start {x : (Nat × Nat) × Token} (h : Legible x) :
    ∃ c rest, placedRow x = c :: rest ∧ c ≠ '\n' := by
  have hdigits : ∀ c ∈ Nat.toDigits 10 x.1.1, isHexDigit c = true :=
    isHexDigit_of_mem_toDigits (by decide) (by decide) x.1.1
  have hpos : 0 < (Nat.toDigits 10 x.1.1).length := Nat.length_toDigits_pos
  rw [placedRow_eq h.styled]
  cases hfirst : Nat.toDigits 10 x.1.1 with
  | nil =>
    rw [hfirst] at hpos
    cases hpos
  | cons c rest =>
    refine ⟨c, _, rfl, ?_⟩
    rintro rfl
    rw [hfirst] at hdigits
    exact absurd (hdigits _ List.mem_cons_self) (by decide)

end Rows

namespace Document

/-- The tokens that rows show, with their places. -/
def styledTokens (doc : Document) : List ((Nat × Nat) × Token) :=
  doc.placedTokens.filter fun x => x.2.kind.style?.isSome

theorem toRows_eq (doc : Document) : doc.toRows = doc.styledTokens.flatMap Rows.placedRow := by
  rw [toRows, Rows.lines_eq, styledTokens, Rows.flatMap_filter_styled]
  rfl

theorem legible_of_mem {source : List Char} {x : (Nat × Nat) × Token}
    (h : x ∈ (ofText source).styledTokens) : Rows.Legible x := by
  obtain ⟨hplaced, hstyled⟩ := List.mem_filter.mp h
  obtain ⟨i, tokens, k, hget, htoken, -⟩ := mem_placedTokens_iff.mp hplaced
  obtain ⟨mode, text, hmode, hline, rfl⟩ := lineTokens_getElem? hget
  have hmem : x.2 ∈ Line.tokens mode text := List.mem_of_getElem? htoken
  constructor
  · exact hstyled
  · intro hfeed
    have htext : text ∈ Lines.split source := by
      rw [line?, ofText, lines_ofLines] at hline
      exact List.mem_of_getElem? hline
    exact Lines.newline_not_mem_split source text htext (Line.mem_of_mem_lexeme hmem hfeed)
  · intro hkind hhead
    have hstart : mode ≠ .string := (Reachable.text source).modeBefore?_ne_string hmode
    obtain ⟨c, tail, hlexeme, hc⟩ := Line.startsString_of_mem hstart hmem hkind
    rw [hlexeme, List.head?_cons] at hhead
    rw [Option.some.inj hhead] at hc
    rcases hc with hc | hc | hc | hc
    · exact absurd hc (by decide)
    · exact absurd hc (by decide)
    · exact absurd hc (by decide)
    · exact absurd hc (by decide)

/-- Plain rows are unambiguous. Two sources have the same rows exactly if they have the same styled
tokens at the same places; and each row by itself, whatever follows it, is read as the row of one
token only. -/
theorem toRows_eq_iff (a b : List Char) :
    ((ofText a).toRows = (ofText b).toRows ↔ (ofText a).styledTokens = (ofText b).styledTokens) ∧
    ∀ x ∈ (ofText a).styledTokens, ∀ y ∈ (ofText b).styledTokens, ∀ r s,
      Rows.placedRow x ++ r = Rows.placedRow y ++ s → x = y ∧ r = s := by
  constructor
  · rw [toRows_eq, toRows_eq]
    constructor
    · intro h
      -- a line feed behind the last row cannot start a row, so both lists end there
      have hstop := congrArg (· ++ ['\n']) h
      exact (Rows.delimitedOn_placedRow.flatMap (fun _ => Rows.placedRow_start)
        (fun _ => legible_of_mem) (fun _ => legible_of_mem) hstop).1
    · intro h
      rw [h]
  · intro x hx y hy
    exact Rows.delimitedOn_placedRow x y (legible_of_mem hx) (legible_of_mem hy)

/-- Two sources with other blanks between a string and a character literal that does not end; the
row of the second, with any text behind it, is read as its own row only. -/
theorem toRows_eq_iff_blanks :
    let a := "\"error \" 'e\n\x7b-x".toList
    let b := "\"error \"\t'e\r\n\x7b-x\n".toList
    let x : (Nat × Nat) × Token := ((1, 10), ⟨.badString, "'e".toList⟩)
    (ofText a).toRows = (ofText b).toRows ∧
    (ofText a).styledTokens = (ofText b).styledTokens ∧ x ∈ (ofText a).styledTokens ∧
    ∀ y ∈ (ofText b).styledTokens, ∀ r s,
      Rows.placedRow x ++ r = Rows.placedRow y ++ s → x = y ∧ r = s := by
  intro a b x
  have hrows : (ofText a).toRows = (ofText b).toRows := by decide +kernel
  have hmem : x ∈ (ofText a).styledTokens := by decide +kernel
  have h := toRows_eq_iff a b
  exact ⟨hrows, h.1.mp hrows, hmem, h.2 x hmem⟩

end Document

end BoardHighlight
