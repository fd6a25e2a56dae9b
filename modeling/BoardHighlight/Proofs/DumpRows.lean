import BoardHighlight.Dump
import BoardHighlight.Proofs.ProblemOrder
import BoardHighlight.Proofs.ReadingBack

/-!
# What a token dump tells

A dump is read row by row. The character behind the number of the line tells a row of a token from
the row at the end of a line; the columns up to the lexeme hold no tab, and the lexeme is quoted, so
that it holds neither a tab nor a line feed that could pass for the end of its row. The tokens of
every line and the mode behind it are therefore read back from the dump, whichever characters of the
lexemes are spelled by number. The columns in the rows are those of the listing of all tokens with
their places.
-/

namespace BoardHighlight
set_option autoImplicit false

theorem not_mem_toDigits {c : Char} (h : isHexDigit c = false) (n : Nat) :
    c ∉ Nat.toDigits 10 n := by
  intro hmem
  rw [isHexDigit_of_mem_toDigits (by decide) (by decide) n c hmem] at h
  cases h

theorem Kind.name_append_inj {a b : Kind} {r s : List Char}
    (h : a.name.toList ++ '\t' :: r = b.name.toList ++ '\t' :: s) : a = b ∧ r = s := by
  have htab : ∀ kind : Kind, '\t' ∉ kind.name.toList := by
    intro kind
    cases kind <;> decide
  obtain ⟨hname, hrest⟩ := append_cons_inj_of_not_mem (htab a) (htab b) h
  have hof := congrArg ofName? (String.toList_inj.mp hname)
  rw [ofName?_name, ofName?_name] at hof
  exact ⟨Option.some.inj hof, hrest⟩

namespace Mode

/-- The character that tells the texts of the four kinds of modes apart. -/
def mark : Mode → Option Char
  | normal => none
  | string => some 'L'
  | stringGap => some 'G'
  | blockComment _ _ => some 'o'

theorem describe_mark (mode : Mode) : mode.describe[8]? = mode.mark := by
  cases mode <;> rfl

theorem describe_blockComment (kind : CommentKind) (depth : Depth) :
    (blockComment kind depth).describe =
      "InBlockComment \x7b kind: ".toList ++ (kind.name.toList ++ (", depth: ".toList ++
        (Nat.toDigits 10 depth.val ++ " \x7d".toList))) := by
  simp only [← List.append_assoc]
  rfl

theorem newline_not_mem_describe (mode : Mode) : '\n' ∉ mode.describe := by
  cases mode with
  | normal => decide
  | string => decide
  | stringGap => decide
  | blockComment kind depth =>
    have hname : '\n' ∉ kind.name.toList := by cases kind <;> decide
    have hdigits : '\n' ∉ Nat.toDigits 10 depth.val := not_mem_toDigits (by decide) _
    rw [describe_blockComment]
    simp only [List.mem_append, not_or]
    exact ⟨by decide, hname, by decide, hdigits, by decide⟩

theorem describe_blockComment_inj {kind kind' : CommentKind} {depth depth' : Depth}
    (h : (blockComment kind depth).describe = (blockComment kind' depth').describe) :
    blockComment kind depth = blockComment kind' depth' := by
  have hcomma : ∀ kind : CommentKind, ',' ∉ kind.name.toList := by
    intro kind
    cases kind <;> decide
  have hkind : ∀ kind kind' : CommentKind, kind.name.toList = kind'.name.toList → kind = kind' := by
    intro kind kind' heq
    cases kind <;> cases kind' <;> first | rfl | exact absurd heq (by decide)
  rw [describe_blockComment, describe_blockComment] at h
  obtain ⟨hname, hdepth⟩ := append_cons_inj_of_not_mem (hcomma kind) (hcomma kind')
    (List.append_cancel_left h)
  have hdigits : Nat.toDigits 10 depth.val ++ " \x7d".toList =
      Nat.toDigits 10 depth'.val ++ " \x7d".toList :=
    @List.append_cancel_left _ " depth: ".toList _ _ hdepth
  obtain ⟨hval, -⟩ :=
    toDigits_append_inj (by decide) (by decide) (by decide) (by decide) hdigits
  rw [hkind _ _ hname, Depth.ext_val hval]

theorem describe_inj {a b : Mode} (h : a.describe = b.describe) : a = b := by
  have hmark := congrArg (fun text => text[8]?) h
  simp only [describe_mark] at hmark
  cases a <;> cases b
  all_goals first
    | rfl
    | exact describe_blockComment_inj h
    | cases hmark

end Mode

namespace Dump
variable {byNumber : Char → Bool} {line column column' : Nat} {token token' : Token}
  {after after' : Mode} {r s : List Char}

theorem tokenRow_append_inj (h : tokenRow byNumber line column token ++ r =
    tokenRow byNumber line column' token' ++ s) : token = token' ∧ r = s := by
  simp only [tokenRow, List.append_assoc, List.cons_append] at h
  have hcolumn := (List.cons.inj (List.append_cancel_left h)).2
  obtain ⟨-, -, hname⟩ :=
    toDigits_append_inj (by decide) (by decide) (by decide) (by decide) hcolumn
  obtain ⟨hkind, hquoted⟩ := Kind.name_append_inj hname
  obtain ⟨hlexeme, hend⟩ := Quoted.delimitedOn_encode byNumber _ _ trivial trivial _ _ hquoted
  refine ⟨?_, (List.cons.inj hend).2⟩
  cases token
  cases token'
  rw [Token.mk.injEq]
  exact ⟨hkind, hlexeme⟩

theorem endRow_append_inj (h : endRow line after ++ r = endRow line after' ++ s) :
    after = after' ∧ r = s := by
  simp only [endRow, List.append_assoc] at h
  have h := List.append_cancel_left (List.append_cancel_left h)
  obtain ⟨hmode, hrest⟩ := append_cons_inj_of_not_mem (Mode.newline_not_mem_describe after)
    (Mode.newline_not_mem_describe after') h
  exact ⟨Mode.describe_inj hmode, hrest⟩

/-- A colon stands behind the line in the row of a token, and a tab in the row at its end. -/
theorem tokenRow_append_ne : tokenRow byNumber line column token ++ r ≠ endRow line after ++ s := by
  intro h
  simp only [tokenRow, endRow, List.append_assoc, List.cons_append] at h
  exact absurd (List.cons.inj (List.append_cancel_left h)).1 (by decide)

theorem lineRows_append_inj {xs ys : List Token}
    (h : lineRows byNumber line xs after ++ r = lineRows byNumber line ys after' ++ s) :
    xs = ys ∧ after = after' ∧ r = s := by
  unfold lineRows Token.withColumns at h
  generalize 1 = column at h
  simp only [List.append_assoc] at h
  induction xs generalizing ys column with
  | nil =>
    cases ys with
    | nil => exact ⟨rfl, endRow_append_inj h⟩
    | cons y ys =>
      simp only [Token.withColumnsFrom, List.flatMap_cons, List.append_assoc] at h
      exact absurd h.symm tokenRow_append_ne
  | cons x xs ih =>
    cases ys with
    | nil =>
      simp only [Token.withColumnsFrom, List.flatMap_cons, List.append_assoc] at h
      exact absurd h tokenRow_append_ne
    | cons y ys =>
      simp only [Token.withColumnsFrom, List.flatMap_cons, List.append_assoc] at h
      obtain ⟨rfl, hrest⟩ := tokenRow_append_inj h
      obtain ⟨rfl, hends⟩ := ih _ hrest
      exact ⟨rfl, hends⟩

theorem lineRows_append_ne_nil {tokens : List Token} :
    lineRows byNumber line tokens after ++ r ≠ [] := by
  simp [lineRows, endRow]

theorem rows_inj {xs ys : List (List Token × Mode)}
    (h : rows byNumber line xs = rows byNumber line ys) : xs = ys := by
  induction xs generalizing line ys with
  | nil =>
    cases ys with
    | nil => rfl
    | cons y ys => exact absurd h.symm lineRows_append_ne_nil
  | cons x xs ih =>
    cases ys with
    | nil => exact absurd h lineRows_append_ne_nil
    | cons y ys =>
      obtain ⟨tokens, after⟩ := x
      obtain ⟨tokens', after'⟩ := y
      obtain ⟨rfl, rfl, hrest⟩ := lineRows_append_inj h
      rw [ih hrest]

/-- The rows of a line show each token at its place. -/
theorem lineRows_eq (line : Nat) (tokens : List Token) (after : Mode) :
    lineRows byNumber line tokens after =
      (Token.placed line tokens).flatMap (fun x => tokenRow byNumber x.1.1 x.1.2 x.2) ++
        endRow line after := by
  rw [lineRows, Token.placed_eq, List.flatMap_map]

theorem lineRows_infix_rows {lines : List (List Token × Mode)} {i : Nat} {tokens : List Token}
    (h : lines[i]? = some (tokens, after)) :
    lineRows byNumber (line + i) tokens after <:+: rows byNumber line lines := by
  induction lines generalizing line i with
  | nil => cases h
  | cons first lines ih =>
    cases i with
    | zero =>
      cases h
      exact List.infix_append' [] _ _
    | succ i =>
      rw [List.getElem?_cons_succ] at h
      have hrest := @ih (line + 1) i h
      rw [Nat.add_right_comm, Nat.add_assoc] at hrest
      exact hrest.trans (List.suffix_append _ _).isInfix

end Dump

namespace Document

/-- Every token has its row in the dump, with its line and its column. -/
theorem tokenRow_infix_dumpWith (byNumber : Char → Bool) {doc : Document}
    {x : (Nat × Nat) × Token} (h : x ∈ doc.placedTokens) :
    Dump.tokenRow byNumber x.1.1 x.1.2 x.2 <:+: doc.dumpWith byNumber := by
  obtain ⟨i, tokens, k, hline, htoken, hplace⟩ := mem_placedTokens_iff.mp h
  have hi : i < doc.entries.length := by
    have hlt := (List.getElem?_eq_some_iff.mp hline).1
    rwa [lineTokens_length] at hlt
  have hrow : (doc.lineTokens.zip (doc.entries.map (·.after)))[i]? =
      some (tokens, doc.entries[i].after) := by
    rw [List.getElem?_zip_eq_some]
    exact ⟨hline, by rw [List.getElem?_map, List.getElem?_eq_getElem hi]; rfl⟩
  have hmem : x ∈ Token.placed (1 + i) tokens := by
    rw [Nat.add_comm]
    exact Token.mem_placed_iff.mpr ⟨k, htoken, hplace⟩
  apply List.IsInfix.trans _ (Dump.lineRows_infix_rows hrow)
  rw [Dump.lineRows_eq, List.flatMap_def]
  apply List.IsInfix.trans _ (List.prefix_append _ _).isInfix
  exact List.infix_of_mem_flatten (List.mem_map_of_mem hmem)

theorem lineTokens_eq_of_dumpWith_eq {byNumber : Char → Bool} {a b : Document}
    (h : a.dumpWith byNumber = b.dumpWith byNumber) :
    a.lineTokens = b.lineTokens ∧ a.entries.map (·.after) = b.entries.map (·.after) := by
  have hzip := Dump.rows_inj h
  have hlength : ∀ doc : Document, doc.lineTokens.length = (doc.entries.map (·.after)).length := by
    intro doc
    rw [lineTokens_length, List.length_map, lineCount]
  constructor
  · have hfst := congrArg (List.map Prod.fst) hzip
    rwa [List.map_fst_zip (Nat.le_of_eq (hlength a)),
      List.map_fst_zip (Nat.le_of_eq (hlength b))] at hfst
  · have hsnd := congrArg (List.map Prod.snd) hzip
    rwa [List.map_snd_zip (Nat.le_of_eq (hlength a).symm),
      List.map_snd_zip (Nat.le_of_eq (hlength b).symm)] at hsnd

/-- The dump determines the lexing. Whichever characters of the lexemes are spelled by number, two
documents have the same dump exactly if they have as many lines, the same tokens on each of them and
at the same places, and the same mode at the end of each. The column of a place counts the characters
of the tokens in front. -/
theorem dumpWith_eq_iff (byNumber : Char → Bool) (a b : Document) :
    a.dumpWith byNumber = b.dumpWith byNumber ↔
      a.lineCount = b.lineCount ∧
      a.lineTokens = b.lineTokens ∧
      a.placedTokens = b.placedTokens ∧
      a.modes = b.modes := by
  constructor
  · intro h
    obtain ⟨htokens, hafter⟩ := lineTokens_eq_of_dumpWith_eq h
    refine ⟨?_, htokens, by rw [placedTokens, placedTokens, htokens], by rw [modes, modes, hafter]⟩
    rw [← lineTokens_length, ← lineTokens_length, htokens]
  · intro h
    obtain ⟨-, htokens, -, hmodes⟩ := h
    rw [dumpWith, dumpWith, htokens, (List.cons.inj hmodes).2]

end Document

end BoardHighlight
