import BoardHighlight.Problem
import BoardHighlight.Proofs.ModeBehind

/-!
# Problems in reading order

A document's tokens are listed here with their places, line by line. Its problems are those of the
tokens of an error kind, in the same order, and then what is still open at the end. Every place is
behind the one before it, so no problem is lost, repeated or out of order.
-/

namespace BoardHighlight
set_option autoImplicit false

/-- Earlier in reading order; a place is a line and a column. -/
def Earlier (a b : Nat × Nat) : Prop := a.1 < b.1 ∨ a.1 = b.1 ∧ a.2 < b.2

theorem Earlier.ne {a b : Nat × Nat} (h : Earlier a b) : a ≠ b := by
  rintro rfl
  rcases h with hline | ⟨-, hcolumn⟩
  · exact Nat.lt_irrefl _ hline
  · exact Nat.lt_irrefl _ hcolumn

namespace Token

/-- The tokens of a line with their places. The column of a token is one more than the number of
characters in the tokens before it. -/
def placed (line : Nat) (tokens : List Token) : List ((Nat × Nat) × Token) :=
  tokens.zipIdx.map fun (token, k) => ((line, (text (tokens.take k)).length + 1), token)

theorem withColumnsFrom_eq (column : Nat) (tokens : List Token) :
    withColumnsFrom column tokens =
      tokens.zipIdx.map fun (token, k) => ((text (tokens.take k)).length + column, token) := by
  induction tokens generalizing column with
  | nil => rfl
  | cons token rest ih =>
    rw [withColumnsFrom, ih, List.zipIdx_cons', List.map_cons, List.map_map]
    congr 1
    · simp
    · apply List.map_congr_left
      intro x _
      simp only [Function.comp, Prod.map, id_eq, List.take_succ_cons, text_cons, List.length_append,
        Prod.mk.injEq, and_true]
      omega

theorem placed_eq (line : Nat) (tokens : List Token) :
    placed line tokens = (withColumns tokens).map fun x => ((line, x.1), x.2) := by
  rw [withColumns, withColumnsFrom_eq, List.map_map]
  rfl

theorem le_of_mem_withColumnsFrom {column : Nat} {tokens : List Token} {x : Nat × Token}
    (h : x ∈ withColumnsFrom column tokens) :
    column ≤ x.1 ∧ x.1 + x.2.lexeme.length ≤ column + (text tokens).length := by
  induction tokens generalizing column with
  | nil => cases h
  | cons token rest ih =>
    rw [text_cons, List.length_append]
    rcases List.mem_cons.mp h with rfl | hrest
    · dsimp only
      omega
    · have hbounds := ih hrest
      omega

theorem pairwise_withColumnsFrom {tokens : List Token} (h : ∀ token ∈ tokens, token.lexeme ≠ [])
    (column : Nat) : (withColumnsFrom column tokens).Pairwise (fun x y => x.1 < y.1) := by
  induction tokens generalizing column with
  | nil => exact .nil
  | cons token rest ih =>
    rw [List.forall_mem_cons] at h
    refine List.pairwise_cons.mpr ⟨?_, ih h.2 _⟩
    intro x hx
    have hle := (le_of_mem_withColumnsFrom hx).1
    have hpos := List.length_pos_iff.mpr h.1
    dsimp only
    omega

theorem mem_placed_iff {line : Nat} {tokens : List Token} {x : (Nat × Nat) × Token} :
    x ∈ placed line tokens ↔
      ∃ k, tokens[k]? = some x.2 ∧ x.1 = (line, (text (tokens.take k)).length + 1) := by
  obtain ⟨place, token⟩ := x
  simp only [placed, List.mem_map, Prod.exists, List.mk_mem_zipIdx_iff_getElem?, Prod.mk.injEq]
  constructor
  · rintro ⟨token', k, hget, hplace, rfl⟩
    exact ⟨k, hget, hplace.symm⟩
  · rintro ⟨k, hget, hplace⟩
    exact ⟨token, k, hget, hplace.symm, rfl⟩

theorem column_le_of_mem_placed {line : Nat} {tokens : List Token} {x : (Nat × Nat) × Token}
    (h : x ∈ placed line tokens) : x.1.2 + x.2.lexeme.length ≤ (text tokens).length + 1 := by
  rw [placed_eq] at h
  obtain ⟨y, hy, rfl⟩ := List.mem_map.mp h
  have hbounds := le_of_mem_withColumnsFrom hy
  dsimp only
  omega

theorem pairwise_placed {tokens : List Token} (h : ∀ token ∈ tokens, token.lexeme ≠ [])
    (line : Nat) : (placed line tokens).Pairwise (fun x y => Earlier x.1 y.1) := by
  rw [placed_eq, List.pairwise_map]
  apply (pairwise_withColumnsFrom h 1).imp
  intro x y hlt
  exact .inr ⟨rfl, hlt⟩

end Token

namespace Problem

def place (problem : Problem) : Nat × Nat := (problem.line, problem.column)

/-- What is reported about a token of an error kind. -/
def ofPlaced (x : (Nat × Nat) × Token) : Problem :=
  ⟨x.1.1, x.1.2,
    if x.2.kind = .badString then .unterminated x.2.lexeme else .unexpected x.2.lexeme⟩

theorem ofLine_eq (line : Nat) (tokens : List Token) :
    ofLine line tokens =
      ((Token.placed line tokens).filter fun x => x.2.kind.isError).map ofPlaced := by
  rw [ofLine, Token.placed_eq]
  induction Token.withColumns tokens with
  | nil => rfl
  | cons x rest ih =>
    obtain ⟨column, kind, lexeme⟩ := x
    rw [List.filterMap_cons, List.map_cons, List.filter_cons, ih]
    cases kind <;> rfl

theorem ofLines_eq (line : Nat) (lines : List (List Token)) :
    ofLines line lines =
      (((lines.zipIdx line).flatMap fun (tokens, line) => Token.placed line tokens).filter
        fun x => x.2.kind.isError).map ofPlaced := by
  induction lines generalizing line with
  | nil => rfl
  | cons tokens rest ih =>
    rw [ofLines, ofLine_eq, ih, List.zipIdx_cons, List.flatMap_cons, List.filter_append,
      List.map_append]

end Problem

theorem pairwise_zipIdx {α : Type} (xs : List α) (n : Nat) :
    (xs.zipIdx n).Pairwise (fun x y => x.2 < y.2) := by
  have hrange := List.pairwise_lt_range' (s := n) (n := xs.length) 1
  rwa [← List.zipIdx_map_snd, List.pairwise_map] at hrange

theorem Line.lexeme_ne_nil {mode : Mode} {text : List Char} {token : Token}
    (h : token ∈ tokens mode text) : token.lexeme ≠ [] := by
  obtain ⟨call, hcall, rfl⟩ := List.mem_map.mp h
  obtain ⟨rest, hrequests, -⟩ := requests_of_lexFrom (List.append_nil (read mode text)).symm
  exact hrequests.lexeme_ne_nil call hcall

theorem Lines.dropFinal_length_le (c : Char) (text : List Char) :
    (dropFinal c text).length ≤ text.length := by
  unfold dropFinal
  split
  · rw [List.length_dropLast]
    exact Nat.sub_le _ _
  · exact Nat.le_refl _

theorem Line.text_tokens_length_le (mode : Mode) (text : List Char) :
    (Token.text (tokens mode text)).length ≤ text.length := by
  rw [text_tokens]
  exact Nat.le_trans (Lines.dropFinal_length_le _ _) (Lines.dropFinal_length_le _ _)

namespace Document

/-- Every token of a document with its place. -/
def placedTokens (doc : Document) : List ((Nat × Nat) × Token) :=
  (doc.lineTokens.zipIdx 1).flatMap fun (tokens, line) => Token.placed line tokens

theorem mem_placedTokens_iff {doc : Document} {x : (Nat × Nat) × Token} :
    x ∈ doc.placedTokens ↔ ∃ i tokens k, doc.lineTokens[i]? = some tokens ∧
      tokens[k]? = some x.2 ∧ x.1 = (i + 1, (Token.text (tokens.take k)).length + 1) := by
  simp only [placedTokens, List.mem_flatMap, Prod.exists, Token.mem_placed_iff,
    List.mk_mem_zipIdx_iff_le_and_getElem?_sub]
  constructor
  · rintro ⟨tokens, line, ⟨hline, hget⟩, k, htoken, hplace⟩
    refine ⟨line - 1, tokens, k, hget, htoken, ?_⟩
    rwa [Nat.sub_add_cancel hline]
  · rintro ⟨i, tokens, k, hget, htoken, hplace⟩
    exact ⟨tokens, i + 1, ⟨Nat.le_add_left 1 i, hget⟩, k, htoken, hplace⟩

theorem pairwise_placedTokens (doc : Document) :
    doc.placedTokens.Pairwise (fun x y => Earlier x.1 y.1) := by
  apply List.pairwise_flatMap.mpr
  constructor
  · rintro ⟨tokens, line⟩ hmem
    apply Token.pairwise_placed
    intro token htoken
    obtain ⟨-, hget⟩ := List.mk_mem_zipIdx_iff_le_and_getElem?_sub.mp hmem
    obtain ⟨mode, text, -, -, rfl⟩ := lineTokens_getElem? hget
    exact Line.lexeme_ne_nil htoken
  · apply (pairwise_zipIdx doc.lineTokens 1).imp
    intro a b hlt x hx y hy
    obtain ⟨k, -, hxplace⟩ := Token.mem_placed_iff.mp hx
    obtain ⟨l, -, hyplace⟩ := Token.mem_placed_iff.mp hy
    left
    rw [hxplace, hyplace]
    exact hlt

theorem map_snd_placedTokens (doc : Document) :
    doc.placedTokens.map Prod.snd = doc.lineTokens.flatten := by
  have hline : ∀ x : List Token × Nat, (Token.placed x.2 x.1).map Prod.snd = x.1 := by
    rintro ⟨tokens, line⟩
    rw [Token.placed_eq, List.map_map]
    exact Token.map_snd_withColumnsFrom 1 tokens
  rw [placedTokens, List.map_flatMap, List.flatMap_def,
    ← congrArg List.flatten (List.zipIdx_map_fst 1 doc.lineTokens)]
  exact congrArg List.flatten (List.map_congr_left fun x _ => hline x)

theorem problems_eq (doc : Document) :
    doc.problems = (doc.placedTokens.filter fun x => x.2.kind.isError).map Problem.ofPlaced ++
      doc.problemAtEnd?.toList := by
  rw [problems, Problem.ofLines_eq]
  rfl

/-- What is open at the end is reported behind every token, also behind a terminator that the last
line still carries. -/
theorem earlier_than_end {doc : Document} {x : (Nat × Nat) × Token} (hx : x ∈ doc.placedTokens)
    {problem : Problem} (hend : doc.problemAtEnd? = some problem) : Earlier x.1 problem.place := by
  obtain ⟨i, tokens, k, hget, htoken, hplace⟩ := mem_placedTokens_iff.mp hx
  obtain ⟨mode, text, -, hline, rfl⟩ := lineTokens_getElem? hget
  have hi : i < doc.lineCount := line?_isSome_iff.mp (by rw [hline]; rfl)
  have hcolumn := Token.column_le_of_mem_placed (Token.mem_placed_iff.mpr ⟨k, htoken, hplace⟩)
  have hlexeme := List.length_pos_iff.mpr (Line.lexeme_ne_nil (List.mem_of_getElem? htoken))
  have hlength := Line.text_tokens_length_le mode text
  obtain ⟨cause, -, rfl⟩ := Option.map_eq_some_iff.mp hend
  -- on the last line the token has to end within the stored text, elsewhere the line decides
  rcases Nat.lt_or_ge (i + 1) doc.lineCount with hbefore | hlast
  · left
    rw [hplace]
    show i + 1 < max doc.lineCount 1
    omega
  · right
    have htext : doc.lines.getLast? = some text := by
      have hcount : doc.lines.length = doc.lineCount := List.length_map _
      rw [List.getLast?_eq_getElem?, hcount, show doc.lineCount - 1 = i by omega]
      exact hline
    rw [Problem.place, htext, Option.getD_some]
    constructor
    · rw [hplace]
      show i + 1 = max doc.lineCount 1
      omega
    · dsimp only
      omega

theorem pairwise_problems (doc : Document) :
    doc.problems.Pairwise (fun p q => Earlier p.place q.place) := by
  rw [problems_eq, List.pairwise_append]
  refine ⟨?_, ?_, ?_⟩
  · rw [List.pairwise_map]
    exact doc.pairwise_placedTokens.filter _
  · cases doc.problemAtEnd? with
    | none => exact .nil
    | some problem => exact List.pairwise_singleton _ problem
  · intro p hp q hq
    obtain ⟨x, hx, rfl⟩ := List.mem_map.mp hp
    exact earlier_than_end (List.mem_filter.mp hx).1 (Option.mem_toList.mp hq)

theorem eq_of_place_eq {doc : Document} {x y : (Nat × Nat) × Token} (hx : x ∈ doc.placedTokens)
    (hy : y ∈ doc.placedTokens) (h : x.1 = y.1) : x = y := by
  obtain ⟨i, hi, rfl⟩ := List.mem_iff_getElem.mp hx
  obtain ⟨j, hj, rfl⟩ := List.mem_iff_getElem.mp hy
  have hpairwise := List.pairwise_iff_getElem.mp doc.pairwise_placedTokens
  rcases Nat.lt_trichotomy i j with hlt | rfl | hlt
  · exact absurd h (hpairwise i j hi hj hlt).ne
  · rfl
  · exact absurd h.symm (hpairwise j i hj hi hlt).ne

/-- A problem stands at a token exactly if the token is of an error kind. -/
theorem exists_problem_at_iff {doc : Document} {x : (Nat × Nat) × Token}
    (hx : x ∈ doc.placedTokens) :
    (∃ problem ∈ doc.problems, problem.place = x.1) ↔ x.2.kind.isError = true := by
  rw [problems_eq]
  constructor
  · rintro ⟨problem, hmem, hplace⟩
    rcases List.mem_append.mp hmem with htoken | hend
    · obtain ⟨y, hy, rfl⟩ := List.mem_map.mp htoken
      obtain ⟨hy, herror⟩ := List.mem_filter.mp hy
      rwa [eq_of_place_eq hx hy hplace.symm]
    · exact absurd hplace.symm (earlier_than_end hx (Option.mem_toList.mp hend)).ne
  · intro herror
    refine ⟨Problem.ofPlaced x, List.mem_append_left _ (List.mem_map_of_mem ?_), rfl⟩
    exact List.mem_filter.mpr ⟨hx, herror⟩

/-- What is reported behind the tokens of a document, if anything is open at its end. -/
inductive Remainder (doc : Document) : List Problem → Prop where
  | closed : doc.endMode = .normal → Remainder doc []
  | gap {text : List Char} : doc.endMode = .stringGap → doc.lines.getLast? = some text →
      Remainder doc [⟨doc.lineCount, text.length + 1, .openGap⟩]
  | comment {kind : CommentKind} {depth : Depth} {text : List Char} :
      doc.endMode = .blockComment kind depth → doc.lines.getLast? = some text →
      Remainder doc [⟨doc.lineCount, text.length + 1, .openComments depth⟩]

theorem exists_last_line {doc : Document} (h : doc.endMode ≠ .normal) :
    ∃ text, doc.lines.getLast? = some text ∧ max doc.lineCount 1 = doc.lineCount := by
  obtain ⟨entries⟩ := doc
  rcases List.eq_nil_or_concat entries with rfl | ⟨front, entry, rfl⟩
  · exact absurd rfl h
  · refine ⟨entry.text, by simp [lines], ?_⟩
    rw [lineCount, List.length_concat]
    omega

theorem Reachable.remainder {doc : Document} (h : Reachable doc) :
    Remainder doc doc.problemAtEnd?.toList := by
  unfold problemAtEnd?
  cases hmode : doc.endMode with
  | normal => exact .closed hmode
  | string => exact absurd hmode h.endMode_ne_string
  | stringGap =>
    have hopen : doc.endMode ≠ .normal := by
      rw [hmode]
      exact Mode.noConfusion
    obtain ⟨text, htext, hcount⟩ := exists_last_line hopen
    rw [htext, hcount]
    exact .gap hmode htext
  | blockComment kind depth =>
    have hopen : doc.endMode ≠ .normal := by
      rw [hmode]
      exact Mode.noConfusion
    obtain ⟨text, htext, hcount⟩ := exists_last_line hopen
    rw [htext, hcount]
    exact .comment hmode htext

theorem Remainder.eq_nil_iff {doc : Document} {last : List Problem} (h : Remainder doc last) :
    last = [] ↔ doc.endMode = .normal := by
  cases h with
  | closed hmode => exact iff_of_true rfl hmode
  | gap hmode =>
    rw [hmode]
    exact iff_of_false (List.cons_ne_nil _ _) Mode.noConfusion
  | comment hmode =>
    rw [hmode]
    exact iff_of_false (List.cons_ne_nil _ _) Mode.noConfusion

theorem problems_eq_nil_iff {doc : Document} (h : Reachable doc) :
    doc.problems = [] ↔
      (∀ tokens ∈ doc.lineTokens, ∀ token ∈ tokens, token.kind.isError = false) ∧
        doc.endMode = .normal := by
  rw [problems_eq, List.append_eq_nil_iff, List.map_eq_nil_iff, List.filter_eq_nil_iff,
    h.remainder.eq_nil_iff]
  have htokens : (∀ x ∈ doc.placedTokens, ¬x.2.kind.isError = true) ↔
      ∀ token ∈ doc.lineTokens.flatten, token.kind.isError = false := by
    rw [← map_snd_placedTokens, List.forall_mem_map]
    simp only [Bool.not_eq_true]
  rw [htokens, List.forall_mem_flatten]

theorem message_of_openComments {doc : Document} (h : Reachable doc) {problem : Problem}
    (hmem : problem ∈ doc.problems) {depth : Depth} (hcause : problem.cause = .openComments depth) :
    problem.cause.message = Nat.toDigits 10 doc.endMode.commentDepth ++
      " block comment(s) still open at end of file".toList := by
  rw [problems_eq] at hmem
  rcases List.mem_append.mp hmem with htoken | hend
  · obtain ⟨x, -, rfl⟩ := List.mem_map.mp htoken
    unfold Problem.ofPlaced at hcause
    dsimp only at hcause
    split at hcause <;> cases hcause
  · generalize hlast : doc.problemAtEnd?.toList = last at hend
    have hremainder := h.remainder
    rw [hlast] at hremainder
    cases hremainder with
    | closed => cases hend
    | gap =>
      obtain rfl := List.mem_singleton.mp hend
      cases hcause
    | comment hmode =>
      obtain rfl := List.mem_singleton.mp hend
      rw [hmode]
      rfl

/-- The problems of a document are those of its tokens and of what its end leaves open. -/
structure ListsProblems (doc : Document) (found : List Problem) : Prop where
  /-- Each token of the document is placed once. -/
  places_tokens : doc.placedTokens.map Prod.snd = doc.lineTokens.flatten
  exact_list : ∃ last, Remainder doc last ∧
    found = (doc.placedTokens.filter fun x => x.2.kind.isError).map Problem.ofPlaced ++ last
  increasing : found.Pairwise fun p q => Earlier p.place q.place
  names_depth : ∀ problem ∈ found, ∀ depth, problem.cause = .openComments depth →
    problem.cause.message = Nat.toDigits 10 doc.endMode.commentDepth ++
      " block comment(s) still open at end of file".toList
  empty_iff : found = [] ↔
    (∀ tokens ∈ doc.lineTokens, ∀ token ∈ tokens, token.kind.isError = false) ∧
      doc.endMode = .normal

/-- The problems are exact and in reading order, whatever edits led to the document. -/
theorem listsProblems_of_reachable {doc : Document} (h : Reachable doc) :
    ListsProblems doc doc.problems where
  places_tokens := doc.map_snd_placedTokens
  exact_list := ⟨_, h.remainder, doc.problems_eq⟩
  increasing := doc.pairwise_problems
  names_depth := fun _ hmem _ hcause => message_of_openComments h hmem hcause
  empty_iff := problems_eq_nil_iff h

/-- Two stray characters on one line, then a pragma inside a comment. The last line keeps the
terminator that it was given, and what is open stands behind it. -/
theorem listsProblems_of_edited_text :
    let doc := (ofLines ["\u00a7\u00a7".toList, "x".toList]).afterAll
      [.replace 1 "\x7b-\x7b-#\r".toList, .remove 7]
    ListsProblems doc doc.problems ∧ doc.problems =
      [⟨1, 1, .unexpected ['\u00a7']⟩, ⟨1, 2, .unexpected ['\u00a7']⟩,
        ⟨2, 7, .openComments ⟨2, by decide, by decide⟩⟩] := by
  intro doc
  exact ⟨listsProblems_of_reachable ((Reachable.lines _).afterAll _), by decide +kernel⟩

end Document

end BoardHighlight
