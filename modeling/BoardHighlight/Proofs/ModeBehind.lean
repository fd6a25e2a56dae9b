import BoardHighlight.Proofs.CommentNesting
import BoardHighlight.Proofs.Relexing
import BoardHighlight.Proofs.SelfDelimiting

/-!
# The mode behind a token

A string is read to its end, to a gap or to the end of the line within one request, so the mode of
strings is entered and left inside a token and stands behind none. It is therefore never carried
from one line to the next, and no document keeps it. The mode of comments stands behind a token only
where nothing of the line is left.
-/

namespace BoardHighlight
set_option autoImplicit false

/-- The token is of one of the kinds, and ordinary code goes on behind it. -/
def Cut.Returns (kinds : List Kind) (cut : Cut) : Prop := cut.kind ∈ kinds ∧ cut.next = .normal

theorem Cut.returns_normal {kinds : List Kind} {kind : Kind} (h : kind ∈ kinds) (size : Nat) :
    (normal kind size).Returns kinds := ⟨h, rfl⟩

theorem Name.upperCut_returns (rest : List Char) :
    (upperCut rest).Returns [.qualifier, .typeOrConstructor] := by
  unfold upperCut
  dsimp only
  split <;> exact Cut.returns_normal (by decide) _

theorem Number.cut_returns (cs : List Char) : (Number.cut cs).Returns [.integer, .number] := by
  unfold Number.cut
  repeat' split
  all_goals exact Cut.returns_normal (by decide) _

theorem Operator.cut_returns (first : Char) (rest : List Char) :
    (Operator.cut first rest).Returns [.keyword, .comment, .identifier, .typeOrConstructor] := by
  have hgeneric : genericKind first ∈ [.keyword, .comment, .identifier, .typeOrConstructor] := by
    unfold genericKind
    split <;> decide
  unfold Operator.cut
  dsimp only
  repeat' split
  all_goals first
    | exact Cut.returns_normal hgeneric _
    | exact Cut.returns_normal (by decide) _

theorem StringLiteral.charCut_returns (rest : List Char) :
    (charCut rest).Returns [.string, .badString] := by
  unfold charCut
  dsimp only
  repeat' split
  all_goals exact Cut.returns_normal (by decide) _

theorem StringLiteral.bodyCut_next (ends : Bool) (cs : List Char) :
    (bodyCut ends cs).next = .normal ∨ (bodyCut ends cs).next = .stringGap := by
  fun_induction bodyCut ends cs with
  | case1 => exact .inl rfl
  | case2 => exact .inl rfl
  | case3 => exact .inr rfl
  | case4 => exact .inl rfl
  | case5 => exact .inr rfl
  | case6 c _ _ escaped rest _ ih => exact ih
  | case7 c rest _ _ ih => exact ih

/-- What ordinary code makes of a character and of what stands behind it. -/
inductive Ordinary (c : Char) (rest : List Char) : Step → Prop where
  | blanks : isBlank c = true →
      Ordinary c rest (.emit (.normal .plain (runLength isBlank (c :: rest))))
  | comment : c = '{' → rest.head? = some '-' → rest.tail.head? ≠ some '#' →
      Ordinary c rest (.enter 2 (.opened .ordinary))
  | pragma : c = '{' → rest.head? = some '-' → rest.tail.head? = some '#' →
      Ordinary c rest (.enter 3 (.opened .pragma))
  | mark : isPunctuation c = true → Ordinary c rest (.emit (.normal .plain 1))
  | character : c = '\'' → Ordinary c rest (.emit (StringLiteral.charCut rest))
  | string : c = '"' → Ordinary c rest (.enter 1 .string)
  | upper : isUpperStart c = true → Ordinary c rest (.emit (Name.upperCut rest))
  | lower : isLowerStart c = true → Ordinary c rest (.emit (Name.lowerCut rest))
  | number : isDigit c = true → Ordinary c rest (.emit (Number.cut (c :: rest)))
  | operator : isOperatorSymbol c = true → Ordinary c rest (.emit (Operator.cut c rest))
  | stray : isUpperStart c = false → isLowerStart c = false → isOperatorSymbol c = false →
      Ordinary c rest (.emit (.normal .invalid 1))

theorem ordinary_punctuationStep {c : Char} (h : isPunctuation c = true) (rest : List Char) :
    Ordinary c rest (punctuationStep c rest) := by
  unfold punctuationStep
  split
  · rename_i hopener
    simp only [Bool.and_eq_true, beq_iff_eq] at hopener
    split
    · exact .pragma hopener.1 hopener.2 (beq_iff_eq.mp ‹_›)
    · rename_i hhash
      exact .comment hopener.1 hopener.2 (by simpa using hhash)
  · exact .mark h

theorem ordinary_normalStep (c : Char) (rest : List Char) :
    Ordinary c rest (normalStep (c :: rest)) := by
  rw [normalStep_cons]
  split
  · exact .blanks ‹_›
  split
  · exact ordinary_punctuationStep ‹_› rest
  split
  · exact .character (beq_iff_eq.mp ‹_›)
  split
  · exact .string (beq_iff_eq.mp ‹_›)
  split
  · exact .upper ‹_›
  split
  · exact .lower ‹_›
  split
  · exact .number ‹_›
  split
  · exact .operator ‹_›
  · rename_i hupper hlower _ hoperator
    exact .stray (Bool.eq_false_iff.mpr hupper) (Bool.eq_false_iff.mpr hlower)
      (Bool.eq_false_iff.mpr hoperator)

/-- A token that ordinary code emits leaves the lexer in ordinary code. -/
theorem Ordinary.next_eq {c : Char} {rest : List Char} {cut : Cut}
    (h : Ordinary c rest (.emit cut)) : cut.next = .normal := by
  cases h with
  | blanks => rfl
  | mark => rfl
  | character => exact (StringLiteral.charCut_returns rest).2
  | upper => exact (Name.upperCut_returns rest).2
  | lower => rfl
  | number => exact (Number.cut_returns _).2
  | operator => exact (Operator.cut_returns c rest).2
  | stray => rfl

theorem next_of_normalStep {cs : List Char} {cut : Cut} (h : normalStep cs = .emit cut) :
    cut.next = .normal := by
  cases cs with
  | nil => cases h; rfl
  | cons c rest =>
    have hordinary := ordinary_normalStep c rest
    rw [h] at hordinary
    exact hordinary.next_eq

theorem StringLiteral.next_of_gapStep {ends : Bool} {cs : List Char} {cut : Cut}
    (h : gapStep ends cs = .emit cut) : cut.next = .normal ∨ cut.next = .stringGap := by
  unfold gapStep at h
  dsimp only at h
  repeat' split at h
  all_goals cases h
  · exact .inr rfl
  · exact .inl rfl
  · exact .inl rfl

/-- The modes that a token may leave behind it, with `rest` still to be read of the line. -/
inductive Mode.Behind (rest : List Char) : Mode → Prop where
  | code : Behind rest .normal
  | gap : Behind rest .stringGap
  | comment (kind : CommentKind) (depth : Depth) : rest = [] → Behind rest (.blockComment kind depth)

theorem Mode.Behind.ne_string {rest : List Char} {mode : Mode} (h : Behind rest mode) :
    mode ≠ .string := by
  cases h <;> exact Mode.noConfusion

theorem Mode.behind_of_or {mode : Mode} (h : mode = .normal ∨ mode = .stringGap) (rest : List Char) :
    Behind rest mode := by
  rcases h with rfl | rfl
  · exact .code
  · exact .gap

/-- A comment is left open only at the end of the text. -/
theorem BlockComment.behind_cut (kind : CommentKind) (depth : Depth) (cs : List Char) :
    (BlockComment.cut kind depth cs).next.Behind (cs.drop (BlockComment.cut kind depth cs).size) := by
  obtain ⟨back, hback, hopen⟩ := extent_append depth.val cs
  have hdrop : cs.drop (extent depth.val cs).length = back := by
    conv => lhs; arg 2; rw [hback]
    exact List.drop_left
  rw [cut_eq, hdrop]
  by_cases hzero : depthAfter depth.val cs = 0
  · rw [hzero]
    exact .code
  · obtain ⟨left, hleft⟩ := exists_depth (Nat.pos_of_ne_zero hzero) (depthBehind_le depth.le_limit _)
    rw [← hleft, CommentKind.modeAt_val]
    exact .comment kind left (hopen hzero)

namespace Mode

theorem behind_of_step {ends : Bool} {mode : Mode} {cs : List Char} {cut : Cut}
    (h : mode.step ends cs = .emit cut) : cut.next.Behind (cs.drop cut.size) := by
  cases mode with
  | normal => exact behind_of_or (.inl (next_of_normalStep h)) _
  | string =>
    cases h
    exact behind_of_or (StringLiteral.bodyCut_next ends cs) _
  | stringGap => exact behind_of_or (StringLiteral.next_of_gapStep h) _
  | blockComment kind depth =>
    cases h
    exact BlockComment.behind_cut kind depth cs

theorem behind_cut (ends : Bool) (mode : Mode) (cs : List Char) :
    (mode.cut ends cs).next.Behind (cs.drop (mode.cut ends cs).size) := by
  fun_induction Mode.cut ends mode cs with
  | case1 mode cs cut h => exact behind_of_step h
  | case2 mode cs size next h ih =>
    rw [Cut.shift_next, Cut.shift_size, ← List.drop_drop]
    exact ih

end Mode

theorem behind_of_nextToken? {mode next : Mode} {cs : List Char} {token : Token}
    (h : nextToken? true mode cs = some (token, next)) :
    next.Behind (cs.drop token.lexeme.length) := by
  have hne : cs ≠ [] := by
    rintro rfl
    cases h
  rw [(nextToken?_eq true mode hne).2] at h
  cases h
  have hdrop : cs.drop (cs.take (mode.cut true cs).size).length =
      cs.drop (mode.cut true cs).size := by
    rw [List.drop_eq_drop_iff, List.length_take]
    omega
  rw [hdrop]
  exact mode.behind_cut true cs

theorem Requests.ne_string {mode last : Mode} {cs rest : List Char} {read : List (Token × Mode)}
    (h : Requests mode cs read last rest) (hmode : mode ≠ .string) : last ≠ .string := by
  induction h with
  | done => exact hmode
  | next hnext _ ih => exact ih (behind_of_nextToken? hnext).ne_string

namespace Line

theorem endMode_ne_string {mode : Mode} (hmode : mode ≠ .string) (text : List Char) :
    endMode mode text ≠ .string := by
  obtain ⟨rest, hrequests, -⟩ := requests_of_lexFrom (List.append_nil (read mode text)).symm
  exact hrequests.ne_string hmode

theorem carry_ne_string {mode : Mode} (hmode : mode ≠ .string) (texts : List (List Char)) :
    carry mode texts ≠ .string := by
  induction texts generalizing mode with
  | nil => exact hmode
  | cons text texts ih => exact ih (endMode_ne_string hmode text)

end Line

namespace Document

/-- No document keeps the mode of strings. -/
theorem Reachable.modeBefore?_ne_string {doc : Document} (h : Reachable doc) {i : Nat} {mode : Mode}
    (hmode : doc.modeBefore? i = some mode) : mode ≠ .string := by
  have hi : i ≤ doc.lineCount := modeBefore?_isSome_iff.mp (by rw [hmode]; rfl)
  rw [h.consistent.modeBefore?_eq hi] at hmode
  cases hmode
  exact Line.carry_ne_string Mode.noConfusion _

theorem Reachable.endMode_ne_string {doc : Document} (h : Reachable doc) : doc.endMode ≠ .string :=
  h.modeBefore?_ne_string h.consistent.lexedAfresh.last_mode

end Document

end BoardHighlight
