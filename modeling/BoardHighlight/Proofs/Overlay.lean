import BoardHighlight.Proofs.CommentNesting
import BoardHighlight.Proofs.HiddenErrors

/-!
# What the overlay decides

A token is a keyword or a builtin exactly if its lexeme is listed as one, whatever mode it was read
in. In ordinary code every kind has its own first characters, and those of the reserved words belong
to names and operators: the overlay replaces no other kind there. Within a block comment a lexeme
with a closer in it is no reserved word, so the word has to be all that is left of the line.
-/

namespace BoardHighlight
set_option autoImplicit false

namespace Reserved

theorem first_of_mem_all : ∀ word ∈ all, (word.toList.head?.all fun c =>
    !(isBlank c || isPunctuation c || isDigit c)) = true := by
  decide

/-- No reserved word opens a line comment, one that starts with a capital holds no dot, and none
holds the sign that closes a comment. -/
theorem shape_of_mem_all : ∀ word ∈ all, word.toList.take 2 ≠ ['-', '-'] ∧
    ((word.toList.head?.all fun c => !isUpperStart c) = true ∨ '.' ∉ word.toList) ∧
    '}' ∉ word.toList := by
  decide

theorem first_of_reserved {c : Char} {rest : List Char} (h : String.ofList (c :: rest) ∈ all) :
    isBlank c = false ∧ isPunctuation c = false ∧ isDigit c = false := by
  have hfirst := first_of_mem_all _ h
  rw [String.toList_ofList] at hfirst
  simpa [and_assoc] using hfirst

theorem mem_all_iff {word : String} : word ∈ all ↔ word ∈ keywords ∨ word ∈ builtins :=
  List.mem_append

theorem mem_builtins_iff {word : String} :
    word ∈ builtins ↔
      word ∈ builtinOperators ∨ word ∈ builtinTypes ∨ word ∈ builtinFunctions := by
  rw [builtins, List.mem_append, List.mem_append, or_assoc]

theorem not_mem_builtins {word : String} (h : word ∈ keywords) : word ∉ builtins := by
  intro hbuiltin
  have hdisjoint := (List.nodup_append.mp nodup_all).2.2
  exact hdisjoint word h word hbuiltin rfl

theorem kind?_ne_none_iff {lexeme : List Char} :
    kind? lexeme ≠ none ↔ String.ofList lexeme ∈ all := by
  constructor
  · exact mem_all_of_kind?
  · intro hmem
    unfold kind?
    rcases mem_all_iff.mp hmem with hkeyword | hbuiltin
    · rw [if_pos hkeyword]
      exact Option.some_ne_none _
    · by_cases hkeyword : String.ofList lexeme ∈ keywords
      · rw [if_pos hkeyword]
        exact Option.some_ne_none _
      · rw [if_neg hkeyword, if_pos hbuiltin]
        exact Option.some_ne_none _

section Classify
variable {lexeme : List Char} {generic : Kind}

theorem classify_of_mem_keywords (h : String.ofList lexeme ∈ keywords) :
    classify lexeme generic = .keyword := by
  unfold classify kind?
  rw [if_pos h]
  rfl

theorem classify_of_mem_builtins (h : String.ofList lexeme ∈ builtins) :
    classify lexeme generic = .builtin := by
  have hkeyword : String.ofList lexeme ∉ keywords := fun hmem => not_mem_builtins hmem h
  unfold classify kind?
  rw [if_neg hkeyword, if_pos h]
  rfl

theorem classify_of_not_mem (h : String.ofList lexeme ∉ all) : classify lexeme generic = generic := by
  have hnone : kind? lexeme = none := by
    apply Decidable.byContradiction
    intro hsome
    exact h (kind?_ne_none_iff.mp hsome)
  rw [classify, hnone]
  rfl

/-- The overlay makes a keyword of a listed word only, unless the lexeme was one before. -/
theorem classify_eq_keyword_iff (h : generic = .keyword → String.ofList lexeme ∈ keywords) :
    classify lexeme generic = .keyword ↔ String.ofList lexeme ∈ keywords := by
  constructor
  · intro hkind
    by_cases hmem : String.ofList lexeme ∈ all
    · rcases mem_all_iff.mp hmem with hkeyword | hbuiltin
      · exact hkeyword
      · rw [classify_of_mem_builtins hbuiltin] at hkind
        cases hkind
    · rw [classify_of_not_mem hmem] at hkind
      exact h hkind
  · exact classify_of_mem_keywords

theorem classify_eq_builtin_iff (h : generic ≠ .builtin) :
    classify lexeme generic = .builtin ↔ String.ofList lexeme ∈ builtins := by
  constructor
  · intro hkind
    by_cases hmem : String.ofList lexeme ∈ all
    · rcases mem_all_iff.mp hmem with hkeyword | hbuiltin
      · rw [classify_of_mem_keywords hkeyword] at hkind
        cases hkind
      · exact hbuiltin
    · rw [classify_of_not_mem hmem] at hkind
      exact absurd hkind h
  · exact classify_of_mem_builtins

/-- A kind that the overlay never gives is replaced exactly if the lexeme is listed. -/
theorem classify_ne_iff (hkeyword : generic ≠ .keyword) (hbuiltin : generic ≠ .builtin) :
    classify lexeme generic ≠ generic ↔ String.ofList lexeme ∈ all := by
  constructor
  · intro hne
    apply Decidable.byContradiction
    intro hmem
    exact hne (classify_of_not_mem hmem)
  · intro hmem
    rcases mem_all_iff.mp hmem with hlisted | hlisted
    · rw [classify_of_mem_keywords hlisted]
      exact hkeyword.symm
    · rw [classify_of_mem_builtins hlisted]
      exact hbuiltin.symm

end Classify

end Reserved

/-- What a mode gives before the overlay: no builtin, and as keyword the two dots only. -/
def Cut.Generic (cs : List Char) (cut : Cut) : Prop :=
  cut.kind ≠ .builtin ∧ (cut.kind = .keyword → cs.take cut.size = ['.', '.'])

theorem Cut.generic_of_ne {cut : Cut} (h : cut.kind ≠ .builtin ∧ cut.kind ≠ .keyword)
    (cs : List Char) : cut.Generic cs :=
  ⟨h.1, fun hkeyword => absurd hkeyword h.2⟩

theorem Cut.Returns.generic {kinds : List Kind} {cut : Cut} (h : cut.Returns kinds)
    (hkinds : ∀ kind ∈ kinds, kind ≠ .builtin ∧ kind ≠ .keyword) (cs : List Char) :
    cut.Generic cs :=
  Cut.generic_of_ne (hkinds _ h.1) cs

namespace Operator

theorem genericKind_cases (first : Char) :
    genericKind first = .identifier ∨ genericKind first = .typeOrConstructor := by
  unfold genericKind
  split
  · exact Or.inr rfl
  · exact Or.inl rfl

/-- The three shapes of what an operator symbol starts. -/
theorem cut_cases (first : Char) (rest : List Char) :
    (Operator.cut first rest = .normal .keyword 2 ∧
      (first :: rest).take 2 = ['.', '.']) ∨
    (Operator.cut first rest = .normal .comment (1 + rest.length) ∧
      (first :: rest).take 2 = ['-', '-']) ∨
    (Operator.cut first rest).kind = .identifier ∨
    (Operator.cut first rest).kind = .typeOrConstructor := by
  have htwo : ∀ c, rest.head? = some c → (first :: rest).take 2 = [first, c] := by
    intro c hhead
    obtain ⟨tail, rfl⟩ := List.head?_eq_some_iff.mp hhead
    rfl
  by_cases hdots : first = '.' ∧ rest.head? = some '.'
  · refine Or.inl ⟨cut_of_dots hdots, ?_⟩
    rw [htwo _ hdots.2, hdots.1]
  by_cases hcomment : OpensComment first rest
  · refine Or.inr (Or.inl ⟨cut_of_comment hcomment, ?_⟩)
    rw [htwo _ hcomment.2.1, hcomment.1]
  · rw [cut_of_run hdots hcomment, Cut.normal_kind]
    exact Or.inr (Or.inr (genericKind_cases first))

end Operator

theorem Name.upperCut_cases (c : Char) (rest : List Char) :
    (upperCut rest).kind = .typeOrConstructor ∨ '.' ∈ (c :: rest).take (upperCut rest).size := by
  unfold upperCut
  dsimp only
  split
  · rename_i hdot
    right
    obtain ⟨tail, htail⟩ := List.head?_eq_some_iff.mp (beq_iff_eq.mp hdot)
    have hrest : rest = rest.takeWhile isIdentContinue ++ '.' :: tail := by
      rw [← htail, List.takeWhile_append_dropWhile]
    have hlexeme : rest.take (runLength isIdentContinue rest + 1) =
        rest.takeWhile isIdentContinue ++ ['.'] := by
      conv => lhs; arg 2; rw [hrest]
      rw [runLength, List.take_length_add_append]
      rfl
    rw [Cut.normal_size, Nat.add_comm 1, List.take_succ_cons, hlexeme]
    simp
  · exact Or.inl rfl

namespace Ordinary
variable {c : Char} {rest : List Char} {cut : Cut}

theorem generic (h : Ordinary c rest (.emit cut)) : cut.Generic (c :: rest) := by
  cases h with
  | blanks => exact Cut.generic_of_ne (by simp) _
  | mark => exact Cut.generic_of_ne (by simp) _
  | character => exact (StringLiteral.charCut_returns rest).generic (by decide) _
  | upper => exact (Name.upperCut_returns rest).generic (by decide) _
  | lower => exact Cut.generic_of_ne (by simp [Name.lowerCut]) _
  | number => exact (Number.cut_returns _).generic (by decide) _
  | operator =>
    rcases Operator.cut_cases c rest with ⟨hcut, hdots⟩ | ⟨hcut, -⟩ | hkind | hkind
    · rw [hcut]
      exact ⟨by simp, fun _ => hdots⟩
    · exact Cut.generic_of_ne (by simp [hcut]) _
    · exact Cut.generic_of_ne (by simp [hkind]) _
    · exact Cut.generic_of_ne (by simp [hkind]) _
  | stray => exact Cut.generic_of_ne (by simp) _

/-- In ordinary code a reserved word is a name or an operator, or the two dots. -/
theorem reserved_cases (h : Ordinary c rest (.emit cut)) {tail : List Char}
    (hlexeme : (c :: rest).take cut.size = c :: tail)
    (hreserved : String.ofList (c :: tail) ∈ Reserved.all) :
    cut.kind = .identifier ∨ cut.kind = .typeOrConstructor ∨
      cut.kind = .keyword ∧ c :: tail = ['.', '.'] := by
  have hkind : Reserved.kind? (c :: tail) ≠ none := Reserved.kind?_ne_none_iff.mpr hreserved
  obtain ⟨hblank, hmark, hdigit⟩ := Reserved.first_of_reserved hreserved
  obtain ⟨hdashes, hdot, -⟩ := Reserved.shape_of_mem_all _ hreserved
  rw [String.toList_ofList] at hdashes hdot
  cases h with
  | blanks h => exact absurd h (Bool.eq_false_iff.mp hblank)
  | mark h => exact absurd h (Bool.eq_false_iff.mp hmark)
  | character hquote => exact absurd (StartsError.kind?_eq_none (Or.inl hquote) tail) hkind
  | upper hupper =>
    rcases Name.upperCut_cases c rest with htype | hqualifier
    · exact Or.inr (Or.inl htype)
    · -- the dot behind a qualifier is part of the lexeme
      rw [hlexeme] at hqualifier
      rcases hdot with hlower | hnone
      · simp [hupper] at hlower
      · exact absurd hqualifier hnone
  | lower => exact Or.inl rfl
  | number h => exact absurd h (Bool.eq_false_iff.mp hdigit)
  | operator =>
    rcases Operator.cut_cases c rest with ⟨hcut, hdots⟩ | ⟨hcut, hopens⟩ | hname | hname
    · rw [hcut, Cut.normal_size, hdots] at hlexeme
      rw [hcut, ← hlexeme]
      exact Or.inr (Or.inr ⟨rfl, rfl⟩)
    · have hwhole : (c :: rest).length ≤ 1 + rest.length := by
        rw [List.length_cons]
        omega
      rw [hcut, Cut.normal_size, List.take_of_length_le hwhole] at hlexeme
      rw [← hlexeme] at hdashes
      exact absurd hopens hdashes
    · exact Or.inl hname
    · exact Or.inr (Or.inl hname)
  | stray hupper hlower hoperator =>
    exact absurd (StartsError.kind?_eq_none (Or.inr (Or.inr ⟨hupper, hlower, hoperator⟩)) tail) hkind

end Ordinary

namespace StringLiteral

theorem bodyCut_kind (ends : Bool) (cs : List Char) :
    (bodyCut ends cs).kind = .string ∨ (bodyCut ends cs).kind = .badString := by
  fun_induction bodyCut ends cs with
  | case1 => exact Or.inr rfl
  | case2 => exact Or.inl rfl
  | case3 => exact Or.inl rfl
  | case4 => exact Or.inr rfl
  | case5 => exact Or.inl rfl
  | case6 c _ _ escaped rest _ ih => exact ih
  | case7 c rest _ _ ih => exact ih

theorem gapStep_kind {ends : Bool} {cs : List Char} {cut : Cut} (h : gapStep ends cs = .emit cut) :
    cut.kind = .string ∨ cut.kind = .invalid := by
  unfold gapStep at h
  dsimp only at h
  repeat' split at h
  all_goals cases h
  · exact Or.inl rfl
  · exact Or.inr rfl
  · exact Or.inr rfl

end StringLiteral

namespace Mode

/-- The modes that hand over no more give neither of the kinds of the overlay. -/
theorem kind_ne_of_handovers (mode : Mode) (h : mode.handovers = 0) (cs : List Char) :
    (mode.cut true cs).kind ≠ .builtin ∧ (mode.cut true cs).kind ≠ .keyword := by
  cases mode with
  | normal => cases h
  | stringGap => cases h
  | string =>
    have hcut : string.cut true cs = StringLiteral.bodyCut true cs := cut_of_emit rfl
    rw [hcut]
    rcases StringLiteral.bodyCut_kind true cs with hkind | hkind
    · rw [hkind]
      decide
    · rw [hkind]
      decide
  | blockComment kind depth =>
    have hcut : (blockComment kind depth).cut true cs = BlockComment.cut kind depth cs :=
      cut_of_emit rfl
    have hkind : kind.tokenKind ≠ .builtin ∧ kind.tokenKind ≠ .keyword := by
      cases kind <;> decide
    rw [hcut, BlockComment.cut_eq]
    exact hkind

theorem generic_cut (mode : Mode) {cs : List Char} (hne : cs ≠ []) :
    (mode.cut true cs).Generic cs := by
  cases hstep : mode.step true cs with
  | enter size next =>
    rw [cut_of_enter hstep]
    apply Cut.generic_of_ne
    rw [Cut.shift_kind]
    exact kind_ne_of_handovers next (handovers_of_step hstep).2 _
  | emit cut =>
    cases mode with
    | normal =>
      obtain ⟨c, rest, rfl⟩ := List.exists_cons_of_ne_nil hne
      have hordinary : Ordinary c rest (normal.step true (c :: rest)) := ordinary_normalStep c rest
      rw [hstep] at hordinary
      rw [cut_of_emit hstep]
      exact hordinary.generic
    | stringGap =>
      rw [cut_of_emit hstep]
      rcases StringLiteral.gapStep_kind hstep with hkind | hkind
      · exact Cut.generic_of_ne (by simp [hkind]) cs
      · exact Cut.generic_of_ne (by simp [hkind]) cs
    | string => exact Cut.generic_of_ne (kind_ne_of_handovers string rfl cs) cs
    | blockComment kind depth =>
      exact Cut.generic_of_ne (kind_ne_of_handovers (blockComment kind depth) rfl cs) cs

/-- The openers of strings and comments start no reserved word either. -/
theorem normal_reserved_cases {cs : List Char} (hne : cs.take (normal.cut true cs).size ≠ [])
    (hreserved : String.ofList (cs.take (normal.cut true cs).size) ∈ Reserved.all) :
    (normal.cut true cs).kind = .identifier ∨ (normal.cut true cs).kind = .typeOrConstructor ∨
      (normal.cut true cs).kind = .keyword ∧ cs.take (normal.cut true cs).size = ['.', '.'] := by
  obtain ⟨d, tail, hlexeme⟩ := List.exists_cons_of_ne_nil hne
  cases cs with
  | nil => simp at hne
  | cons c rest =>
    obtain rfl : d = c := by
      have hhead := congrArg List.head? hlexeme
      rw [List.head?_take] at hhead
      split at hhead
      · cases hhead
      · exact (Option.some.inj hhead).symm
    rw [hlexeme] at hreserved ⊢
    have hordinary : Ordinary d rest (normal.step true (d :: rest)) := ordinary_normalStep d rest
    cases hstep : normal.step true (d :: rest) with
    | emit cut =>
      rw [hstep] at hordinary
      rw [cut_of_emit hstep] at hlexeme ⊢
      exact hordinary.reserved_cases hlexeme hreserved
    | enter size next =>
      rw [hstep] at hordinary
      have hmark := (Reserved.first_of_reserved hreserved).2.1
      cases hordinary with
      | comment hbrace =>
        rw [hbrace] at hmark
        exact absurd hmark (by decide)
      | pragma hbrace =>
        rw [hbrace] at hmark
        exact absurd hmark (by decide)
      | string hquote =>
        have hkind := Reserved.kind?_ne_none_iff.mpr hreserved
        exact absurd (StartsError.kind?_eq_none (Or.inr (Or.inl hquote)) tail) hkind

end Mode

namespace BlockComment

/-- A comment that does not end on its line takes the whole of it. -/
theorem extent_eq_self {depth : Depth} {cs : List Char} (h : '}' ∉ extent depth.val cs) :
    extent depth.val cs = cs := by
  obtain ⟨back, hback, hopen⟩ := extent_append depth.val cs
  by_cases hzero : depthAfter depth.val cs = 0
  · obtain ⟨before, hreach, -⟩ := reach_eq_append_closer depth.pos hzero
    apply absurd _ h
    rw [extent, hreach, List.flatMap_append]
    simp [Mark.text]
  · rw [hopen hzero, List.append_nil] at hback
    exact hback.symm

theorem extent_reserved_iff {depth : Depth} {cs : List Char} :
    String.ofList (extent depth.val cs) ∈ Reserved.all ↔ String.ofList cs ∈ Reserved.all := by
  have hbrace : ∀ lexeme, String.ofList lexeme ∈ Reserved.all → '}' ∉ lexeme := by
    intro lexeme hmem
    have hshape := (Reserved.shape_of_mem_all _ hmem).2.2
    rwa [String.toList_ofList] at hshape
  constructor
  · intro hmem
    rwa [extent_eq_self (hbrace _ hmem)] at hmem
  · intro hmem
    obtain ⟨back, hback, -⟩ := extent_append depth.val cs
    have hextent : '}' ∉ extent depth.val cs := by
      intro hin
      apply hbrace _ hmem
      rw [hback]
      exact List.mem_append_left _ hin
    rwa [extent_eq_self hextent]

end BlockComment

/-- How a token gets its kind: `mode` is the mode in which it was asked for, and `rest` what was left
of the line there. The kind of the cut is the one before the overlay. -/
structure Overlaid (mode : Mode) (rest : List Char) (token : Token) : Prop where
  lexeme_eq : token.lexeme = rest.take (mode.cut true rest).size
  keyword_iff : token.kind = .keyword ↔ String.ofList token.lexeme ∈ Reserved.keywords
  builtin_iff : token.kind = .builtin ↔
    String.ofList token.lexeme ∈ Reserved.builtinOperators ∨
    String.ofList token.lexeme ∈ Reserved.builtinTypes ∨
    String.ofList token.lexeme ∈ Reserved.builtinFunctions
  otherwise : token.kind ≠ .keyword → token.kind ≠ .builtin →
    token.kind = (mode.cut true rest).kind
  replaced_in_code : mode = .normal → String.ofList token.lexeme ∈ Reserved.all →
    (mode.cut true rest).kind = .identifier ∨ (mode.cut true rest).kind = .typeOrConstructor ∨
      (mode.cut true rest).kind = .keyword ∧ token.lexeme = ['.', '.']
  kept_in_code : mode = .normal → (mode.cut true rest).kind ≠ .identifier →
    (mode.cut true rest).kind ≠ .typeOrConstructor → token.kind = (mode.cut true rest).kind
  replaced_in_comment : ∀ kind depth, mode = .blockComment kind depth →
    (token.kind ≠ (mode.cut true rest).kind ↔ String.ofList rest ∈ Reserved.all)

theorem overlaid_of_nextToken? {mode next : Mode} {rest : List Char} {token : Token}
    (h : nextToken? true mode rest = some (token, next)) : Overlaid mode rest token := by
  have hne : rest ≠ [] := by
    rintro rfl
    cases h
  obtain ⟨hlexeme, hnext⟩ := nextToken?_eq true mode hne
  obtain ⟨rfl, rfl⟩ := Prod.mk.inj (Option.some.inj (h.symm.trans hnext))
  have hgeneric := mode.generic_cut hne
  have hdots : (mode.cut true rest).kind = .keyword →
      String.ofList (rest.take (mode.cut true rest).size) ∈ Reserved.keywords := by
    intro hkeyword
    rw [hgeneric.2 hkeyword]
    decide
  have hcode : mode = .normal →
      String.ofList (rest.take (mode.cut true rest).size) ∈ Reserved.all →
      (mode.cut true rest).kind = .identifier ∨ (mode.cut true rest).kind = .typeOrConstructor ∨
        (mode.cut true rest).kind = .keyword ∧
          rest.take (mode.cut true rest).size = ['.', '.'] := by
    rintro rfl hreserved
    exact Mode.normal_reserved_cases hlexeme hreserved
  constructor
  · rfl
  · exact Reserved.classify_eq_keyword_iff hdots
  · rw [← Reserved.mem_builtins_iff]
    exact Reserved.classify_eq_builtin_iff hgeneric.1
  · intro hkeyword hbuiltin
    apply Reserved.classify_of_not_mem
    intro hmem
    rcases Reserved.mem_all_iff.mp hmem with hlisted | hlisted
    · exact hkeyword (Reserved.classify_of_mem_keywords hlisted)
    · exact hbuiltin (Reserved.classify_of_mem_builtins hlisted)
  · exact hcode
  · intro hnormal hidentifier htype
    by_cases hmem : String.ofList (rest.take (mode.cut true rest).size) ∈ Reserved.all
    · rcases hcode hnormal hmem with hkind | hkind | ⟨hkind, -⟩
      · exact absurd hkind hidentifier
      · exact absurd hkind htype
      · rw [hkind]
        exact Reserved.classify_of_mem_keywords (hdots hkind)
    · exact Reserved.classify_of_not_mem hmem
  · rintro kind depth rfl
    have hkind := Mode.kind_ne_of_handovers (.blockComment kind depth) rfl rest
    have hcut : (Mode.blockComment kind depth).cut true rest = BlockComment.cut kind depth rest :=
      Mode.cut_of_emit rfl
    have hextent : rest.take (BlockComment.cut kind depth rest).size =
        BlockComment.extent depth.val rest := by
      obtain ⟨back, hback, -⟩ := BlockComment.extent_append depth.val rest
      rw [BlockComment.cut_eq]
      conv => lhs; arg 2; rw [hback]
      exact List.take_left
    rw [← BlockComment.extent_reserved_iff, ← hextent, ← hcut]
    exact Reserved.classify_ne_iff hkind.2 hkind.1

namespace Line

/-- The overlay decides which tokens are keywords and builtins, in every mode. In ordinary code it
replaces the kinds of names and operators only, and in a block comment it replaces the kind exactly
if all that is left of the line is one reserved word. -/
theorem overlaid_of_read {start next : Mode} {text : List Char} {token : Token}
    {front back : List (Token × Mode)} (h : read start text = front ++ (token, next) :: back) :
    ∃ rest, Requests start (Lines.dropTerminator text) front (modeAfter start front) rest ∧
      Overlaid (modeAfter start front) rest token := by
  obtain ⟨rest, hrequests, hnext⟩ := nextToken?_of_read h
  exact ⟨rest, hrequests, overlaid_of_nextToken? hnext⟩

/-- A line within a pragma that is one reserved word, behind a line end that does not count. -/
theorem overlaid_of_read_pragma :
    let token : Token := ⟨.builtin, "place".toList⟩
    read (.opened .pragma) "place\r\n".toList = [] ++ (token, .opened .pragma) :: [] ∧
    ∃ rest, Requests (.opened .pragma) "place".toList [] (.opened .pragma) rest ∧
      Overlaid (.opened .pragma) rest token := by
  intro token
  have hread : read (.opened .pragma) "place\r\n".toList =
      [] ++ (token, .opened .pragma) :: [] := by decide +kernel
  exact ⟨hread, overlaid_of_read hread⟩

end Line

end BoardHighlight
