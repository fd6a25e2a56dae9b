import BoardHighlight.Proofs.FirstCharacter
import BoardHighlight.Proofs.Terminators

/-!
# Qualified names

A name may have qualifiers in front of it, each a capitalised name with a dot behind it. A qualifier
is a token of its own together with its dot, also if it is spelled like a reserved word. The name at
the end is one token, and the overlay looks at all of it and at nothing else.
-/

namespace BoardHighlight
set_option autoImplicit false

section Runs
variable {p : Char → Bool} {run tail : List Char}

theorem dropWhile_append_of_stop (hrun : ∀ c ∈ run, p c = true)
    (htail : ∀ c, tail.head? = some c → p c = false) : (run ++ tail).dropWhile p = tail := by
  rw [List.dropWhile_append_of_pos hrun]
  cases tail with
  | nil => rfl
  | cons c tail => exact List.dropWhile_cons_of_neg (by simp [htail c rfl])

theorem runLength_append_of_stop (hrun : ∀ c ∈ run, p c = true)
    (htail : ∀ c, tail.head? = some c → p c = false) : runLength p (run ++ tail) = run.length := by
  have hlength := congrArg List.length (List.takeWhile_append_dropWhile (p := p) (l := run ++ tail))
  rw [dropWhile_append_of_stop hrun htail, List.length_append, List.length_append] at hlength
  exact Nat.add_right_cancel hlength

end Runs

namespace Name

/-- A first letter that passes a test, and behind it only what may go on with a name. -/
inductive Spelled (start : Char → Bool) : List Char → Prop where
  | intro {c : Char} {body : List Char} : start c = true →
      (∀ d ∈ body, isIdentContinue d = true) → Spelled start (c :: body)

/-- A name ends in front of this text: no character goes on with it, and no dot makes it a
qualifier. -/
def EndsAt (name rest : List Char) : Prop :=
  ∀ c, rest.head? = some c →
    isIdentContinue c = false ∧ (Spelled isUpperStart name → c ≠ '.')

/-- The kind of a name that has no dot behind it. -/
inductive KindOf (name : List Char) : Kind → Prop where
  | keyword : String.ofList name ∈ Reserved.keywords → KindOf name .keyword
  | builtin : String.ofList name ∈ Reserved.builtins → KindOf name .builtin
  | upper : String.ofList name ∉ Reserved.all → Spelled isUpperStart name →
      KindOf name .typeOrConstructor
  | lower : String.ofList name ∉ Reserved.all → Spelled isLowerStart name →
      KindOf name .identifier

/-- Qualifiers as they are written, each with its dot. -/
def dotted (qualifiers : List (List Char)) : List Char := qualifiers.flatMap (· ++ ['.'])

/-- The tokens of qualifiers, and the mode behind each. -/
def qualifierTokens (qualifiers : List (List Char)) : List (Token × Mode) :=
  qualifiers.map fun qualifier => (⟨.qualifier, qualifier ++ ['.']⟩, .normal)

/-! ## One token -/

section Cuts
variable {c : Char} {body tail : List Char}

theorem cut_of_qualifier (hc : isUpperStart c = true) (hbody : ∀ d ∈ body, isIdentContinue d = true)
    (tail : List Char) :
    Mode.normal.cut true (c :: (body ++ '.' :: tail)) = .normal .qualifier (body.length + 2) := by
  have hstop : ∀ d, ('.' :: tail).head? = some d → isIdentContinue d = false := by
    intro d hd
    rw [← Option.some.inj hd]
    decide
  rw [Mode.cut_of_upper true hc, upperCut, runLength_append_of_stop hbody hstop,
    dropWhile_append_of_stop hbody hstop, List.head?_cons, beq_self_eq_true, if_pos rfl]
  rw [Nat.add_comm 1]

theorem cut_of_upper (hc : isUpperStart c = true) (hbody : ∀ d ∈ body, isIdentContinue d = true)
    (hstop : ∀ d, tail.head? = some d → isIdentContinue d = false) (hdot : tail.head? ≠ some '.') :
    Mode.normal.cut true (c :: (body ++ tail)) = .normal .typeOrConstructor (body.length + 1) := by
  rw [Mode.cut_of_upper true hc, upperCut, runLength_append_of_stop hbody hstop,
    dropWhile_append_of_stop hbody hstop, if_neg (by simpa using hdot), Nat.add_comm 1]

theorem cut_of_lower (hc : isLowerStart c = true) (hbody : ∀ d ∈ body, isIdentContinue d = true)
    (hstop : ∀ d, tail.head? = some d → isIdentContinue d = false) :
    Mode.normal.cut true (c :: (body ++ tail)) = .normal .identifier (body.length + 1) := by
  rw [Mode.cut_of_lower true hc, lowerCut, runLength_append_of_stop hbody hstop,
    Nat.add_comm 1]

end Cuts

/-- No qualifier is a reserved word: a word with a capital in front holds no dot. -/
theorem Spelled.classify_dot {qualifier : List Char} (h : Spelled isUpperStart qualifier) :
    Reserved.classify (qualifier ++ ['.']) .qualifier = .qualifier := by
  obtain ⟨hc, -⟩ := h
  apply Reserved.classify_of_not_mem
  intro hmem
  rcases (Reserved.shape_of_mem_all _ hmem).2.1 with hfirst | hdot
  · rw [String.toList_ofList] at hfirst
    simp [hc] at hfirst
  · rw [String.toList_ofList] at hdot
    exact hdot (List.mem_append_right _ List.mem_cons_self)

theorem Spelled.nextToken?_dot {qualifier : List Char} (h : Spelled isUpperStart qualifier)
    (rest : List Char) :
    nextToken? true .normal ((qualifier ++ ['.']) ++ rest) =
      some (⟨.qualifier, qualifier ++ ['.']⟩, .normal) := by
  have hclassify := h.classify_dot
  obtain @⟨c, body, hc, hbody⟩ := h
  have hcut := cut_of_qualifier hc hbody rest
  rw [nextToken?_of_cut (List.append_ne_nil_of_right_ne_nil _ (List.cons_ne_nil _ _)), hclassify]
  rw [List.append_assoc, List.cons_append]
  exact hcut.trans (by rw [List.length_append]; rfl)

theorem kindOf_classify {name : List Char} {generic : Kind}
    (h : String.ofList name ∉ Reserved.all → KindOf name generic) :
    KindOf name (Reserved.classify name generic) := by
  by_cases hlisted : String.ofList name ∈ Reserved.all
  · rcases Reserved.mem_all_iff.mp hlisted with hkeyword | hbuiltin
    · rw [Reserved.classify_of_mem_keywords hkeyword]
      exact .keyword hkeyword
    · rw [Reserved.classify_of_mem_builtins hbuiltin]
      exact .builtin hbuiltin
  · rw [Reserved.classify_of_not_mem hlisted]
    exact h hlisted

/-- A name is one token, whatever it ends in front of. -/
theorem exists_kindOf {name : List Char}
    (h : Spelled isUpperStart name ∨ Spelled isLowerStart name) :
    ∃ kind, KindOf name kind ∧ ∀ rest, EndsAt name rest →
      nextToken? true .normal (name ++ rest) = some (⟨kind, name⟩, .normal) := by
  rcases h with hupper | hlower
  · refine ⟨_, kindOf_classify fun hlisted => .upper hlisted hupper, ?_⟩
    intro rest hrest
    have hstop : ∀ c, rest.head? = some c → isIdentContinue c = false := fun c hc => (hrest c hc).1
    have hdot : rest.head? ≠ some '.' := fun hhead => (hrest '.' hhead).2 hupper rfl
    obtain ⟨hc, hbody⟩ := hupper
    exact nextToken?_of_cut (List.cons_ne_nil _ _) (cut_of_upper hc hbody hstop hdot)
  · refine ⟨_, kindOf_classify fun hlisted => .lower hlisted hlower, ?_⟩
    intro rest hrest
    have hstop : ∀ c, rest.head? = some c → isIdentContinue c = false := fun c hc => (hrest c hc).1
    obtain ⟨hc, hbody⟩ := hlower
    exact nextToken?_of_cut (List.cons_ne_nil _ _) (cut_of_lower hc hbody hstop)

/-! ## All tokens -/

theorem requests_dotted {qualifiers : List (List Char)} {cs rest : List Char}
    {read : List (Token × Mode)} (h : ∀ qualifier ∈ qualifiers, Spelled isUpperStart qualifier)
    (hrest : Requests .normal cs read .normal rest) :
    Requests .normal (dotted qualifiers ++ cs) (qualifierTokens qualifiers ++ read) .normal
      rest := by
  induction qualifiers with
  | nil => exact hrest
  | cons qualifier qualifiers ih =>
    rw [List.forall_mem_cons] at h
    rw [dotted, List.flatMap_cons, List.append_assoc]
    exact .cons (h.1.nextToken?_dot _) (ih h.2)

theorem Spelled.exists_getLast? {start : Char → Bool} {name : List Char}
    (hstart : ∀ c, start c = true → isIdentContinue c = true) (h : Spelled start name) :
    ∃ c, name.getLast? = some c ∧ isIdentContinue c = true := by
  obtain @⟨c, body, hc, hbody⟩ := h
  refine ⟨_, List.getLast?_eq_some_getLast (List.cons_ne_nil c body), ?_⟩
  rcases List.mem_cons.mp (List.getLast_mem (List.cons_ne_nil c body)) with heq | hmem
  · rw [heq]
    exact hstart c hc
  · exact hbody _ hmem

theorem exists_getLast? {name : List Char}
    (h : Spelled isUpperStart name ∨ Spelled isLowerStart name) :
    ∃ c, name.getLast? = some c ∧ isIdentContinue c = true := by
  rcases h with hupper | hlower
  · exact hupper.exists_getLast? (by simp +contextual [isIdentContinue])
  · exact hlower.exists_getLast? (by simp +contextual [isIdentContinue])

end Name

namespace Lines

theorem dropFinal_append_of_ne {c : Char} {u : List Char} (hu : u.getLast? ≠ some c)
    (v : List Char) : dropFinal c (u ++ v) = u ++ dropFinal c v := by
  by_cases hv : v = []
  · rw [hv, List.append_nil, dropFinal_of_getLast?_ne hu, dropFinal_nil, List.append_nil]
  · exact dropFinal_append u hv

/-- A terminator is looked for behind any text that does not end in a part of one. -/
theorem dropTerminator_append {u : List Char} {c : Char} (hlast : u.getLast? = some c)
    (hfeed : c ≠ '\n') (hreturn : c ≠ '\r') (v : List Char) :
    dropTerminator (u ++ v) = u ++ dropTerminator v := by
  have hne : ∀ d, c ≠ d → u.getLast? ≠ some d := by
    intro d hcd hd
    exact hcd (Option.some.inj (hlast.symm.trans hd))
  rw [dropTerminator, dropFinal_append_of_ne (hne _ hfeed), dropFinal_append_of_ne (hne _ hreturn),
    dropTerminator]

theorem head?_of_dropFinal {c d : Char} {text : List Char} (h : (dropFinal c text).head? = some d) :
    text.head? = some d := by
  rcases dropFinal_cases c text with heq | heq
  · rwa [heq] at h
  · rw [heq, List.head?_append, h, Option.some_or]

theorem head?_of_dropTerminator {text : List Char} {c : Char}
    (h : (dropTerminator text).head? = some c) : text.head? = some c :=
  head?_of_dropFinal (head?_of_dropFinal h)

end Lines

namespace Line

/-- Qualified names split into their parts. Requests in ordinary code give a token for each
qualifier with its dot, then one for the name, and are left in ordinary code in front of what stands
behind the name. So the tokens of a line that starts like this are these, and then those of the rest
of the line. -/
theorem splits_of_names {qualifiers : List (List Char)} {name rest : List Char}
    (hqualifiers : ∀ qualifier ∈ qualifiers, Name.Spelled isUpperStart qualifier)
    (hname : Name.Spelled isUpperStart name ∨ Name.Spelled isLowerStart name)
    (hrest : Name.EndsAt name rest) :
    ∃ kind, Name.KindOf name kind ∧
      Requests .normal (Name.dotted qualifiers ++ (name ++ rest))
        (Name.qualifierTokens qualifiers ++ [(⟨kind, name⟩, .normal)]) .normal rest ∧
      read .normal (Name.dotted qualifiers ++ (name ++ rest)) =
        Name.qualifierTokens qualifiers ++ (⟨kind, name⟩, .normal) :: read .normal rest := by
  obtain ⟨kind, hkind, hnext⟩ := Name.exists_kindOf hname
  have hrequests : ∀ rest, Name.EndsAt name rest →
      Requests .normal (Name.dotted qualifiers ++ (name ++ rest))
        (Name.qualifierTokens qualifiers ++ [(⟨kind, name⟩, .normal)]) .normal rest := by
    intro rest hrest
    exact Name.requests_dotted hqualifiers (.cons (hnext rest hrest) (.done .normal rest))
  have hends : Name.EndsAt name (Lines.dropTerminator rest) :=
    fun c hc => hrest c (Lines.head?_of_dropTerminator hc)
  have hline : Lines.dropTerminator (Name.dotted qualifiers ++ (name ++ rest)) =
      Name.dotted qualifiers ++ (name ++ Lines.dropTerminator rest) := by
    -- the name ends in a character that is no part of a terminator
    obtain ⟨c, hlast, hc⟩ := Name.exists_getLast? hname
    have hlast' : (Name.dotted qualifiers ++ name).getLast? = some c := by
      rw [List.getLast?_append, hlast, Option.some_or]
    rw [← List.append_assoc, ← List.append_assoc]
    apply Lines.dropTerminator_append hlast'
    · rintro rfl
      exact absurd hc (by decide)
    · rintro rfl
      exact absurd hc (by decide)
  refine ⟨kind, hkind, hrequests rest hrest, ?_⟩
  rw [read, hline, (hrequests _ hends).lexFrom_eq, List.append_assoc]
  rfl

/-- A qualifier that is a reserved word, one with letters beyond ASCII, and a name that has a
reserved word in front. -/
theorem splits_of_names_board :
    let qualifiers := ["Board".toList, "Größe'".toList]
    let rest := "..\r\n".toList
    (∀ qualifier ∈ qualifiers, Name.Spelled isUpperStart qualifier) ∧
    Name.Spelled isLowerStart "inλ".toList ∧ Name.EndsAt "inλ".toList rest ∧
    read .normal "Board.Größe'.inλ..\r\n".toList =
      [(⟨.qualifier, "Board.".toList⟩, .normal), (⟨.qualifier, "Größe'.".toList⟩, .normal),
        (⟨.identifier, "inλ".toList⟩, .normal)] ++ read .normal rest := by
  intro qualifiers rest
  have hqualifiers : ∀ qualifier ∈ qualifiers, Name.Spelled isUpperStart qualifier := by
    intro qualifier hmem
    rcases List.mem_cons.mp hmem with rfl | hmem
    · exact ⟨by decide, List.all_eq_true.mp (by decide)⟩
    · rw [List.mem_singleton.mp hmem]
      exact ⟨by decide, List.all_eq_true.mp (by decide)⟩
  have hname : Name.Spelled isLowerStart "inλ".toList :=
    ⟨by decide, List.all_eq_true.mp (by decide)⟩
  have hends : Name.EndsAt "inλ".toList rest := by
    intro c hc
    obtain rfl : '.' = c := Option.some.inj hc
    refine ⟨by decide, ?_⟩
    rintro ⟨hupper, -⟩
    exact absurd hupper (by decide)
  obtain ⟨kind, hkind, -, hread⟩ := splits_of_names hqualifiers (Or.inr hname) hends
  refine ⟨hqualifiers, hname, hends, ?_⟩
  cases hkind with
  | keyword hlisted => exact absurd hlisted (by decide)
  | builtin hlisted => exact absurd hlisted (by decide)
  | upper _ hupper =>
    obtain ⟨hupper, -⟩ := hupper
    exact absurd hupper (by decide)
  | lower => exact hread

end Line

end BoardHighlight
