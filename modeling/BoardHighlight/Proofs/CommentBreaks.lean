import BoardHighlight.Proofs.CommentNesting
import BoardHighlight.Proofs.Terminators

/-!
# Comments over a broken line

The scanner that reads comments may stop between any two units of a line and go on from the depth
that it has reached. A text that is broken between two units, and not within one, is therefore read
in two parts as it is read whole. A carriage return at the end of a part is no delimiter, so the
two parts may also stand on lines of their own.
-/

namespace BoardHighlight
set_option autoImplicit false

namespace BlockComment

/-- A break between two texts would fall inside a delimiter. -/
def Cuts (u v : List Char) : Prop :=
  (u.getLast? = some '{' ∧ v.head? = some '-') ∨ (u.getLast? = some '-' ∧ v.head? = some '}')

theorem Cuts.cons {u v : List Char} (h : Cuts u v) (c : Char) : Cuts (c :: u) v := by
  cases u with
  | nil => simp [Cuts] at h
  | cons d u =>
    unfold Cuts at h ⊢
    rwa [List.getLast?_cons_cons]

theorem Cuts.append {u v : List Char} (h : Cuts u v) (rest : List Char) : Cuts u (v ++ rest) := by
  cases v with
  | nil => simp [Cuts] at h
  | cons d v => exact h

theorem Cuts.of_dropFinal {c : Char} {u v : List Char} (h : Cuts u (Lines.dropFinal c v)) :
    Cuts u v := by
  rcases Lines.dropFinal_cases c v with hsame | hfinal
  · rwa [hsame] at h
  · rw [hfinal]
    exact h.append [c]

theorem marks_plain {c : Char} {rest : List Char} (hopener : ¬(c = '{' ∧ rest.head? = some '-'))
    (hcloser : ¬(c = '-' ∧ rest.head? = some '}')) : marks (c :: rest) = .plain c :: marks rest := by
  cases rest with
  | nil => simp [marks]
  | cons d rest =>
    apply marks_cons
    · rintro ⟨hc, rfl⟩
      exact hopener ⟨hc, rfl⟩
    · rintro ⟨hc, rfl⟩
      exact hcloser ⟨hc, rfl⟩

theorem marks_append {u v : List Char} (h : ¬Cuts u v) : marks (u ++ v) = marks u ++ marks v := by
  fun_induction marks u with
  | case1 => rfl
  | case2 rest ih =>
    have hrest : ¬Cuts rest v := fun hcuts => h ((hcuts.cons '-').cons '{')
    rw [List.cons_append, List.cons_append, marks, ih hrest, List.cons_append]
  | case3 rest ih =>
    have hrest : ¬Cuts rest v := fun hcuts => h ((hcuts.cons '}').cons '-')
    rw [List.cons_append, List.cons_append, marks, ih hrest, List.cons_append]
  | case4 c rest hopener hcloser ih =>
    have hrest : ¬Cuts rest v := fun hcuts => h (hcuts.cons c)
    -- the character stays a unit of its own, also in front of what stands behind the break
    have hplain : marks (c :: (rest ++ v)) = .plain c :: marks (rest ++ v) := by
      cases rest with
      | nil =>
        apply marks_plain
        · exact fun hpair => h (.inl ⟨by simp [hpair.1], hpair.2⟩)
        · exact fun hpair => h (.inr ⟨by simp [hpair.1], hpair.2⟩)
      | cons d rest =>
        apply marks_plain
        · exact fun hpair => hopener rest hpair.1 (by simpa using hpair.2)
        · exact fun hpair => hcloser rest hpair.1 (by simpa using hpair.2)
    rw [List.cons_append, hplain, ih hrest, List.cons_append]

theorem reach_append_eq (n : Nat) (xs ys : List Mark) :
    reach n (xs ++ ys) = reach n xs ++ reach (depthBehind n (reach n xs)) ys := by
  induction xs generalizing n with
  | nil => rfl
  | cons mark xs ih =>
    rcases Nat.eq_zero_or_pos n with rfl | hpos
    · rw [reach_zero, reach_zero]
      exact (reach_zero ys).symm
    · rw [List.cons_append, reach_cons hpos, reach_cons hpos, ih, List.cons_append]
      rfl

section Parts
variable {n : Nat} {u v cs : List Char}

theorem extent_append_eq (h : ¬Cuts u v) (n : Nat) :
    extent n (u ++ v) = extent n u ++ extent (depthAfter n u) v := by
  rw [extent, marks_append h, reach_append_eq, List.flatMap_append]
  rfl

theorem depthAfter_append (h : ¬Cuts u v) (n : Nat) :
    depthAfter n (u ++ v) = depthAfter (depthAfter n u) v := by
  rw [depthAfter, marks_append h, reach_append_eq, depthBehind, List.foldl_append]
  rfl

/-- From depth `n` on the scanner reads all of a text. -/
def Whole (n : Nat) (cs : List Char) : Prop := extent n cs = cs

theorem whole_append_iff (h : ¬Cuts u v) :
    Whole n (u ++ v) ↔ Whole n u ∧ Whole (depthAfter n u) v := by
  unfold Whole
  rw [extent_append_eq h]
  constructor
  · intro happend
    -- no extent is longer than its text, so together they are as long only if each is
    obtain ⟨back, hback, -⟩ := extent_append n u
    have hlength : (extent n u).length = u.length := by
      have hu := congrArg List.length hback
      obtain ⟨back', hback', -⟩ := extent_append (depthAfter n u) v
      have hv := congrArg List.length hback'
      have hsum := congrArg List.length happend
      simp only [List.length_append] at hu hv hsum
      omega
    exact List.append_inj happend hlength
  · rintro ⟨hu, hv⟩
    rw [hu, hv]

theorem whole_of_dash_not_mem (hpos : 0 < n) (h : '-' ∉ cs) : Whole n cs ∧ depthAfter n cs = n := by
  induction cs with
  | nil => exact ⟨rfl, rfl⟩
  | cons c rest ih =>
    rw [List.mem_cons, not_or] at h
    have hmarks : marks (c :: rest) = .plain c :: marks rest := by
      apply marks_plain
      · exact fun hpair => h.2 (List.mem_of_head? hpair.2)
      · exact fun hpair => h.1 hpair.1.symm
    obtain ⟨hwhole, hdepth⟩ := ih h.2
    constructor
    · rw [Whole, extent_of_marks_cons hpos hmarks]
      exact congrArg (List.cons c) hwhole
    · rw [depthAfter_of_marks_cons hpos hmarks]
      exact hdepth

theorem whole_dropFinal (h : Whole n u) :
    Whole n (Lines.dropFinal '\r' u) ∧ depthAfter n (Lines.dropFinal '\r' u) = depthAfter n u := by
  rcases Lines.dropFinal_cases '\r' u with hsame | hreturn
  · rw [hsame]
    exact ⟨h, rfl⟩
  · have hcuts : ¬Cuts (Lines.dropFinal '\r' u) ['\r'] := by simp [Cuts]
    rw [hreturn, whole_append_iff hcuts] at h
    refine ⟨h.1, ?_⟩
    conv => rhs; rw [hreturn, depthAfter_append hcuts]
    -- the return stands behind the end of the comment, or is one more character of it
    rcases Nat.eq_zero_or_pos (depthAfter n (Lines.dropFinal '\r' u)) with hzero | hpos
    · rw [hzero, depthAfter_zero]
    · exact (whole_of_dash_not_mem hpos (by simp)).2.symm

theorem endMode_of_whole (kind : CommentKind) (hle : n ≤ Depth.limit) {text : List Char}
    (h : Whole n (Lines.dropTerminator text)) :
    Line.endMode (kind.modeAt n) text = kind.modeAt (depthAfter n (Lines.dropTerminator text)) := by
  rcases Nat.eq_zero_or_pos n with rfl | hpos
  · have hnil : Lines.dropTerminator text = [] := by rw [← h, extent_zero]
    rw [Line.endMode, Line.read, hnil, lexFrom_nil, modeAfter_nil, depthAfter_nil]
  · obtain ⟨depth, rfl⟩ := exists_depth hpos hle
    have hback : Lines.dropTerminator text =
        extent depth.val (Lines.dropTerminator text) ++ [] := by rw [List.append_nil, h]
    have hrequests := (enters_modeAt kind depth (Lines.dropTerminator text)).requests hback
    exact hrequests.endMode_eq

/-- A comment that goes on, or ends, with one token of a line has the whole line. -/
theorem whole_of_tokens {kind : CommentKind} {depth : Depth} {text : List Char} {token : Token}
    (h : Line.tokens (.blockComment kind depth) text = [token]) :
    Whole depth.val (Lines.dropTerminator text) := by
  have htext := Line.text_tokens (.blockComment kind depth) text
  have hne : Lines.dropTerminator text ≠ [] := by
    intro hnil
    rw [Line.tokens, Line.read, hnil, lexFrom_nil] at h
    cases h
  have hnext := ((Enters.inside kind depth (Lines.dropTerminator text)).nextToken?_eq hne).1
  rw [List.nil_append] at hnext
  rw [h] at htext
  rw [Line.tokens, Line.read, lexFrom_of_some hnext, List.map_cons, List.cons.injEq] at h
  rw [← h.1, Token.text_cons, Token.text_nil, List.append_nil] at htext
  exact htext

/-- A line that is read whole is read whole in two parts, each on a line of its own. -/
theorem whole_of_append (hfeed : '\n' ∉ u ++ v) (hcuts : ¬Cuts u v)
    (h : Whole n (Lines.dropTerminator (u ++ v))) :
    Whole n (Lines.dropTerminator u) ∧
      Whole (depthAfter n (Lines.dropTerminator u)) (Lines.dropTerminator v) ∧
      depthAfter n (Lines.dropTerminator (u ++ v)) =
        depthAfter (depthAfter n (Lines.dropTerminator u)) (Lines.dropTerminator v) := by
  by_cases hv : v = []
  · rw [hv, List.append_nil] at h ⊢
    exact ⟨h, rfl, rfl⟩
  · -- the end of the line is that of `v`; a return at the end of `u` is a terminator only now
    have hfeeds : '\n' ∉ u ∧ '\n' ∉ v := by simpa using hfeed
    rw [Lines.dropTerminator_of_newline_not_mem hfeed, Lines.dropFinal_append u hv] at h ⊢
    rw [Lines.dropTerminator_of_newline_not_mem hfeeds.1,
      Lines.dropTerminator_of_newline_not_mem hfeeds.2]
    have hcuts' : ¬Cuts u (Lines.dropFinal '\r' v) := fun hcut => hcuts hcut.of_dropFinal
    obtain ⟨hfront, hback⟩ := (whole_append_iff hcuts').mp h
    obtain ⟨hfront', hdepth⟩ := whole_dropFinal hfront
    rw [hdepth]
    exact ⟨hfront', hback, depthAfter_append hcuts' n⟩

/-- Two lines carry the mode that one line with the text of both carries. -/
theorem endMode_append (kind : CommentKind) (hle : n ≤ Depth.limit) (hfeed : '\n' ∉ u ++ v)
    (hcuts : ¬Cuts u v) (h : Whole n (Lines.dropTerminator (u ++ v))) :
    Line.endMode (Line.endMode (kind.modeAt n) u) v = Line.endMode (kind.modeAt n) (u ++ v) := by
  obtain ⟨hu, hv, hdepth⟩ := whole_of_append hfeed hcuts h
  have hle' : depthAfter n (Lines.dropTerminator u) ≤ Depth.limit := depthBehind_le hle _
  rw [endMode_of_whole kind hle hu, endMode_of_whole kind hle' hv, endMode_of_whole kind hle h,
    hdepth]

end Parts

end BlockComment

end BoardHighlight
