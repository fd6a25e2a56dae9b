import BoardHighlight.Proofs.Relexing

/-!
# How far an edit lexes again

An edit shifts the kept modes along with their lines, and then lexes lines again until one of them
ends in the mode that the shift left for it. The number of those lines is the least that will do:
behind every one before the last the fresh mode differs from the shifted one. No other mode is
touched, and none has to be.
-/

namespace BoardHighlight
set_option autoImplicit false

namespace Edit

/-- The lines of a document after the edit. -/
def applyTo : Edit → List (List Char) → List (List Char)
  | .replace i text, lines => lines.set i text
  | .insert i text, lines => lines.insertIdx i text
  | .remove i, lines => lines.eraseIdx i

/-- The kept modes after the edit and before anything is lexed again. A new line takes over the mode
in front of it, which then stands twice; a removed line takes the mode behind it away. -/
def shift : Edit → List Mode → List Mode
  | .replace _ _, modes => modes
  | .insert i _, modes => modes.take (i + 1) ++ modes.drop i
  | .remove i, modes => modes.eraseIdx (i + 1)

end Edit

namespace Document

theorem modes_append (front back : List Entry) :
    (Document.mk (front ++ back)).modes = (Document.mk front).modes ++ back.map (·.after) := by
  simp [modes]

theorem modes_mk_length (entries : List Entry) :
    (Document.mk entries).modes.length = entries.length + 1 := modes_length _

theorem drop_modes (front : List Entry) :
    (Document.mk front).modes.drop front.length = [lastMode .normal front] := by
  have hmode := modeBefore?_append front []
  rw [List.append_nil, modeBefore?] at hmode
  obtain ⟨hlt, hmode⟩ := List.getElem?_eq_some_iff.mp hmode
  rw [List.drop_eq_getElem_cons hlt, hmode, List.drop_of_length_le (Nat.le_of_eq (modes_mk_length front))]

namespace Edited
variable {front old new : List Entry} {edit : Edit}

theorem lines_eq (h : Edited (lastMode .normal front) edit old new)
    (hfront : front.length = edit.line) :
    edit.applyTo (Document.mk (front ++ old)).lines = (Document.mk (front ++ new)).lines := by
  have hlength : (front.map (·.text)).length = edit.line := by rw [List.length_map, hfront]
  simp only [lines, List.map_append]
  cases h with
  | replace i text entry rest =>
    obtain rfl : _ = i := hlength
    rw [Edit.applyTo, List.set_append_right _ _ (Nat.le_refl _), Nat.sub_self]
    rfl
  | insert i text rest =>
    obtain rfl : _ = i := hlength
    exact List.modifyTailIdx_add (List.cons text) 0 _ _
  | remove i entry rest =>
    obtain rfl : _ = i := hlength
    rw [Edit.applyTo, List.eraseIdx_append_of_length_le (Nat.le_refl _), Nat.sub_self]
    rfl

theorem modes_eq (h : Edited (lastMode .normal front) edit old new)
    (hfront : front.length = edit.line) :
    edit.shift (Document.mk (front ++ old)).modes = (Document.mk (front ++ new)).modes := by
  have hlength := modes_mk_length front
  cases h with
  | replace i text entry rest =>
    rw [Edit.shift, modes_append, modes_append]
    rfl
  | insert i text rest =>
    obtain rfl : front.length = i := hfront
    rw [Edit.shift, modes_append, modes_append, List.take_left' hlength,
      List.drop_append_of_le_length (by omega), drop_modes]
    rfl
  | remove i entry rest =>
    obtain rfl : front.length = i := hfront
    rw [Edit.shift, modes_append, modes_append, List.eraseIdx_append_of_length_le (by omega),
      hlength, Nat.sub_self]
    rfl

/-- Only the removal of the last line leaves nothing to be lexed again. -/
theorem eq_nil_iff (h : Edited (lastMode .normal front) edit old new)
    (hfront : front.length = edit.line) :
    new = [] ↔ ∃ i, edit = .remove i ∧ i + 1 = (Document.mk (front ++ old)).lineCount := by
  rw [lineCount, List.length_append, hfront]
  cases h with
  | replace i text entry rest => simp
  | insert i text rest => simp
  | remove i entry rest =>
    simp only [Edit.remove.injEq, exists_eq_left', Edit.line, List.length_cons,
      ← List.length_eq_zero_iff]
    omega

end Edited

/-- Lexing again stops at the first entry that ends as the one that is kept does, or goes through
all of them if there is none. -/
theorem relex_count (mode : Mode) (entries : List Entry) :
    let fresh := (relex mode entries).2.map (·.after)
    let kept := entries.map (·.after)
    (∃ j, (relex mode entries).1 = j + 1 ∧ j < entries.length ∧ fresh[j]? = kept[j]? ∧
      ∀ k, k < j → fresh[k]? ≠ kept[k]?) ∨
    ((relex mode entries).1 = entries.length ∧ ∀ k, k < entries.length → fresh[k]? ≠ kept[k]?) := by
  induction entries generalizing mode with
  | nil => exact .inr ⟨rfl, fun k hk => absurd hk (Nat.not_lt_zero k)⟩
  | cons entry rest ih =>
    unfold relex
    dsimp only
    split
    · exact .inl ⟨0, rfl, Nat.succ_pos _, rfl, fun k hk => absurd hk (Nat.not_lt_zero k)⟩
    · rename_i hdiffers
      have hfirst : some (Line.endMode mode entry.text) ≠ some entry.after :=
        fun h => hdiffers (Option.some.inj h)
      rcases ih (Line.endMode mode entry.text) with ⟨j, hcount, hlt, hagree, hbefore⟩ | ⟨hcount, hnone⟩
      · refine .inl ⟨j + 1, by rw [hcount], Nat.succ_lt_succ hlt, hagree, ?_⟩
        intro k hk
        cases k with
        | zero => exact hfirst
        | succ k => exact hbefore k (Nat.lt_of_succ_lt_succ hk)
      · refine .inr ⟨by rw [hcount, List.length_cons], ?_⟩
        intro k hk
        cases k with
        | zero => exact hfirst
        | succ k => exact hnone k (Nat.lt_of_succ_lt_succ hk)

/-- The entries behind those that are lexed stay as they are. -/
theorem relex_drop (mode : Mode) (entries : List Entry) {k : Nat} (h : (relex mode entries).1 ≤ k) :
    (relex mode entries).2[k]? = entries[k]? := by
  induction entries generalizing mode k with
  | nil => rfl
  | cons entry rest ih =>
    unfold relex at h ⊢
    dsimp only at h ⊢
    split at h
    · rename_i hagree
      rw [if_pos hagree]
    · rename_i hdiffers
      rw [if_neg hdiffers]
      cases k with
      | zero => exact absurd h (Nat.not_succ_le_zero _)
      | succ k => exact ih _ (Nat.le_of_succ_le_succ h)

/-- Behind `k` lines from line `i` on, the fresh mode is the one that was kept. -/
def Agrees (fresh kept : List Mode) (i k : Nat) : Prop :=
  1 ≤ k ∧ i + k < fresh.length ∧ fresh[i + k]? = kept[i + k]?

/-- What an edit that is made does to the kept modes: `count` lines from its line on are lexed
again. -/
structure RelexesOnly (doc : Document) (edit : Edit) (count : Nat) (changed : Document) : Prop where
  lines : changed.lines = edit.applyTo doc.lines
  shifted : (edit.shift doc.modes).length = changed.lineCount + 1
  least :
    let fresh := (ofLines (edit.applyTo doc.lines)).modes
    let kept := edit.shift doc.modes
    (Agrees fresh kept edit.line count ∧ ∀ k, Agrees fresh kept edit.line k → count ≤ k) ∨
    (count = changed.lineCount - edit.line ∧ ∀ k, ¬Agrees fresh kept edit.line k)
  none : count = 0 ↔ ∃ i, edit = .remove i ∧ i + 1 = doc.lineCount
  above : ∀ j, j ≤ edit.line → changed.modes[j]? = (edit.shift doc.modes)[j]?
  lexed : ∀ j, edit.line < j → j ≤ edit.line + count →
    changed.modes[j]? = (ofLines (edit.applyTo doc.lines)).modes[j]?
  below : ∀ j, edit.line + count < j →
    changed.modes[j]? = (edit.shift doc.modes)[j]? ∧
    (edit.shift doc.modes)[j]? = (ofLines (edit.applyTo doc.lines)).modes[j]?

theorem modes_getElem?_behind (front back : List Entry) (j : Nat) :
    (Document.mk (front ++ back)).modes[front.length + (j + 1)]? = (back.map (·.after))[j]? := by
  have hlength := modes_mk_length front
  rw [modes_append, List.getElem?_append_right (by omega), hlength]
  congr 1
  omega

theorem modes_getElem?_front (front back : List Entry) {j : Nat} (h : j ≤ front.length) :
    (Document.mk (front ++ back)).modes[j]? = (Document.mk front).modes[j]? := by
  have hlength := modes_mk_length front
  rw [modes_append, List.getElem?_append_left (by omega)]

theorem agrees_append_iff {front fresh kept : List Entry} {k : Nat} :
    Agrees (Document.mk (front ++ fresh)).modes (Document.mk (front ++ kept)).modes front.length k ↔
      ∃ j, k = j + 1 ∧ j < fresh.length ∧ (fresh.map (·.after))[j]? = (kept.map (·.after))[j]? := by
  have hlength := modes_mk_length (front ++ fresh)
  rw [List.length_append] at hlength
  constructor
  · rintro ⟨hpos, hlt, hagree⟩
    obtain ⟨j, rfl⟩ := Nat.exists_eq_add_of_le' hpos
    rw [modes_getElem?_behind, modes_getElem?_behind] at hagree
    exact ⟨j, rfl, by omega, hagree⟩
  · rintro ⟨j, rfl, hlt, hagree⟩
    refine ⟨by omega, by omega, ?_⟩
    rwa [modes_getElem?_behind, modes_getElem?_behind]

theorem relex_length (mode : Mode) (entries : List Entry) :
    (relex mode entries).2.length = entries.length := by
  have hlength := congrArg List.length (relex_texts mode entries)
  rwa [List.length_map, List.length_map] at hlength

theorem relex_count_eq_zero_iff {mode : Mode} {entries : List Entry} :
    (relex mode entries).1 = 0 ↔ entries = [] := by
  constructor
  · intro hzero
    rcases relex_count mode entries with ⟨j, hcount, -⟩ | ⟨hcount, -⟩
    · omega
    · exact List.length_eq_zero_iff.mp (by omega)
  · rintro rfl
    rfl

/-- The number of entries that are lexed again, behind entries that are not. -/
theorem relex_least (front : List Entry) (mode : Mode) (entries : List Entry) :
    let done := relex mode entries
    let fresh := (Document.mk (front ++ done.2)).modes
    let kept := (Document.mk (front ++ entries)).modes
    (Agrees fresh kept front.length done.1 ∧ ∀ k, Agrees fresh kept front.length k → done.1 ≤ k) ∨
    (done.1 = entries.length ∧ ∀ k, ¬Agrees fresh kept front.length k) := by
  simp only [agrees_append_iff, relex_length]
  rcases relex_count mode entries with ⟨j, hcount, hlt, hagree, hbefore⟩ | ⟨hcount, hnone⟩
  · refine .inl ⟨⟨j, hcount, hlt, hagree⟩, ?_⟩
    rintro k ⟨j', rfl, -, hagree'⟩
    rw [hcount]
    refine Nat.succ_le_succ (Nat.le_of_not_lt fun hj => ?_)
    exact hbefore j' hj hagree'
  · refine .inr ⟨hcount, ?_⟩
    rintro k ⟨j, rfl, hlt, hagree⟩
    exact hnone j hlt hagree

/-- The modes behind those lines stay as they were kept. -/
theorem relex_frame (front : List Entry) (mode : Mode) (entries : List Entry) {j : Nat}
    (h : front.length + (relex mode entries).1 < j) :
    (Document.mk (front ++ (relex mode entries).2)).modes[j]? =
      (Document.mk (front ++ entries)).modes[j]? := by
  obtain ⟨k, rfl⟩ : ∃ k, j = front.length + (k + 1) := ⟨j - front.length - 1, by omega⟩
  rw [modes_getElem?_behind, modes_getElem?_behind, List.getElem?_map, List.getElem?_map,
    relex_drop mode entries (by omega)]

/-- An edit lexes again the lines that it must and touches no other mode: it stops behind the first
line whose fresh mode is the shifted one, and the modes below that line are those that lexing from
scratch would give. -/
theorem relexesOnly_of_edit {doc changed : Document} {edit : Edit} {count : Nat}
    (hdoc : Reachable doc) (h : doc.edit edit = .ok (count, changed)) :
    RelexesOnly doc edit count changed := by
  have hafter : doc.after edit = changed := by rw [Document.after, h]
  have hconsistent : changed.Consistent := hafter ▸ hdoc.consistent.after edit
  obtain ⟨front, old, new, hentries, hfront, hedited, hrelex⟩ := edit_cases h
  obtain rfl : doc = ⟨front ++ old⟩ := by rw [← hentries]
  rw [← hfront, relexFrom_append, Prod.mk.injEq] at hrelex
  obtain ⟨rfl, hchanged⟩ := hrelex
  have hlines : changed.lines = edit.applyTo (Document.mk (front ++ old)).lines := by
    rw [hedited.lines_eq hfront, hchanged, lines, lines, List.map_append, List.map_append,
      relex_texts]
  have hfresh : ofLines (edit.applyTo (Document.mk (front ++ old)).lines) = changed := by
    rw [← hlines]
    exact (consistent_iff.mp hconsistent).symm
  have hmodes := hedited.modes_eq hfront
  have hcount : changed.lineCount = front.length + new.length := by
    rw [hchanged, lineCount, List.length_append, relex_length]
  exact {
    lines := hlines
    shifted := by rw [hmodes, modes_mk_length, List.length_append, hcount]
    least := by
      rw [hmodes, hfresh, hcount, ← hfront, Nat.add_sub_cancel_left, hchanged]
      exact relex_least front _ new
    none := relex_count_eq_zero_iff.trans (hedited.eq_nil_iff hfront)
    above := by
      intro j hj
      rw [hmodes, hchanged, modes_getElem?_front _ _ (by omega), modes_getElem?_front _ _ (by omega)]
    lexed := by
      intro j _ _
      rw [hfresh]
    below := by
      intro j hj
      have hframe := relex_frame front (lastMode .normal front) new (hfront ▸ hj)
      rw [hmodes, hfresh, hchanged]
      exact ⟨hframe, hframe.symm⟩ }

theorem eq_ok_of_toOption {ε α : Type} {result : Except ε α} {x : α}
    (h : result.toOption = some x) : result = .ok x := by
  cases result with
  | ok y => rw [Option.some.inj h]
  | error e => cases h

/-- The opener of a comment is put in front of two lines, of which the second closes it, and the
last line of the result is taken away. -/
theorem relexesOnly_of_two_edits :
    let doc := ofText "a\nb -\x7d\nc".toList
    let opened := doc.after (.insert 0 "\x7b-".toList)
    let cut := opened.after (.remove 3)
    RelexesOnly doc (.insert 0 "\x7b-".toList) 3 opened ∧ RelexesOnly opened (.remove 3) 0 cut := by
  intro doc opened cut
  have hopened : (doc.edit (.insert 0 "\x7b-".toList)).toOption = some (3, opened) := by
    decide +kernel
  have hcut : (opened.edit (.remove 3)).toOption = some (0, cut) := by decide +kernel
  exact ⟨relexesOnly_of_edit (.text _) (eq_ok_of_toOption hopened),
    relexesOnly_of_edit (.edit _ (.text _)) (eq_ok_of_toOption hcut)⟩

end Document

end BoardHighlight
