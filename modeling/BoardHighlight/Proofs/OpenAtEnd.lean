import BoardHighlight.Proofs.ProblemOrder

/-!
# What is open at the end

Reading a line token by token, a reader is left in ordinary code, in a string gap or, at the end of
the line only, in a comment. The mode of strings is none of these, although a reader may be put into
it in front of a line. A document whose lines are read from its first one on never keeps it, so what
a check would say about a source that ends in this mode makes no difference.
-/

namespace BoardHighlight
set_option autoImplicit false

namespace Cursor
variable {line : String}

/-- How a token leaves its reader. -/
inductive Leaves (behind : Cursor line) : Mode → Prop where
  | code : Leaves behind .normal
  | gap : Leaves behind .stringGap
  | comment {kind : CommentKind} {depth : Depth} : 1 ≤ depth.val → depth.val < UInt32.size →
      behind.atEnd = true → Leaves behind (.blockComment kind depth)

theorem View.leaves {cursor : Cursor line} {before current rest : List Char} {mode : Mode}
    (h : View cursor before current rest) (hbehind : mode.Behind rest) : Leaves cursor mode := by
  cases hbehind with
  | code => exact .code
  | gap => exact .gap
  | comment kind depth hrest =>
    exact .comment depth.pos (Nat.lt_succ_of_le depth.le_limit) (h.atEnd_iff.mpr hrest)

theorem View.leaves_of_calls {cursor stop : Cursor line} {before current rest : List Char}
    {mode last : Mode} {read : List (Token × Mode × Cursor line)} (h : View cursor before current rest)
    (hcalls : Calls mode cursor read last stop) : ∀ call ∈ read, Leaves call.2.2 call.2.1 := by
  induction hcalls generalizing before current rest with
  | done => simp
  | next hnext _ ih =>
    obtain ⟨hrequest, hbehind⟩ := h.nextToken? hnext
    rw [List.forall_mem_cons]
    exact ⟨hbehind.leaves (behind_of_nextToken? hrequest), ih hbehind⟩

end Cursor

namespace Document

/-- The mode of strings plays no part in a document: it is kept nowhere, nothing is passed over at
the end unless nothing is open there, and any other answer about that mode would do as well. -/
structure WithoutStringMode (doc : Document) : Prop where
  kept : ∀ mode ∈ doc.modes, mode ≠ .string
  silent_iff : doc.problemAtEnd? = none ↔ doc.endMode = .normal
  any_answer : ∀ ofEnd : Mode → Option Cause,
    (∀ mode, mode ≠ .string → ofEnd mode = Cause.ofEnd? mode) →
      ofEnd doc.endMode = Cause.ofEnd? doc.endMode

theorem Reachable.withoutStringMode {doc : Document} (h : Reachable doc) : WithoutStringMode doc where
  kept := by
    intro mode hmode
    obtain ⟨i, hi⟩ := List.mem_iff_getElem?.mp hmode
    exact h.modeBefore?_ne_string hi
  silent_iff := by rw [← h.remainder.eq_nil_iff, Option.toList_eq_nil_iff]
  any_answer := fun _ hagree => hagree _ h.endMode_ne_string

/-- String mode never survives a token, wherever the reader starts, and a comment only the last one
of a line. Hence no document keeps the mode of strings, whatever edits led to it. -/
theorem leaves_and_withoutStringMode :
    (∀ start text read last stop,
      Cursor.Calls start (Cursor.atStart (Cursor.lineOf text)) read last stop →
        ∀ call ∈ read, Cursor.Leaves call.2.2 call.2.1) ∧
    ∀ doc, Reachable doc → WithoutStringMode doc := by
  constructor
  · intro start text read last stop hcalls
    exact (Cursor.view_atStart (Cursor.lineOf text)).leaves_of_calls hcalls
  · intro doc hdoc
    exact hdoc.withoutStringMode

/-- A line that is read from within a string: it opens a gap, closes the string and opens a comment.
Put below a line with an open gap, it is the line that breaks it. -/
theorem leaves_and_withoutStringMode_gap :
    let text := "b\\ \\c\" \x7b-".toList
    let doc := (ofText "\"a\\".toList).after (.insert 1 text)
    (Line.read .string text).map Prod.snd = [.stringGap, .normal, .normal, .opened .ordinary] ∧
      (∀ call ∈ Cursor.readLine .string (Cursor.lineOf text), Cursor.Leaves call.2.2 call.2.1) ∧
      doc.modes[1]? = some .stringGap ∧ WithoutStringMode doc := by
  intro text doc
  obtain ⟨stop, hcalls, -⟩ := (Cursor.readsWhole_readLine .string text).finishes
  have h := leaves_and_withoutStringMode
  exact ⟨by decide +kernel, h.1 _ _ _ _ _ hcalls, by decide +kernel, h.2 doc (.edit _ (.text _))⟩

end Document

end BoardHighlight
