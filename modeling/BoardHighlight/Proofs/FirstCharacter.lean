import BoardHighlight.Proofs.Overlay

/-!
# What the first character decides

In ordinary code a digit starts a number, a capital and a small letter start a name. No other class
that is asked for before theirs has these characters, which is a matter of the 128 characters of
ASCII only, and is read off from them one by one.
-/

namespace BoardHighlight
set_option autoImplicit false

/-- What holds of a class within ASCII is read off from the characters there. -/
theorem of_ascii {test : Char → Bool} {p : Char → Prop} {c : Char} (hc : c.toNat < 128)
    (htest : test c = true)
    (h : ∀ n : Fin 128, test (Char.ofNat n) = true → p (Char.ofNat n)) : p c := by
  have hchar := h ⟨c.toNat, hc⟩
  rw [Char.ofNat_toNat] at hchar
  exact hchar htest

section Classes
variable {c : Char}

theorem toNat_lt_of_le {d : Char} (h : c ≤ d) (hd : d.toNat < 128) : c.toNat < 128 :=
  Nat.lt_of_le_of_lt (UInt32.le_iff_toNat_le.mp h) hd

theorem toNat_lt_of_isDigit (h : isDigit c = true) : c.toNat < 128 := by
  have hle : c ≤ '9' := of_decide_eq_true (Bool.and_eq_true_iff.mp h).2
  exact toNat_lt_of_le hle (by decide)

theorem toNat_lt_of_isUpperStart (h : isUpperStart c = true) : c.toNat < 128 := by
  have hle : c ≤ 'Z' := (of_decide_eq_true h).2
  exact toNat_lt_of_le hle (by decide)

theorem toNat_lt_of_isLowerStart (h : isLowerStart c = true) : c.toNat < 128 := by
  simp only [isLowerStart, Bool.or_eq_true, beq_iff_eq] at h
  rcases h with hletter | rfl
  · have hle : c ≤ 'z' := of_decide_eq_true (Bool.and_eq_true_iff.mp hletter).2
    exact toNat_lt_of_le hle (by decide)
  · decide

theorem toNat_lt_of_isHexDigit (h : isHexDigit c = true) : c.toNat < 128 := by
  simp only [isHexDigit, Bool.or_eq_true, Bool.and_eq_true, decide_eq_true_eq] at h
  rcases h with (hdigit | hsmall) | hcapital
  · exact toNat_lt_of_isDigit hdigit
  · exact toNat_lt_of_le hsmall.2 (by decide)
  · exact toNat_lt_of_le hcapital.2 (by decide)

theorem toNat_lt_of_isOctDigit (h : isOctDigit c = true) : c.toNat < 128 := by
  simp only [isOctDigit, Bool.and_eq_true, decide_eq_true_eq] at h
  exact toNat_lt_of_le h.2 (by decide)

/-- Neither a blank nor a mark nor a quote: what starts a number or a name, or a symbol. -/
def StartsWord (c : Char) : Prop :=
  isBlank c = false ∧ isPunctuation c = false ∧ (c == '\'') = false ∧ (c == '"') = false

instance (c : Char) : Decidable (StartsWord c) := inferInstanceAs (Decidable (_ ∧ _))

theorem startsWord_of_digit (h : isDigit c = true) :
    StartsWord c ∧ isUpperStart c = false ∧ isLowerStart c = false := by
  apply of_ascii (toNat_lt_of_isDigit h) h
  decide

theorem startsWord_of_upper (h : isUpperStart c = true) : StartsWord c := by
  apply of_ascii (toNat_lt_of_isUpperStart h) h
  decide

theorem startsWord_of_lower (h : isLowerStart c = true) :
    StartsWord c ∧ isUpperStart c = false := by
  apply of_ascii (toNat_lt_of_isLowerStart h) h
  decide

end Classes

namespace Mode
variable {c : Char}

theorem cut_of_digit (ends : Bool) (h : isDigit c = true) (rest : List Char) :
    normal.cut ends (c :: rest) = Number.cut (c :: rest) := by
  obtain ⟨⟨hblank, hmark, hquote, hquotes⟩, hupper, hlower⟩ := startsWord_of_digit h
  apply cut_of_emit
  simp [step, normalStep_cons, hblank, hmark, hquote, hquotes, hupper, hlower, h]

theorem cut_of_upper (ends : Bool) (h : isUpperStart c = true) (rest : List Char) :
    normal.cut ends (c :: rest) = Name.upperCut rest := by
  obtain ⟨hblank, hmark, hquote, hquotes⟩ := startsWord_of_upper h
  apply cut_of_emit
  simp [step, normalStep_cons, hblank, hmark, hquote, hquotes, h]

theorem cut_of_lower (ends : Bool) (h : isLowerStart c = true) (rest : List Char) :
    normal.cut ends (c :: rest) = Name.lowerCut rest := by
  obtain ⟨⟨hblank, hmark, hquote, hquotes⟩, hupper⟩ := startsWord_of_lower h
  apply cut_of_emit
  simp [step, normalStep_cons, hblank, hmark, hquote, hquotes, hupper, h]

end Mode

end BoardHighlight
