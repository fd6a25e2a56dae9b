import BoardHighlight.Text.Digits
import BoardHighlight.Text.Quoted

/-!
# Texts that can be read back

A row of output is made of parts, one behind the other. A part can be told off the front of a text
if no two of its values agree there, whatever follows them: numbers with a character behind them
that is no digit, and quoted text, whichever of its characters are spelled by number.
-/

namespace BoardHighlight
set_option autoImplicit false

/-- What is written for a value with the property can be told off the front of a text: neither its
end nor the value is in doubt. -/
def DelimitedOn {α : Type} (P : α → Prop) (write : α → List Char) : Prop :=
  ∀ a b, P a → P b → ∀ r s, write a ++ r = write b ++ s → a = b ∧ r = s

/-- Two texts up to the first character that lies outside a class. -/
theorem append_cons_inj {p : Char → Prop} {xs ys r s : List Char} {x y : Char}
    (hxs : ∀ c ∈ xs, p c) (hys : ∀ c ∈ ys, p c) (hx : ¬p x) (hy : ¬p y)
    (h : xs ++ x :: r = ys ++ y :: s) : xs = ys ∧ x = y ∧ r = s := by
  induction xs generalizing ys with
  | nil =>
    cases ys with
    | nil =>
      obtain ⟨hhead, htail⟩ := List.cons.inj h
      exact ⟨rfl, hhead, htail⟩
    | cons d ys =>
      obtain ⟨rfl, -⟩ := List.cons.inj h
      exact absurd (hys x List.mem_cons_self) hx
  | cons c xs ih =>
    cases ys with
    | nil =>
      obtain ⟨rfl, -⟩ := List.cons.inj h
      exact absurd (hxs c List.mem_cons_self) hy
    | cons d ys =>
      rw [List.forall_mem_cons] at hxs hys
      obtain ⟨rfl, htail⟩ := List.cons.inj h
      obtain ⟨rfl, hends⟩ := ih hxs.2 hys.2 htail
      exact ⟨rfl, hends⟩

theorem append_cons_inj_of_not_mem {xs ys r s : List Char} {x : Char} (hxs : x ∉ xs) (hys : x ∉ ys)
    (h : xs ++ x :: r = ys ++ x :: s) : xs = ys ∧ r = s := by
  have hne : ∀ zs : List Char, x ∉ zs → ∀ c ∈ zs, c ≠ x := by
    intro zs hzs c hc heq
    exact hzs (heq ▸ hc)
  obtain ⟨hfront, -, hback⟩ := append_cons_inj (hne xs hxs) (hne ys hys) (fun h => h rfl)
    (fun h => h rfl) h
  exact ⟨hfront, hback⟩

/-- A list is told off the front of a text if its items are and another character stops it. -/
theorem DelimitedOn.flatMap {α : Type} {P : α → Prop} {write : α → List Char}
    (h : DelimitedOn P write) {stop : Char}
    (hstop : ∀ a, P a → ∃ c rest, write a = c :: rest ∧ c ≠ stop) {xs ys : List α}
    (hxs : ∀ a ∈ xs, P a) (hys : ∀ a ∈ ys, P a) {r s : List Char}
    (heq : xs.flatMap write ++ stop :: r = ys.flatMap write ++ stop :: s) : xs = ys ∧ r = s := by
  induction xs generalizing ys with
  | nil =>
    cases ys with
    | nil => exact ⟨rfl, (List.cons.inj heq).2⟩
    | cons b ys =>
      obtain ⟨c, rest, hwrite, hne⟩ := hstop b (hys b List.mem_cons_self)
      rw [List.flatMap_cons, hwrite] at heq
      exact absurd (List.cons.inj heq).1.symm hne
  | cons a xs ih =>
    cases ys with
    | nil =>
      obtain ⟨c, rest, hwrite, hne⟩ := hstop a (hxs a List.mem_cons_self)
      rw [List.flatMap_cons, hwrite] at heq
      exact absurd (List.cons.inj heq).1 hne
    | cons b ys =>
      rw [List.forall_mem_cons] at hxs hys
      rw [List.flatMap_cons, List.flatMap_cons, List.append_assoc, List.append_assoc] at heq
      obtain ⟨rfl, hrest⟩ := h a b hxs.1 hys.1 _ _ heq
      obtain ⟨rfl, hends⟩ := ih hxs.2 hys.2 hrest
      exact ⟨rfl, hends⟩

/-! ## Numbers -/

theorem digitValue_digitChar : ∀ d, d < 16 → digitValue (Nat.digitChar d) = d := by
  decide

theorem isHexDigit_digitChar : ∀ d, d < 16 → isHexDigit (Nat.digitChar d) = true := by
  decide

section Digits
variable {base : Nat}

theorem digitsValue_append (digits : List Char) (c : Char) :
    digitsValue base (digits ++ [c]) = digitsValue base digits * base + digitValue c := by
  rw [digitsValue, List.foldl_append]
  rfl

theorem digitsValue_toDigits (hbase : 1 < base) (hle : base ≤ 16) (n : Nat) :
    digitsValue base (Nat.toDigits base n) = n := by
  induction n using Nat.strongRecOn with
  | ind n ih =>
    rw [Nat.toDigits_eq_if hbase]
    split
    · have hdigit := digitValue_digitChar n (by omega)
      simpa [digitsValue] using hdigit
    · rename_i hn
      have hlt : n % base < base := Nat.mod_lt n (by omega)
      rw [digitsValue_append, ih (n / base) (Nat.div_lt_self (by omega) hbase),
        digitValue_digitChar _ (by omega)]
      exact Nat.div_add_mod' n base

theorem isHexDigit_of_mem_toDigits (hbase : 1 < base) (hle : base ≤ 16) (n : Nat) :
    ∀ c ∈ Nat.toDigits base n, isHexDigit c = true := by
  induction n using Nat.strongRecOn with
  | ind n ih =>
    intro c hc
    rw [Nat.toDigits_eq_if hbase] at hc
    split at hc
    · rw [List.mem_singleton.mp hc]
      exact isHexDigit_digitChar n (by omega)
    · rename_i hn
      rcases List.mem_append.mp hc with hfront | hlast
      · exact ih (n / base) (Nat.div_lt_self (by omega) hbase) c hfront
      · have hlt : n % base < base := Nat.mod_lt n (by omega)
        rw [List.mem_singleton.mp hlast]
        exact isHexDigit_digitChar _ (by omega)

/-- A number ends where no digit follows. -/
theorem toDigits_append_inj (hbase : 1 < base) (hle : base ≤ 16) {m n : Nat} {x y : Char}
    {r s : List Char} (hx : isHexDigit x = false) (hy : isHexDigit y = false)
    (h : Nat.toDigits base m ++ x :: r = Nat.toDigits base n ++ y :: s) :
    m = n ∧ x = y ∧ r = s := by
  obtain ⟨hdigits, hends⟩ := append_cons_inj (isHexDigit_of_mem_toDigits hbase hle m)
    (isHexDigit_of_mem_toDigits hbase hle n) (Bool.eq_false_iff.mp hx) (Bool.eq_false_iff.mp hy) h
  have hvalue := congrArg (digitsValue base) hdigits
  rw [digitsValue_toDigits hbase hle, digitsValue_toDigits hbase hle] at hvalue
  exact ⟨hvalue, hends⟩

end Digits

/-! ## Quoted text -/

namespace Quoted

/-- The characters that stand behind a backslash, each with the sign that stands for it. -/
def shortEscapes : List (Char × Char) :=
  [('"', '"'), ('\\', '\\'), ('\n', 'n'), ('\r', 'r'), ('\t', 't'), ('\x00', '0')]

/-- The ways to write a character between quotes. -/
inductive Written (c : Char) : List Char → Prop where
  | short {sign : Char} : (c, sign) ∈ shortEscapes → Written c ['\\', sign]
  | number : Written c (spelled c)
  | itself : (∀ x ∈ shortEscapes, c ≠ x.1) → Written c [c]

theorem written_encodeChar (byNumber : Char → Bool) (c : Char) :
    Written c (encodeChar byNumber c) := by
  by_cases hshort : ∃ x ∈ shortEscapes, c = x.1
  · obtain ⟨x, hx, rfl⟩ := hshort
    have hwrite : encodeChar byNumber x.1 = ['\\', x.2] := by
      simp only [shortEscapes, List.mem_cons, List.not_mem_nil, or_false] at hx
      rcases hx with rfl | rfl | rfl | rfl | rfl | rfl <;> rfl
    rw [hwrite]
    exact .short hx
  · have hitself : ∀ x ∈ shortEscapes, c ≠ x.1 := fun x hx heq => hshort ⟨x, hx, heq⟩
    have hwrite : encodeChar byNumber c = if byNumber c then spelled c else [c] := by
      simp only [shortEscapes, List.forall_mem_cons] at hitself
      simp [encodeChar, hitself]
    rw [hwrite]
    split
    · exact .number
    · exact .itself hitself

theorem sign_inj : ∀ x ∈ shortEscapes, ∀ y ∈ shortEscapes, x.2 = y.2 → x = y := by
  decide

theorem sign_ne_u : ∀ x ∈ shortEscapes, x.2 ≠ 'u' := by
  decide

/-- A character is told off the front of quoted text, whichever of the ways it is written in. -/
theorem Written.inj {c d : Char} {t u r s : List Char} (ht : Written c t) (hu : Written d u)
    (h : t ++ r = u ++ s) : c = d ∧ r = s := by
  have hslash : ('\\', '\\') ∈ shortEscapes := by decide
  cases ht with
  | short hc =>
    cases hu with
    | short hd =>
      simp only [List.cons_append, List.nil_append, List.cons.injEq, true_and] at h
      have hpair := sign_inj _ hc _ hd h.1
      exact ⟨congrArg Prod.fst hpair, h.2⟩
    | number =>
      simp only [spelled, List.cons_append, List.nil_append, List.cons.injEq, true_and] at h
      exact absurd h.1 (sign_ne_u _ hc)
    | itself hd => exact absurd (List.cons.inj h).1.symm (hd _ hslash)
  | number =>
    cases hu with
    | short hd =>
      simp only [spelled, List.cons_append, List.nil_append, List.cons.injEq, true_and] at h
      exact absurd h.1.symm (sign_ne_u _ hd)
    | number =>
      simp only [spelled, List.cons_append, List.append_assoc, List.nil_append, List.cons.injEq,
        true_and] at h
      obtain ⟨hnumber, -, hrest⟩ :=
        toDigits_append_inj (by decide) (by decide) (by decide) (by decide) h
      exact ⟨Char.toNat_inj.mp hnumber, hrest⟩
    | itself hd => exact absurd (List.cons.inj h).1.symm (hd _ hslash)
  | itself hc =>
    cases hu with
    | short => exact absurd (List.cons.inj h).1 (hc _ hslash)
    | number => exact absurd (List.cons.inj h).1 (hc _ hslash)
    | itself => exact List.cons.inj h

theorem delimitedOn_encodeChar (byNumber : Char → Bool) :
    DelimitedOn (fun _ => True) (encodeChar byNumber) := by
  intro c d _ _ r s h
  exact (written_encodeChar byNumber c).inj (written_encodeChar byNumber d) h

/-- Only the quote at its end stands bare in quoted text. -/
theorem Written.head_ne_quote {c : Char} {t : List Char} (h : Written c t) :
    ∃ first rest, t = first :: rest ∧ first ≠ '"' := by
  cases h with
  | short => exact ⟨_, _, rfl, by decide⟩
  | number => exact ⟨_, _, rfl, by decide⟩
  | itself hc => exact ⟨_, _, rfl, hc ('"', '"') (by decide)⟩

/-- Quoted text is told off the front of a text, whichever characters are spelled by number. -/
theorem delimitedOn_encode (byNumber : Char → Bool) :
    DelimitedOn (fun _ => True) (encode byNumber) := by
  intro a b _ _ r s h
  simp only [encode, List.cons_append, List.append_assoc, List.nil_append, List.cons.injEq,
    true_and] at h
  apply (delimitedOn_encodeChar byNumber).flatMap _ (fun _ _ => trivial) (fun _ _ => trivial) h
  intro c _
  exact (written_encodeChar byNumber c).head_ne_quote

end Quoted

end BoardHighlight
