import Mathlib.Computability.RegularExpressions
import Mathlib.Data.List.TakeWhile
import BoardHighlight.Proofs.FirstCharacter

/-!
# Numbers as longest matches

The spellings of numbers are a regular language, written down here as a regular expression. The
lexer decides on a number part by part and never takes a step back. What it takes is all the same
the longest prefix of the rest of the line that is in the language, because no part can start with
a character that would have gone on with the part before it.
-/

namespace BoardHighlight
set_option autoImplicit false

/-- The first `size` characters make up the longest prefix of a text that is in a language. -/
structure IsLongest (L : Language Char) (cs : List Char) (size : Nat) : Prop where
  le_length : size ≤ cs.length
  mem : cs.take size ∈ L
  length_le : ∀ w ∈ L, w <+: cs → w.length ≤ size

namespace IsLongest
variable {L M : Language Char} {cs : List Char} {m n : Nat}

theorem add_left (h : IsLongest L cs n) (hM : ∀ w ∈ M, w <+: cs → w.length ≤ n) :
    IsLongest (L + M) cs n where
  le_length := h.le_length
  mem := Or.inl h.mem
  length_le := by
    rintro w (hw | hw) hfront
    · exact h.length_le w hw hfront
    · exact hM w hw hfront

theorem add_right (h : IsLongest M cs n) (hL : ∀ w ∈ L, w <+: cs → w.length ≤ n) :
    IsLongest (L + M) cs n := by
  rw [add_comm]
  exact h.add_left hL

theorem zero (hnil : [] ∈ L) (h : ∀ w ∈ L, w <+: cs → w = []) : IsLongest L cs 0 where
  le_length := Nat.zero_le _
  mem := hnil
  length_le := by
    intro w hw hfront
    rw [h w hw hfront, List.length_nil]

theorem cons {c : Char} (h : IsLongest L cs n) (hmem : ∀ v ∈ L, c :: v ∈ M)
    (hcons : ∀ w ∈ M, w <+: c :: cs → w = [] ∨ ∃ v ∈ L, w = c :: v) :
    IsLongest M (c :: cs) (n + 1) where
  le_length := Nat.succ_le_succ h.le_length
  mem := hmem _ h.mem
  length_le := by
    intro w hw hfront
    rcases hcons w hw hfront with rfl | ⟨v, hv, rfl⟩
    · exact Nat.zero_le _
    · exact Nat.succ_le_succ (h.length_le v hv (List.cons_prefix_cons.mp hfront).2)

/-- The longest match of one language and behind it the longest of another make up the longest match
of both, if nothing of the second can stand behind a shorter match of the first. -/
theorem mul (hL : IsLongest L cs m) (hM : IsLongest M (cs.drop m) n)
    (hstop : ∀ u ∈ L, ∀ v ∈ M, u ++ v <+: cs → u.length < m → v = []) :
    IsLongest (L * M) cs (m + n) where
  le_length := by
    have hm := hL.le_length
    have hn := hM.le_length
    rw [List.length_drop] at hn
    omega
  mem := by
    rw [List.take_add]
    exact Language.append_mem_mul hL.mem hM.mem
  length_le := by
    intro w hw hfront
    obtain ⟨u, hu, v, hv, rfl⟩ := Language.mem_mul.mp hw
    have hle := hL.length_le u hu ((List.prefix_append u v).trans hfront)
    rw [List.length_append]
    rcases Nat.lt_or_eq_of_le hle with hlt | heq
    · rw [hstop u hu v hv hfront hlt, List.length_nil]
      omega
    · obtain ⟨tail, rfl⟩ := hfront
      rw [← heq, List.append_assoc, List.drop_left] at hM
      have hrest := hM.length_le v hv (List.prefix_append v tail)
      omega

end IsLongest

theorem getElem?_of_front {u v cs : List Char} {c : Char} (h : u ++ c :: v <+: cs) :
    cs[u.length]? = some c := by
  obtain ⟨tail, rfl⟩ := h
  simp

theorem getElem?_of_lt_runLength {p : Char → Bool} {cs : List Char} {i : Nat}
    (h : i < runLength p cs) : ∃ c, cs[i]? = some c ∧ p c = true := by
  have hget : (cs.takeWhile p)[i]? = cs[i]? := by
    rw [← take_runLength, List.getElem?_take_of_lt h]
  have hsome := List.getElem?_eq_getElem h
  exact ⟨_, hget ▸ hsome, List.mem_takeWhile_imp (List.getElem_mem h)⟩

theorem isLongest_runLength {p : Char → Bool} {L : Language Char}
    (hL : ∀ w, w ∈ L ↔ ∀ c ∈ w, p c = true) (cs : List Char) : IsLongest L cs (runLength p cs) where
  le_length := runLength_le p cs
  mem := by
    rw [take_runLength, hL]
    exact fun c hc => List.mem_takeWhile_imp hc
  length_le := by
    rintro w hw ⟨tail, rfl⟩
    rw [runLength, List.takeWhile_append_of_pos ((hL w).mp hw), List.length_append]
    omega

namespace Number
open RegularExpression (char)

/-- One character out of some. -/
def oneOf (cs : List Char) : RegularExpression Char := (cs.map char).sum

def digits : RegularExpression Char := (oneOf "0123456789".toList).star

def whole : RegularExpression Char := oneOf "0123456789".toList * digits

def fraction : RegularExpression Char := 1 + char '.' * whole

def signedDigits : RegularExpression Char := (1 + oneOf ['+', '-']) * digits

def exponent : RegularExpression Char := 1 + oneOf ['e', 'E'] * signedDigits

def decimal : RegularExpression Char := whole * (fraction * exponent)

/-- A zero, a marker and any number of digits. -/
def based (markers digits : List Char) : RegularExpression Char :=
  char '0' * (oneOf markers * (oneOf digits).star)

def hexadecimal : RegularExpression Char := based ['x', 'X'] "0123456789ABCDEFabcdef".toList

def octal : RegularExpression Char := based ['o', 'O'] "01234567".toList

/-- The spellings of numbers. -/
def grammar : RegularExpression Char := hexadecimal + octal + decimal

/-! ## Words of the grammar -/

theorem mem_oneOf {cs w : List Char} : w ∈ (oneOf cs).matches' ↔ ∃ c ∈ cs, w = [c] := by
  induction cs with
  | nil => simp [oneOf]
  | cons d cs ih =>
    rw [oneOf, List.map_cons, List.sum_cons, RegularExpression.matches'_add, Language.mem_add,
      ← oneOf, ih, RegularExpression.matches'_char, List.exists_mem_cons_iff]
    rfl

theorem mem_star_oneOf {cs w : List Char} : w ∈ (oneOf cs).star.matches' ↔ ∀ c ∈ w, c ∈ cs := by
  rw [RegularExpression.matches'_star, Language.mem_kstar]
  constructor
  · rintro ⟨words, rfl, hwords⟩ c hc
    obtain ⟨word, hword, hc⟩ := List.mem_flatten.mp hc
    obtain ⟨d, hd, rfl⟩ := mem_oneOf.mp (hwords word hword)
    rwa [List.mem_singleton.mp hc]
  · intro h
    refine ⟨w.map fun c => [c], by simp [← List.flatMap_def], ?_⟩
    intro word hword
    obtain ⟨c, hc, rfl⟩ := List.mem_map.mp hword
    exact mem_oneOf.mpr ⟨c, h c hc, rfl⟩

/-- A list holds the characters of a class, if all of these are within ASCII and are there. -/
theorem mem_iff_of_ascii {test : Char → Bool} {cs : List Char} {c : Char}
    (hascii : test c = true → c.toNat < 128) (hcs : cs.all test = true)
    (h : ∀ n : Fin 128, test (Char.ofNat n) = true → Char.ofNat n ∈ cs) :
    c ∈ cs ↔ test c = true := by
  constructor
  · exact List.all_eq_true.mp hcs c
  · intro hc
    exact of_ascii (hascii hc) hc h

theorem mem_digitList {c : Char} : c ∈ "0123456789".toList ↔ isDigit c = true :=
  mem_iff_of_ascii toNat_lt_of_isDigit (by decide) (by decide)

theorem mem_hexDigitList {c : Char} :
    c ∈ "0123456789ABCDEFabcdef".toList ↔ isHexDigit c = true :=
  mem_iff_of_ascii toNat_lt_of_isHexDigit (by decide) (by decide)

theorem mem_octDigitList {c : Char} : c ∈ "01234567".toList ↔ isOctDigit c = true :=
  mem_iff_of_ascii toNat_lt_of_isOctDigit (by decide) (by decide)

theorem mem_digits {w : List Char} : w ∈ digits.matches' ↔ ∀ c ∈ w, isDigit c = true := by
  rw [digits, mem_star_oneOf]
  simp only [mem_digitList]

theorem mem_whole {w : List Char} : w ∈ whole.matches' ↔ w ≠ [] ∧ ∀ c ∈ w, isDigit c = true := by
  rw [whole, RegularExpression.matches'_mul, Language.mem_mul]
  constructor
  · rintro ⟨u, hu, v, hv, rfl⟩
    obtain ⟨c, hc, rfl⟩ := mem_oneOf.mp hu
    rw [List.singleton_append, List.forall_mem_cons]
    exact ⟨List.cons_ne_nil c v, mem_digitList.mp hc, mem_digits.mp hv⟩
  · rintro ⟨hne, hw⟩
    obtain ⟨c, v, rfl⟩ := List.exists_cons_of_ne_nil hne
    rw [List.forall_mem_cons] at hw
    exact ⟨[c], mem_oneOf.mpr ⟨c, mem_digitList.mpr hw.1, rfl⟩, v, mem_digits.mpr hw.2, rfl⟩

theorem mem_fraction {w : List Char} :
    w ∈ fraction.matches' ↔ w = [] ∨ ∃ v ∈ whole.matches', w = '.' :: v := by
  rw [fraction, RegularExpression.matches'_add, Language.mem_add, RegularExpression.matches'_mul,
    Language.mem_mul, RegularExpression.matches'_char]
  apply or_congr Iff.rfl
  constructor
  · rintro ⟨u, rfl, v, hv, rfl⟩
    exact ⟨v, hv, rfl⟩
  · rintro ⟨v, hv, rfl⟩
    exact ⟨['.'], rfl, v, hv, rfl⟩

theorem mem_signedDigits {w : List Char} :
    w ∈ signedDigits.matches' ↔
      w ∈ digits.matches' ∨ ∃ sign, isSign sign = true ∧ ∃ v ∈ digits.matches', w = sign :: v := by
  have hsign : ∀ c, c ∈ ['+', '-'] ↔ isSign c = true := by simp [isSign]
  rw [signedDigits, RegularExpression.matches'_mul, Language.mem_mul]
  constructor
  · rintro ⟨u, rfl | hu, v, hv, rfl⟩
    · exact Or.inl hv
    · obtain ⟨sign, hmem, rfl⟩ := mem_oneOf.mp hu
      exact Or.inr ⟨sign, (hsign sign).mp hmem, v, hv, rfl⟩
  · rintro (hw | ⟨sign, hmem, v, hv, rfl⟩)
    · exact ⟨[], Or.inl rfl, w, hw, rfl⟩
    · exact ⟨[sign], Or.inr (mem_oneOf.mpr ⟨sign, (hsign sign).mpr hmem, rfl⟩), v, hv, rfl⟩

theorem mem_exponent {w : List Char} :
    w ∈ exponent.matches' ↔
      w = [] ∨ ∃ marker, isExponentMarker marker = true ∧
        ∃ v ∈ signedDigits.matches', w = marker :: v := by
  have hmarker : ∀ c, c ∈ ['e', 'E'] ↔ isExponentMarker c = true := by simp [isExponentMarker]
  rw [exponent, RegularExpression.matches'_add, Language.mem_add, RegularExpression.matches'_mul,
    Language.mem_mul]
  apply or_congr Iff.rfl
  constructor
  · rintro ⟨u, hu, v, hv, rfl⟩
    obtain ⟨marker, hmem, rfl⟩ := mem_oneOf.mp hu
    exact ⟨marker, (hmarker marker).mp hmem, v, hv, rfl⟩
  · rintro ⟨marker, hmem, v, hv, rfl⟩
    exact ⟨[marker], mem_oneOf.mpr ⟨marker, (hmarker marker).mpr hmem, rfl⟩, v, hv, rfl⟩

theorem mem_based {markers cs w : List Char} :
    w ∈ (based markers cs).matches' ↔
      ∃ marker ∈ markers, ∃ v, (∀ c ∈ v, c ∈ cs) ∧ w = '0' :: marker :: v := by
  rw [based, RegularExpression.matches'_mul, Language.mem_mul, RegularExpression.matches'_char]
  constructor
  · rintro ⟨u, rfl, -, ⟨x, hx, v, hv, rfl⟩, rfl⟩
    obtain ⟨marker, hmarker, rfl⟩ := mem_oneOf.mp hx
    exact ⟨marker, hmarker, v, mem_star_oneOf.mp hv, rfl⟩
  · rintro ⟨marker, hmarker, v, hv, rfl⟩
    exact ⟨['0'], rfl, marker :: v, ⟨[marker], mem_oneOf.mpr ⟨marker, hmarker, rfl⟩, v,
      mem_star_oneOf.mpr hv, rfl⟩, rfl⟩

/-! ## Longest matches of the parts -/

theorem not_isDigit_of_isSign {c : Char} (h : isSign c = true) : isDigit c = false := by
  simp only [isSign, Bool.or_eq_true, beq_iff_eq] at h
  rcases h with rfl | rfl
  · decide
  · decide

theorem isLongest_whole {c : Char} (h : isDigit c = true) (rest : List Char) :
    IsLongest whole.matches' (c :: rest) (runLength isDigit (c :: rest)) := by
  have hdigits := isLongest_runLength (fun _ => mem_digits) (c :: rest)
  refine ⟨hdigits.le_length, ?_, ?_⟩
  · refine mem_whole.mpr ⟨?_, mem_digits.mp hdigits.mem⟩
    rw [take_runLength, List.takeWhile_cons_of_pos h]
    exact List.cons_ne_nil c _
  · intro w hw
    exact hdigits.length_le w (mem_digits.mpr (mem_whole.mp hw).2)

theorem isLongest_fraction (cs : List Char) : IsLongest fraction.matches' cs (fractionSize cs) := by
  fun_cases fractionSize cs with
  | case1 point digit rest h =>
    simp only [Bool.and_eq_true, beq_iff_eq] at h
    obtain ⟨rfl, hdigit⟩ := h
    have hwhole := isLongest_whole hdigit rest
    rw [runLength_cons, if_pos hdigit] at hwhole
    rw [Nat.add_comm]
    refine hwhole.cons (fun v hv => mem_fraction.mpr (Or.inr ⟨v, hv, rfl⟩)) ?_
    intro w hw _
    exact mem_fraction.mp hw
  | case2 point digit rest h =>
    apply IsLongest.zero (mem_fraction.mpr (Or.inl rfl))
    intro w hw hfront
    rcases mem_fraction.mp hw with rfl | ⟨v, hv, rfl⟩
    · rfl
    · obtain ⟨hne, hdigits⟩ := mem_whole.mp hv
      obtain ⟨d, v, rfl⟩ := List.exists_cons_of_ne_nil hne
      rw [List.cons_prefix_cons, List.cons_prefix_cons] at hfront
      obtain ⟨rfl, rfl, -⟩ := hfront
      simp [hdigits d List.mem_cons_self] at h
  | case3 cs hshort =>
    apply IsLongest.zero (mem_fraction.mpr (Or.inl rfl))
    intro w hw hfront
    rcases mem_fraction.mp hw with rfl | ⟨v, hv, rfl⟩
    · rfl
    · obtain ⟨d, v, rfl⟩ := List.exists_cons_of_ne_nil (mem_whole.mp hv).1
      obtain ⟨tail, rfl⟩ := hfront
      exact absurd rfl (hshort '.' d (v ++ tail))

theorem isLongest_signedDigits (cs : List Char) :
    IsLongest signedDigits.matches' cs (signedDigitsSize cs) := by
  have hdigits := isLongest_runLength (fun _ => mem_digits) cs
  fun_cases signedDigitsSize cs with
  | case1 sign rest h =>
    rw [Nat.add_comm]
    refine (isLongest_runLength (fun _ => mem_digits) rest).cons ?_ ?_
    · intro v hv
      exact mem_signedDigits.mpr (Or.inr ⟨sign, h, v, hv, rfl⟩)
    · intro w hw hfront
      rcases mem_signedDigits.mp hw with hw | ⟨d, -, v, hv, rfl⟩
      · -- digits alone cannot start with the sign
        left
        cases w with
        | nil => rfl
        | cons d w =>
          have hdigit := mem_digits.mp hw d List.mem_cons_self
          rw [(List.cons_prefix_cons.mp hfront).1] at hdigit
          exact absurd hdigit (Bool.eq_false_iff.mp (not_isDigit_of_isSign h))
      · obtain ⟨rfl, -⟩ := List.cons_prefix_cons.mp hfront
        exact Or.inr ⟨v, hv, rfl⟩
  | case2 sign rest h =>
    refine ⟨hdigits.le_length, mem_signedDigits.mpr (Or.inl hdigits.mem), ?_⟩
    intro w hw hfront
    rcases mem_signedDigits.mp hw with hw | ⟨d, hd, v, -, rfl⟩
    · exact hdigits.length_le w hw hfront
    · rw [(List.cons_prefix_cons.mp hfront).1] at hd
      exact absurd hd h
  | case3 =>
    apply IsLongest.zero (mem_signedDigits.mpr (Or.inl hdigits.mem))
    intro w _ hfront
    exact List.prefix_nil.mp hfront

theorem isLongest_exponent (cs : List Char) : IsLongest exponent.matches' cs (exponentSize cs) := by
  fun_cases exponentSize cs with
  | case1 marker rest h =>
    rw [Nat.add_comm]
    refine (isLongest_signedDigits rest).cons ?_ ?_
    · intro v hv
      exact mem_exponent.mpr (Or.inr ⟨marker, h, v, hv, rfl⟩)
    · intro w hw hfront
      rcases mem_exponent.mp hw with rfl | ⟨d, -, v, hv, rfl⟩
      · exact Or.inl rfl
      · obtain ⟨rfl, -⟩ := List.cons_prefix_cons.mp hfront
        exact Or.inr ⟨v, hv, rfl⟩
  | case2 marker rest h =>
    apply IsLongest.zero (mem_exponent.mpr (Or.inl rfl))
    intro w hw hfront
    rcases mem_exponent.mp hw with rfl | ⟨d, hd, v, -, rfl⟩
    · rfl
    · rw [(List.cons_prefix_cons.mp hfront).1] at hd
      exact absurd hd h
  | case3 =>
    apply IsLongest.zero (mem_exponent.mpr (Or.inl rfl))
    intro w _ hfront
    exact List.prefix_nil.mp hfront

theorem exists_of_based_front {markers digits w cs : List Char}
    (hw : w ∈ (based markers digits).matches') (hfront : w <+: cs) :
    ∃ marker ∈ markers, ∃ tail, cs = '0' :: marker :: tail ∧
      ∃ v, (∀ c ∈ v, c ∈ digits) ∧ v <+: tail ∧ w.length = 2 + v.length := by
  obtain ⟨marker, hmarker, v, hv, rfl⟩ := mem_based.mp hw
  obtain ⟨tail, rfl⟩ := hfront
  refine ⟨marker, hmarker, v ++ tail, rfl, v, hv, List.prefix_append v tail, ?_⟩
  rw [List.length_cons, List.length_cons]
  omega

theorem isLongest_based {markers cs : List Char} {test : Char → Bool}
    (hcs : ∀ c, c ∈ cs ↔ test c = true) {marker : Char} (hmarker : marker ∈ markers)
    (rest : List Char) :
    IsLongest (based markers cs).matches' ('0' :: marker :: rest) (2 + runLength test rest) := by
  have hdigits : ∀ v, v ∈ (oneOf cs).star.matches' ↔ ∀ c ∈ v, test c = true := by
    intro v
    simp only [mem_star_oneOf, hcs]
  have hrun := isLongest_runLength hdigits rest
  refine ⟨?_, ?_, ?_⟩
  · rw [List.length_cons, List.length_cons, Nat.add_comm]
    exact Nat.add_le_add_right hrun.le_length 2
  · rw [Nat.add_comm]
    exact mem_based.mpr ⟨marker, hmarker, _, mem_star_oneOf.mp hrun.mem, rfl⟩
  · intro w hw hfront
    obtain ⟨_, -, tail, htail, v, hv, hvfront, hlength⟩ := exists_of_based_front hw hfront
    obtain ⟨-, rfl⟩ := List.cons.inj (List.cons.inj htail).2
    have hle := hrun.length_le v (mem_star_oneOf.mpr hv) hvfront
    omega

theorem getElem?_of_lt_fractionSize {cs : List Char} {i : Nat} (h : i < fractionSize cs) :
    ∃ c, cs[i]? = some c ∧ (c = '.' ∨ isDigit c = true) := by
  revert h
  fun_cases fractionSize cs with
  | case1 point digit rest hpoint =>
    intro h
    simp only [Bool.and_eq_true, beq_iff_eq] at hpoint
    match i with
    | 0 => exact ⟨point, rfl, Or.inl hpoint.1⟩
    | 1 => exact ⟨digit, rfl, Or.inr hpoint.2⟩
    | i + 2 =>
      obtain ⟨c, hget, hc⟩ := getElem?_of_lt_runLength (show i < runLength isDigit rest by omega)
      exact ⟨c, hget, Or.inr hc⟩
  | case2 => exact fun h => absurd h (Nat.not_lt_zero i)
  | case3 => exact fun h => absurd h (Nat.not_lt_zero i)

/-- What an exponent starts with goes on with neither digits nor a fraction. -/
theorem not_of_isExponentMarker {c : Char} (h : isExponentMarker c = true) :
    c ≠ '.' ∧ isDigit c = false := by
  simp only [isExponentMarker, Bool.or_eq_true, beq_iff_eq] at h
  rcases h with rfl | rfl
  · decide
  · decide

theorem isLongest_fraction_exponent (cs : List Char) :
    IsLongest (fraction * exponent).matches' cs
      (fractionSize cs + exponentSize (cs.drop (fractionSize cs))) := by
  refine (isLongest_fraction cs).mul (isLongest_exponent _) ?_
  intro u _ v hv hfront hlt
  rcases mem_exponent.mp hv with rfl | ⟨marker, hmarker, v, -, rfl⟩
  · rfl
  · -- behind a part of the fraction stands its point or a digit
    obtain ⟨c, hget, hc⟩ := getElem?_of_lt_fractionSize hlt
    obtain rfl := Option.some.inj (hget.symm.trans (getElem?_of_front hfront))
    obtain ⟨hpoint, hdigit⟩ := not_of_isExponentMarker hmarker
    rcases hc with rfl | hc
    · exact absurd rfl hpoint
    · rw [hc] at hdigit
      cases hdigit

theorem not_isDigit_of_mem {c : Char} {v : List Char}
    (h : c :: v ∈ (fraction * exponent).matches') : isDigit c = false := by
  rw [RegularExpression.matches'_mul] at h
  obtain ⟨x, hx, y, hy, hxy⟩ := Language.mem_mul.mp h
  rcases mem_fraction.mp hx with rfl | ⟨x, -, rfl⟩
  · rcases mem_exponent.mp hy with rfl | ⟨marker, hmarker, y, -, rfl⟩
    · cases hxy
    · obtain ⟨rfl, -⟩ := List.cons.inj hxy
      exact (not_of_isExponentMarker hmarker).2
  · obtain ⟨rfl, -⟩ := List.cons.inj hxy
    decide

theorem isLongest_decimal {c : Char} (h : isDigit c = true) (rest : List Char) :
    IsLongest decimal.matches' (c :: rest) (decimalSize (c :: rest)) := by
  have hlongest := (isLongest_whole h rest).mul
    (isLongest_fraction_exponent ((c :: rest).drop (runLength isDigit (c :: rest)))) (by
      intro u _ v hv hfront hlt
      cases v with
      | nil => rfl
      | cons d v =>
        -- behind a part of the digits stands a digit
        obtain ⟨e, hget, he⟩ := getElem?_of_lt_runLength hlt
        obtain rfl := Option.some.inj (hget.symm.trans (getElem?_of_front hfront))
        rw [not_isDigit_of_mem hv] at he
        cases he)
  rwa [List.drop_drop, ← Nat.add_assoc] at hlongest

/-! ## The cut of a number -/

theorem mem_hexMarkers {c : Char} : c ∈ ['x', 'X'] ↔ isHexMarker c = true := by simp [isHexMarker]

theorem mem_octMarkers {c : Char} : c ∈ ['o', 'O'] ↔ isOctMarker c = true := by simp [isOctMarker]

/-- Behind a zero, a marker ends the decimal number. -/
theorem decimalSize_of_marker {marker : Char} (h : marker ∈ ['x', 'X', 'o', 'O'])
    (rest : List Char) : decimalSize ('0' :: marker :: rest) = 1 := by
  have hmarker : isDigit marker = false ∧ (marker == '.') = false ∧
      isExponentMarker marker = false := by
    simp only [List.mem_cons, List.not_mem_nil, or_false] at h
    rcases h with rfl | rfl | rfl | rfl <;> decide
  have hwhole : runLength isDigit ('0' :: marker :: rest) = 1 := by
    rw [runLength_cons, if_pos (by decide), runLength_cons, if_neg (by simp [hmarker.1])]
  have hfraction : fractionSize (marker :: rest) = 0 := by
    cases rest with
    | nil => rfl
    | cons d rest => simp [fractionSize, hmarker.2.1]
  rw [decimalSize, hwhole]
  simp [hfraction, exponentSize, hmarker.2.2]

section Alternatives
variable {marker : Char} {markers digits tail w cs : List Char}

theorem not_mem_based (h : ∀ marker tail, cs = '0' :: marker :: tail → marker ∉ markers)
    (hfront : w <+: cs) : w ∉ (based markers digits).matches' := by
  intro hw
  obtain ⟨marker, hmarker, tail, rfl, -⟩ := exists_of_based_front hw hfront
  exact h marker tail rfl hmarker

theorem not_mem_based_of_marker (h : marker ∉ markers) (hfront : w <+: '0' :: marker :: tail) :
    w ∉ (based markers digits).matches' := by
  refine not_mem_based ?_ hfront
  intro marker' tail' heq
  rwa [← (List.cons.inj (List.cons.inj heq).2).1]

theorem length_le_of_marker (h : marker ∈ ['x', 'X', 'o', 'O']) (hw : w ∈ decimal.matches')
    (hfront : w <+: '0' :: marker :: tail) : w.length ≤ 1 := by
  have hle := (isLongest_decimal (by decide) (marker :: tail)).length_le w hw hfront
  rwa [decimalSize_of_marker h] at hle

/-- A marker behind a zero decides for its own digits, against those of other markers. -/
theorem isLongest_of_marker {others otherDigits : List Char} {test : Char → Bool}
    (hdigits : ∀ c, c ∈ digits ↔ test c = true) (hmarker : marker ∈ markers)
    (hothers : marker ∉ others) (h : marker ∈ ['x', 'X', 'o', 'O']) (tail : List Char) :
    IsLongest ((based markers digits).matches' + (based others otherDigits).matches' +
      decimal.matches') ('0' :: marker :: tail) (2 + runLength test tail) := by
  refine ((isLongest_based hdigits hmarker tail).add_left ?_).add_left ?_
  · intro w hw hfront
    exact absurd hw (not_mem_based_of_marker hothers hfront)
  · intro w hw hfront
    have hle := length_le_of_marker h hw hfront
    omega

theorem isLongest_of_hexMarker (h : isHexMarker marker = true) (tail : List Char) :
    IsLongest grammar.matches' ('0' :: marker :: tail) (2 + runLength isHexDigit tail) := by
  have hmarkers : ∀ c ∈ ['x', 'X'], c ∉ ['o', 'O'] ∧ c ∈ ['x', 'X', 'o', 'O'] := by simp
  obtain ⟨hoct, hmarker⟩ := hmarkers marker (mem_hexMarkers.mpr h)
  exact isLongest_of_marker (fun _ => mem_hexDigitList) (mem_hexMarkers.mpr h) hoct hmarker tail

theorem isLongest_of_octMarker (h : isOctMarker marker = true) (tail : List Char) :
    IsLongest grammar.matches' ('0' :: marker :: tail) (2 + runLength isOctDigit tail) := by
  have hmarkers : ∀ c ∈ ['o', 'O'], c ∉ ['x', 'X'] ∧ c ∈ ['x', 'X', 'o', 'O'] := by simp
  obtain ⟨hhex, hmarker⟩ := hmarkers marker (mem_octMarkers.mpr h)
  rw [grammar, RegularExpression.matches'_add, RegularExpression.matches'_add,
    add_comm hexadecimal.matches']
  exact isLongest_of_marker (fun _ => mem_octDigitList) (mem_octMarkers.mpr h) hhex hmarker tail

theorem isLongest_of_decimal {c : Char} {rest : List Char} (hc : isDigit c = true)
    (h : ∀ marker tail, c :: rest = '0' :: marker :: tail →
      marker ∉ ['x', 'X'] ∧ marker ∉ ['o', 'O']) :
    IsLongest grammar.matches' (c :: rest) (decimalSize (c :: rest)) := by
  refine (isLongest_decimal hc rest).add_right ?_
  rintro w (hw | hw) hfront
  · exact absurd hw (not_mem_based (fun marker tail heq => (h marker tail heq).1) hfront)
  · exact absurd hw (not_mem_based (fun marker tail heq => (h marker tail heq).2) hfront)

end Alternatives

/-- The three ways to cut a number, told apart by the marker behind a zero. -/
theorem cut_cases (c : Char) (rest : List Char) :
    (∃ marker tail, c :: rest = '0' :: marker :: tail ∧ isHexMarker marker = true ∧
      Number.cut (c :: rest) = .normal .integer (2 + runLength isHexDigit tail)) ∨
    (∃ marker tail, c :: rest = '0' :: marker :: tail ∧ isOctMarker marker = true ∧
      Number.cut (c :: rest) = .normal .number (2 + runLength isOctDigit tail)) ∨
    (∀ marker tail, c :: rest = '0' :: marker :: tail →
      marker ∉ ['x', 'X'] ∧ marker ∉ ['o', 'O']) ∧
      Number.cut (c :: rest) = .normal .number (decimalSize (c :: rest)) := by
  unfold Number.cut
  split
  · rename_i marker tail heq
    split
    · rename_i hhex
      exact Or.inl ⟨marker, tail, heq, hhex, rfl⟩
    · rename_i hhex
      split
      · rename_i hoct
        exact Or.inr (Or.inl ⟨marker, tail, heq, hoct, rfl⟩)
      · rename_i hoct
        refine Or.inr (Or.inr ⟨?_, rfl⟩)
        intro marker' tail' heq'
        rw [heq] at heq'
        obtain ⟨rfl, -⟩ := List.cons.inj (List.cons.inj heq').2
        exact ⟨mt mem_hexMarkers.mp hhex, mt mem_octMarkers.mp hoct⟩
  · rename_i hnone
    exact Or.inr (Or.inr ⟨fun marker tail heq => absurd heq (hnone marker tail), rfl⟩)

/-- What is cut off is the longest match, of the kind that its form gives it. -/
theorem isLongest_cut {c : Char} (h : isDigit c = true) (rest : List Char) :
    IsLongest grammar.matches' (c :: rest) (Number.cut (c :: rest)).size ∧
      (Number.cut (c :: rest)).kind =
        if (c :: rest).take (Number.cut (c :: rest)).size ∈ hexadecimal.matches' then .integer
        else .number := by
  rcases cut_cases c rest with ⟨marker, tail, heq, hhex, hcut⟩ | ⟨marker, tail, heq, hoct, hcut⟩ |
    ⟨hnone, hcut⟩
  · have hmem : ('0' :: marker :: tail).take (2 + runLength isHexDigit tail) ∈
        hexadecimal.matches' :=
      (isLongest_based (fun _ => mem_hexDigitList) (mem_hexMarkers.mpr hhex) tail).mem
    rw [hcut, heq, Cut.normal_size, Cut.normal_kind, if_pos hmem]
    exact ⟨isLongest_of_hexMarker hhex tail, rfl⟩
  · have hmarkers : ∀ c ∈ ['o', 'O'], c ∉ ['x', 'X'] := by simp
    have hmem : ('0' :: marker :: tail).take (2 + runLength isOctDigit tail) ∉
        hexadecimal.matches' :=
      not_mem_based_of_marker (hmarkers marker (mem_octMarkers.mpr hoct)) (List.take_prefix _ _)
    rw [hcut, heq, Cut.normal_size, Cut.normal_kind, if_neg hmem]
    exact ⟨isLongest_of_octMarker hoct tail, rfl⟩
  · have hmem : (c :: rest).take (decimalSize (c :: rest)) ∉ hexadecimal.matches' :=
      not_mem_based (fun marker tail heq => (hnone marker tail heq).1) (List.take_prefix _ _)
    rw [hcut, Cut.normal_size, Cut.normal_kind, if_neg hmem]
    exact ⟨isLongest_of_decimal h hnone, rfl⟩

/-! ## Points -/

theorem point_not_mem_of_digits {w : List Char} (h : ∀ c ∈ w, isDigit c = true) : '.' ∉ w := by
  intro hmem
  exact absurd (h '.' hmem) (by decide)

theorem point_not_mem_exponent {w : List Char} (h : w ∈ exponent.matches') : '.' ∉ w := by
  rcases mem_exponent.mp h with rfl | ⟨marker, hmarker, v, hv, rfl⟩
  · exact List.not_mem_nil
  · rw [List.mem_cons, not_or]
    refine ⟨Ne.symm (not_of_isExponentMarker hmarker).1, ?_⟩
    rcases mem_signedDigits.mp hv with hdigits | ⟨sign, hsign, ds, hds, rfl⟩
    · exact point_not_mem_of_digits (mem_digits.mp hdigits)
    · rw [List.mem_cons, not_or]
      refine ⟨?_, point_not_mem_of_digits (mem_digits.mp hds)⟩
      rintro rfl
      exact absurd hsign (by decide)

theorem point_not_mem_based {markers digits w : List Char} (h : w ∈ (based markers digits).matches')
    (hmarkers : '.' ∉ markers) (hdigits : '.' ∉ digits) : '.' ∉ w := by
  obtain ⟨marker, hmarker, v, hv, rfl⟩ := mem_based.mp h
  rw [List.mem_cons, List.mem_cons, not_or, not_or]
  refine ⟨by decide, ?_, fun hmem => hdigits (hv '.' hmem)⟩
  rintro rfl
  exact hmarkers hmarker

/-- A point within a number has a digit behind it. -/
theorem digit_behind_point {u v : List Char} (h : u ++ '.' :: v ∈ grammar.matches') :
    ∃ d, v.head? = some d ∧ isDigit d = true := by
  have hpoint : '.' ∈ u ++ '.' :: v := List.mem_append_right u List.mem_cons_self
  rcases h with (hhex | hoct) | hdecimal
  · exact absurd hpoint (point_not_mem_based hhex (by decide) (by decide))
  · exact absurd hpoint (point_not_mem_based hoct (by decide) (by decide))
  · obtain ⟨x, hx, yz, hyz, hword⟩ := Language.mem_mul.mp hdecimal
    obtain ⟨y, hy, z, hz, rfl⟩ := Language.mem_mul.mp hyz
    have hfront := point_not_mem_of_digits (mem_whole.mp hx).2
    have hback := point_not_mem_exponent hz
    rcases mem_fraction.mp hy with rfl | ⟨ds, hds, rfl⟩
    · -- without a fraction there is no point
      rw [← hword, List.nil_append, List.mem_append] at hpoint
      exact absurd hpoint (not_or.mpr ⟨hfront, hback⟩)
    · obtain ⟨hne, hdigits⟩ := mem_whole.mp hds
      obtain ⟨d, ds, rfl⟩ := List.exists_cons_of_ne_nil hne
      have hbehind : '.' ∉ d :: ds ++ z := by
        rw [List.mem_append, not_or]
        exact ⟨point_not_mem_of_digits hdigits, hback⟩
      rw [List.cons_append, List.append_cons_inj_of_notMem hfront hbehind] at hword
      obtain ⟨-, -, rfl⟩ := hword
      exact ⟨d, rfl, hdigits d List.mem_cons_self⟩

theorem whole_mem_grammar {w : List Char} (hne : w ≠ []) (h : ∀ c ∈ w, isDigit c = true) :
    w ∈ grammar.matches' := by
  have hword : w ++ ([] ++ []) ∈ decimal.matches' :=
    Language.append_mem_mul (mem_whole.mpr ⟨hne, h⟩)
      (Language.append_mem_mul (mem_fraction.mpr (Or.inl rfl)) (mem_exponent.mpr (Or.inl rfl)))
  rw [List.append_nil, List.append_nil] at hword
  exact Or.inr hword

/-- A point that no digit follows is left behind, with all that stands behind it. -/
theorem eq_length_of_point {digits tail : List Char} {size : Nat} (hne : digits ≠ [])
    (hdigits : ∀ c ∈ digits, isDigit c = true)
    (htail : ∀ c, tail.head? = some c → isDigit c = false)
    (h : IsLongest grammar.matches' (digits ++ '.' :: tail) size) : size = digits.length := by
  have hle := h.length_le digits (whole_mem_grammar hne hdigits) (List.prefix_append _ _)
  rcases Nat.lt_or_eq_of_le hle with hlt | heq
  · -- the point would be part of the number
    obtain ⟨k, rfl⟩ := Nat.exists_eq_add_of_lt hlt
    have hmem := h.mem
    rw [Nat.add_assoc, List.take_length_add_append, List.take_succ_cons] at hmem
    obtain ⟨c, hhead, hc⟩ := digit_behind_point hmem
    have hfirst : tail.head? = some c := by
      cases k with
      | zero => cases hhead
      | succ k => rwa [List.head?_take, if_neg (Nat.succ_ne_zero k)] at hhead
    rw [htail c hfirst] at hc
    cases hc
  · exact heq.symm

/-! ## Tokens -/

/-- What a number at the front of a text is read as. -/
structure ReadAs (cs : List Char) (token : Token) : Prop where
  is_front : token.lexeme <+: cs
  longest : IsLongest grammar.matches' cs token.lexeme.length
  integer_iff : token.kind = .integer ↔ token.lexeme ∈ hexadecimal.matches'
  number_iff : token.kind = .number ↔ token.lexeme ∉ hexadecimal.matches'
  digit_behind : ∀ u v, token.lexeme = u ++ '.' :: v → ∃ d, v.head? = some d ∧ isDigit d = true
  point_left : ∀ digits tail, cs = digits ++ '.' :: tail → (∀ c ∈ digits, isDigit c = true) →
    (∀ c, tail.head? = some c → isDigit c = false) → token.lexeme = digits

section Tokens
variable {first : Char} {rest : List Char}

theorem nextToken?_of_digit (h : isDigit first = true) (rest : List Char) :
    nextToken? true .normal (first :: rest) =
      some (⟨(Number.cut (first :: rest)).kind,
        (first :: rest).take (Number.cut (first :: rest)).size⟩, .normal) := by
  have hlisted : String.ofList ((first :: rest).take (Number.cut (first :: rest)).size) ∉
      Reserved.all := by
    -- no reserved word starts with a digit
    intro hmem
    obtain ⟨size, hsize⟩ := Nat.exists_eq_succ_of_ne_zero (Nat.ne_of_gt (cut_size_pos rest h))
    rw [hsize, List.take_succ_cons] at hmem
    rw [(Reserved.first_of_reserved hmem).2.2] at h
    cases h
  rw [(nextToken?_eq true .normal (List.cons_ne_nil first rest)).2, Mode.cut_of_digit true h rest,
    (cut_returns _).2, Reserved.classify_of_not_mem hlisted]

theorem exists_readAs (h : isDigit first = true) (rest : List Char) :
    ∃ token, ReadAs (first :: rest) token ∧
      nextToken? true .normal (first :: rest) = some (token, .normal) := by
  refine ⟨_, ?_, nextToken?_of_digit h rest⟩
  obtain ⟨hlongest, hkind⟩ := isLongest_cut h rest
  have hlength : ((first :: rest).take (Number.cut (first :: rest)).size).length =
      (Number.cut (first :: rest)).size := List.length_take_of_le hlongest.le_length
  generalize Number.cut (first :: rest) = cut at hlongest hkind hlength
  rw [hkind]
  constructor
  · exact List.take_prefix _ _
  · rwa [hlength]
  · split
    · exact iff_of_true rfl ‹_›
    · exact iff_of_false (by simp) ‹_›
  · split
    · exact iff_of_false (by simp) (not_not.mpr ‹_›)
    · exact iff_of_true rfl ‹_›
  · intro u v hlexeme
    apply digit_behind_point
    rw [← hlexeme]
    exact hlongest.mem
  · intro digits tail heq hdigits htail
    have hne : digits ≠ [] := by
      rintro rfl
      rw [(List.cons.inj heq).1] at h
      exact absurd h (by decide)
    rw [heq] at hlongest ⊢
    rw [eq_length_of_point hne hdigits htail hlongest, List.take_left]

end Tokens

end Number

namespace Line

/-- The law of numbers: whatever was read of a line before, a token that is asked for in ordinary
code at a digit is the longest prefix of the rest of the line that is a number, and ordinary code
goes on behind it. -/
theorem longest_of_requests {start : Mode} {text rest : List Char} {first : Char}
    {front : List (Token × Mode)}
    (h : Requests start (Lines.dropTerminator text) front .normal (first :: rest))
    (hfirst : isDigit first = true) :
    ∃ token, Number.ReadAs (first :: rest) token ∧ read start text =
      front ++ (token, .normal) :: lexFrom .normal ((first :: rest).drop token.lexeme.length) := by
  obtain ⟨token, hread, hnext⟩ := Number.exists_readAs hfirst rest
  refine ⟨token, hread, ?_⟩
  rw [read, h.lexFrom_eq, lexFrom_of_some hnext]

/-- The range of a list, right behind the end of a comment that an earlier line has opened. -/
theorem longest_of_requests_range :
    let text := "-\x7d1..9\r\n".toList
    let front : List (Token × Mode) := [(⟨.comment, ['-', '}']⟩, .normal)]
    Requests (.opened .ordinary) (Lines.dropTerminator text) front .normal "1..9".toList ∧
    read (.opened .ordinary) text =
      front ++ (⟨.number, ['1']⟩, .normal) :: lexFrom .normal "..9".toList := by
  intro text front
  have hrequests : Requests (.opened .ordinary) (Lines.dropTerminator text) front .normal
      "1..9".toList := .next (by decide +kernel) (.done _ _)
  obtain ⟨⟨kind, lexeme⟩, hread, hline⟩ := longest_of_requests hrequests (by decide)
  have hpoint : ∀ c, ".9".toList.head? = some c → isDigit c = false := by
    intro c hc
    cases hc
    rfl
  obtain rfl : lexeme = ['1'] :=
    hread.point_left ['1'] ".9".toList rfl (List.all_eq_true.mp (by decide)) hpoint
  have hplain : ['1'] ∉ Number.hexadecimal.matches' := by decide
  obtain rfl : kind = .number := hread.number_iff.mpr hplain
  exact ⟨hrequests, hline⟩

end Line

end BoardHighlight
