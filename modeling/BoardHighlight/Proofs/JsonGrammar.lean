import BoardHighlight.Text.Digits

/-!
# The grammar of JSON texts

`Reads text value rest` says that a text starts with a JSON value and goes on with `rest`; white
space may stand in front of values and of the six structural characters. Strings are read with every
escape that the format knows, surrogate pairs included, and numbers are kept as they are spelled. A
text denotes at most one value: a number is the only value that another number could go on, and what
follows a value within a text never continues a number.
-/

namespace BoardHighlight
set_option autoImplicit false

namespace JsonText

inductive Value where
  | null
  | bool (b : Bool)
  | number (spelling : List Char)
  | string (text : List Char)
  | array (items : List Value)
  | object (members : List (List Char × Value))

/-! ## Characters -/

def isSpace (c : Char) : Bool := c == ' ' || c == '\t' || c == '\n' || c == '\r'

/-- The characters that occur in numbers. -/
def isNumeral (c : Char) : Bool :=
  isDigit c || c == '-' || c == '+' || c == '.' || c == 'e' || c == 'E'

/-- The signs behind a backslash, each with the character that it stands for. -/
def escapes : List (Char × Char) :=
  [('"', '"'), ('\\', '\\'), ('/', '/'), ('b', '\x08'), ('f', '\x0c'), ('n', '\n'), ('r', '\r'),
    ('t', '\t')]

/-- Four hexadecimal digits and the number that they spell. -/
def IsUnit (a b c d : Char) (n : Nat) : Prop :=
  (∀ digit ∈ [a, b, c, d], isHexDigit digit = true) ∧ digitsValue 16 [a, b, c, d] = n

/-- The characters of a string up to the quote that ends it. -/
inductive Chars : List Char → List Char → List Char → Prop where
  | close (rest : List Char) : Chars ('"' :: rest) [] rest
  | plain {c : Char} {t text rest : List Char} :
      c ≠ '"' → c ≠ '\\' → 32 ≤ c.toNat → Chars t text rest → Chars (c :: t) (c :: text) rest
  | escape {sign c : Char} {t text rest : List Char} :
      (sign, c) ∈ escapes → Chars t text rest → Chars ('\\' :: sign :: t) (c :: text) rest
  | unit {x a b c d : Char} {t text rest : List Char} :
      IsUnit a b c d x.toNat → Chars t text rest →
      Chars ('\\' :: 'u' :: a :: b :: c :: d :: t) (x :: text) rest
  | pair {x a b c d a' b' c' d' : Char} {high low : Nat} {t text rest : List Char} :
      IsUnit a b c d (0xD800 + high) → high < 0x400 → IsUnit a' b' c' d' (0xDC00 + low) →
      low < 0x400 → x.toNat = 0x10000 + high * 0x400 + low → Chars t text rest →
      Chars ('\\' :: 'u' :: a :: b :: c :: d :: '\\' :: 'u' :: a' :: b' :: c' :: d' :: t)
        (x :: text) rest

/-! ## Numbers -/

def IsDigits (digits : List Char) : Prop := digits ≠ [] ∧ ∀ c ∈ digits, isDigit c = true

def IsWhole (whole : List Char) : Prop := whole = ['0'] ∨ IsDigits whole ∧ whole.head? ≠ some '0'

def IsFraction (fraction : List Char) : Prop :=
  fraction = [] ∨ ∃ digits, fraction = '.' :: digits ∧ IsDigits digits

def IsExponent (exponent : List Char) : Prop :=
  exponent = [] ∨ ∃ mark sign digits, exponent = mark :: (sign ++ digits) ∧ mark ∈ ['e', 'E'] ∧
    sign ∈ [[], ['+'], ['-']] ∧ IsDigits digits

def IsNumber (spelling : List Char) : Prop :=
  ∃ sign whole fraction exponent, spelling = sign ++ (whole ++ (fraction ++ exponent)) ∧
    sign ∈ [[], ['-']] ∧ IsWhole whole ∧ IsFraction fraction ∧ IsExponent exponent

/-! ## Values -/

/-- White space and then the mark. -/
inductive Mark (mark : Char) : List Char → List Char → Prop where
  | here (rest : List Char) : Mark mark (mark :: rest) rest
  | space {c : Char} {t rest : List Char} :
      isSpace c = true → Mark mark t rest → Mark mark (c :: t) rest

mutual

inductive Reads : List Char → Value → List Char → Prop where
  | space {c : Char} {t rest : List Char} {value : Value} :
      isSpace c = true → Reads t value rest → Reads (c :: t) value rest
  | null (rest : List Char) : Reads ('n' :: 'u' :: 'l' :: 'l' :: rest) .null rest
  | yes (rest : List Char) : Reads ('t' :: 'r' :: 'u' :: 'e' :: rest) (.bool true) rest
  | no (rest : List Char) : Reads ('f' :: 'a' :: 'l' :: 's' :: 'e' :: rest) (.bool false) rest
  | number {t spelling rest : List Char} :
      IsNumber spelling → t = spelling ++ rest → Reads t (.number spelling) rest
  | string {t text rest : List Char} : Chars t text rest → Reads ('"' :: t) (.string text) rest
  | noItems {t rest : List Char} : Mark ']' t rest → Reads ('[' :: t) (.array []) rest
  | array {t u rest : List Char} {item : Value} {items : List Value} :
      Reads t item u → ReadsItems u items rest → Reads ('[' :: t) (.array (item :: items)) rest
  | noMembers {t rest : List Char} : Mark '}' t rest → Reads ('{' :: t) (.object []) rest
  | object {t u rest : List Char} {member : List Char × Value} {members : List (List Char × Value)} :
      ReadsMember t member u → ReadsMembers u members rest →
      Reads ('{' :: t) (.object (member :: members)) rest

/-- The items of an array behind the first one. -/
inductive ReadsItems : List Char → List Value → List Char → Prop where
  | close {t rest : List Char} : Mark ']' t rest → ReadsItems t [] rest
  | next {t u v rest : List Char} {item : Value} {items : List Value} :
      Mark ',' t u → Reads u item v → ReadsItems v items rest → ReadsItems t (item :: items) rest

inductive ReadsMember : List Char → List Char × Value → List Char → Prop where
  | intro {t u v w rest name : List Char} {value : Value} :
      Mark '"' t u → Chars u name v → Mark ':' v w → Reads w value rest →
      ReadsMember t (name, value) rest

/-- The members of an object behind the first one. -/
inductive ReadsMembers : List Char → List (List Char × Value) → List Char → Prop where
  | close {t rest : List Char} : Mark '}' t rest → ReadsMembers t [] rest
  | next {t u v rest : List Char} {member : List Char × Value}
      {members : List (List Char × Value)} :
      Mark ',' t u → ReadsMember u member v → ReadsMembers v members rest →
      ReadsMembers t (member :: members) rest

end

/-- The whole text is one value, with white space around it. -/
def Denotes (text : List Char) (value : Value) : Prop :=
  ∃ rest, Reads text value rest ∧ ∀ c ∈ rest, isSpace c = true

/-! ## Strings are read in one way -/

theorem escape_fun : ∀ x ∈ escapes, ∀ y ∈ escapes, x.1 = y.1 → x.2 = y.2 := by
  decide

theorem sign_ne_u : ∀ x ∈ escapes, x.1 ≠ 'u' := by
  decide

/-- A single unit spells a character, and no half of a pair is one. -/
theorem IsUnit.ne_surrogate {x a b c d : Char} {high : Nat} (hchar : IsUnit a b c d x.toNat)
    (hhalf : IsUnit a b c d (0xD800 + high)) : 0x400 ≤ high := by
  have hvalue : x.toNat = 0xD800 + high := hchar.2.symm.trans hhalf.2
  have hvalid : x.toNat < 0xD800 ∨ 0xDFFF < x.toNat ∧ x.toNat < 0x110000 := x.valid
  omega

theorem Chars.unique {t text rest text' rest' : List Char} (h : Chars t text rest)
    (h' : Chars t text' rest') : text = text' ∧ rest = rest' := by
  induction h generalizing text' with
  | close =>
    cases h' with
    | close => exact ⟨rfl, rfl⟩
    | plain hquote => exact absurd rfl hquote
  | plain hquote hslash _ _ ih =>
    cases h' with
    | close => exact absurd rfl hquote
    | plain _ _ _ h' =>
      obtain ⟨rfl, rfl⟩ := ih h'
      exact ⟨rfl, rfl⟩
    | _ => exact absurd rfl hslash
  | @escape sign c t text rest hsign _ ih =>
    cases h' with
    | plain _ hslash => exact absurd rfl hslash
    | escape hsign' h' =>
      obtain ⟨rfl, rfl⟩ := ih h'
      cases escape_fun _ hsign _ hsign' rfl
      exact ⟨rfl, rfl⟩
    | _ => exact absurd rfl (sign_ne_u _ hsign)
  | unit hunit _ ih =>
    cases h' with
    | plain _ hslash => exact absurd rfl hslash
    | escape hsign => exact absurd rfl (sign_ne_u _ hsign)
    | unit hunit' h' =>
      obtain ⟨rfl, rfl⟩ := ih h'
      rw [Char.toNat_inj.mp (hunit.2.symm.trans hunit'.2)]
      exact ⟨rfl, rfl⟩
    | pair hhigh hlt => exact absurd hlt (Nat.not_lt.mpr (hunit.ne_surrogate hhigh))
  | pair hhigh hhighLt hlow hlowLt hchar _ ih =>
    cases h' with
    | plain _ hslash => exact absurd rfl hslash
    | escape hsign => exact absurd rfl (sign_ne_u _ hsign)
    | unit hunit => exact absurd hhighLt (Nat.not_lt.mpr (hunit.ne_surrogate hhigh))
    | pair hhigh' _ hlow' _ hchar' h' =>
      obtain ⟨rfl, rfl⟩ := ih h'
      have hhighEq := hhigh.2.symm.trans hhigh'.2
      have hlowEq := hlow.2.symm.trans hlow'.2
      rw [List.cons.injEq, and_assoc]
      exact ⟨Char.toNat_inj.mp (by omega), rfl, rfl⟩

/-! ## Numbers end where nothing continues them -/

theorem isNumeral_of_isSpace {c : Char} (h : isSpace c = true) : isNumeral c = false := by
  simp only [isSpace, Bool.or_eq_true, beq_iff_eq] at h
  rcases h with ((rfl | rfl) | rfl) | rfl <;> decide

/-- What stands behind a value within a text. -/
def Follows (rest : List Char) : Prop := ∀ c, rest.head? = some c → isNumeral c = false

theorem follows_of_spaces {rest : List Char} (h : ∀ c ∈ rest, isSpace c = true) : Follows rest := by
  intro c hc
  exact isNumeral_of_isSpace (h c (List.mem_of_head? hc))

theorem IsDigits.isNumeral {digits : List Char} (h : IsDigits digits) :
    ∀ c ∈ digits, isNumeral c = true := by
  intro c hc
  simp [JsonText.isNumeral, h.2 c hc]

theorem IsNumber.isNumeral {spelling : List Char} (h : IsNumber spelling) :
    ∀ c ∈ spelling, isNumeral c = true := by
  obtain ⟨sign, whole, fraction, exponent, rfl, hsign, hwhole, hfraction, hexponent⟩ := h
  have hminus : ∀ sign ∈ [[], ['-']], ∀ c ∈ sign, JsonText.isNumeral c = true := by
    simp [JsonText.isNumeral]
  have hsigns : ∀ sign ∈ [[], ['+'], ['-']], ∀ c ∈ sign, JsonText.isNumeral c = true := by
    simp [JsonText.isNumeral]
  have hmarks : ∀ mark ∈ ['e', 'E'], JsonText.isNumeral mark = true := by
    simp [JsonText.isNumeral]
  intro c hc
  rcases List.mem_append.mp hc with hc | hc
  · exact hminus sign hsign c hc
  rcases List.mem_append.mp hc with hc | hc
  · rcases hwhole with rfl | ⟨hdigits, -⟩
    · rw [List.mem_singleton.mp hc]
      decide
    · exact hdigits.isNumeral c hc
  rcases List.mem_append.mp hc with hc | hc
  · rcases hfraction with rfl | ⟨digits, rfl, hdigits⟩
    · cases hc
    · rcases List.mem_cons.mp hc with rfl | hc
      · decide
      · exact hdigits.isNumeral c hc
  · rcases hexponent with rfl | ⟨mark, sign, digits, rfl, hmark, hsign, hdigits⟩
    · cases hc
    · rcases List.mem_cons.mp hc with rfl | hc
      · exact hmarks c hmark
      · rcases List.mem_append.mp hc with hc | hc
        · exact hsigns sign hsign c hc
        · exact hdigits.isNumeral c hc

theorem IsNumber.ne_nil {spelling : List Char} (h : IsNumber spelling) : spelling ≠ [] := by
  obtain ⟨sign, whole, fraction, exponent, rfl, -, hwhole, -, -⟩ := h
  have hne : whole ≠ [] := by
    rcases hwhole with rfl | ⟨hdigits, -⟩
    · exact List.cons_ne_nil _ _
    · exact hdigits.1
  simp [hne]

theorem IsNumber.start {spelling t rest : List Char} {c : Char} (h : IsNumber spelling)
    (heq : c :: t = spelling ++ rest) : JsonText.isNumeral c = true := by
  obtain ⟨d, tail, rfl⟩ := List.exists_cons_of_ne_nil h.ne_nil
  obtain ⟨rfl, -⟩ := List.cons.inj heq
  exact h.isNumeral c List.mem_cons_self

theorem IsNumber.unique {spelling spelling' rest rest' : List Char} (h : IsNumber spelling)
    (h' : IsNumber spelling') (hrest : Follows rest) (hrest' : Follows rest')
    (heq : spelling ++ rest = spelling' ++ rest') : spelling = spelling' ∧ rest = rest' := by
  have htake : ∀ digits back : List Char, (∀ c ∈ digits, JsonText.isNumeral c = true) →
      Follows back → (digits ++ back).takeWhile JsonText.isNumeral = digits := by
    intro digits back hdigits hback
    rw [List.takeWhile_append_of_pos hdigits]
    cases back with
    | nil => simp
    | cons c back => rw [List.takeWhile_cons_of_neg (by simp [hback c rfl]), List.append_nil]
  have hspelling := congrArg (List.takeWhile JsonText.isNumeral) heq
  rw [htake _ _ h.isNumeral hrest, htake _ _ h'.isNumeral hrest'] at hspelling
  subst hspelling
  exact ⟨rfl, List.append_cancel_left heq⟩

/-! ## Values are read in one way -/

namespace Mark
variable {mark other : Char} {t rest rest' : List Char}

theorem follows (h : Mark mark t rest) (hmark : isNumeral mark = false) : Follows t := by
  intro c hc
  cases h with
  | here => rwa [← Option.some.inj hc]
  | space hspace =>
    rw [← Option.some.inj hc]
    exact isNumeral_of_isSpace hspace

theorem unique (h : Mark mark t rest) (h' : Mark other t rest') (hmark : isSpace mark = false)
    (hother : isSpace other = false) : mark = other ∧ rest = rest' := by
  induction h with
  | here =>
    cases h' with
    | here => exact ⟨rfl, rfl⟩
    | space hspace =>
      rw [hspace] at hmark
      cases hmark
  | space hspace _ ih =>
    cases h' with
    | here =>
      rw [hspace] at hother
      cases hother
    | space _ h' => exact ih h'

end Mark

namespace Reads
variable {c : Char} {t rest : List Char} {value : Value}

theorem of_space (hc : isSpace c = true) (h : Reads (c :: t) value rest) : Reads t value rest := by
  cases h with
  | space _ h => exact h
  | number hnumber heq =>
    have hnumeral := hnumber.start heq
    rw [isNumeral_of_isSpace hc] at hnumeral
    cases hnumeral
  | _ => exact absurd hc (by decide)

theorem number_of_numeral (hc : isNumeral c = true) (h : Reads (c :: t) value rest) :
    ∃ spelling, IsNumber spelling ∧ c :: t = spelling ++ rest ∧ value = .number spelling := by
  cases h with
  | space hspace _ =>
    rw [isNumeral_of_isSpace hspace] at hc
    cases hc
  | number hnumber heq => exact ⟨_, hnumber, heq, rfl⟩
  | _ => exact absurd hc (by decide)

theorem not_close {rest' : List Char} (h : Reads t value rest) : ¬Mark ']' t rest' := by
  intro hmark
  induction hmark with
  | here =>
    cases h with
    | space hspace => exact absurd hspace (by decide)
    | number hnumber heq => exact absurd (hnumber.start heq) (by decide)
  | space hspace _ ih => exact ih (h.of_space hspace)

end Reads

theorem ReadsItems.follows {t rest : List Char} {items : List Value} (h : ReadsItems t items rest) :
    Follows t := by
  cases h with
  | close hmark => exact hmark.follows (by decide)
  | next hmark => exact hmark.follows (by decide)

theorem ReadsMembers.follows {t rest : List Char} {members : List (List Char × Value)}
    (h : ReadsMembers t members rest) : Follows t := by
  cases h with
  | close hmark => exact hmark.follows (by decide)
  | next hmark => exact hmark.follows (by decide)

mutual

theorem Reads.unique : ∀ {t rest : List Char} {value : Value}, Reads t value rest → Follows rest →
    ∀ {value' : Value} {rest' : List Char}, Reads t value' rest' → Follows rest' →
      value = value' ∧ rest = rest'
  | _, _, _, .space hspace h, hrest, _, _, h', hrest' =>
    h.unique hrest (h'.of_space hspace) hrest'
  | _, _, _, .null _, _, _, _, h', _ => by
    cases h' with
    | space hspace => exact absurd hspace (by decide)
    | null => exact ⟨rfl, rfl⟩
    | number hnumber heq => exact absurd (hnumber.start heq) (by decide)
  | _, _, _, .yes _, _, _, _, h', _ => by
    cases h' with
    | space hspace => exact absurd hspace (by decide)
    | yes => exact ⟨rfl, rfl⟩
    | number hnumber heq => exact absurd (hnumber.start heq) (by decide)
  | _, _, _, .no _, _, _, _, h', _ => by
    cases h' with
    | space hspace => exact absurd hspace (by decide)
    | no => exact ⟨rfl, rfl⟩
    | number hnumber heq => exact absurd (hnumber.start heq) (by decide)
  | t, _, _, .number hnumber heq, hrest, _, _, h', hrest' => by
    obtain ⟨c, tail, rfl⟩ : ∃ c tail, t = c :: tail := by
      apply List.exists_cons_of_ne_nil
      rw [heq]
      exact List.append_ne_nil_of_left_ne_nil hnumber.ne_nil _
    obtain ⟨spelling', hnumber', heq', rfl⟩ := h'.number_of_numeral (hnumber.start heq)
    obtain ⟨rfl, rfl⟩ := hnumber.unique hnumber' hrest hrest' (heq.symm.trans heq')
    exact ⟨rfl, rfl⟩
  | _, _, _, .string h, _, _, _, h', _ => by
    cases h' with
    | space hspace => exact absurd hspace (by decide)
    | number hnumber heq => exact absurd (hnumber.start heq) (by decide)
    | string h' =>
      obtain ⟨rfl, rfl⟩ := h.unique h'
      exact ⟨rfl, rfl⟩
  | _, _, _, .noItems h, _, _, _, h', _ => by
    cases h' with
    | space hspace => exact absurd hspace (by decide)
    | number hnumber heq => exact absurd (hnumber.start heq) (by decide)
    | noItems h' => exact ⟨rfl, (h.unique h' (by decide) (by decide)).2⟩
    | array hitem => exact absurd h hitem.not_close
  | _, _, _, .array hitem hitems, _, _, _, h', _ => by
    cases h' with
    | space hspace => exact absurd hspace (by decide)
    | number hnumber heq => exact absurd (hnumber.start heq) (by decide)
    | noItems h' => exact absurd h' hitem.not_close
    | array hitem' hitems' =>
      obtain ⟨rfl, rfl⟩ := hitem.unique hitems.follows hitem' hitems'.follows
      obtain ⟨rfl, rfl⟩ := hitems.unique hitems'
      exact ⟨rfl, rfl⟩
  | _, _, _, .noMembers h, _, _, _, h', _ => by
    cases h' with
    | space hspace => exact absurd hspace (by decide)
    | number hnumber heq => exact absurd (hnumber.start heq) (by decide)
    | noMembers h' => exact ⟨rfl, (h.unique h' (by decide) (by decide)).2⟩
    | object hmember =>
      cases hmember with
      | intro hquote =>
        exact absurd (h.unique hquote (by decide) (by decide)).1 (by decide)
  | _, _, _, .object hmember hmembers, _, _, _, h', _ => by
    cases h' with
    | space hspace => exact absurd hspace (by decide)
    | number hnumber heq => exact absurd (hnumber.start heq) (by decide)
    | noMembers h' =>
      cases hmember with
      | intro hquote =>
        exact absurd (h'.unique hquote (by decide) (by decide)).1 (by decide)
    | object hmember' hmembers' =>
      obtain ⟨rfl, rfl⟩ := hmember.unique hmembers.follows hmember' hmembers'.follows
      obtain ⟨rfl, rfl⟩ := hmembers.unique hmembers'
      exact ⟨rfl, rfl⟩

theorem ReadsItems.unique : ∀ {t rest : List Char} {items : List Value}, ReadsItems t items rest →
    ∀ {items' : List Value} {rest' : List Char}, ReadsItems t items' rest' →
      items = items' ∧ rest = rest'
  | _, _, _, .close h, _, _, h' => by
    cases h' with
    | close h' => exact ⟨rfl, (h.unique h' (by decide) (by decide)).2⟩
    | next h' => exact absurd (h.unique h' (by decide) (by decide)).1 (by decide)
  | _, _, _, .next h hitem hitems, _, _, h' => by
    cases h' with
    | close h' => exact absurd (h.unique h' (by decide) (by decide)).1 (by decide)
    | next h' hitem' hitems' =>
      obtain ⟨-, rfl⟩ := h.unique h' (by decide) (by decide)
      obtain ⟨rfl, rfl⟩ := hitem.unique hitems.follows hitem' hitems'.follows
      obtain ⟨rfl, rfl⟩ := hitems.unique hitems'
      exact ⟨rfl, rfl⟩

theorem ReadsMember.unique : ∀ {t rest : List Char} {member : List Char × Value},
    ReadsMember t member rest → Follows rest → ∀ {member' : List Char × Value} {rest' : List Char},
    ReadsMember t member' rest' → Follows rest' → member = member' ∧ rest = rest'
  | _, _, _, .intro hquote hname hcolon hvalue, hrest, _, _, h', hrest' => by
    cases h' with
    | intro hquote' hname' hcolon' hvalue' =>
      obtain ⟨-, rfl⟩ := hquote.unique hquote' (by decide) (by decide)
      obtain ⟨rfl, rfl⟩ := hname.unique hname'
      obtain ⟨-, rfl⟩ := hcolon.unique hcolon' (by decide) (by decide)
      obtain ⟨rfl, rfl⟩ := hvalue.unique hrest hvalue' hrest'
      exact ⟨rfl, rfl⟩

theorem ReadsMembers.unique : ∀ {t rest : List Char} {members : List (List Char × Value)},
    ReadsMembers t members rest → ∀ {members' : List (List Char × Value)} {rest' : List Char},
    ReadsMembers t members' rest' → members = members' ∧ rest = rest'
  | _, _, _, .close h, _, _, h' => by
    cases h' with
    | close h' => exact ⟨rfl, (h.unique h' (by decide) (by decide)).2⟩
    | next h' => exact absurd (h.unique h' (by decide) (by decide)).1 (by decide)
  | _, _, _, .next h hmember hmembers, _, _, h' => by
    cases h' with
    | close h' => exact absurd (h.unique h' (by decide) (by decide)).1 (by decide)
    | next h' hmember' hmembers' =>
      obtain ⟨-, rfl⟩ := h.unique h' (by decide) (by decide)
      obtain ⟨rfl, rfl⟩ := hmember.unique hmembers.follows hmember' hmembers'.follows
      obtain ⟨rfl, rfl⟩ := hmembers.unique hmembers'
      exact ⟨rfl, rfl⟩

end

/-- A text denotes at most one value. -/
theorem Denotes.unique {text : List Char} {value value' : Value} (h : Denotes text value)
    (h' : Denotes text value') : value = value' := by
  obtain ⟨rest, hreads, hspaces⟩ := h
  obtain ⟨rest', hreads', hspaces'⟩ := h'
  exact (hreads.unique (follows_of_spaces hspaces) hreads' (follows_of_spaces hspaces')).1

end JsonText

end BoardHighlight
