import BoardHighlight.Mode

/-!
# What one mode takes off a line

A mode looks at the characters that are left and decides how many of them its lexeme covers, of
which kind it is, and in which mode the next token is read. Scanning functions answer with a
number of characters, so that the lexeme and the rest of the line are `take` and `drop` of it
and nothing can get lost between them.
-/

namespace BoardHighlight
set_option autoImplicit false

/-- `size` characters of one kind, and the mode after them. -/
structure Cut where
  kind : Kind
  size : Nat
  next : Mode
  deriving DecidableEq

namespace Cut

/-- A lexeme that leaves the lexer in ordinary code. -/
def normal (kind : Kind) (size : Nat) : Cut := ⟨kind, size, .normal⟩

/-- The same lexeme with `n` more characters in front. -/
def shift (n : Nat) (cut : Cut) : Cut := { cut with size := n + cut.size }

@[simp] theorem shift_kind (n : Nat) (cut : Cut) : (cut.shift n).kind = cut.kind := rfl
@[simp] theorem shift_size (n : Nat) (cut : Cut) : (cut.shift n).size = n + cut.size := rfl
@[simp] theorem shift_next (n : Nat) (cut : Cut) : (cut.shift n).next = cut.next := rfl
@[simp] theorem normal_kind (kind : Kind) (size : Nat) : (normal kind size).kind = kind := rfl
@[simp] theorem normal_size (kind : Kind) (size : Nat) : (normal kind size).size = size := rfl
@[simp] theorem normal_next (kind : Kind) (size : Nat) : (normal kind size).next = .normal := rfl

end Cut

/-- A mode either emits its lexeme or hands over: another mode goes on behind the first `size`
characters and emits the lexeme of both. -/
inductive Step where
  | emit (cut : Cut)
  | enter (size : Nat) (mode : Mode)
  deriving DecidableEq

/-- The length of the longest run of characters that pass a test, at the front of a text. -/
def runLength (p : Char → Bool) (cs : List Char) : Nat := (cs.takeWhile p).length

@[simp] theorem runLength_nil (p : Char → Bool) : runLength p [] = 0 := rfl

theorem runLength_cons (p : Char → Bool) (c : Char) (cs : List Char) :
    runLength p (c :: cs) = if p c then runLength p cs + 1 else 0 := by
  simp only [runLength, List.takeWhile_cons]
  split <;> rfl

theorem runLength_le (p : Char → Bool) (cs : List Char) : runLength p cs ≤ cs.length :=
  (List.takeWhile_prefix p).length_le

@[simp] theorem take_runLength (p : Char → Bool) (cs : List Char) :
    cs.take (runLength p cs) = cs.takeWhile p :=
  (List.prefix_iff_eq_take.mp (List.takeWhile_prefix p)).symm

@[simp] theorem drop_runLength (p : Char → Bool) (cs : List Char) :
    cs.drop (runLength p cs) = cs.dropWhile p := by
  induction cs with
  | nil => rfl
  | cons c cs ih =>
    rw [runLength_cons, List.dropWhile_cons]
    split
    · simpa using ih
    · rfl

end BoardHighlight
