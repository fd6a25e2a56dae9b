import Mathlib.Data.List.Basic
import BoardHighlight.Failure
import BoardHighlight.Proofs.Colouring

/-!
# Words of a style

The words that the name of a style may be made of, each with what it stands for, said apart from
the tables that are searched for it. A name is read word by word: it has a style exactly if all of
its words are among these, and the codes of the style are those of the words in their order. Nothing
is remembered from one word to the next, so a name with several colours has a style with the codes
of all of them.
-/

namespace BoardHighlight
set_option autoImplicit false

section Words

theorem filter_consWord (word : List Char) (pieces : List (List Char)) :
    consWord word (pieces.filter (!·.isEmpty)) = (word :: pieces).filter (!·.isEmpty) := by
  cases word with
  | nil => rfl
  | cons c word => rfl

theorem wordsFrom_eq (word text : List Char) :
    wordsFrom word text =
      ((text.splitOnP isWhiteSpace).modifyHead (word ++ ·)).filter (!·.isEmpty) := by
  induction text generalizing word with
  | nil =>
    have hword := filter_consWord word []
    simpa [wordsFrom, List.splitOnP_nil] using hword
  | cons c rest ih =>
    obtain ⟨piece, pieces, hrest⟩ :=
      List.exists_cons_of_ne_nil (List.splitOnP_ne_nil isWhiteSpace rest)
    rw [wordsFrom, List.splitOnP_cons_eq_if_modifyHead, ih, ih]
    by_cases hc : isWhiteSpace c = true
    · rw [if_pos hc, if_pos hc, filter_consWord]
      simp [hrest]
    · rw [if_neg hc, if_neg hc]
      simp [hrest]

/-- What stands between the white space of a text. -/
def pieces (text : List Char) : List (List Char) :=
  (text.splitOnP isWhiteSpace).filter (!·.isEmpty)

theorem words_eq (text : List Char) : words text = pieces text := by
  rw [words, wordsFrom_eq, pieces]
  cases text.splitOnP isWhiteSpace <;> rfl

end Words

namespace Style

inductive Attribute where
  | bold
  | dim
  | italic
  | underline
  deriving DecidableEq

namespace Attribute

def all : List Attribute := [bold, dim, italic, underline]

def name : Attribute → String
  | bold => "bold"
  | dim => "dim"
  | italic => "italic"
  | underline => "underline"

def code : Attribute → Nat
  | bold => 1
  | dim => 2
  | italic => 3
  | underline => 4

end Attribute

inductive Colour where
  | black
  | red
  | green
  | yellow
  | blue
  | magenta
  | cyan
  | white
  deriving DecidableEq

namespace Colour

def all : List Colour := [black, red, green, yellow, blue, magenta, cyan, white]

def name : Colour → String
  | black => "black"
  | red => "red"
  | green => "green"
  | yellow => "yellow"
  | blue => "blue"
  | magenta => "magenta"
  | cyan => "cyan"
  | white => "white"

def place : Colour → Nat
  | black => 0
  | red => 1
  | green => 2
  | yellow => 3
  | blue => 4
  | magenta => 5
  | cyan => 6
  | white => 7

theorem place_getElem_all : ∀ i (h : i < all.length), all[i].place = i := by decide

end Colour

/-- What a word of a style stands for. -/
inductive Sense where
  | standard
  | emphasis (a : Attribute)
  | colour (bright : Bool) (c : Colour)
  deriving DecidableEq

namespace Sense

def all : List Sense :=
  standard :: Attribute.all.map emphasis ++ Colour.all.map (colour false) ++
    Colour.all.map (colour true)

theorem mem_all (sense : Sense) : sense ∈ all := by
  cases sense with
  | standard => exact List.mem_cons_self
  | emphasis a => cases a <;> decide
  | colour bright c => cases bright <;> cases c <;> decide

def spelling : Sense → List Char
  | standard => "default".toList
  | emphasis a => a.name.toList
  | colour false c => c.name.toList
  | colour true c => "bright-".toList ++ c.name.toList

/-- Every sense but the standard one has a code. -/
def code? : Sense → Option Nat
  | standard => none
  | emphasis a => some a.code
  | colour false c => some (30 + c.place)
  | colour true c => some (90 + c.place)

def isColour : Sense → Bool
  | colour _ _ => true
  | _ => false

theorem spelling_injective : Function.Injective spelling := by
  have hall : ∀ s ∈ all, ∀ t ∈ all, s.spelling = t.spelling → s = t := by decide +kernel
  intro s t h
  exact hall s (mem_all s) t (mem_all t) h

theorem filterMap_code?_cons (sense : Sense) (senses : List Sense) :
    (sense :: senses).filterMap code? = sense.code?.toList ++ senses.filterMap code? := by
  rw [List.filterMap_eq_flatMap_toList, List.filterMap_eq_flatMap_toList, List.flatMap_cons]

theorem code?_eq_none_iff (sense : Sense) : sense.code? = none ↔ sense = standard := by
  cases sense with
  | standard => exact ⟨fun _ => rfl, fun _ => rfl⟩
  | emphasis a => simp [code?]
  | colour bright c => cases bright <;> simp [code?]

end Sense

/-- A word, in small letters, that stands for something. -/
def Known (word : List Char) : Prop := ∃ sense : Sense, sense.spelling = word

/-- The name is made of the words for some senses, in any case and with any white space around
them. -/
def Spells (name : List Char) (senses : List Sense) : Prop :=
  (pieces name).map lowercase = senses.map Sense.spelling

theorem Spells.unique {name : List Char} {senses others : List Sense} (h : Spells name senses)
    (hothers : Spells name others) : senses = others := by
  apply Sense.spelling_injective.list_map
  exact h.symm.trans hothers

section Tables
variable {word : List Char} {code : Nat}

theorem exists_of_attributeCode? (h : attributeCode? word = some code) :
    ∃ a : Attribute, word = a.name.toList ∧ code = a.code := by
  obtain ⟨entry, hfind, rfl⟩ := Option.map_eq_some_iff.mp h
  have htable : attributes = Attribute.all.map fun a => (a.name, a.code) := rfl
  have hentry := List.mem_of_find?_eq_some hfind
  rw [htable] at hentry
  obtain ⟨a, -, rfl⟩ := List.mem_map.mp hentry
  have hword : a.name.toList = word := by simpa using List.find?_some hfind
  exact ⟨a, hword.symm, rfl⟩

theorem exists_of_colourIndex? {i : Nat} (h : colourIndex? word = some i) :
    ∃ c : Colour, word = c.name.toList ∧ i = c.place := by
  have htable : colours = Colour.all.map Colour.name := rfl
  rw [colourIndex?, htable, List.findIdx?_map] at h
  obtain ⟨hi, hname, -⟩ := List.findIdx?_eq_some_iff_getElem.mp h
  have hword : Colour.all[i].name.toList = word := by simpa using hname
  exact ⟨Colour.all[i], hword.symm, (Colour.place_getElem_all i hi).symm⟩

theorem exists_of_colourCode? (h : colourCode? word = some code) :
    ∃ bright c, word = (Sense.colour bright c).spelling ∧
      some code = (Sense.colour bright c).code? := by
  unfold colourCode? at h
  split at h
  · rename_i hbright
    obtain ⟨i, hi, rfl⟩ := Option.map_eq_some_iff.mp h
    obtain ⟨c, hspelling, rfl⟩ := exists_of_colourIndex? hi
    have hword : brightPrefix ++ word.drop brightPrefix.length = word :=
      List.prefix_iff_eq_append.mp (List.isPrefixOf_iff_prefix.mp hbright)
    refine ⟨true, c, ?_, rfl⟩
    rw [← hword, hspelling]
    rfl
  · obtain ⟨i, hi, rfl⟩ := Option.map_eq_some_iff.mp h
    obtain ⟨c, hspelling, rfl⟩ := exists_of_colourIndex? hi
    exact ⟨false, c, hspelling, rfl⟩

theorem wordCodes?_spelling (sense : Sense) :
    wordCodes? sense.spelling = some sense.code?.toList := by
  have hall : ∀ sense ∈ Sense.all, wordCodes? sense.spelling = some sense.code?.toList := by
    decide +kernel
  exact hall sense (Sense.mem_all sense)

theorem wordCodes?_eq_some_iff {codes : List Nat} :
    wordCodes? word = some codes ↔
      ∃ sense : Sense, sense.spelling = word ∧ codes = sense.code?.toList := by
  constructor
  · intro h
    unfold wordCodes? at h
    split at h
    · rename_i hword
      cases h
      exact ⟨.standard, (beq_iff_eq.mp hword).symm, rfl⟩
    · obtain ⟨code, hcode, rfl⟩ := Option.map_eq_some_iff.mp h
      rcases Option.or_eq_some_iff.mp hcode with hcode | ⟨-, hcode⟩
      · obtain ⟨a, rfl, rfl⟩ := exists_of_attributeCode? hcode
        exact ⟨.emphasis a, rfl, rfl⟩
      · obtain ⟨bright, c, rfl, hsense⟩ := exists_of_colourCode? hcode
        exact ⟨.colour bright c, rfl, by rw [← hsense]; rfl⟩
  · rintro ⟨sense, rfl, rfl⟩
    exact wordCodes?_spelling sense

theorem wordCodes?_eq_none_iff : wordCodes? word = none ↔ ¬Known word := by
  rw [Option.eq_none_iff_forall_not_mem, Known, not_exists]
  constructor
  · intro h sense hsense
    exact h _ (wordCodes?_eq_some_iff.mpr ⟨sense, hsense, rfl⟩)
  · intro h codes hcodes
    obtain ⟨sense, hsense, -⟩ := wordCodes?_eq_some_iff.mp hcodes
    exact h sense hsense

end Tables

section Reading

theorem map_eq_error_iff {ε α β : Type} {f : α → β} {result : Except ε α} {e : ε} :
    result.map f = .error e ↔ result = .error e := by
  cases result <;> simp [Except.map]

variable {texts : List (List Char)} {codes : List Nat} {word : List Char}

theorem ofWords_eq_ok_iff : ofWords texts = .ok codes ↔
    ∃ senses : List Sense, texts.map lowercase = senses.map Sense.spelling ∧
      codes = senses.filterMap Sense.code? := by
  constructor
  · intro h
    induction texts generalizing codes with
    | nil =>
      cases h
      exact ⟨[], rfl, rfl⟩
    | cons text texts ih =>
      simp only [ofWords] at h
      split at h
      · cases h
      · rename_i first hfirst
        obtain ⟨rest, hrest, rfl⟩ := exists_of_map_eq_ok h
        obtain ⟨sense, hsense, rfl⟩ := wordCodes?_eq_some_iff.mp hfirst
        obtain ⟨senses, hsenses, rfl⟩ := ih hrest
        refine ⟨sense :: senses, ?_, (Sense.filterMap_code?_cons sense senses).symm⟩
        rw [List.map_cons, List.map_cons, hsense, hsenses]
  · rintro ⟨senses, hsenses, rfl⟩
    induction senses generalizing texts with
    | nil =>
      rw [List.map_eq_nil_iff.mp hsenses]
      rfl
    | cons sense senses ih =>
      obtain ⟨text, rest, rfl, hfirst, hrest⟩ := List.map_eq_cons_iff.mp hsenses
      simp only [ofWords, hfirst, wordCodes?_spelling, ih hrest]
      rw [Sense.filterMap_code?_cons]
      rfl

/-- The word that is reported is the first that is not known. -/
theorem ofWords_eq_error_iff : ofWords texts = .error word ↔
    ∃ front text rest, texts = front ++ text :: rest ∧ (∀ t ∈ front, Known (lowercase t)) ∧
      ¬Known (lowercase text) ∧ word = lowercase text := by
  induction texts with
  | nil => simp [ofWords]
  | cons text texts ih =>
    simp only [ofWords]
    cases hfirst : wordCodes? (lowercase text) with
    | none =>
      -- the first word is the one reported, so nothing known stands in front of it
      have hunknown := wordCodes?_eq_none_iff.mp hfirst
      constructor
      · intro h
        cases h
        exact ⟨[], text, texts, rfl, by simp, hunknown, rfl⟩
      · rintro ⟨front, found, rest, hsplit, hfront, -, rfl⟩
        cases front with
        | nil =>
          cases hsplit
          rfl
        | cons t front =>
          cases hsplit
          exact absurd (hfront text List.mem_cons_self) hunknown
    | some first =>
      obtain ⟨sense, hsense, -⟩ := wordCodes?_eq_some_iff.mp hfirst
      simp only [map_eq_error_iff, ih]
      constructor
      · rintro ⟨front, found, rest, rfl, hfront, hfound⟩
        exact ⟨text :: front, found, rest, rfl, by simpa using ⟨⟨sense, hsense⟩, hfront⟩, hfound⟩
      · rintro ⟨front, found, rest, hsplit, hfront, hunknown, hword⟩
        cases front with
        | nil =>
          cases hsplit
          exact absurd ⟨sense, hsense⟩ hunknown
        | cons t front =>
          cases hsplit
          exact ⟨front, found, rest, rfl, fun t ht => hfront t (List.mem_cons_of_mem _ ht),
            hunknown, hword⟩

theorem ofName_eq_ok_iff {name : List Char} {style : Style} : ofName name = .ok style ↔
    ∃ senses, Spells name senses ∧ style.codes = senses.filterMap Sense.code? := by
  rw [ofName, words_eq]
  constructor
  · intro h
    obtain ⟨codes, hcodes, rfl⟩ := exists_of_map_eq_ok h
    exact ofWords_eq_ok_iff.mp hcodes
  · rintro ⟨senses, hsenses, hcodes⟩
    rw [ofWords_eq_ok_iff.mpr ⟨senses, hsenses, rfl⟩, ← hcodes]
    rfl

theorem exists_ofName_iff {name : List Char} :
    (∃ style, ofName name = .ok style) ↔ ∃ senses, Spells name senses := by
  constructor
  · rintro ⟨style, h⟩
    obtain ⟨senses, hsenses, -⟩ := ofName_eq_ok_iff.mp h
    exact ⟨senses, hsenses⟩
  · rintro ⟨senses, hsenses⟩
    exact ⟨⟨senses.filterMap Sense.code?⟩, ofName_eq_ok_iff.mpr ⟨senses, hsenses, rfl⟩⟩

end Reading

theorem paint_eq_self_iff {style : Style} {text : List Char} :
    style.paint text = text ↔ style.codes = [] := by
  unfold paint
  split
  · rename_i hempty
    exact ⟨fun _ => List.isEmpty_iff.mp hempty, fun _ => rfl⟩
  · rename_i hcodes
    refine ⟨fun h => ?_, fun h => absurd (List.isEmpty_iff.mpr h) hcodes⟩
    have hlength := congrArg List.length h
    simp only [sequence, List.length_append, List.length_cons] at hlength
    omega

/-- How the name of a style is read: which names have a style and which codes it has, when it leaves
text as it is, what is reported otherwise, and where a limit of one colour would tell. -/
structure ReadByWords (name : List Char) : Prop where
  ok_iff : ∀ style, ofName name = .ok style ↔
    ∃ senses, Spells name senses ∧ style.codes = senses.filterMap Sense.code?
  unpainted_iff : ∀ style senses, ofName name = .ok style → Spells name senses →
    ∀ text, style.paint text = text ↔ ∀ sense ∈ senses, sense = .standard
  refused : ∀ failure, (ofName name).mapError Failure.unknownColour = .error failure →
    ∃ front piece rest, pieces name = front ++ piece :: rest ∧
      (∀ earlier ∈ front, Known (lowercase earlier)) ∧ ¬Known (lowercase piece) ∧
      failure.report =
        .configuration ("Unknown colour in theme: ".toList ++ Quoted.quote (lowercase piece))
  one_colour_iff :
    ((∃ style, ofName name = .ok style) ↔
      ∃ senses, Spells name senses ∧ senses.countP Sense.isColour ≤ 1) ↔
    ∀ senses, Spells name senses → senses.countP Sense.isColour ≤ 1

theorem readByWords (name : List Char) : ReadByWords name where
  ok_iff style := ofName_eq_ok_iff
  unpainted_iff := by
    intro style senses hstyle hsenses text
    obtain ⟨others, hothers, hcodes⟩ := ofName_eq_ok_iff.mp hstyle
    obtain rfl := hsenses.unique hothers
    rw [paint_eq_self_iff, hcodes, List.filterMap_eq_nil_iff]
    simp only [Sense.code?_eq_none_iff]
  refused := by
    intro failure h
    cases hname : ofName name with
    | ok style =>
      rw [hname] at h
      cases h
    | error word =>
      rw [hname] at h
      cases h
      rw [ofName, words_eq, map_eq_error_iff] at hname
      obtain ⟨front, piece, rest, hpieces, hfront, hpiece, rfl⟩ := ofWords_eq_error_iff.mp hname
      exact ⟨front, piece, rest, hpieces, hfront, hpiece, rfl⟩
  one_colour_iff := by
    rw [exists_ofName_iff]
    constructor
    · intro h senses hsenses
      obtain ⟨others, hothers, hone⟩ := h.mp ⟨senses, hsenses⟩
      rwa [hsenses.unique hothers]
    · intro h
      constructor
      · rintro ⟨senses, hsenses⟩
        exact ⟨senses, hsenses, h senses hsenses⟩
      · rintro ⟨senses, hsenses, -⟩
        exact ⟨senses, hsenses⟩

/-- No limit of one colour is kept. -/
theorem two_colours_accepted :
    let name := "red blue".toList
    ofName name = .ok ⟨[31, 34]⟩ ∧
      ¬((∃ style, ofName name = .ok style) ↔
        ∃ senses, Spells name senses ∧ senses.countP Sense.isColour ≤ 1) := by
  intro name
  have hstyle : ofName name = .ok ⟨[31, 34]⟩ := by decide +kernel
  have hname : Spells name [.colour false .red, .colour false .blue] := by
    unfold Spells pieces
    decide +kernel
  refine ⟨hstyle, fun h => ?_⟩
  obtain ⟨senses, hsenses, hone⟩ := h.mp ⟨_, hstyle⟩
  rw [hsenses.unique hname] at hone
  exact absurd hone (by decide)

end Style

end BoardHighlight
