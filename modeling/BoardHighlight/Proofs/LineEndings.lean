import BoardHighlight.Program
import BoardHighlight.Proofs.RelexedLines
import BoardHighlight.Proofs.Terminators

/-!
# Line endings

A line feed may be written with a carriage return in front of it. As long as a source has no other
carriage returns, it is cut into the same lines whichever of its line feeds are written so, and
what is said about a source depends on its lines only. A command therefore cannot tell two such
sources apart, wherever they stand among its inputs.
-/

namespace BoardHighlight
set_option autoImplicit false

namespace Lines

/-- The second text is the first one with some of its line feeds, any of them, written with a
carriage return in front. -/
inductive Respelled : List Char → List Char → Prop where
  | nil : Respelled [] []
  | keep {source other : List Char} (c : Char) :
      Respelled source other → Respelled (c :: source) (c :: other)
  | pair {source other : List Char} :
      Respelled source other → Respelled ('\n' :: source) ('\r' :: '\n' :: other)

/-- Every text is a spelling of the one in which its line feeds are unified. -/
theorem respelled_unifyFeeds (text : List Char) : Respelled (unifyFeeds text) text := by
  fun_induction unifyFeeds text with
  | case1 rest ih => exact .pair ih
  | case2 c rest _ ih => exact .keep c ih
  | case3 => exact .nil

theorem split_cons_congr {c : Char} {rest other : List Char} (hc : c ≠ '\r')
    (h : split other = split rest) : split (c :: other) = split (c :: rest) := by
  simp [split, hc, h]

theorem Respelled.split_eq {source other : List Char} (h : Respelled source other)
    (hreturn : '\r' ∉ source) : split other = split source := by
  induction h with
  | nil => rfl
  | keep c _ ih =>
    rw [List.mem_cons, not_or] at hreturn
    exact split_cons_congr (Ne.symm hreturn.1) (ih hreturn.2)
  | pair _ ih =>
    rw [List.mem_cons, not_or] at hreturn
    rw [split_pair]
    exact split_cons_congr (by decide) (ih hreturn.2)

end Lines

namespace Sources
variable {source other : List Char} {sources changed : Sources}

/-- Two readings of one input: they agree, or the second gives `other` where the first gives
`source`. -/
def Exchanged {ε : Type} (source other : List Char) (x y : Except ε (List Char)) : Prop :=
  y = x ∨ x = .ok source ∧ y = .ok other

/-- Some of the inputs that give `source` give `other` instead, and nothing else is changed. -/
structure Exchanges (source other : List Char) (sources changed : Sources) : Prop where
  files : ∀ path, Exchanged source other (sources.files.readText path) (changed.files.readText path)
  standardInput :
    Exchanged source other (decodeText sources.standardInput) (decodeText changed.standardInput)

theorem Exchanged.mapError {ε ε' : Type} {x y : Except ε (List Char)}
    (h : Exchanged source other x y) (f : ε → ε') :
    Exchanged source other (x.mapError f) (y.mapError f) := by
  rcases h with rfl | ⟨rfl, rfl⟩
  · exact .inl rfl
  · exact .inr ⟨rfl, rfl⟩

theorem Exchanges.read (h : Exchanges source other sources changed) (path : List Char) :
    Exchanged source other (sources.read path).1 (changed.read path).1 ∧
      Exchanges source other (sources.read path).2 (changed.read path).2 := by
  unfold Sources.read
  split
  · -- the standard input is used up on both sides
    exact ⟨h.standardInput.mapError _, h.files, .inl rfl⟩
  · exact ⟨(h.files path).mapError _, h⟩

theorem readAll_of_error {path : List Char} {failure : Failure}
    (h : (sources.read path).1 = .error failure) (inputs : List (List Char)) :
    sources.readAll (path :: inputs) = ([], some failure) := by
  rw [readAll, ← Prod.eta (sources.read path), h]

theorem readAll_of_ok {path text : List Char} (h : (sources.read path).1 = .ok text)
    (inputs : List (List Char)) :
    sources.readAll (path :: inputs) =
      ((path, text) :: ((sources.read path).2.readAll inputs).1,
        ((sources.read path).2.readAll inputs).2) := by
  rw [readAll, ← Prod.eta (sources.read path), h]

/-- What is made of each input by itself comes out the same if it does so for the two texts. -/
theorem Exchanges.readAll_eq {β : Type} {f : List Char → List Char → List β}
    (h : Exchanges source other sources changed) (hf : ∀ path, f path other = f path source)
    (inputs : List (List Char)) :
    ((changed.readAll inputs).1.flatMap fun x => f x.1 x.2) =
      ((sources.readAll inputs).1.flatMap fun x => f x.1 x.2) ∧
    (changed.readAll inputs).2 = (sources.readAll inputs).2 := by
  induction inputs generalizing sources changed with
  | nil => exact ⟨rfl, rfl⟩
  | cons path inputs ih =>
    obtain ⟨hread, hleft⟩ := h.read path
    obtain ⟨htexts, hfailure⟩ := ih hleft
    rcases hread with hsame | ⟨hsource, hother⟩
    · cases htext : (sources.read path).1 with
      | error failure =>
        rw [readAll_of_error htext, readAll_of_error (hsame.trans htext)]
        exact ⟨rfl, rfl⟩
      | ok text =>
        rw [readAll_of_ok htext, readAll_of_ok (hsame.trans htext), List.flatMap_cons,
          List.flatMap_cons, htexts]
        exact ⟨rfl, hfailure⟩
    · rw [readAll_of_ok hsource, readAll_of_ok hother, List.flatMap_cons, List.flatMap_cons,
        htexts, hf]
      exact ⟨rfl, hfailure⟩

end Sources

section Commands
variable {source other : List Char} {sources changed : Sources}

theorem Highlight.render_eq (hdoc : Document.ofText other = Document.ofText source)
    (format : Format) (palette : Option Palette) (path : List Char) :
    render format palette path other = render format palette path source := by
  unfold render
  rw [hdoc]

variable (h : sources.Exchanges source other changed)
  (hdoc : Document.ofText other = Document.ofText source)
include h hdoc

theorem Highlight.run_eq (options : HighlightOptions) (config : Config)
    (inputs : List (List Char)) :
    run options config changed inputs = run options config sources inputs := by
  unfold run
  split
  · rfl
  · rename_i format _
    split
    · rfl
    · rename_i palette _
      obtain ⟨houtput, hfailure⟩ := h.readAll_eq (render_eq hdoc format palette) inputs
      dsimp only
      rw [hfailure]
      exact congrArg (Result.mk · _) houtput

theorem Verdict.run_eq (inputs : List (List Char)) : run changed inputs = run sources inputs := by
  have hproblems : problems other = problems source := by rw [problems, problems, hdoc]
  have hrows : ∀ path, rows path other = rows path source := by
    intro path
    rw [rows, rows, hproblems]
  obtain ⟨houtput, hfailure⟩ := h.readAll_eq hrows inputs
  have hcount : count (changed.readAll inputs).1 = count (sources.readAll inputs).1 :=
    congrArg List.length (h.readAll_eq (fun _ => hproblems) inputs).1
  unfold run
  dsimp only
  rw [hfailure, hcount]
  exact congrArg (Result.mk · _) houtput

theorem Program.dump_eq (input : List Char) : dump changed input = dump sources input := by
  unfold dump
  rcases (h.read input).1 with hsame | ⟨hsource, hother⟩
  · rw [hsame]
  · rw [hsource, hother]
    dsimp only
    rw [hdoc]

/-- A command does the same with both texts. -/
theorem Program.execute_eq (config : Config) (invocation : Invocation) :
    execute config changed invocation = execute config sources invocation := by
  unfold execute
  split
  · exact Highlight.run_eq h hdoc _ config _
  · exact Program.dump_eq h hdoc _
  · exact Verdict.run_eq h hdoc _

end Commands

namespace Document

/-- Nothing that is said about one text tells it from the other. -/
structure SaidAlike (source other : List Char) : Prop where
  lines : (ofText other).lines = (ofText source).lines
  modes : (ofText other).modes = (ofText source).modes
  problems : (ofText other).problems = (ofText source).problems
  dump : (ofText other).dump = (ofText source).dump
  highlighted : ∀ format palette path,
    Highlight.render format palette path other = Highlight.render format palette path source
  commands : ∀ sources changed, Sources.Exchanges source other sources changed →
    ∀ config invocation,
      Program.execute config changed invocation = Program.execute config sources invocation

/-- Line endings do not matter: a source without carriage returns and the same source with carriage
returns in front of any of its line feeds have the same lines and modes, and no command tells them
apart. -/
theorem saidAlike_of_respelled {source other : List Char} (hreturn : '\r' ∉ source)
    (h : Lines.Respelled source other) : SaidAlike source other := by
  have hdoc : ofText other = ofText source := by rw [ofText, ofText, h.split_eq hreturn]
  exact {
    lines := by rw [hdoc]
    modes := by rw [hdoc]
    problems := by rw [hdoc]
    dump := by rw [hdoc]
    highlighted := Highlight.render_eq hdoc
    commands := fun _ _ hexchanges => Program.execute_eq hexchanges hdoc }

/-- A line feed in a string gap is respelled, the one in an open comment is not, and the last one is
again; the source is also what the standard input gives. -/
theorem saidAlike_of_respelled_mixed :
    let source := "\"a\\\n\\b\" \x7b-\n-- c\n"
    let other := "\"a\\\r\n\\b\" \x7b-\n-- c\r\n"
    let files : Lookup := fun _ => .ok .directory
    '\r' ∉ source.toList ∧ Lines.Respelled source.toList other.toList ∧
      (ofText other.toList).lines = ["\"a\\".toList, "\\b\" \x7b-".toList, "-- c".toList] ∧
      ∀ config invocation, Program.execute config ⟨files, other.toUTF8⟩ invocation =
        Program.execute config ⟨files, source.toUTF8⟩ invocation := by
  intro source other files
  have hreturn : '\r' ∉ source.toList := by decide
  have hunified : Lines.unifyFeeds other.toList = source.toList := by decide +kernel
  have hrespelled : Lines.Respelled source.toList other.toList := by
    rw [← hunified]
    exact Lines.respelled_unifyFeeds other.toList
  have h := saidAlike_of_respelled hreturn hrespelled
  refine ⟨hreturn, hrespelled, ?_, ?_⟩
  · rw [h.lines]
    decide +kernel
  · apply h.commands
    have hsource : (decodeText source.toUTF8).toOption = some source.toList := by decide +kernel
    have hother : (decodeText other.toUTF8).toOption = some other.toList := by decide +kernel
    exact ⟨fun _ => .inl rfl, .inr ⟨eq_ok_of_toOption hsource, eq_ok_of_toOption hother⟩⟩

end Document

end BoardHighlight
