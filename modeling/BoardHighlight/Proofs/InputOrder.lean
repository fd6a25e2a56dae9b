import BoardHighlight.Problem.Verdict

/-!
# Inputs in their order

Files are read one after the other up to the first that cannot be read, and that one's fault is
what a command reports. A check prints a row for every problem of the files in front of it. If all
of them can be read, the check passes exactly if there is no row, and otherwise gives the number of
rows.
-/

namespace BoardHighlight
set_option autoImplicit false

namespace Lookup

/-- The path leads to a text. -/
def opens (files : Lookup) (path : List Char) : Bool := (files.readText path).isOk

/-- What is reported about a path that cannot be read. -/
def refusal? (files : Lookup) (path : List Char) : Option Report :=
  match files.readText path with
  | .ok _ => none
  | .error fault => some (.fileOperation (path ++ ": ".toList ++ fault.message))

/-- The inputs in front of the first that cannot be read, each with its text. -/
def opened (files : Lookup) (inputs : List (List Char)) : List (List Char × List Char) :=
  (inputs.takeWhile files.opens).filterMap fun path =>
    (files.readText path).toOption.map fun text => (path, text)

section
variable {files : Lookup} {path text : List Char} {fault : ReadFault}

theorem opens_of_ok (h : files.readText path = .ok text) : files.opens path = true := by
  rw [opens, h]
  rfl

theorem opens_of_error (h : files.readText path = .error fault) : files.opens path = false := by
  rw [opens, h]
  rfl

theorem exists_ok_of_opens (h : files.opens path = true) : ∃ text, files.readText path = .ok text := by
  cases hread : files.readText path with
  | ok text => exact ⟨text, rfl⟩
  | error fault =>
    rw [opens_of_error hread] at h
    cases h

theorem refusal?_eq_none_iff : files.refusal? path = none ↔ files.opens path = true := by
  unfold refusal? opens
  cases files.readText path with
  | ok text => exact iff_of_true rfl rfl
  | error fault => exact iff_of_false (by simp) (by simp [Except.isOk, Except.toBool])

theorem opened_cons_of_ok (h : files.readText path = .ok text) (rest : List (List Char)) :
    files.opened (path :: rest) = (path, text) :: files.opened rest := by
  rw [opened, List.takeWhile_cons_of_pos (opens_of_ok h), List.filterMap_cons, h]
  rfl

theorem opened_cons_of_error (h : files.readText path = .error fault) (rest : List (List Char)) :
    files.opened (path :: rest) = [] := by
  rw [opened, List.takeWhile_cons_of_neg (by simp [opens_of_error h]), List.filterMap_nil]

/-- What stands behind an input that cannot be read makes no difference. -/
theorem opened_append_of_error {before : List (List Char)} (h : files.readText path = .error fault)
    (after : List (List Char)) : files.opened (before ++ path :: after) = files.opened before := by
  induction before with
  | nil => exact opened_cons_of_error h after
  | cons first before ih =>
    rw [List.cons_append]
    cases hfirst : files.readText first with
    | ok text => rw [opened_cons_of_ok hfirst, opened_cons_of_ok hfirst, ih]
    | error fault => rw [opened_cons_of_error hfirst, opened_cons_of_error hfirst]

theorem fst_mem_of_mem_opened {inputs : List (List Char)} {x : List Char × List Char}
    (h : x ∈ files.opened inputs) : x.1 ∈ inputs := by
  obtain ⟨path, hpath, hx⟩ := List.mem_filterMap.mp h
  obtain ⟨text, -, rfl⟩ := Option.map_eq_some_iff.mp hx
  exact (List.takeWhile_prefix _).subset hpath

theorem mem_opened_iff {inputs : List (List Char)} (h : ∀ path ∈ inputs, files.opens path = true)
    {x : List Char × List Char} :
    x ∈ files.opened inputs ↔ x.1 ∈ inputs ∧ files.readText x.1 = .ok x.2 := by
  induction inputs with
  | nil => simp [opened]
  | cons path inputs ih =>
    rw [List.forall_mem_cons] at h
    obtain ⟨text, htext⟩ := exists_ok_of_opens h.1
    rw [opened_cons_of_ok htext, List.mem_cons, List.mem_cons, ih h.2]
    constructor
    · rintro (rfl | hx)
      · exact ⟨.inl rfl, htext⟩
      · exact ⟨.inr hx.1, hx.2⟩
    · rintro ⟨hpath | hmem, hread⟩
      · left
        rw [hpath, htext] at hread
        exact Prod.ext hpath (Except.ok.inj hread).symm
      · exact .inr ⟨hmem, hread⟩

theorem flatMap_opened {β : Type} {inputs : List (List Char)} {f : List Char → List Char → List β}
    {g : List Char → List β}
    (h : ∀ path ∈ inputs, ∀ text, files.readText path = .ok text → g path = f path text) :
    ((files.opened inputs).flatMap fun x => f x.1 x.2) = (inputs.takeWhile files.opens).flatMap g := by
  induction inputs with
  | nil => rfl
  | cons path inputs ih =>
    rw [List.forall_mem_cons] at h
    cases hread : files.readText path with
    | ok text =>
      rw [opened_cons_of_ok hread, List.takeWhile_cons_of_pos (opens_of_ok hread), List.flatMap_cons,
        List.flatMap_cons, ih h.2, h.1 text hread]
    | error fault =>
      rw [opened_cons_of_error hread, List.takeWhile_cons_of_neg (by simp [opens_of_error hread])]
      rfl

theorem forall_opened_iff {inputs : List (List Char)} {P : List Char → Prop} :
    ((∀ path ∈ inputs, files.opens path = true) ∧ ∀ x ∈ files.opened inputs, P x.2) ↔
      ∀ path ∈ inputs, ∃ text, files.readText path = .ok text ∧ P text := by
  constructor
  · rintro ⟨hopens, hall⟩ path hpath
    obtain ⟨text, htext⟩ := exists_ok_of_opens (hopens path hpath)
    exact ⟨text, htext, hall (path, text) ((mem_opened_iff hopens).mpr ⟨hpath, htext⟩)⟩
  · intro hall
    have hopens : ∀ path ∈ inputs, files.opens path = true := by
      intro path hpath
      obtain ⟨text, htext, -⟩ := hall path hpath
      exact opens_of_ok htext
    refine ⟨hopens, ?_⟩
    intro x hx
    obtain ⟨hpath, hread⟩ := (mem_opened_iff hopens).mp hx
    obtain ⟨text, htext, hp⟩ := hall x.1 hpath
    rw [hread, Except.ok.injEq] at htext
    rwa [htext]

theorem findSome?_refusal?_eq_none_iff {inputs : List (List Char)} :
    inputs.findSome? files.refusal? = none ↔ ∀ path ∈ inputs, files.opens path = true := by
  rw [List.findSome?_eq_none_iff]
  exact forall₂_congr fun path _ => refusal?_eq_none_iff

theorem findSome?_refusal?_append {before : List (List Char)}
    (hbefore : ∀ earlier ∈ before, files.opens earlier = true)
    (h : files.readText path = .error fault) (after : List (List Char)) :
    (before ++ path :: after).findSome? files.refusal? =
      some (.fileOperation (path ++ ": ".toList ++ fault.message)) := by
  rw [List.findSome?_append, findSome?_refusal?_eq_none_iff.mpr hbefore, Option.none_or,
    List.findSome?_cons, refusal?, h]

end

end Lookup

namespace Sources
variable {path : List Char}

theorem isStandardInput_of_ne (h : path ≠ ['-']) : isStandardInput path = false := by
  simpa [isStandardInput] using h

theorem name_of_ne (h : path ≠ ['-']) : name path = path := by
  rw [name, isStandardInput_of_ne h]
  rfl

theorem read_of_ne (sources : Sources) (h : path ≠ ['-']) :
    sources.read path = ((sources.files.readText path).mapError (.unreadableInput path), sources) := by
  rw [read, isStandardInput_of_ne h]
  rfl

/-- A command reads the files in front of the first that cannot be read, and reports that one. -/
theorem readAll_spec (sources : Sources) {inputs : List (List Char)} (h : ['-'] ∉ inputs) :
    (sources.readAll inputs).1 = sources.files.opened inputs ∧
      (sources.readAll inputs).2.map Failure.report = inputs.findSome? sources.files.refusal? := by
  induction inputs with
  | nil => exact ⟨rfl, rfl⟩
  | cons path inputs ih =>
    rw [List.mem_cons, not_or] at h
    have hread := sources.read_of_ne (Ne.symm h.1)
    rw [readAll, hread]
    cases htext : sources.files.readText path with
    | error fault =>
      rw [Lookup.opened_cons_of_error htext, List.findSome?_cons, Lookup.refusal?, htext]
      exact ⟨rfl, rfl⟩
    | ok text =>
      obtain ⟨htexts, hreport⟩ := ih h.2
      rw [Lookup.opened_cons_of_ok htext, List.findSome?_cons, Lookup.refusal?, htext, ← htexts,
        ← hreport]
      exact ⟨rfl, rfl⟩

end Sources

namespace Verdict

/-- The rows of a check, one for every problem of every text. -/
def listing (texts : List (List Char × List Char)) : List (List Char) :=
  texts.flatMap fun (path, text) => (Document.ofText text).problems.map (·.row path)

/-- The verdict on some files. -/
structure Judges (files : Lookup) (inputs : List (List Char)) (result : Result) : Prop where
  prints : result.output = (listing (files.opened inputs)).flatMap (· ++ ['\n'])
  passes_iff : result.failure = none ↔ ∀ path ∈ inputs, ∃ text,
    files.readText path = .ok text ∧ (Document.ofText text).problems = []
  counts : (∀ path ∈ inputs, files.opens path = true) →
    (∃ path ∈ inputs, ∃ text, files.readText path = .ok text ∧
      (Document.ofText text).problems ≠ []) →
    result.failure.map Failure.report = some (.validation
      (Nat.toDigits 10 (listing (files.opened inputs)).length ++ " problem(s) found".toList))
  stops : ∀ before path after fault, inputs = before ++ path :: after →
    (∀ earlier ∈ before, files.opens earlier = true) → files.readText path = .error fault →
    result.failure.map Failure.report =
      some (.fileOperation (path ++ ": ".toList ++ fault.message)) ∧
    files.opened inputs = files.opened before

theorem count_eq (texts : List (List Char × List Char)) : count texts = (listing texts).length := by
  rw [count, listing, List.length_flatMap, List.length_flatMap]
  simp only [List.length_map]
  rfl

theorem listing_eq_nil_iff {texts : List (List Char × List Char)} :
    listing texts = [] ↔ ∀ x ∈ texts, (Document.ofText x.2).problems = [] := by
  rw [listing, List.flatMap_eq_nil_iff]
  exact forall₂_congr fun x _ => List.map_eq_nil_iff

theorem flatMap_rows {texts : List (List Char × List Char)} (h : ∀ x ∈ texts, x.1 ≠ ['-']) :
    (texts.flatMap fun (path, text) => rows path text) = (listing texts).flatMap (· ++ ['\n']) := by
  induction texts with
  | nil => rfl
  | cons x texts ih =>
    obtain ⟨path, text⟩ := x
    rw [List.forall_mem_cons] at h
    have hlisting : listing ((path, text) :: texts) =
        (problems text).map (·.row path) ++ listing texts := rfl
    rw [List.flatMap_cons, ih h.2, hlisting, List.flatMap_append, List.flatMap_map]
    dsimp only
    rw [rows, Sources.name_of_ne h.1]

variable {sources : Sources} {inputs : List (List Char)}

/-- A file that cannot be read goes before any problem. -/
theorem report_run (h : ['-'] ∉ inputs) :
    (run sources inputs).failure.map Failure.report =
      (inputs.findSome? sources.files.refusal?).or
        (if listing (sources.files.opened inputs) = [] then none
        else some (.validation (Nat.toDigits 10 (listing (sources.files.opened inputs)).length ++
          " problem(s) found".toList))) := by
  obtain ⟨htexts, hreport⟩ := sources.readAll_spec h
  rw [run]
  dsimp only
  rw [Option.map_or, hreport, htexts, count_eq]
  simp only [List.length_eq_zero_iff]
  split <;> rfl

theorem output_run (h : ['-'] ∉ inputs) :
    (run sources inputs).output = (listing (sources.files.opened inputs)).flatMap (· ++ ['\n']) := by
  obtain ⟨htexts, -⟩ := sources.readAll_spec h
  rw [← flatMap_rows, ← htexts]
  · rfl
  · intro x hx hinput
    exact h (hinput ▸ Lookup.fst_mem_of_mem_opened hx)

/-- A check of files lists every problem of those that it gets to read, and its verdict is as the
listing and the first file that cannot be read say. -/
theorem judges_run (h : ['-'] ∉ inputs) : Judges sources.files inputs (run sources inputs) where
  prints := output_run h
  passes_iff := by
    -- no file is refused and no row is listed, which is a statement about each file alone
    rw [← Option.map_eq_none_iff (f := Failure.report), report_run h, Option.or_eq_none_iff,
      Lookup.findSome?_refusal?_eq_none_iff, ite_eq_left_iff]
    simp only [reduceCtorEq, imp_false, Decidable.not_not, listing_eq_nil_iff]
    exact Lookup.forall_opened_iff (P := fun text => (Document.ofText text).problems = [])
  counts := by
    rintro hopens ⟨path, hpath, text, htext, hproblems⟩
    have hlisting : listing (sources.files.opened inputs) ≠ [] := by
      intro hnil
      exact hproblems (listing_eq_nil_iff.mp hnil _
        ((Lookup.mem_opened_iff hopens (x := (path, text))).mpr ⟨hpath, htext⟩))
    rw [report_run h, Lookup.findSome?_refusal?_eq_none_iff.mpr hopens, Option.none_or,
      if_neg hlisting]
  stops := by
    rintro before path after fault rfl hbefore hfault
    rw [report_run h, Lookup.findSome?_refusal?_append hbefore hfault, Option.some_or]
    exact ⟨rfl, Lookup.opened_append_of_error hfault after⟩

/-- The second of four files has two problems, and the third is missing: the fourth, which is the
second again, is not listed. -/
theorem judges_run_missing :
    let files : Lookup := fun path =>
      if path = ['a'] then .ok (.file "x = 1".toUTF8)
      else if path = ['b'] then .ok (.file "'\n \"".toUTF8)
      else .error .missing
    let inputs := [['a'], ['b'], ['c'], ['b']]
    let result := run ⟨files, .empty⟩ inputs
    ['-'] ∉ inputs ∧ Judges files inputs result ∧
      result.failure.map Failure.report =
        some (.fileOperation "c: No such file or directory (os error 2)".toList) ∧
      result.output = ("b:1:1: unterminated string or character literal \"'\"\n" ++
        "b:2:2: unterminated string or character literal \"\\\"\"\n").toList := by
  intro files inputs result
  have hfiles : ['-'] ∉ inputs := by decide
  have hjudges : Judges files inputs result := @judges_run ⟨files, .empty⟩ inputs hfiles
  have hopens : ∀ earlier ∈ [['a'], ['b']], files.opens earlier = true := by decide +kernel
  have hstops := (hjudges.stops [['a'], ['b']] ['c'] [['b']] .missing rfl hopens rfl).1
  exact ⟨hfiles, hjudges, hstops, by decide +kernel⟩

end Verdict

end BoardHighlight
