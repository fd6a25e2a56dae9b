import BoardHighlight.Proofs.InputOrder
import BoardHighlight.Render.Highlight

/-!
# Highlighting several files

Before any file is read, the format has to be known and, for output in colour, every name of the
theme has to have a meaning; otherwise nothing is written. From then on each file is highlighted as
if it were the only one: the whole output is that of the single files one behind the other, and
what a comment or a string leaves open in one of them is gone in the next. Without colours the
theme is not looked at.
-/

namespace BoardHighlight
set_option autoImplicit false

namespace Theme

/-- The first word without a meaning in the name of a kind's style. -/
def badWord? (theme : Theme) (kind : Kind) : Option (List Char) :=
  match theme.colour? kind with
  | none => none
  | some name =>
    match Style.ofName name with
    | .ok _ => none
    | .error word => some word

/-- The word that is wrong in the first bad name of a theme, in the order of the kinds. -/
def firstBadWord? (theme : Theme) : Option (List Char) := Kind.all.findSome? theme.badWord?

end Theme

namespace Palette

theorem stylesOf_cases (theme : Theme) (kinds : List Kind) :
    (∃ styles, stylesOf theme kinds = .ok styles ∧ kinds.findSome? theme.badWord? = none) ∨
      ∃ word, stylesOf theme kinds = .error word ∧ kinds.findSome? theme.badWord? = some word := by
  induction kinds with
  | nil => exact .inl ⟨[], rfl, rfl⟩
  | cons kind kinds ih =>
    rw [stylesOf, List.findSome?_cons, Theme.badWord?]
    cases theme.colour? kind with
    | none => exact ih
    | some name =>
      cases hstyle : Style.ofName name with
      | error word => exact .inr ⟨word, by simp [hstyle], by simp [hstyle]⟩
      | ok style =>
        rcases ih with ⟨styles, hstyles, hnone⟩ | ⟨word, hword, hsome⟩
        · exact .inl ⟨(kind, style) :: styles, by simp [hstyle, hstyles, Except.map],
            by simp [hstyle, hnone]⟩
        · exact .inr ⟨word, by simp [hstyle, hword, Except.map], by simp [hstyle, hsome]⟩

theorem ofTheme_of_none {theme : Theme} (h : theme.firstBadWord? = none) :
    ∃ palette, ofTheme theme = .ok palette := by
  rcases stylesOf_cases theme Kind.all with ⟨styles, hstyles, -⟩ | ⟨word, -, hsome⟩
  · exact ⟨⟨styles⟩, by rw [ofTheme, hstyles]; rfl⟩
  · rw [Theme.firstBadWord?, hsome] at h
    cases h

theorem ofTheme_of_some {theme : Theme} {word : List Char} (h : theme.firstBadWord? = some word) :
    ofTheme theme = .error word := by
  rcases stylesOf_cases theme Kind.all with ⟨styles, -, hnone⟩ | ⟨other, hother, hsome⟩
  · rw [Theme.firstBadWord?, hnone] at h
    cases h
  · rw [Theme.firstBadWord?, hsome, Option.some.injEq] at h
    rw [ofTheme, hother, h]
    rfl

end Palette

namespace Highlight

/-- The name of the format that is asked for, or else of the configured one. -/
def formatName (options : HighlightOptions) (config : Config) : List Char :=
  options.format.getD config.format

/-- The output is for a terminal, and in colour. -/
def InColour (options : HighlightOptions) (config : Config) : Prop :=
  Format.ofName? (formatName options config) = some .ansi ∧ options.noColour = false

/-- What is settled before any input is read. -/
structure Prepared (options : HighlightOptions) (config : Config) (format : Format)
    (palette : Option Palette) : Prop where
  known : Format.ofName? (formatName options config) = some format
  coloured : InColour options config → ∃ found,
    Palette.ofTheme config.theme = .ok found ∧ palette = some found
  uncoloured : ¬InColour options config → palette = none

section
variable {options : HighlightOptions} {config : Config} {format : Format} {palette : Option Palette}

theorem format_of_known (h : Format.ofName? (formatName options config) = some format) :
    Highlight.format options config = .ok format := by
  rw [formatName] at h
  simp only [Highlight.format, h]

theorem format_of_unknown (h : Format.ofName? (formatName options config) = none) :
    Highlight.format options config = .error (.unknownFormat (formatName options config)) := by
  rw [formatName] at h ⊢
  simp only [Highlight.format, h]

theorem inColour_iff (h : Format.ofName? (formatName options config) = some format) :
    InColour options config ↔ (format = .ansi && !options.noColour) = true := by
  rw [InColour, h]
  simp

theorem palette_of_coloured (h : InColour options config) :
    Highlight.palette options config .ansi =
      ((Palette.ofTheme config.theme).map some).mapError .unknownColour := by
  rw [Highlight.palette, if_pos ((inColour_iff h.1).mp h)]

theorem palette_of_uncoloured (hknown : Format.ofName? (formatName options config) = some format)
    (h : ¬InColour options config) : Highlight.palette options config format = .ok none := by
  rw [Highlight.palette, if_neg fun hcolour => h ((inColour_iff hknown).mpr hcolour)]

theorem exists_prepared (hknown : Format.ofName? (formatName options config) = some format)
    (hcolours : InColour options config → config.theme.firstBadWord? = none) :
    ∃ palette, Prepared options config format palette := by
  by_cases h : InColour options config
  · obtain ⟨found, hfound⟩ := Palette.ofTheme_of_none (hcolours h)
    exact ⟨some found, hknown, fun _ => ⟨found, hfound, rfl⟩, fun hnot => absurd h hnot⟩
  · exact ⟨none, hknown, fun hcolour => absurd hcolour h, fun _ => rfl⟩

theorem Prepared.palette_eq (h : Prepared options config format palette) :
    Highlight.palette options config format = .ok palette := by
  by_cases hcolour : InColour options config
  · obtain ⟨found, hfound, rfl⟩ := h.coloured hcolour
    obtain rfl : format = .ansi := Option.some.inj (h.known.symm.trans hcolour.1)
    rw [palette_of_coloured hcolour, hfound]
    rfl
  · rw [h.uncoloured hcolour]
    exact palette_of_uncoloured h.known hcolour

variable (sources : Sources) (inputs : List (List Char))

theorem run_of_unknown (h : Format.ofName? (formatName options config) = none) :
    run options config sources inputs =
      .failed (.unknownFormat (formatName options config)) := by
  rw [run, format_of_unknown h]

theorem run_of_badWord (h : InColour options config) {word : List Char}
    (hword : config.theme.firstBadWord? = some word) :
    run options config sources inputs = .failed (.unknownColour word) := by
  rw [run, format_of_known h.1]
  dsimp only
  rw [palette_of_coloured h, Palette.ofTheme_of_some hword]
  rfl

theorem Prepared.run_eq (h : Prepared options config format palette) :
    run options config sources inputs =
      ⟨(sources.readAll inputs).1.flatMap fun x => render format palette x.1 x.2,
        (sources.readAll inputs).2⟩ := by
  rw [run, format_of_known h.known]
  dsimp only
  rw [h.palette_eq]

theorem run_withTheme (h : ¬InColour options config) (theme : Theme) :
    run options { config with theme } sources inputs = run options config sources inputs := by
  cases hformat : Format.ofName? (formatName options config) with
  | none => rw [run_of_unknown sources inputs hformat]; exact run_of_unknown sources inputs hformat
  | some format =>
    -- both themes prepare the same: the format, and no palette
    have hprepared : Prepared options config format none :=
      ⟨hformat, fun hcolour => absurd hcolour h, fun _ => rfl⟩
    have hprepared' : Prepared options { config with theme } format none :=
      ⟨hformat, fun hcolour => absurd hcolour h, fun _ => rfl⟩
    rw [hprepared.run_eq, hprepared'.run_eq]

end

/-- What highlighting files writes, and what it reports at its end. -/
structure Highlights (options : HighlightOptions) (config : Config) (sources : Sources)
    (inputs : List (List Char)) : Prop where
  unknown_format : Format.ofName? (formatName options config) = none →
    (run options config sources inputs).output = [] ∧
    (run options config sources inputs).failure.map Failure.report =
      some (.validation ("Unknown format: ".toList ++ formatName options config))
  bad_colour : InColour options config → ∀ word, config.theme.firstBadWord? = some word →
    (run options config sources inputs).output = [] ∧
    (run options config sources inputs).failure.map Failure.report =
      some (.configuration ("Unknown colour in theme: ".toList ++ Quoted.quote word))
  each_alone : ∀ format, Format.ofName? (formatName options config) = some format →
    (InColour options config → config.theme.firstBadWord? = none) →
    (run options config sources inputs).output =
      ((inputs.takeWhile sources.files.opens).flatMap fun path =>
        (run options config sources [path]).output) ∧
    (run options config sources inputs).failure.map Failure.report =
      inputs.findSome? sources.files.refusal? ∧
    ∃ palette, Prepared options config format palette ∧
      ∀ path ∈ inputs, ∀ text, sources.files.readText path = .ok text →
        run options config sources [path] = ⟨render format palette path text, none⟩
  any_theme : ¬InColour options config → ∀ theme,
    run options { config with theme } sources inputs = run options config sources inputs

theorem Prepared.run_single {options : HighlightOptions} {config : Config} {format : Format}
    {palette : Option Palette} (h : Prepared options config format palette) (sources : Sources)
    {path text : List Char} (hpath : path ≠ ['-']) (htext : sources.files.readText path = .ok text) :
    run options config sources [path] = ⟨render format palette path text, none⟩ := by
  have hread : sources.readAll [path] = ([(path, text)], none) := by
    rw [Sources.readAll, sources.read_of_ne hpath, htext]
    rfl
  rw [h.run_eq, hread, List.flatMap_singleton]

/-- Files are highlighted each on its own, up to the first that cannot be read, once the format and
the colours are known to be good. -/
theorem highlights_run (options : HighlightOptions) (config : Config) (sources : Sources)
    {inputs : List (List Char)} (h : ['-'] ∉ inputs) : Highlights options config sources inputs where
  unknown_format hunknown := by
    rw [run_of_unknown sources inputs hunknown]
    exact ⟨rfl, rfl⟩
  bad_colour hcolour word hword := by
    rw [run_of_badWord sources inputs hcolour hword]
    exact ⟨rfl, rfl⟩
  each_alone format hknown hcolours := by
    obtain ⟨palette, hprepared⟩ := exists_prepared hknown hcolours
    obtain ⟨htexts, hreport⟩ := sources.readAll_spec h
    have hsingle : ∀ path ∈ inputs, ∀ text, sources.files.readText path = .ok text →
        run options config sources [path] = ⟨render format palette path text, none⟩ := by
      intro path hpath text htext
      apply hprepared.run_single sources _ htext
      rintro rfl
      exact h hpath
    refine ⟨?_, ?_, palette, hprepared, hsingle⟩
    · rw [hprepared.run_eq, htexts]
      apply Lookup.flatMap_opened
      intro path hpath text htext
      rw [hsingle path hpath text htext]
    · rw [hprepared.run_eq]
      exact hreport
  any_theme huncoloured theme := run_withTheme sources inputs huncoloured theme

/-- The first file leaves a comment open, which does not reach the second; the third is a directory.
The theme has a name without a meaning, but rows have no colours. -/
theorem highlights_run_open_comment :
    let files : Lookup := fun path =>
      if path = ['a'] then .ok (.file "x \x7b- y".toUTF8)
      else if path = ['b'] then .ok (.file "if".toUTF8)
      else .ok .directory
    let options : HighlightOptions := { format := some "TEXT".toList }
    let config : Config := { theme := { keyword := "mauve".toList } }
    let inputs := [['a'], ['b'], ['c'], ['b']]
    ['-'] ∉ inputs ∧ config.theme.firstBadWord? = some "mauve".toList ∧
      Highlights options config ⟨files, .empty⟩ inputs ∧
      (run options config ⟨files, .empty⟩ inputs).failure.map Failure.report =
        some (.fileOperation "c: Is a directory (os error 21)".toList) ∧
      (run options config ⟨files, .empty⟩ inputs).output =
        "1:1 variable x\n1:3 comment \x7b- y\n1:1 keyword if\n".toList := by
  intro files options config inputs
  have hfiles : ['-'] ∉ inputs := by decide
  have hknown : Format.ofName? (formatName options config) = some .plain := by decide +kernel
  have huncoloured : ¬InColour options config := by
    rintro ⟨hansi, -⟩
    rw [hknown] at hansi
    cases hansi
  have h := highlights_run options config ⟨files, .empty⟩ hfiles
  obtain ⟨-, hreport, -⟩ := h.each_alone .plain hknown fun hcolour => absurd hcolour huncoloured
  refine ⟨hfiles, by decide +kernel, h, ?_, by decide +kernel⟩
  rw [hreport]
  decide +kernel

end Highlight

end BoardHighlight
