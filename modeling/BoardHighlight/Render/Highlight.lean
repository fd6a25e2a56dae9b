import BoardHighlight.Config
import BoardHighlight.Format
import BoardHighlight.Render.Html
import BoardHighlight.Render.Records
import BoardHighlight.Render.Rows
import BoardHighlight.Render.Terminal
import BoardHighlight.Sources

/-!
# Highlighting sources

The format is settled first, then, for coloured output, the palette; nothing is read or written
before both are. Each input is then highlighted on its own.
-/

namespace BoardHighlight
set_option autoImplicit false

/-- What is asked for besides the inputs. -/
structure HighlightOptions where
  format : Option (List Char) := none
  noColour : Bool := false

namespace Highlight

/-- The format asked for wins over the configured one. -/
def format (options : HighlightOptions) (config : Config) : Except Failure Format :=
  let name := options.format.getD config.format
  match Format.ofName? name with
  | some format => .ok format
  | none => .error (.unknownFormat name)

/-- A palette is needed for coloured terminal output only. -/
def palette (options : HighlightOptions) (config : Config) (format : Format) :
    Except Failure (Option Palette) :=
  if format = .ansi && !options.noColour then
    ((Palette.ofTheme config.theme).map some).mapError .unknownColour
  else .ok none

/-- One input as the format shows it. -/
def render (format : Format) (palette : Option Palette) (path text : List Char) : List Char :=
  let doc := Document.ofText text
  match format with
  | .ansi => doc.toTerminal palette
  | .html => doc.toHtml
  | .json => doc.toJson (Sources.name path)
  | .plain => doc.toRows

def run (options : HighlightOptions) (config : Config) (sources : Sources)
    (inputs : List (List Char)) : Result :=
  match format options config with
  | .error failure => .failed failure
  | .ok format =>
    match palette options config format with
    | .error failure => .failed failure
    | .ok palette =>
      let (texts, failure) := sources.readAll inputs
      ⟨texts.flatMap fun (path, text) => render format palette path text, failure⟩

end Highlight

end BoardHighlight
