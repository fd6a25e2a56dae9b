import BoardHighlight.Files
import BoardHighlight.Theme
import BoardHighlight.Toml.Document

/-!
# Configuration

A configuration has the name of the output format and a theme. It is read from a TOML document
with the sections `highlight` and `theme`; what the document leaves out keeps its standard value,
and keys without a meaning are passed over. A section may also be an array, which gives the
settings in their order.
-/

namespace BoardHighlight
set_option autoImplicit false

structure Config where
  format : List Char := "ansi".toList
  theme : Theme := {}
  deriving DecidableEq

namespace Config

def standard : Config := {}

/-- The settings that a section gives for some keys, in their order. A date has no settings, and
a repeated header gives tables where names are due. -/
def settings? (keys : List (List Char)) : Toml.Value → Option (List (Option Toml.Value))
  | .table _ fields => some (keys.map fun key => fields.lookup key)
  | .array items | .series items => some ((List.range keys.length).map fun i => items[i]?)
  | .date _ => some (keys.map fun _ => none)
  | _ => none

/-- Settings are strings or left out. -/
def textSetting? : Option Toml.Value → Option (Option (List Char))
  | none => some none
  | some (.string text) => some (some text)
  | some _ => none

/-- The texts of a section's settings, or nothing if one of them is no text. A section that the
document leaves out has none. -/
def texts? (keys : List (List Char)) (fields : List (Toml.Key × Toml.Value)) (name : String) :
    Option (List (Option (List Char))) :=
  match fields.lookup name.toList with
  | none => some (keys.map fun _ => none)
  | some given => do
    let settings ← settings? keys given
    settings.mapM textSetting?

def themeKeys : List (List Char) := Theme.kinds.map (·.tag.toList)

/-- The theme with the names that are given for its kinds. -/
def withColours (theme : Theme) (names : List (Option (List Char))) : Theme :=
  (Theme.kinds.zip names).foldl
    (fun theme (kind, name) => match name with
      | some name => theme.withColour kind name
      | none => theme)
    theme

/-- The configuration that a document describes. -/
def ofFields? (fields : List (Toml.Key × Toml.Value)) : Option Config := do
  let formats ← texts? ["format".toList] fields "highlight"
  let names ← texts? themeKeys fields "theme"
  some {
    format := (formats.head?.join).getD standard.format
    theme := withColours standard.theme names }

def ofText? (text : List Char) : Option Config := do ofFields? (← Toml.read? text)

/-- Reads the configuration at a path. -/
def load (files : Lookup) (path : List Char) : Except Failure Config :=
  if !files.has path then .error (.configurationNotFound path)
  else
    match files.readText path with
    | .error fault => .error (.configurationUnreadable fault)
    | .ok text =>
      match ofText? text with
      | some config => .ok config
      | none => .error .configurationMalformed

/-- The configuration at the first of some paths where something stands. -/
def search (files : Lookup) (paths : List (List Char)) : Except Failure Config :=
  match paths.find? files.has with
  | some path => load files path
  | none => .ok standard

end Config

end BoardHighlight
