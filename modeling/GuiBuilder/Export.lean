import GuiBuilder.Text.Basic

/-!
# Names of exported scripts

A script is exported under the name of its file. A name that already ends in the extension is
kept; otherwise all from the first point on is replaced by the extension.
-/

namespace GuiBuilder

/-- The extension of exported scripts, unless the preferences say otherwise. -/
def defaultExtension : String := "lua"

/-- The name under which a file is exported with an extension. -/
def exportName (name extension : Text) : Text :=
  let ending := .char '.' :: extension
  if Text.endsWith name ending then name
  else name.takeWhile (fun p => decide (p ≠ .char '.')) ++ ending

end GuiBuilder
