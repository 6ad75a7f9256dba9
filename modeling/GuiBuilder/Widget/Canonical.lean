import GuiBuilder.Json.Reader
import GuiBuilder.Json.Writer
import GuiBuilder.Schema.Widget
import GuiBuilder.Sha256

/-!
# Canonical JSON and fingerprints

Every record of the widget tree has one written form: JSON on one line without blanks, fields in
the order of the record under their JSON names. The fingerprint of a window is the digest of that
form. Saved scripts are kept in it.

A file that holds data in the place of a window may have no written form: the data may hold a text
without a UTF-8 form, or nest too deep.
-/

namespace GuiBuilder

/-- The written form of an element. -/
def Element.canonical (e : Element) : Text := Json.inline .canonical (e.toValue .json)

/-- The written form of a folder. -/
def Folder.canonical (f : Folder) : Text := Json.inline .canonical (f.toValue .json)

/-- The written form of a window. -/
def Window.canonical (w : Window) : Text := Json.inline .canonical (w.toValue .json)

/-- Reads a window from its written form, or from another JSON text, within the limits of a reader. -/
def Window.ofJson? (limits : Json.Limits) (t : Text) : Option Window :=
  match Json.readWithin limits t with
  | .ok v => (Window.ofValue v).toOption
  | .error _ => none

/-- The written form of a file. -/
def File.canonical (f : File) : Text := Json.inline .canonical (f.toValue .json)

/-- How deep data in the place of a window may nest. -/
def maxWrittenDepth : Nat := 255

/-- The written form of a file, if it has one. -/
def File.written? (f : File) : Option Text :=
  match f.content with
  | .window _ => some f.canonical
  | .data v _ =>
    if v.depth ≤ maxWrittenDepth then f.canonical.utf8?.map fun _ => f.canonical else none

namespace Text

/-- The digest of a text in UTF-8, as hexadecimal digits, if the text has a UTF-8 form. -/
def digest? (t : Text) : Option Text :=
  t.utf8?.map fun bytes =>
    (Sha256.digest bytes).flatMap fun b => (hexDigits 2 b.toNat).map CodePoint.char

end Text

/-- The fingerprint of a window, if all its texts are encodable. -/
def Window.fingerprint? (w : Window) : Option Text := w.canonical.digest?

end GuiBuilder
