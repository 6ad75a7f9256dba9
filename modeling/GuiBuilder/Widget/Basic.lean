import GuiBuilder.Value.Agreement
import GuiBuilder.Value.Equality

/-!
# The widget tree

A window holds folders, a folder holds elements, and an element is a button, a toggle, a slider or
a dropdown. All variants have an id, a text and optional logic, the body of their callback; what
is particular to a variant is its `Control`. A file is a window under a name, open in a tab. A
report from elsewhere may have put data that is no window in the place of the window; such a file
stays open but has no script.

`Window.Same` is equality of windows in which the two zeros of a slider count as equal: windows
are the same when their normal forms, with every zero made positive, are equal. Data in the place
of a window is the same as other data when the two agree, or when they came in together as one.
-/

namespace GuiBuilder

/-- The variants of an element. -/
inductive Kind where
  | button
  | toggle
  | slider
  | dropdown
deriving DecidableEq

namespace Kind

/-- All variants, in the order in which they are listed. -/
def all : List Kind := [button, toggle, slider, dropdown]

/-- The name of a variant. -/
def name : Kind → String
  | button => "Button"
  | toggle => "Toggle"
  | slider => "Slider"
  | dropdown => "Dropdown"

/-- The variant of a name, exactly as it is written. -/
def ofName? (t : Text) : Option Kind := all.find? fun kind => decide (Text.ofString kind.name = t)

theorem ofName?_name (kind : Kind) : ofName? (Text.ofString kind.name) = some kind := by
  cases kind <;> decide

end Kind

/-- The numbers of a slider. -/
structure SliderRange where
  min : Finite64
  max : Finite64
  value : Finite64
  /-- How many decimals the slider shows. -/
  decimals : Nat
deriving DecidableEq

/-- What is particular to a variant. A flag is the name under which the script keeps the state. -/
inductive Control where
  | button
  | toggle (flag : Text) (initially : Bool)
  | slider (flag : Text) (range : SliderRange)
  | dropdown (flag : Text) (options : List Text)
deriving DecidableEq

/-- An element of a folder. -/
structure Element where
  id : Text
  text : Text
  /-- The body of the callback. -/
  logic : Option Text
  control : Control
deriving DecidableEq

/-- A folder of elements, shown as a tab of the window. -/
structure Folder where
  id : Text
  text : Text
  elements : List Element
deriving DecidableEq

/-- A window, the root of a widget tree. -/
structure Window where
  title : Text
  folders : List Folder
deriving DecidableEq

/-- What a file holds. -/
inductive Content where
  | window (w : Window)
  /-- Data that was put in the place of a window without a check, with the tick of the snapshot
  that brought it in. -/
  | data (v : Value) (arrival : Nat)
deriving DecidableEq

/-- A window under a name, open in a tab. -/
structure File where
  id : Text
  name : Text
  content : Content
deriving DecidableEq

namespace Control

/-- The variant of a control. -/
def kind : Control → Kind
  | button => .button
  | toggle .. => .toggle
  | slider .. => .slider
  | dropdown .. => .dropdown

/-- The flag of a control, if its variant has one. -/
def flag? : Control → Option Text
  | button => none
  | toggle flag _ | slider flag _ | dropdown flag _ => some flag

/-- The control with every zero made positive. -/
def normal : Control → Control
  | slider flag r =>
    slider flag ⟨r.min.unsignedZero, r.max.unsignedZero, r.value.unsignedZero, r.decimals⟩
  | control => control

end Control

namespace Element

/-- The variant of an element. -/
def kind (e : Element) : Kind := e.control.kind

/-- The flag of an element, if its variant has one. -/
def flag? (e : Element) : Option Text := e.control.flag?

/-- The element with every zero made positive. -/
def normal (e : Element) : Element := { e with control := e.control.normal }

end Element

/-- The folder with every zero made positive. -/
def Folder.normal (f : Folder) : Folder := { f with elements := f.elements.map Element.normal }

namespace Window

/-- The elements of all folders, in document order. -/
def elements (w : Window) : List Element := w.folders.flatMap Folder.elements

/-- The window with every zero made positive. -/
def normal (w : Window) : Window := { w with folders := w.folders.map Folder.normal }

/-- Equality of windows, up to the sign of zeros. -/
def Same (v w : Window) : Prop := v.normal = w.normal

instance (v w : Window) : Decidable (Same v w) := inferInstanceAs (Decidable (v.normal = w.normal))

theorem Same.refl (w : Window) : Same w w := rfl

theorem Same.symm {v w : Window} (h : Same v w) : Same w v := Eq.symm h

theorem Same.trans {u v w : Window} (h : Same u v) (h' : Same v w) : Same u w := Eq.trans h h'

end Window

namespace Content

/-- The window, if it is one. -/
def window? : Content → Option Window
  | window w => some w
  | data .. => none

/-- Whether data that came in at a tick is the same as data that came in at another. What came in
together is one datum, the same as itself even where it holds what is not a number; only a datum
that is itself not a number is never the same as anything. -/
def sameData (v : Value) (m : Nat) (w : Value) (n : Nat) : Bool :=
  if m = n then decide (v ≠ .float .nan) else v.agrees w

/-- Equality of contents: of windows up to the sign of zeros, of data as far as it agrees. -/
def Same : Content → Content → Prop
  | window v, window w => Window.Same v w
  | data v m, data w n => sameData v m w n = true
  | _, _ => False

instance : ∀ b c : Content, Decidable (Same b c)
  | window v, window w => inferInstanceAs (Decidable (Window.Same v w))
  | data v m, data w n => inferInstanceAs (Decidable (sameData v m w n = true))
  | window _, data .. | data .., window _ => inferInstanceAs (Decidable False)

theorem same_window {v w : Window} : Same (window v) (window w) ↔ Window.Same v w := Iff.rfl

end Content

/-- The window of a file, if it holds one. -/
def File.window? (f : File) : Option Window := f.content.window?

end GuiBuilder
