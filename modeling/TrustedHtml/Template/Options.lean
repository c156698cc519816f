/-!
# Layout Options

## Main definitions

* `LayoutOptions` — how the output of a template is laid out.
* `LayoutOptions.compact`, `LayoutOptions.tidy`, `LayoutOptions.inspection` — presets.
-/

namespace TrustedHtml

/-- How the output of a template is laid out. -/
structure LayoutOptions where
  /-- One level of indentation. -/
  indent : String
  /-- Whether block elements are written without line breaks and indentation. -/
  isCompact : Bool
  /-- Whether static text is left in pieces, for looking at the compiled program. -/
  separate : Bool
  /-- The width to which text is reflowed; 0 leaves it as it is. -/
  textWidth : Nat
  /-- The indentation of the whole tree. -/
  rootDepth : Nat
deriving DecidableEq, Repr

namespace LayoutOptions

/-- As little white space as possible. -/
def compact : LayoutOptions :=
  ⟨"  ", true, false, 0, 0⟩

/-- Block elements on lines of their own. -/
def tidy : LayoutOptions :=
  { compact with isCompact := false }

/-- Block elements on lines of their own, and static text in pieces. -/
def inspection : LayoutOptions :=
  { tidy with separate := true }

end LayoutOptions

end TrustedHtml
