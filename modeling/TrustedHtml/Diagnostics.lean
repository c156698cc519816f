/-!
# Diagnostics

Traces and timings can be switched on, by a setting that is read as a truth value or by the
program. A timer that was started while timing is off measures nothing.

## Main definitions

* `Setting.isOn` — settings as truth values.
* `Diagnostics` — what is switched on.
* `Timer` — measures the time since it was started.
-/

namespace TrustedHtml

/-- The settings that count as off. -/
def Setting.offTexts : List String :=
  ["", "0", "off", "false", "no"]

/-- Whether a setting counts as on. It is given by its bytes, which need not be a text. -/
def Setting.isOn (value : ByteArray) : Bool :=
  Setting.offTexts.all fun off => off.toUTF8 != value

/-- What is switched on. -/
structure Diagnostics where
  tracing : Bool
  timing : Bool
deriving DecidableEq, Repr

/-- A timer, with the time at which it was started if it measures anything. -/
structure Timer where
  start : Option Nat
deriving DecidableEq, Repr

namespace Diagnostics

/-- Switch both on or off. -/
def setAll (on : Bool) : Diagnostics := ⟨on, on⟩

/-- Start a timer. -/
def startTimer (d : Diagnostics) (now : Nat) : Timer :=
  ⟨if d.timing then some now else none⟩

end Diagnostics

/-- The time since a timer was started. -/
def Timer.elapsed (t : Timer) (now : Nat) : Option Nat :=
  t.start.map (now - ·)

end TrustedHtml
