import MotionRack.Device.AllowedDevices
import MotionRack.Device.Card
import MotionRack.Device.Joystick

/-!
# A whole rack

The description of a whole rack. Each of its sections may be missing.
-/
namespace MotionRack

/-- The sections of a rack. -/
structure RackSystem where
  settings : Option Settings := none
  allowedDevices : Option AllowedDevices := none
  joysticks : Option Joysticks := none
  deriving DecidableEq, Repr

namespace RackSystem

/-- Takes a section into account. Of several sections of one kind the last counts, but each has to
be readable; other elements are passed over. -/
def withSection (s : RackSystem) (e : Element) : Except ConfigError RackSystem :=
  if e.name = "Settings" then do return { s with settings := some (← Settings.ofElement e) }
  else if e.name = "AllowedDevices" then do
    return { s with allowedDevices := some (← AllowedDevices.ofElement e) }
  else if e.name = "Joysticks" then do
    return { s with joysticks := some (← Joysticks.ofElement e) }
  else .ok s

/-- Reads a rack; either every section can be read or there is no rack. -/
def ofElement (root : Element) : Except ConfigError RackSystem :=
  root.children.foldlM withSection {}

/-- Whether no section is there. -/
def isEmpty (s : RackSystem) : Bool :=
  s.settings.isNone && s.allowedDevices.isNone && s.joysticks.isNone

/-- Reads a rack from a file. -/
def load (read : FileReader) (path : String) : Except ConfigError RackSystem := do
  ofElement (← Expansion.openFile read path)

end RackSystem
end MotionRack
