import MotionRack.Link.Channel

/-!
# One link behind several handles

One link behind several handles. The link can be taken out only through the last handle.
-/
namespace MotionRack

/-- A link and the number of handles on it. -/
structure SharedLink (σ : Type) where
  link : σ
  handles : Nat := 1

namespace SharedLink

variable {σ : Type}

/-- One more handle on the same link. -/
def share (s : SharedLink σ) : SharedLink σ := { s with handles := s.handles + 1 }

/-- One handle less. -/
def release (s : SharedLink σ) : SharedLink σ := { s with handles := s.handles - 1 }

/-- Gives up a handle and takes the link out if it was the last one. -/
def takeOut? (s : SharedLink σ) : Option σ × SharedLink σ :=
  (if s.handles = 1 then some s.link else none, s.release)

instance [FrameSink σ] : FrameSink (SharedLink σ) where
  send bytes s :=
    let (result, link) := FrameSink.send bytes s.link
    (result, { s with link := link })

end SharedLink
end MotionRack
