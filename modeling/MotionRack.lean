import MotionRack.Link.Drill
import MotionRack.Link.Shared
import MotionRack.Files.Tree
import MotionRack.Main
import MotionRack.Proofs.Session.Dialogue
import MotionRack.Proofs.Session.LutTrace
import MotionRack.Proofs.Octets
import MotionRack.Proofs.Sequence
import MotionRack.Proofs.Session.OneWireBuffer
import MotionRack.Proofs.Session.OneWireTrace
import MotionRack.Proofs.Session.OneWireRecovery
import MotionRack.Proofs.Document.Elements
import MotionRack.Proofs.Document.Residue
import MotionRack.Proofs.Document.Content
import MotionRack.Proofs.Document.Reference
import MotionRack.Proofs.Document.SinglePass
import MotionRack.Proofs.Document.PathReference
import MotionRack.Proofs.Device.Stage
import MotionRack.Proofs.Provision.Delivery
import MotionRack.Proofs.Config.Collision
import MotionRack.Proofs.Device.Card
import MotionRack.Proofs.Device.AllowedDevices
import MotionRack.Proofs.Device.Joystick
import MotionRack.Proofs.Provision.Loaded
import MotionRack.Proofs.Provision.Stagewise
import MotionRack.Proofs.Bus.Address
import MotionRack.Proofs.Bus.Frame
import MotionRack.Proofs.Provision.Wire
import MotionRack.Proofs.Provision.Commits
import MotionRack.Proofs.Document.Bare
import MotionRack.Proofs.Document.Included
import MotionRack.Proofs.Device.Origin
import MotionRack.Proofs.Provision.Origin
import MotionRack.Proofs.Provision.SectionOrder
import MotionRack.Proofs.Provision.Stream
import MotionRack.Proofs.Config.Union
import MotionRack.Proofs.Device.AllowLists
import MotionRack.Proofs.Document.Depth
import MotionRack.Proofs.Device.Segments
import MotionRack.Proofs.Document.RoundTrip
import MotionRack.Proofs.Session.LutVerdict
import MotionRack.Proofs.Session.OneWireImage
import MotionRack.Proofs.Console.DryRun
import MotionRack.Proofs.Document.Locations
import MotionRack.Proofs.Session.Rules
import MotionRack.Proofs.Session.OneWireVerdict
import MotionRack.Proofs.Device.Colours
import MotionRack.Proofs.Device.ShutterChannels
import MotionRack.Proofs.Device.Fields
import MotionRack.Proofs.Device.StageFrames
import MotionRack.Proofs.Device.Positions
import MotionRack.Proofs.Document.Amendment
import MotionRack.Proofs.Config.FirstCollision
import MotionRack.Proofs.Device.CardSlots
import MotionRack.Proofs.Device.CardFrames
import MotionRack.Proofs.Config.Classes
import MotionRack.Proofs.Device.JoystickFrames
import MotionRack.Proofs.Device.JoystickNumbers
import MotionRack.Proofs.Device.Numbering
import MotionRack.Proofs.Device.MergedDevices
import MotionRack.Proofs.Device.DeviceLocks
import MotionRack.Proofs.Number.Binary
import MotionRack.Proofs.Device.OnTime
import MotionRack.Proofs.Config.Field
import MotionRack.Proofs.Document.Selection
import MotionRack.Proofs.Number.Numeral
