import HumanoidLab.FluxDex3.Node

/-! The camera bridge of the simulation (`flux_sim_camera`): the frames of the simulator that become camera messages, and their
    stamps. The decoding of a payload is outside; what it yields is a frame or an error. -/

namespace HumanoidLab.FluxDex3
open Psi0Dex3 (float64)
open Rounding

/-- What `decode_frame` returns: a capture time, and a picture of `RGB8_SHAPE`. -/
structure Frame where
  stamp : ℚ
  rgb : RgbImage
  float : float64 stamp = stamp
  positive : 0 < stamp
  shape : (rgb.height, rgb.width) = (480, 640)

/-! ### The header -/

/-- `int(stamp_s)`, of a time that is positive. -/
def wholeSeconds (stamp : ℚ) : Int := ⌊stamp⌋

/-- The nanoseconds of a header: rounded as `round` does, and without a carry. -/
def nanoseconds (stamp : ℚ) : Nat :=
  (roundHalfEven (float64 (float64 (stamp - wholeSeconds stamp) * 10 ^ 9)) % 10 ^ 9).toNat

/-- `_image`. The seconds of a header are an `int32`: from `2 ^ 31` s on the message refuses them, and the thread that receives ends. -/
def Frame.message (f : Frame) : ImageMessage where
  encoding := "rgb8"
  height := f.rgb.height
  width := f.rgb.width
  step := f.rgb.width * 3
  data := f.rgb.data
  sec := wholeSeconds f.stamp
  nanosec := nanoseconds f.stamp

/-! ### The gate -/

/-- `FrameGate`. -/
structure FrameGate where
  lastStamp : Option ℚ := none
  published : Nat := 0
  skipped : Nat := 0
  resyncs : Nat := 0
  deriving DecidableEq, Repr

/-- The stamp has gone back so far that the clock was set. -/
def steppedBack (resync last stamp : ℚ) : Prop := resync < float64 (last - stamp)

instance (resync last stamp : ℚ) : Decidable (steppedBack resync last stamp) := inferInstanceAs (Decidable (_ < _))

/-- `accept`. -/
def FrameGate.accept (resync stamp : ℚ) (g : FrameGate) : Bool × FrameGate :=
  match g.lastStamp with
  | none => (true, { g with lastStamp := some stamp, published := g.published + 1 })
  | some last =>
    if stamp ≤ last then
      if steppedBack resync last stamp then
        (true, { g with lastStamp := some stamp, published := g.published + 1, resyncs := g.resyncs + 1 })
      else (false, { g with skipped := g.skipped + 1 })
    else (true, { g with lastStamp := some stamp, published := g.published + 1 })

/-! ### The bridge -/

structure CameraBridge where
  gate : FrameGate := {}
  received : Nat := 0
  decodeErrors : Nat := 0
  deriving DecidableEq, Repr

namespace CameraBridge

variable (resync : ℚ)

/-- One payload of `_receive_loop`: the frame whose message is published. -/
def receive (payload : Except String Frame) (b : CameraBridge) : Option Frame × CameraBridge :=
  match payload with
  | .error _ => (none, { b with decodeErrors := b.decodeErrors + 1 })
  | .ok frame =>
    let (accepted, gate) := b.gate.accept resync frame.stamp
    (if accepted then some frame else none, { b with gate, received := b.received + 1 })

/-- The loop over the payloads that arrive: the frames whose messages are published, in their order. -/
def run : List (Except String Frame) → CameraBridge → List Frame × CameraBridge
  | [], b => ([], b)
  | payload :: rest, b =>
    let (frame, b) := b.receive resync payload
    let (frames, b) := run rest b
    (frame.toList ++ frames, b)

/-- What a bridge publishes, from its start. -/
def published (payloads : List (Except String Frame)) : List Frame := (run resync payloads {}).1

end CameraBridge
end HumanoidLab.FluxDex3
