import AnboxReboxed.Emugl.Renderer
import AnboxReboxed.Lib.Machine
import Mathlib.Algebra.Field.Rat
import Mathlib.Algebra.Order.Ring.Rat

/-!
# The layers of a frame

`hwc_set` in Android posts the layers of a frame one by one and says at the end that they are all there. The thread of
the connection gathers them on the host, and hands them to the composer when it is told so.
-/

namespace AnboxReboxed.Emugl

open AnboxReboxed.Lib Function

/-- A `hwc_layer_1_t`. -/
structure HwcLayer where
  name : String
  /-- `flags & HWC_SKIP_LAYER` -/
  skip : Bool
  /-- `flags & HWC_IS_CURSOR_LAYER` -/
  cursor : Bool
  /-- `hostHandle` of the buffer: there is none where `cb_handle_t::validate` fails. -/
  hostHandle : Option HandleType
  planeAlpha : UInt8
  sourceCrop : Rect
  displayFrame : Rect

namespace HwcLayer

/-- Neither skipped nor a cursor. -/
def visible (layer : HwcLayer) : Bool := !(layer.skip || layer.cursor)

end HwcLayer

/-- The arguments of `rcPostLayer`, as they are pushed to `frame_layers`. -/
structure FrameLayer extends Renderable where
  alpha : Rat
  deriving DecidableEq

/-- What is sent for a layer: the division is one of integers. -/
def HwcLayer.posted (layer : HwcLayer) (hostHandle : HandleType) : FrameLayer where
  name := layer.name
  buffer := hostHandle
  screen_position := layer.displayFrame
  crop := layer.sourceCrop
  alpha := (layer.planeAlpha.toNat / 255 : Nat)

inductive RcPacket where
  | rcPostLayer (layer : FrameLayer)
  | rcPostAllLayersDone

/-- The errors of `hwc_set`. -/
inductive Errno where
  | EFAULT
  | EIO
  | EINVAL
  deriving DecidableEq

/-- A connection with its two ends: the stream of the guest and the decoder thread of the host. `submitted` records the
calls of `submit_layers`, and `calls` the lists that `hwc_set` was called with. -/
structure RcConnection where
  /-- What is in the buffer of the stream. -/
  encoded : List RcPacket := []
  /-- The packets that were sent and are not yet decoded. -/
  pipe : List RcPacket := []
  /-- The `thread_local` list. -/
  frame_layers : List FrameLayer := []
  submitted : List (List FrameLayer) := []
  calls : List (List HwcLayer) := []

namespace RcConnection

def encode (c : RcConnection) (packet : RcPacket) : RcConnection := { c with encoded := c.encoded ++ [packet] }

/-- `hostCon->flush()` -/
def flush (c : RcConnection) : RcConnection := { c with pipe := c.pipe ++ c.encoded, encoded := [] }

/-- The loop of `hwc_set`, and what comes behind it. -/
def hwc_set_loop : RcConnection → List HwcLayer → RcConnection × Option Errno
  | c, [] => (c.encode .rcPostAllLayersDone, none)
  | c, layer :: hwLayers =>
    if layer.skip || layer.cursor then hwc_set_loop c hwLayers
    else match layer.hostHandle with
      | none => (c, some .EINVAL)
      | some hostHandle => hwc_set_loop (c.encode (.rcPostLayer (layer.posted hostHandle))).flush hwLayers

/-- There may be no list, or no connection. -/
def hwc_set (c : RcConnection) (displays : Option (List HwcLayer)) (rcEnc : Bool) : RcConnection × Option Errno :=
  match displays with
  | none => (c, some .EFAULT)
  | some hwLayers =>
    if rcEnc then hwc_set_loop { c with calls := c.calls ++ [hwLayers] } hwLayers else (c, some Errno.EIO)

def rcPostLayer (c : RcConnection) (layer : FrameLayer) : RcConnection :=
  { c with frame_layers := c.frame_layers ++ [layer] }

def rcPostAllLayersDone (c : RcConnection) : RcConnection :=
  { c with submitted := c.submitted ++ [c.frame_layers], frame_layers := [] }

def handle (c : RcConnection) : RcPacket → RcConnection
  | .rcPostLayer layer => c.rcPostLayer layer
  | .rcPostAllLayersDone => c.rcPostAllLayersDone

/-- The next packet is decoded. -/
def decode (c : RcConnection) : Option RcConnection :=
  match c.pipe with
  | [] => none
  | packet :: pipe => some ({ c with pipe }.handle packet)

end RcConnection

/-- Each step is one on a connection. -/
inductive FrameOp where
  | hwc_set (connection : Nat) (displays : Option (List HwcLayer)) (rcEnc : Bool)
  /-- The buffer of the stream is full, or another call flushes it. -/
  | flush (connection : Nat)
  | decode (connection : Nat)

namespace FrameOp

def step (s : Nat → RcConnection) : FrameOp → Option (Nat → RcConnection)
  | .hwc_set k displays rcEnc => some (update s k ((s k).hwc_set displays rcEnc).1)
  | .flush k => some (update s k (s k).flush)
  | .decode k => (s k).decode.map (update s k)

end FrameOp

def frameMachine : Machine (Nat → RcConnection) FrameOp where
  init _ := {}
  step := FrameOp.step

/-! ## Whole frames -/

/-- A layer as it should appear in the frame. -/
def HwcLayer.wanted (layer : HwcLayer) : FrameLayer where
  name := layer.name
  buffer := layer.hostHandle.getD 0
  screen_position := layer.displayFrame
  crop := layer.sourceCrop
  alpha := (layer.planeAlpha.toNat : Rat) / 255

namespace HwcLayers

/-- The call comes to its end. -/
def Completes (hwLayers : List HwcLayer) : Prop := ∀ layer ∈ hwLayers, layer.visible = true → layer.hostHandle ≠ none

instance (hwLayers : List HwcLayer) : Decidable (Completes hwLayers) :=
  inferInstanceAs (Decidable (∀ layer ∈ hwLayers, layer.visible = true → layer.hostHandle ≠ none))

/-- The frame of a call. -/
def frame (hwLayers : List HwcLayer) : List FrameLayer := (hwLayers.filter HwcLayer.visible).map HwcLayer.wanted

/-- The frames of the calls that come to their ends. -/
def frames (calls : List (List HwcLayer)) : List (List FrameLayer) :=
  (calls.filter fun hwLayers => Completes hwLayers).map frame

/-- The first visible layer, if there is one, has no valid handle. -/
def FailsAtOnce (hwLayers : List HwcLayer) : Prop :=
  ∀ layer, (hwLayers.filter HwcLayer.visible).head? = some layer → layer.hostHandle = none

/-- Every visible layer is opaque or cannot be seen. -/
def Plain (hwLayers : List HwcLayer) : Prop :=
  ∀ layer ∈ hwLayers, layer.visible = true → layer.planeAlpha = 0 ∨ layer.planeAlpha = 255

/-- A call that comes to its end has only plain layers, and one that fails does so at once, or none comes to its end
behind it. -/
def Clean : List (List HwcLayer) → Prop
  | [] => True
  | hwLayers :: calls =>
    (Completes hwLayers → Plain hwLayers) ∧
    (¬Completes hwLayers → FailsAtOnce hwLayers ∨ ∀ later ∈ calls, ¬Completes later) ∧ Clean calls

end HwcLayers

end AnboxReboxed.Emugl
