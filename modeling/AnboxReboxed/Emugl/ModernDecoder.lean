import AnboxReboxed.Emugl.RenderThread
import AnboxReboxed.Lib.OrdMap
import AnboxReboxed.Lib.Wire

/-!
# `decodeModernRenderControlCompatibility`

The packets of API 35 with what they do: calls of the renderer, responses, and the table of the display colour
buffers. The memory goes on behind the packet, with the following packet or with stale contents.
-/

namespace AnboxReboxed.Emugl

open AnboxReboxed.Lib

/-- A call of the renderer with its arguments. -/
inductive RendererCall where
  | flushWindowSurfaceColorBuffer (window_surface : Nat)
  | createColorBuffer (width height format : Nat)
  | bindColorBufferToTexture (color_buffer : Nat)
  deriving DecidableEq

abbrev DisplayColorBuffers := OrdMap Nat Nat

/-- What a packet leaves, with the value that is returned. -/
structure ModernResult where
  last : Nat
  calls : List RendererCall := []
  response : List UInt8 := []
  display_color_buffers : DisplayColorBuffers
  deriving DecidableEq

/-- The bytes of a word in the order of the host, which is the one of `readProtocolU32`. -/
def protocolU32 (value : Nat) : List UInt8 :=
  [.ofNat value, .ofNat (value / 2 ^ 8), .ofNat (value / 2 ^ 16), .ofNat (value / 2 ^ 24)]

/-- `extensions`, with the zero at its end. -/
def hostExtensions : List UInt8 := ByteString.of "ANDROID_EMU_gles_max_version_3_0" ++ [0]

/-- The response of `rcGetHostExtensionsString`. -/
def hostExtensionsResponse (output_size guest_buffer_size : Nat) : List UInt8 :=
  let copy_size := min hostExtensions.length (min output_size guest_buffer_size)
  let extension_size := if guest_buffer_size = 0 then 0 else hostExtensions.length
  hostExtensions.take copy_size ++ List.replicate (output_size - copy_size) 0 ++ protocolU32 extension_size

/-- The part of `decodeModernRenderControlCompatibility` for a complete packet. `created` is what the renderer returns
for a new colour buffer. -/
def decodeModernPacket (created : Nat → Nat → Nat → Nat) (display_color_buffers : DisplayColorBuffers)
    (buffer : Nat → UInt8) (opcode packet_length : Nat) : ModernResult :=
  if opcode = kApi35RcSetPuid ∧ packet_length = 16 then { last := packet_length, display_color_buffers }
  else if opcode = kApi35RcFlushWindowColorBufferAsync ∧ packet_length = 12 then
    let window_surface := readProtocolU32 buffer 2
    { last := packet_length, calls := [.flushWindowSurfaceColorBuffer window_surface], display_color_buffers }
  else if opcode = kApi35RcCreateDisplayById ∧ packet_length = 12 then
    { last := packet_length, response := protocolU32 0, display_color_buffers }
  else if opcode = kApi35RcSetDisplayColorBuffer ∧ packet_length = 16 then
    let display_id := readProtocolU32 buffer 2
    let color_buffer := readProtocolU32 buffer 3
    { last := packet_length
      response := protocolU32 0
      display_color_buffers := display_color_buffers.insert display_id color_buffer }
  else if opcode = kApi35RcGetDisplayColorBuffer ∧ packet_length = 16 then
    let display_id := readProtocolU32 buffer 2
    { last := packet_length
      response := protocolU32 ((display_color_buffers.find? display_id).getD 0)
      display_color_buffers }
  else if opcode = kApi35RcSetDisplayPoseDpi ∧ packet_length = 32 then
    { last := packet_length, response := protocolU32 0, display_color_buffers }
  else if opcode = kApi35RcCreateColorBufferDma ∧ packet_length = 24 then
    let host_format := readProtocolU32 buffer 4
    let width := readProtocolU32 buffer 2
    let height := readProtocolU32 buffer 3
    { last := packet_length
      calls := [.createColorBuffer width height host_format]
      response := protocolU32 (created width height host_format)
      display_color_buffers }
  else if opcode = kRcBindTexture ∧ packet_length = 12 then
    let color_buffer := readProtocolU32 buffer 2
    { last := packet_length, calls := [.bindColorBufferToTexture color_buffer], display_color_buffers }
  else if opcode = kRcGetHostExtensionsString then
    let output_size := readProtocolU32 buffer 2
    let guest_buffer_size := readProtocolU32 buffer 3
    { last := packet_length
      response := hostExtensionsResponse output_size guest_buffer_size
      display_color_buffers }
  else { last := 0, display_color_buffers }

def decodeModern (created : Nat → Nat → Nat → Nat) (display_color_buffers : DisplayColorBuffers)
    (buffer : Nat → UInt8) (length : Nat) : ModernResult :=
  if length < 8 then { last := 0, display_color_buffers }
  else
    let opcode := readProtocolU32 buffer 0
    let packet_length := readProtocolU32 buffer 1
    if packet_length < 8 ∨ length < packet_length then { last := 0, display_color_buffers }
    else decodeModernPacket created display_color_buffers buffer opcode packet_length

/-- The renderer side of the render thread, for the decoders of the packets: its calls and its responses so far. -/
structure ModernHost where
  /-- What the renderer returns for a new colour buffer, after the calls so far. -/
  created : List RendererCall → Nat → Nat → Nat → Nat
  display_color_buffers : DisplayColorBuffers
  calls : List RendererCall := []
  response : List UInt8 := []

/-- The effect of a packet. -/
def ModernHost.modern (host : ModernHost) (buffer : Nat → UInt8) : ModernHost :=
  let result := decodeModernPacket (host.created host.calls) host.display_color_buffers buffer
    (readProtocolU32 buffer 0) (readProtocolU32 buffer 1)
  { host with
    display_color_buffers := result.display_color_buffers
    calls := host.calls ++ result.calls
    response := host.response ++ result.response }

/-- The packet alone, with zeros behind it. -/
def alone (buffer : Nat → UInt8) (packet_length : Nat) : Nat → UInt8 :=
  fun i => if i < packet_length then buffer i else 0

/-- The words that decide the result are in the packet. -/
def Contained (buffer : Nat → UInt8) : Prop :=
  let packet_length := readProtocolU32 buffer 1
  let guest_buffer_size := readProtocolU32 (alone buffer packet_length) 3
  readProtocolU32 buffer 0 ≠ kRcGetHostExtensionsString ∨ 16 ≤ packet_length ∨
    12 ≤ packet_length ∧ guest_buffer_size ≠ 0 ∧ min 32 (readProtocolU32 buffer 2) ≤ guest_buffer_size

end AnboxReboxed.Emugl
