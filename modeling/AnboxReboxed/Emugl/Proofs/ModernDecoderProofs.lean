import AnboxReboxed.Emugl.ModernDecoder
import AnboxReboxed.Emugl.Proofs.RenderThreadProofs
import Mathlib.Tactic.Linarith

/-!
# Proofs: the compatibility decoder stays in the packet

Every branch but the last one checks a length that covers the words it reads. The last one reads up to the fourth
word of a packet of any length.
-/

namespace AnboxReboxed.Emugl

open AnboxReboxed.Lib

variable {buffer buffer' : Nat → UInt8} {packet_length : Nat}

/-! ## Words -/

section Packet

variable (created : Nat → Nat → Nat → Nat) (display_color_buffers : DisplayColorBuffers)

end Packet

/-! ## The packet and what follows it -/

theorem handlesModern_iff (opcode packet_length : Nat) :
    handlesModern opcode packet_length = true ↔
      opcode = kApi35RcSetPuid ∧ packet_length = 16 ∨
      opcode = kApi35RcFlushWindowColorBufferAsync ∧ packet_length = 12 ∨
      opcode = kApi35RcCreateDisplayById ∧ packet_length = 12 ∨
      opcode = kApi35RcSetDisplayColorBuffer ∧ packet_length = 16 ∨
      opcode = kApi35RcGetDisplayColorBuffer ∧ packet_length = 16 ∨
      opcode = kApi35RcSetDisplayPoseDpi ∧ packet_length = 32 ∨
      opcode = kApi35RcCreateColorBufferDma ∧ packet_length = 24 ∨
      opcode = kRcBindTexture ∧ packet_length = 12 ∨
      opcode = kRcGetHostExtensionsString := by
  simp only [handlesModern, Bool.or_eq_true, Bool.and_eq_true, beq_iff_eq, or_assoc]

theorem decodeModernPacket_of_not_handled (created : Nat → Nat → Nat → Nat)
    (display_color_buffers : DisplayColorBuffers) (buffer : Nat → UInt8) {opcode packet_length : Nat}
    (h : handlesModern opcode packet_length = false) :
    decodeModernPacket created display_color_buffers buffer opcode packet_length
      = { last := 0, display_color_buffers } := by
  have hnot := mt (handlesModern_iff opcode packet_length).2 (Bool.eq_false_iff.1 h)
  simp only [not_or] at hnot
  obtain ⟨hpuid, hflush, hcreate, hset, hget, hpose, hdma, hbind, hextensions⟩ := hnot
  unfold decodeModernPacket
  rw [if_neg hpuid, if_neg hflush, if_neg hcreate, if_neg hset, if_neg hget, if_neg hpose, if_neg hdma, if_neg hbind,
    if_neg hextensions]

theorem decodeModernPacket_of_handled (created : Nat → Nat → Nat → Nat)
    (display_color_buffers : DisplayColorBuffers) (buffer : Nat → UInt8) {opcode packet_length : Nat}
    (h : handlesModern opcode packet_length = true) :
    (decodeModernPacket created display_color_buffers buffer opcode packet_length).last = packet_length := by
  rcases (handlesModern_iff opcode packet_length).1 h with ⟨rfl, rfl⟩ | ⟨rfl, rfl⟩ | ⟨rfl, rfl⟩ | ⟨rfl, rfl⟩ |
    ⟨rfl, rfl⟩ | ⟨rfl, rfl⟩ | ⟨rfl, rfl⟩ | ⟨rfl, rfl⟩ | rfl
  all_goals rfl

/-- The decoder that the render thread has as a parameter, with the effects of this one. -/
theorem decodeModernRenderControlCompatibility_eq {D : Decoders ModernHost} (hmodern : D.modern = ModernHost.modern)
    (host : ModernHost) (buffer : Nat → UInt8) (length : Nat) :
    let result := decodeModern (host.created host.calls) host.display_color_buffers buffer length
    D.decodeModernRenderControlCompatibility host buffer length
      = (result.last,
          { host with
            display_color_buffers := result.display_color_buffers
            calls := host.calls ++ result.calls
            response := host.response ++ result.response }) := by
  unfold Decoders.decodeModernRenderControlCompatibility decodeModern
  by_cases h₈ : length < 8
  · simp [h₈]
  by_cases hlength : readProtocolU32 buffer 1 < 8 ∨ length < readProtocolU32 buffer 1
  · simp [h₈, hlength]
  cases hhandled : handlesModern (readProtocolU32 buffer 0) (readProtocolU32 buffer 1) with
  | false => simp [h₈, hlength, hhandled, decodeModernPacket_of_not_handled _ _ _ hhandled]
  | true => simp [h₈, hlength, hhandled, hmodern, ModernHost.modern, decodeModernPacket_of_handled _ _ _ hhandled]

end AnboxReboxed.Emugl
