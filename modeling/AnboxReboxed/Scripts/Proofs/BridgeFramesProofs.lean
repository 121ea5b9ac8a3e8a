import AnboxReboxed.Scripts.BridgeFrames

/-!
# Proofs: what the bridge sends in a frame

The length of a frame is the sum of the lengths of what is in it. A text may be several times as long in a frame as it
is in UTF-8.
-/

namespace AnboxReboxed.Scripts.BridgeFrames

open AnboxReboxed.Lib AnboxReboxed.Lib.Json AnboxReboxed.Scripts.ReboxedBridge

variable {setup : Setup} {s : Server} {request : Fields} {message text : Str}

/-! ## Lengths -/

theorem dumps_length_dict (fields : Fields) :
    dumps_length (.dict fields) =
      max 2 (1 + (fields.map fun f => escaped escapeAscii f.1 + dumps_length f.2 + 4).sum) :=
  size_dict escapeAscii fields

theorem dumps_length_str (text : Str) : dumps_length (.str text) = escaped escapeAscii text + 2 :=
  size_str escapeAscii text

/-- The keys and the other fixed texts are as long as they look. -/
theorem escaped_keys :
    escaped escapeAscii (codes "id") = 2 ∧ escaped escapeAscii (codes "name") = 4 ∧
    escaped escapeAscii (codes "size") = 4 ∧ escaped escapeAscii (codes "direction") = 9 ∧
    escaped escapeAscii (codes "android-to-host") = 15 ∧ escaped escapeAscii (codes "state") = 5 ∧
    escaped escapeAscii (codes "receiving") = 9 ∧ escaped escapeAscii (codes "complete") = 8 ∧
    escaped escapeAscii (codes "path") = 4 ∧ escaped escapeAscii (codes "cancelled") = 9 ∧
    escaped escapeAscii (codes "kind") = 4 ∧ escaped escapeAscii (codes "detail") = 6 ∧
    escaped escapeAscii (codes "updated_at") = 10 ∧ escaped escapeAscii (codes "ok") = 2 ∧
    escaped escapeAscii (codes "error") = 5 ∧ escaped escapeAscii (codes "version") = 7 ∧
    escaped escapeAscii (codes "connected") = 9 ∧ escaped escapeAscii (codes "protocol") = 8 ∧
    escaped escapeAscii (codes "clipboard_backend") = 17 ∧ escaped escapeAscii (codes "active_transfers") = 16 ∧
    escaped escapeAscii (codes "history") = 7 ∧ escaped escapeAscii (codes "op") = 2 ∧
    escaped escapeAscii (codes "text") = 4 ∧ escaped escapeAscii (codes "origin") = 6 ∧
    escaped escapeAscii (codes "digest") = 6 ∧ escaped escapeAscii (codes "clipboard.changed") = 17 ∧
    escaped escapeAscii (codes "host") = 4 := by
  decide +kernel

theorem dumps_length_version : dumps_length (.int VERSION) = 1 := rfl

theorem dumps_length_bool (b : Bool) : dumps_length (.bool b) = if b then 4 else 5 := by
  cases b <;> rfl

theorem dumps_length_error_frame :
    dumps_length (Server.error_frame request message) =
      dumps_length (get request "id") + escaped escapeAscii message + 41 := by
  simp only [Server.error_frame, dumps_length_dict, dumps_length_str, escaped_keys, dumps_length_version,
    dumps_length_bool, List.map_cons, List.map_nil, List.sum_cons, List.sum_nil, Bool.false_eq_true, if_false]
  omega

theorem shortEscape_of_short {c : Nat}
    (h : c = 34 ∨ c = 92 ∨ c = 10 ∨ c = 13 ∨ c = 9 ∨ c = 12 ∨ c = 8) : ∃ d, shortEscape c = some [92, d] := by
  rcases h with rfl | rfl | rfl | rfl | rfl | rfl | rfl <;> exact ⟨_, rfl⟩

theorem shortEscape_eq_none {c : Nat}
    (h : ¬(c = 34 ∨ c = 92 ∨ c = 10 ∨ c = 13 ∨ c = 9 ∨ c = 12 ∨ c = 8)) : shortEscape c = none := by
  unfold shortEscape
  split_ifs <;> first | rfl | omega

theorem length_escapeAscii (c : Nat) : (escapeAscii c).length = ascii_cost c := by
  by_cases hshort : c = 34 ∨ c = 92 ∨ c = 10 ∨ c = 13 ∨ c = 9 ∨ c = 12 ∨ c = 8
  · obtain ⟨d, hd⟩ := shortEscape_of_short hshort
    rw [escapeAscii, hd, ascii_cost, if_pos hshort]
    rfl
  · rw [escapeAscii, shortEscape_eq_none hshort, ascii_cost, if_neg hshort]
    split_ifs <;> rfl

theorem length_escapeUtf8 (c : Nat) : (escapeUtf8 c).length = utf8_cost c := by
  by_cases hshort : c = 34 ∨ c = 92 ∨ c = 10 ∨ c = 13 ∨ c = 9 ∨ c = 12 ∨ c = 8
  · obtain ⟨d, hd⟩ := shortEscape_of_short hshort
    have hcost : utf8_cost c = 2 := if_pos (by omega)
    rw [escapeUtf8, hd, hcost]
    rfl
  · rw [escapeUtf8, shortEscape_eq_none hshort]
    by_cases hslash : c = 47
    · rw [hslash]
      rfl
    · have hother : ¬(c = 34 ∨ c = 92 ∨ c = 10 ∨ c = 13 ∨ c = 9 ∨ c = 12 ∨ c = 8 ∨ c = 47) := by omega
      rw [if_neg hslash, utf8_cost, if_neg hother]
      unfold utf8
      split_ifs <;> first | rfl | omega

/-- A text whose code points are written as they are. -/
theorem escaped_plain {escape : Nat → List Nat} (h : ∀ c ∈ text, (escape c).length = 1) :
    escaped escape text = text.length := by
  rw [escaped, List.length_flatMap, List.map_congr_left h, List.map_const', List.sum_replicate_nat, Nat.mul_one]

/-- A checksum is made of digits and small letters. -/
theorem escaped_checksum {escape : Nat → List Nat}
    (hescape : ∀ c, (48 ≤ c ∧ c ≤ 57) ∨ (97 ≤ c ∧ c ≤ 102) → (escape c).length = 1)
    (h : is_checksum text = true) : escaped escape text = 64 := by
  rw [is_checksum, Bool.and_eq_true, beq_iff_eq, List.all_eq_true] at h
  rw [← h.1]
  apply escaped_plain
  intro c hc
  apply hescape c
  simpa only [Bool.or_eq_true, Bool.and_eq_true, decide_eq_true_eq] using h.2 c hc

/-- A daemon without a clipboard, and the checksum of a text. -/
def exampleSetup : Setup where
  args := {
    max_file_size := 2147483648
    hexdigest := fun data =>
      if data = ByteString.of "a" then str "ca978112ca1bbdcafac231b39a23dc4da786eff8147c4e72b9807785afee48bb"
      else str "e3b0c44298fc1c149afbf4c8996fb92427ae41e4649b934ca495991b7852b855"
    b64decode := fun _ => none }
  backend := codes "none"
  exports := codes "/run/exports"
  repr := fun _ => codes "None"

end AnboxReboxed.Scripts.BridgeFrames
