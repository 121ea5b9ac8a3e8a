import AnboxReboxed.Scripts.FileTransfer
import AnboxReboxed.Scripts.Proofs.BridgeFramesProofs

/-!
# Proofs: how long the frames of a transfer are

A chunk of `CHUNK` bytes makes a text of 349528 characters, which is the most that a frame has to hold: it may be twice
as long where a slash is escaped.
-/

namespace AnboxReboxed.Scripts.FileTransfer

open AnboxReboxed.Lib AnboxReboxed.Lib.Json AnboxReboxed.Scripts.BridgeFrames AnboxReboxed.Android
open AnboxReboxed.Scripts.ReboxedBridge (Str str CHUNK slash backslash hyphen encoded_length is_checksum is_plain
  is_transfer_id is_alnum)

variable {id uuid name : Str} {content data : ByteString} {escape : Nat → List Nat}

/-! ## What is in the frames -/

theorem escaped_transfer_keys :
    escaped escapeAscii (codes "op") = 2 ∧ escaped escapeAscii (codes "id") = 2 ∧
    escaped escapeAscii (codes "message") = 7 ∧ escaped escapeAscii (codes "guest.forward") = 13 ∧
    escaped escapeAscii (codes "file.receive") = 12 ∧ escaped escapeAscii (codes "transfer_id") = 11 ∧
    escaped escapeAscii (codes "name") = 4 ∧ escaped escapeAscii (codes "size") = 4 ∧
    escaped escapeAscii (codes "sha256") = 6 ∧ escaped escapeAscii (codes "transfer.chunk") = 14 ∧
    escaped escapeAscii (codes "data") = 4 ∧ escaped escapeAscii (codes "transfer.end") = 12 ∧
    escaped escapeAscii (codes "version") = 7 := by
  decide +kernel

theorem escaped_request_keys :
    escaped escapeUtf8 (codes "op") = 2 ∧ escaped escapeUtf8 (codes "id") = 2 ∧
    escaped escapeUtf8 (codes "transfer.begin") = 14 ∧ escaped escapeUtf8 (codes "transfer_id") = 11 ∧
    escaped escapeUtf8 (codes "name") = 4 ∧ escaped escapeUtf8 (codes "size") = 4 ∧
    escaped escapeUtf8 (codes "sha256") = 6 ∧ escaped escapeUtf8 (codes "transfer.chunk") = 14 ∧
    escaped escapeUtf8 (codes "data") = 4 ∧ escaped escapeUtf8 (codes "transfer.end") = 12 ∧
    escaped escapeUtf8 (codes "version") = 7 := by
  decide +kernel

/-- A size takes ten digits at most. -/
theorem size_int_le {n : Nat} (h : n < 10 ^ 10) : Json.size escape (.int n) ≤ 10 := by
  have hlength : (toString (n : Int)).length ≤ 10 := (Nat.length_repr_le_iff (by omega)).mpr h
  rw [Json.size, render, codes, List.length_map, String.length_toList]
  exact hlength

/-- A text is at most so many times as long as it is when it is written in another way. -/
theorem escaped_le_mul {other : Nat → List Nat} {bound : Nat} {text : Str}
    (h : ∀ c ∈ text, (escape c).length ≤ bound * (other c).length) :
    escaped escape text ≤ bound * escaped other text := by
  induction text with
  | nil => exact Nat.zero_le _
  | cons c text ih =>
    have hone : ∀ write : Nat → List Nat, escaped write [c] = (write c).length := fun write => by
      rw [escaped, List.flatMap_singleton]
    have hc := h c List.mem_cons_self
    have hrest := ih fun d hd => h d (List.mem_cons_of_mem c hd)
    rw [← List.singleton_append, escaped_append, escaped_append, hone, hone, Nat.mul_add]
    exact Nat.add_le_add hc hrest

theorem ascii_plain {c : Nat} (h : 45 ≤ c ∧ c ≤ 57 ∨ c = 43 ∨ c = 61 ∨ 65 ≤ c ∧ c ≤ 90 ∨ 97 ≤ c ∧ c ≤ 122) :
    (escapeAscii c).length = 1 := by
  rw [length_escapeAscii, ascii_cost, if_neg (by omega), if_pos (by omega)]

theorem utf8_plain {c : Nat} (h : 45 ≤ c ∧ c ≤ 57 ∧ c ≠ 47 ∨ 65 ≤ c ∧ c ≤ 90 ∨ 97 ≤ c ∧ c ≤ 122) :
    (escapeUtf8 c).length = 1 := by
  rw [length_escapeUtf8, utf8_cost, if_neg (by omega), if_neg (by omega), if_pos (by omega)]

/-- An id is made of digits, small letters and hyphens. -/
theorem escaped_uuid (hescape : ∀ c, 45 ≤ c ∧ c ≤ 57 ∧ c ≠ 47 ∨ 65 ≤ c ∧ c ≤ 90 ∨ 97 ≤ c ∧ c ≤ 122 →
    (escape c).length = 1) (h : is_uuid id = true) : escaped escape id = 36 := by
  rw [is_uuid, Bool.and_eq_true, beq_iff_eq, List.all_eq_true] at h
  rw [← h.1]
  apply escaped_plain
  intro c hc
  have hcases := h.2 c hc
  simp only [Bool.or_eq_true, Bool.and_eq_true, decide_eq_true_eq, beq_iff_eq, hyphen] at hcases
  exact hescape c (by omega)

theorem ascii_uuid (h : is_uuid id = true) : escaped escapeAscii id = 36 :=
  escaped_uuid (fun _ hc => ascii_plain (by omega)) h

theorem utf8_uuid (h : is_uuid id = true) : escaped escapeUtf8 id = 36 := escaped_uuid (fun _ hc => utf8_plain hc) h

theorem ascii_checksum {text : Str} (h : is_checksum text = true) : escaped escapeAscii text = 64 :=
  escaped_checksum (fun _ hc => ascii_plain (by omega)) h

theorem utf8_checksum {text : Str} (h : is_checksum text = true) : escaped escapeUtf8 text = 64 :=
  escaped_checksum (fun _ hc => utf8_plain (by omega)) h

theorem transfer_id_of_uuid (h : is_uuid id = true) : is_transfer_id id = true := by
  rw [is_uuid, Bool.and_eq_true, beq_iff_eq, List.all_eq_true] at h
  rw [is_transfer_id, Bool.and_eq_true, Bool.and_eq_true, decide_eq_true_eq, decide_eq_true_eq, List.all_eq_true]
  refine ⟨by omega, fun c hc => ?_⟩
  have hcases := h.2 c hc
  simp only [Bool.or_eq_true, Bool.and_eq_true, decide_eq_true_eq, beq_iff_eq, is_alnum] at hcases ⊢
  omega

theorem length_encode_le (h : data.length ≤ CHUNK) : (Base64.encode data).length ≤ 349528 := by
  rw [CHUNK] at h
  rw [Base64.length_encode]
  omega

/-- The host writes a chunk as it is. -/
theorem escaped_data (h : data.length ≤ CHUNK) : escaped escapeAscii (Base64.encode data) ≤ 349528 := by
  rw [escaped_plain fun c hc => ascii_plain (by have := Base64.encode_plain data c hc; omega)]
  exact length_encode_le h

/-- Android may escape each character of it. -/
theorem escaped_data_android (h : data.length ≤ CHUNK) : escaped escapeUtf8 (Base64.encode data) ≤ 699056 := by
  have hle : escaped escapeUtf8 (Base64.encode data) ≤ 2 * escaped escapeAscii (Base64.encode data) := by
    apply escaped_le_mul
    intro c hc
    have hplain := Base64.encode_plain data c hc
    rw [ascii_plain (by omega), length_escapeUtf8, utf8_cost]
    split_ifs <;> omega
  have hdata := escaped_data h
  omega

/-- A name of 255 bytes takes six times as much at most. -/
theorem escaped_name (h : is_file_name name) : escaped escapeAscii name ≤ 1530 := by
  have hle : escaped escapeAscii name ≤ 6 * escaped utf8 name := by
    apply escaped_le_mul
    intro c _
    rw [length_escapeAscii, ascii_cost, utf8]
    split_ifs <;> simp only [List.length_cons, List.length_nil] <;> omega
  have hbytes : escaped utf8 name ≤ 255 := h.2
  omega

/-- What is left of a name consists of plain characters. -/
theorem safeName_eq_some {raw : Str} (h : BridgeService.safeName raw = some name) :
    (∀ c ∈ name, is_plain c = true) ∧ name.length ≤ 255 ∧
    ¬(name = [] ∨ name = ReboxedBridge.str "." ∨ name = ReboxedBridge.str "..") := by
  unfold BridgeService.safeName at h
  split_ifs at h with hshort hsyntax
  obtain ⟨hkept, h⟩ := Option.ite_none_left_eq_some.mp h
  cases h
  refine ⟨fun c hc => ?_, ?_, hkept⟩
  · obtain ⟨d, -, rfl⟩ := List.mem_map.mp hc
    split_ifs with hplain
    · exact hplain
    · rfl
  · have hle : escaped (fun c => [c]) raw ≤ 1 * escaped utf8 raw := by
      apply escaped_le_mul
      intro c _
      unfold utf8
      split_ifs <;> simp
    rw [escaped_plain fun _ _ => rfl, escaped] at hle
    rw [List.length_map]
    omega

theorem plain_cases {c : Nat} (h : is_plain c = true) :
    48 ≤ c ∧ c ≤ 57 ∨ 65 ≤ c ∧ c ≤ 90 ∨ 97 ≤ c ∧ c ≤ 122 ∨ c = 46 ∨ c = 95 ∨ c = 40 ∨ c = 41 ∨ c = 32 ∨ c = 43 ∨
      c = 64 ∨ c = 45 := by
  have hothers : ReboxedBridge.str "._() +@-" = [46, 95, 40, 41, 32, 43, 64, 45] := rfl
  simpa only [is_plain, is_alnum, hothers, Bool.or_eq_true, Bool.and_eq_true, decide_eq_true_eq,
    List.contains_iff_mem, List.mem_cons, List.not_mem_nil, or_false, or_assoc] using h

/-- There is nothing to be escaped in it. -/
theorem escaped_safeName {raw : Str} (h : BridgeService.safeName raw = some name) : escaped escapeUtf8 name ≤ 255 := by
  obtain ⟨hplain, hlength, -⟩ := safeName_eq_some h
  rw [escaped_plain]
  · exact hlength
  · intro c hc
    have hcases := plain_cases (hplain c hc)
    rw [length_escapeUtf8, utf8_cost, if_neg (by omega), if_neg (by omega), if_pos (by omega)]

/-! ## From the host to Android -/

/-- A message that is short enough passes the daemon. -/
theorem forwarded_of_short {fields : Fields} (op : Str) (hid : is_uuid id = true) (hop : get fields "op" = .str op)
    (hversion : get? fields "version" = none) (hshort : dumps_length (.dict fields) ≤ 400000) :
    Forwarded id fields := by
  have hset : set fields "version" (.int VERSION) = fields ++ [(codes "version", .int VERSION)] := by
    rw [BridgeFrames.set, hversion]
    rfl
  have hlength : dumps_length (.dict (set fields "version" (.int VERSION))) ≤ MAX_FRAME := by
    rw [dumps_length_dict] at hshort
    rw [hset, dumps_length_dict, List.map_append, List.sum_append]
    simp only [List.map_cons, List.map_nil, List.sum_cons, List.sum_nil, escaped_transfer_keys, dumps_length_version,
      MAX_FRAME]
    omega
  refine ⟨?_, hlength, fun server peer found hguest hpeer hfound => ?_⟩
  · have hid := ascii_uuid hid
    rw [forward_request, dumps_length_dict]
    simp only [List.map_cons, List.map_nil, List.sum_cons, List.sum_nil, escaped_transfer_keys, dumps_length_version,
      dumps_length_str, hid, MAX_FRAME]
    omega
  · have hmessage : get (forward_request id fields) "message" = .dict fields := rfl
    rw [Server.guest_forward, if_neg hpeer, hmessage]
    simp only [hop]
    rw [if_neg hguest, if_neg (Nat.not_lt.mpr hlength), hfound]
    rfl

variable {platform : BridgeService.Platform}

theorem forwarded_begin (hid : is_uuid id = true) (hname : is_file_name name) (hsize : content.length ≤ 2147483648)
    (hdigest : is_checksum (platform.hexdigest content) = true) :
    Forwarded id (begin_sent platform id name content).fields := by
  refine forwarded_of_short (codes "file.receive") hid rfl rfl ?_
  have hid := ascii_uuid hid
  have hname := escaped_name hname
  have hsize : dumps_length (.int content.length) ≤ 10 := size_int_le (by omega)
  have hdigest := ascii_checksum hdigest
  rw [ begin_sent, dumps_length_dict]
  simp only [List.map_cons, List.map_nil, List.sum_cons, List.sum_nil, escaped_transfer_keys, dumps_length_str, hid,
    hdigest]
  omega

theorem forwarded_chunk (hid : is_uuid id = true) (hdata : data.length ≤ CHUNK) :
    Forwarded id (chunk_sent id data).fields := by
  refine forwarded_of_short (codes "transfer.chunk") hid rfl rfl ?_
  have hid := ascii_uuid hid
  have hdata := escaped_data hdata
  rw [chunk_sent, dumps_length_dict]
  simp only [List.map_cons, List.map_nil, List.sum_cons, List.sum_nil, escaped_transfer_keys, dumps_length_str, hid]
  omega

theorem forwarded_end (hid : is_uuid id = true) : Forwarded id (end_sent id).fields := by
  refine forwarded_of_short (codes "transfer.end") hid rfl rfl ?_
  have hid := ascii_uuid hid
  rw [end_sent, dumps_length_dict]
  simp only [List.map_cons, List.map_nil, List.sum_cons, List.sum_nil, escaped_transfer_keys, dumps_length_str, hid]
  omega

/-! ## From Android to the host -/

variable {setup : Setup}

theorem sendable_begin {raw : Str} (hid : is_uuid id = true) (huuid : is_uuid uuid = true)
    (hname : BridgeService.safeName raw = some name) (hsize : content.length ≤ 2147483648)
    (hdigest : is_checksum (setup.args.hexdigest content) = true) :
    android_length (.dict ( begin_request setup id name content uuid)) ≤ MAX_FRAME := by
  have hid := utf8_uuid hid
  have huuid := utf8_uuid huuid
  have hname := escaped_safeName hname
  have hsize : Json.size escapeUtf8 (.int content.length) ≤ 10 := size_int_le (by omega)
  have hversion : Json.size escapeUtf8 (.int VERSION) = 1 := rfl
  have hdigest := utf8_checksum hdigest
  rw [ begin_request, android_length, size_dict]
  simp only [List.map_cons, List.map_nil, List.sum_cons, List.sum_nil, escaped_request_keys, size_str, hid, huuid,
    hdigest, hversion, MAX_FRAME]
  omega

theorem sendable_chunk (hid : is_uuid id = true) (huuid : is_uuid uuid = true) (hdata : data.length ≤ CHUNK) :
    android_length (.dict (chunk_request id data uuid)) ≤ MAX_FRAME := by
  have hid := utf8_uuid hid
  have huuid := utf8_uuid huuid
  have hdata := escaped_data_android hdata
  have hversion : Json.size escapeUtf8 (.int VERSION) = 1 := rfl
  rw [chunk_request, android_length, size_dict]
  simp only [List.map_cons, List.map_nil, List.sum_cons, List.sum_nil, escaped_request_keys, size_str, hid, huuid,
    hversion, MAX_FRAME]
  omega

theorem sendable_end (hid : is_uuid id = true) (huuid : is_uuid uuid = true) :
    android_length (.dict (end_request id uuid)) ≤ MAX_FRAME := by
  have hid := utf8_uuid hid
  have huuid := utf8_uuid huuid
  have hversion : Json.size escapeUtf8 (.int VERSION) = 1 := rfl
  rw [end_request, android_length, size_dict]
  simp only [List.map_cons, List.map_nil, List.sum_cons, List.sum_nil, escaped_request_keys, size_str, hid, huuid,
    hversion, MAX_FRAME]
  omega

end AnboxReboxed.Scripts.FileTransfer
