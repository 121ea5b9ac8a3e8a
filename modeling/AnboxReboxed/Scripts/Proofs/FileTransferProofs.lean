import AnboxReboxed.Scripts.Proofs.ReboxedBridgeProofs
import AnboxReboxed.Scripts.Proofs.SendFileProofs

/-!
# Proofs: files that go from one side to the other

The daemon serves the requests of all its peers, and each request leaves the transfers alone that it does not name.
-/

namespace AnboxReboxed.Scripts.FileTransfer

open AnboxReboxed.Lib AnboxReboxed.Lib.Json AnboxReboxed.Scripts.BridgeFrames AnboxReboxed.Android Function
open AnboxReboxed.Scripts.ReboxedBridge (Str CHUNK slash backslash hyphen encoded_length is_checksum is_plain
  is_transfer_id Args Daemon Value Request Failure)

variable {setup : Setup} {args : Args} {history : List Record} {d d' : Daemon} {s s' : Server} {peer guest : Nat}
  {id name uuid : Str} {content : ByteString} {label : Label} {fields : Fields} {found : Found}

/-! ## What a request leaves alone -/

/-- An entry stands under the id of its transfer. -/
def Keyed (d : Daemon) : Prop := ∀ id t, d.transfers id = some t → t.id = id

/-- The request is not about the transfer. -/
def Elsewhere (id : Str) : Request → Prop
  | .transfer_begin transfer_id _ _ _ uuid4 => transfer_id ≠ .str id ∧ uuid4 ≠ id
  | .transfer_chunk transfer_id _ | .transfer_end transfer_id | .transfer_cancel transfer_id _ => transfer_id ≠ .str id

/-- What the daemon has of a transfer. -/
def Same (id : Str) (d d' : Daemon) : Prop := d'.transfers id = d.transfers id ∧ d'.incoming id = d.incoming id

/-- What holds between the states before and behind a request. -/
structure Frame (E : Str → Prop) (d d' : Daemon) : Prop where
  keyed : Keyed d'
  peers : d'.peers = d.peers
  same : ∀ id, E id → Same id d d'

theorem Frame.refl {E : Str → Prop} (h : Keyed d) : Frame E d d := ⟨h, rfl, fun _ _ => ⟨rfl, rfl⟩⟩

/-- Only the entry and the file of one transfer are changed. -/
theorem Frame.update {E : Str → Prop} {t : Option ReboxedBridge.Transfer} (h : Keyed d) (hpeers : d'.peers = d.peers)
    (htransfers : d'.transfers = update d.transfers id t)
    (hincoming : ∀ id', id' ≠ id → d'.incoming id' = d.incoming id') (ht : ∀ t', t = some t' → t'.id = id)
    (hE : ¬E id) : Frame E d d' := by
  refine ⟨fun id' t' ht' => ?_, hpeers, fun id' hid' => ?_⟩
  · rw [htransfers] at ht'
    rcases eq_or_ne id' id with rfl | hne
    · rw [update_self] at ht'
      exact ht t' ht'
    · rw [update_of_ne hne] at ht'
      exact h id' t' ht'
  · have hne : id' ≠ id := by
      rintro rfl
      exact hE hid'
    exact ⟨(congrFun htransfers id').trans (update_of_ne hne ..), hincoming id' hne⟩

/-- The id comes from the request, or it is a new one. -/
theorem begin_id_eq_ok {transfer_id : Value} {uuid4 : Str} (h : Daemon.begin_id transfer_id uuid4 = .ok id) :
    transfer_id = .str id ∨ uuid4 = id := by
  rw [Daemon.begin_id] at h
  by_cases htruthy : transfer_id.truthy = true
  · rw [if_pos htruthy] at h
    cases transfer_id with
    | str s =>
      simp only at h
      split_ifs at h
      cases h
      exact Or.inl rfl
    | _ => cases h
  · rw [if_neg htruthy] at h
    simp only at h
    split_ifs at h
    cases h
    exact Or.inr rfl

/-- A transfer that a request finds is the one that it is about. -/
theorem id_of_find {transfer_id : Value} {t : ReboxedBridge.Transfer} (h : Keyed d)
    (hfind : d.find peer transfer_id = .ok t) : transfer_id = .str t.id ∧ d.transfers t.id = some t := by
  obtain ⟨id, rfl, hid, -⟩ := Daemon.find_eq_ok hfind
  cases h id t hid
  exact ⟨rfl, hid⟩

theorem frame_dispatch (h : Keyed d) (args : Args) (peer : Nat) (request : Request) :
    Frame (fun id => Elsewhere id request) d (d.dispatch args peer request).1 := by
  cases request with
  | transfer_begin transfer_id size sha256 raw uuid4 =>
    rw [Daemon.dispatch]
    cases hbegin : d.receive_file_begin args peer transfer_id size sha256 raw uuid4 with
    | error e => exact .refl h
    | ok result =>
      obtain ⟨d', answer⟩ := result
      obtain ⟨id, n, expected, cleaned, hid, -, -, -, -, -, -, rfl⟩ := Daemon.begin_eq_ok hbegin
      refine .update h rfl rfl (fun _ hne => update_of_ne hne ..) (fun _ ht => Option.some.inj ht ▸ rfl) ?_
      rintro ⟨hne, hne'⟩
      rcases begin_id_eq_ok hid with hid | hid
      · exact hne hid
      · exact hne' hid
  | transfer_chunk transfer_id data =>
    rw [Daemon.dispatch]
    cases hchunk : d.receive_file_chunk args peer transfer_id data with
    | error e => exact .refl h
    | ok result =>
      obtain ⟨d', answer⟩ := result
      obtain ⟨t, raw, bytes, hfind, -, -, -, rfl⟩ := Daemon.chunk_eq_ok hchunk
      obtain ⟨hid, -⟩ := id_of_find h hfind
      exact .update h rfl rfl (fun _ hne => update_of_ne hne ..) (fun _ ht => Option.some.inj ht ▸ rfl)
        fun hne => hne hid
  | transfer_end transfer_id =>
    show Frame _ d (d.receive_file_end args peer transfer_id).1
    rcases Daemon.end_cases args d peer transfer_id with ⟨e, heq, -⟩ | ⟨t, hfind, hcases⟩
    · rw [heq]
      exact .refl h
    · obtain ⟨hid, ht⟩ := id_of_find h hfind
      have hforget : Frame (fun id => Elsewhere id (.transfer_end transfer_id)) d (d.forget t.id) :=
        .update h rfl rfl (fun _ hne => update_of_ne hne ..) (fun _ ht => by cases ht) fun hne => hne hid
      rcases hcases with ⟨e, heq, -⟩ | ⟨e, heq, -⟩ | ⟨bytes, -, -, -, heq⟩
      · rw [heq]
        exact hforget
      · rw [heq]
        exact .update h rfl rfl (fun _ _ => rfl) (fun _ ht => Option.some.inj ht ▸ rfl) fun hne => hne hid
      · rw [heq]
        exact ⟨hforget.keyed, hforget.peers, hforget.same⟩
  | transfer_cancel transfer_id told =>
    cases transfer_id with
    | str id =>
      show Frame _ d (if (d.transfers id).isSome then d.forget id else d)
      split_ifs
      · exact .update h rfl rfl (fun _ hne => update_of_ne hne ..) (fun _ ht => by cases ht) fun hne => hne rfl
      · exact .refl h
    | _ => exact .refl h

/-! ## The requests of the daemon -/

theorem Frame.mono {E E' : Str → Prop} (h : Frame E' d d') (hE : ∀ id, E id → E' id) : Frame E d d' :=
  ⟨h.keyed, h.peers, fun id hid => h.same id (hE id hid)⟩

theorem value_eq_str {v : Json} (h : value v = .str id) : v = .str id := by
  cases v with
  | str s => exact congrArg Json.str (Value.str.inj h)
  | _ => cases h

theorem end_daemon : (s.receive_file_end setup peer fields found).1.daemon =
    (s.daemon.dispatch setup.args peer (.transfer_end (value (get fields "transfer_id")))).1 := by
  show _ = (s.daemon.receive_file_end setup.args peer (value (get fields "transfer_id"))).1
  unfold Server.receive_file_end
  split <;> next h => rw [h]; rfl

theorem cancel_daemon (setup : Setup) (s : Server) (peer : Nat) (fields : Fields) (found : Found) :
    ∃ told, (s.cancel fields found).1.daemon =
      (s.daemon.dispatch setup.args peer (.transfer_cancel (value (get fields "transfer_id")) told)).1 := by
  let exceeds := decide (dumps_length (Server.cancel_frame (get fields "transfer_id")) > MAX_FRAME)
  refine ⟨!exceeds && !found.failed, ?_⟩
  show _ = (s.daemon.cancel (value (get fields "transfer_id")) (!exceeds && !found.failed)).1
  unfold Server.cancel
  simp only
  split <;> next h => rw [h]; rfl

theorem record_daemon (r : Record) : (s.record r).daemon = s.daemon := by
  rw [Server.record]

theorem frame_request (h : Keyed s.daemon) (setup : Setup) (peer : Nat) (fields : Fields) (found : Found) :
    Frame (fun id => get fields "transfer_id" ≠ .str id ∧ found.uuid4 ≠ id) s.daemon
      (s.dispatch setup peer fields found).1.daemon := by
  have hvalue : ∀ id, get fields "transfer_id" ≠ .str id → value (get fields "transfer_id") ≠ .str id :=
    fun id hne heq => hne (value_eq_str heq)
  have hbegin : Frame (fun id => get fields "transfer_id" ≠ .str id ∧ found.uuid4 ≠ id) s.daemon
      (s.receive_file_begin setup peer fields found).1.daemon := by
    unfold Server.receive_file_begin
    split
    · next daemon id heq =>
      have hframe := frame_dispatch h setup.args peer (.transfer_begin
        (value (get fields "transfer_id")) (value (get fields "size")) (value (get fields "sha256"))
        (value (get fields "name")) found.uuid4)
      rw [Daemon.dispatch, heq] at hframe
      exact hframe.mono fun id hid => ⟨hvalue id hid.1, hid.2⟩
    all_goals exact .refl h
  have hchunk : Frame (fun id => get fields "transfer_id" ≠ .str id ∧ found.uuid4 ≠ id) s.daemon
      (s.receive_file_chunk setup peer fields found).1.daemon := by
    unfold Server.receive_file_chunk
    split
    · next daemon id received size heq =>
      have hframe := frame_dispatch h setup.args peer (.transfer_chunk
        (value (get fields "transfer_id")) (value (get fields "data")))
      rw [Daemon.dispatch, heq] at hframe
      exact hframe.mono fun id hid => hvalue id hid.1
    all_goals exact .refl h
  unfold Server.dispatch
  split
  · split_ifs
    · exact .refl h
    · exact .refl h
    · exact hbegin
    · exact hchunk
    · rw [end_daemon]
      exact (frame_dispatch h _ _ _).mono fun id hid => hvalue id hid.1
    · obtain ⟨told, hcancel⟩ := cancel_daemon setup s peer fields found
      rw [hcancel]
      exact (frame_dispatch h _ _ _).mono fun id hid => hvalue id hid.1
    · exact .refl h
    · unfold Server.host_event
      split_ifs
      · exact .refl h
      · split
        · rw [record_daemon]
          exact .refl h
        · exact .refl h
    · rw [Server.result, record_daemon]
      exact .refl h
    · exact .refl h
  · exact .refl h

theorem leave_keyed (h : Keyed d) (peer : Nat) : Keyed (d.leave peer) := by
  intro id t ht
  obtain ⟨-, ht⟩ := Option.ite_none_left_eq_some.mp ht
  exact h id t ht

/-- A peer that goes takes only what is its own. -/
theorem leave_same (howner : d.owns peer id = false) : Same id d (d.leave peer) := by
  constructor
  · show (if d.owns peer id then none else d.transfers id) = _
    rw [howner]
    rfl
  · show (if d.owns peer id then none else d.incoming id) = _
    rw [howner]
    rfl

theorem leave_peers : (d.leave peer).peers = update d.peers peer false := rfl

/-- The round of `client` is over, or the connection of the peer is. -/
theorem client_cases (setup : Setup) (s : Server) (peer : Nat) (fields : Fields) (found : Found) :
    s.client setup peer fields found = (s.dispatch setup peer fields found).1 ∨
    s.client setup peer fields found = (s.dispatch setup peer fields found).1.leave peer := by
  unfold Server.client
  cases s.dispatch setup peer fields found with
  | mk s' outcome =>
    simp only
    split
    · exact Or.inr rfl
    · split_ifs
      · exact Or.inr rfl
      · exact Or.inl rfl
    · exact Or.inl rfl

theorem leave_daemon : (s.leave peer).daemon = s.daemon.leave peer := rfl

theorem keyed_step (h : Keyed s.daemon) (hstep : s.step setup label = some s') : Keyed s'.daemon := by
  cases label with
  | connect peer guest =>
    obtain ⟨-, heq⟩ := Option.ite_none_left_eq_some.mp hstep
    cases heq
    exact h
  | request peer fields found =>
    obtain ⟨-, rfl⟩ := of_guard_eq_some hstep
    have hkeyed := (frame_request h setup peer fields found).keyed
    rcases client_cases setup s peer fields found with heq | heq
    · rw [heq]
      exact hkeyed
    · rw [heq]
      exact leave_keyed hkeyed peer
  | disconnect peer =>
    obtain ⟨-, rfl⟩ := of_guard_eq_some hstep
    exact leave_keyed h peer

theorem keyed_of_reachable (h : (serverMachine setup history).Reachable s) : Keyed s.daemon :=
  h.invariant (P := fun s => Keyed s.daemon) (fun _ _ ht => by cases ht) fun _ _ _ hs hstep => keyed_step hs hstep

/-- Another step leaves a transfer of the guest alone, or the id is still free. -/
theorem same_step (h : Keyed s.daemon) (howner : ∀ peer, peer ≠ guest → s.daemon.owns peer id = false)
    (hother : OtherRequest guest id label) (hpeer : s'.daemon.peers guest = true)
    (hstep : s.step setup label = some s') : Same id s.daemon s'.daemon := by
  cases label with
  | connect peer guest' =>
    obtain ⟨-, heq⟩ := Option.ite_none_left_eq_some.mp hstep
    cases heq
    exact ⟨rfl, rfl⟩
  | request peer fields found =>
    obtain ⟨-, rfl⟩ := of_guard_eq_some hstep
    have hsame := (frame_request h setup peer fields found).same id hother
    rcases client_cases setup s peer fields found with heq | heq
    · rw [heq]
      exact hsame
    · rw [heq] at hpeer ⊢
      have hne : peer ≠ guest := by
        rintro rfl
        rw [leave_daemon, leave_peers, update_self] at hpeer
        cases hpeer
      have howns : (s.dispatch setup peer fields found).1.daemon.owns peer id = false := by
        rw [← howner peer hne, Daemon.owns, Daemon.owns, hsame.1]
      have hleave := leave_same howns
      exact ⟨hleave.1.trans hsame.1, hleave.2.trans hsame.2⟩
  | disconnect peer =>
    obtain ⟨-, rfl⟩ := of_guard_eq_some hstep
    exact leave_same (howner peer hother)

/-! ## The requests of a transfer -/

/-- A name that Android has cleaned is fine for the host. -/
theorem clean_name_eq {raw : Str} (h : BridgeService.safeName raw = some name) :
    ReboxedBridge.clean_name (.str name) = .ok name := by
  obtain ⟨hplain, hlength, hkept⟩ := safeName_eq_some h
  have hascii : ∀ text : Str, (∀ c ∈ text, is_plain c = true) → encoded_length text = some text.length := by
    intro text
    induction text with
    | nil => exact fun _ => rfl
    | cons c text ih =>
      intro hall
      have hc := plain_cases (hall c List.mem_cons_self)
      rw [encoded_length, if_neg (by omega), ih fun d hd => hall d (List.mem_cons_of_mem c hd), if_pos (by omega)]
      rfl
  have hnot : ∀ c, is_plain c = false → c ∉ name := by
    intro c hc hmem
    rw [hplain c hmem] at hc
    cases hc
  have hsyntax : ¬(name = ReboxedBridge.str "." ∨ name = ReboxedBridge.str ".." ∨ slash ∈ name ∨ backslash ∈ name ∨
      0 ∈ name) := by
    rintro (h | h | h | h | h)
    · exact hkept (Or.inr (Or.inl h))
    · exact hkept (Or.inr (Or.inr h))
    · exact hnot slash (by decide) h
    · exact hnot backslash (by decide) h
    · exact hnot 0 (by decide) h
  have hsame : (name.map fun c => if is_plain c then c else ReboxedBridge.underscore) = name :=
    (List.map_congr_left fun c hc => if_pos (hplain c hc)).trans (List.map_id name)
  rw [ReboxedBridge.clean_name, if_neg fun h => hkept (Or.inl h), hascii name hplain]
  simp only [hsame]
  rw [if_neg (Nat.not_lt.mpr hlength), if_neg hsyntax, if_neg hkept]

/-- The transfer when a part of the file has come. -/
def gathering (args : Args) (guest : Nat) (id name : Str) (content done : ByteString) : ReboxedBridge.Transfer where
  id := id
  name := name
  size := content.length
  sha256 := args.hexdigest content
  received := done.length
  hash := done
  owner := guest

/-- An answer for a request with an id is short enough to be an error, at least. -/
theorem step_of_response {response : Fields} (hpeer : s.daemon.peers guest = true)
    (hid : get fields "id" = .str uuid) (huuid : is_uuid uuid = true)
    (h : (s.dispatch setup guest fields found).2 = .response response) :
    (serverMachine setup history).step s (.request guest fields found) =
      some (s.dispatch setup guest fields found).1 := by
  show s.step setup (.request guest fields found) = _
  rw [Server.step, if_pos hpeer, Server.client]
  have herror : ¬dumps_length (Server.error_frame fields (ReboxedBridge.str "outgoing frame exceeds limit")) >
      MAX_FRAME := by
    have huuid := ascii_uuid huuid
    have hmessage : escaped escapeAscii (ReboxedBridge.str "outgoing frame exceeds limit") = 28 := rfl
    rw [dumps_length_error_frame, hid, dumps_length_str, huuid, hmessage, MAX_FRAME]
    omega
  cases hdispatch : s.dispatch setup guest fields found with
  | mk s' outcome =>
    rw [hdispatch] at h
    cases h
    simp only [Server.sent_error]
    split_ifs
    · exact congrArg some (if_neg herror)
    · rfl

/-- A transfer may begin if and only if it is not too large. -/
theorem begin_eq (d : Daemon) (guest : Nat) (uuid4 : Str) {raw : Str} (hid : is_uuid id = true)
    (hnew : d.transfers id = none) (hfile : d.incoming id = none) (hname : BridgeService.safeName raw = some name)
    (hdigest : is_checksum (args.hexdigest content) = true) :
    d.receive_file_begin args guest (.str id) (.int content.length) (.str (args.hexdigest content)) (.str name) uuid4 =
      if (content.length : Int) ≤ args.max_file_size then
        .ok ({ d with
          transfers := update d.transfers id (some (gathering args guest id name content []))
          incoming := update d.incoming id (some []) }, .begun id)
      else .error (.bridge_error "invalid transfer size") := by
  have hne : id ≠ [] := by
    rintro rfl
    cases hid
  have hbegin_id : Daemon.begin_id (.str id) uuid4 = .ok id := by
    rw [Daemon.begin_id, Value.truthy, if_pos (by simpa using hne)]
    exact if_pos (transfer_id_of_uuid hid)
  have hchecksum : Daemon.begin_checksum (.str (args.hexdigest content)) = .ok (args.hexdigest content) :=
    if_pos hdigest
  refine (bind_eq_of_ok hbegin_id).trans ((unless_eq_of_not (by simp [hnew])).trans ?_)
  refine (bind_eq_of_ok (clean_name_eq hname)).trans ?_
  by_cases hsize : (content.length : Int) ≤ args.max_file_size
  · have hbegin_size : Daemon.begin_size args (.int content.length) = .ok (content.length : Int) := if_neg (by omega)
    rw [if_pos hsize]
    refine (bind_eq_of_ok hbegin_size).trans ((bind_eq_of_ok hchecksum).trans ?_)
    exact unless_eq_of_not (by simp [hfile])
  · have hbegin_size : Daemon.begin_size args (.int content.length) =
        .error (.bridge_error "invalid transfer size") := if_pos (by omega)
    rw [if_neg hsize, hbegin_size]
    rfl

/-- What the daemon reads in the request that begins a transfer. -/
theorem begin_request_values (setup : Setup) (id name uuid : Str) (content : ByteString) (d : Daemon) (guest : Nat)
    (uuid4 : Str) :
    d.receive_file_begin args guest (value (get (begin_request setup id name content uuid) "transfer_id"))
        (value (get (begin_request setup id name content uuid) "size"))
        (value (get (begin_request setup id name content uuid) "sha256"))
        (value (get (begin_request setup id name content uuid) "name")) uuid4 =
      d.receive_file_begin args guest (.str id) (.int content.length) (.str (setup.args.hexdigest content))
        (.str name) uuid4 := rfl

theorem begin_accepted (guest : Nat) (uuid : Str) (found : Found) {raw : Str} (hid : is_uuid id = true)
    (hnew : s.daemon.transfers id = none) (hfile : s.daemon.incoming id = none)
    (hname : BridgeService.safeName raw = some name)
    (hdigest : is_checksum (setup.args.hexdigest content) = true)
    (hsize : (content.length : Int) ≤ setup.args.max_file_size) :
    (∃ response, (s.dispatch setup guest (begin_request setup id name content uuid) found).2 = .response response) ∧
    (s.dispatch setup guest (begin_request setup id name content uuid) found).1.daemon =
      { s.daemon with
        transfers := update s.daemon.transfers id (some (gathering setup.args guest id name content []))
        incoming := update s.daemon.incoming id (some []) } := by
  show (∃ response, (s.receive_file_begin setup guest (begin_request setup id name content uuid) found).2 =
    .response response) ∧
    (s.receive_file_begin setup guest (begin_request setup id name content uuid) found).1.daemon = _
  have hbegin := begin_eq s.daemon guest found.uuid4 hid hnew hfile hname hdigest
  rw [if_pos hsize] at hbegin
  rw [Server.receive_file_begin, begin_request_values, hbegin]
  refine ⟨⟨_, rfl⟩, ?_⟩
  rw [record_daemon]

theorem not_begin_accepted {raw : Str} (hid : is_uuid id = true) (hnew : s.daemon.transfers id = none)
    (hfile : s.daemon.incoming id = none) (hname : BridgeService.safeName raw = some name)
    (hdigest : is_checksum (setup.args.hexdigest content) = true)
    (hsize : ¬(content.length : Int) ≤ setup.args.max_file_size) :
    ¬∃ response, (s.dispatch setup guest (begin_request setup id name content uuid) found).2 =
      .response response := by
  rintro ⟨response, h⟩
  have h : (s.receive_file_begin setup guest (begin_request setup id name content uuid) found).2 =
    .response response := h
  have hbegin := begin_eq s.daemon guest found.uuid4 hid hnew hfile hname hdigest
  rw [if_neg hsize] at hbegin
  rw [Server.receive_file_begin, begin_request_values, hbegin] at h
  cases h

theorem find_eq {t : ReboxedBridge.Transfer} (ht : d.transfers id = some t) (howner : t.owner = guest) :
    d.find guest (.str id) = .ok t := by
  rw [Daemon.find, ht]
  exact if_neg fun hne => hne howner

theorem chunk_accepted (uuid : Str) (found : Found) {done data : ByteString} {pieces : List ByteString}
    (ht : s.daemon.transfers id = some (gathering setup.args guest id name content done))
    (hfile : s.daemon.incoming id = some done) (hdata : data ≠ [] ∧ data.length ≤ CHUNK)
    (hdecode : setup.args.b64decode (Base64.encode data) = some data)
    (hcontent : done ++ (data :: pieces).flatten = content) :
    (∃ response, (s.dispatch setup guest (chunk_request id data uuid) found).2 = .response response) ∧
    (s.dispatch setup guest (chunk_request id data uuid) found).1.daemon =
      { s.daemon with
        transfers := update s.daemon.transfers id (some (gathering setup.args guest id name content (done ++ data)))
        incoming := update s.daemon.incoming id (some (done ++ data)) } := by
  let t := gathering setup.args guest id name content done
  have hlength : done.length + (data.length + pieces.flatten.length) = content.length := by
    rw [← hcontent, List.flatten_cons, List.length_append, List.length_append]
  have hfits : ¬(data = [] ∨ data.length > CHUNK ∨ (t.received + data.length : Int) > t.size) := by
    rintro (h | h | h)
    · exact hdata.1 h
    · omega
    · have h : (done.length + data.length : Int) > content.length := h
      omega
  have hchunk_data : Daemon.chunk_data setup.args (.str (Base64.encode data)) = .ok data := by
    have hle := length_encode_le hdata.2
    rw [Daemon.chunk_data, if_neg (by rw [CHUNK]; omega), hdecode]
  have hchunk : s.daemon.receive_file_chunk setup.args guest (.str id) (.str (Base64.encode data)) =
      .ok ({ s.daemon with
        transfers := update s.daemon.transfers id (some { t with
          hash := t.hash ++ data
          received := t.received + data.length })
        incoming := update s.daemon.incoming id ((s.daemon.incoming id).map (· ++ data)) },
          .received id (t.received + data.length) t.size) := by
    refine (bind_eq_of_ok (find_eq ht rfl)).trans ((bind_eq_of_ok hchunk_data).trans ?_)
    exact (unless_eq_of_not hfits).trans (unless_eq_of_not Bool.false_ne_true)
  have hvalues : s.daemon.receive_file_chunk setup.args guest
      (value (get (chunk_request id data uuid) "transfer_id")) (value (get (chunk_request id data uuid) "data")) = _ :=
    hchunk
  show (∃ response, (s.receive_file_chunk setup guest (chunk_request id data uuid) found).2 = .response response) ∧
    (s.receive_file_chunk setup guest (chunk_request id data uuid) found).1.daemon = _
  rw [Server.receive_file_chunk, hvalues]
  refine ⟨⟨_, rfl⟩, ?_⟩
  simp only [hfile, Option.map_some]
  rw [gathering, List.length_append]
  rfl

/-- The transfer comes to its end if and only if the name is not too long. -/
theorem end_eq (ht : d.transfers id = some (gathering args guest id name content content))
    (hfile : d.incoming id = some content) :
    d.receive_file_end args guest (.str id) =
      if (d.destination (gathering args guest id name content content)).length ≤ args.name_max then
        ({ d.forget id with
          exports := update d.exports (d.destination (gathering args guest id name content content)) (some content) },
          .ok (.complete id (d.destination (gathering args guest id name content content))))
      else (d.close (gathering args guest id name content content), .error .os_error) := by
  have hfind : d.find guest (.str id) = .ok (gathering args guest id name content content) := find_eq ht rfl
  have hfile' : d.incoming (gathering args guest id name content content).id = some content := hfile
  have hready : ¬(((gathering args guest id name content content).received : Int) ≠
      (gathering args guest id name content content).size ∨
      args.hexdigest (gathering args guest id name content content).hash ≠
        (gathering args guest id name content content).sha256) := by
    rintro (h | h)
    · exact h rfl
    · exact h rfl
  have hopened : ¬(gathering args guest id name content content).closed = true := Bool.false_ne_true
  rw [Daemon.receive_file_end, hfind]
  simp only [if_neg hopened, if_neg hready, hfile']
  by_cases hlong : (d.destination (gathering args guest id name content content)).length ≤ args.name_max
  · rw [if_pos hlong, if_neg (Nat.not_lt.mpr hlong)]
    rfl
  · rw [if_neg hlong, if_pos (Nat.not_le.mp hlong)]

/-- What the daemon reads in the request that ends a transfer. -/
theorem end_request_value (id uuid : Str) : value (get (end_request id uuid) "transfer_id") = .str id := rfl

theorem end_accepted (uuid : Str) (found : Found)
    (ht : s.daemon.transfers id = some (gathering setup.args guest id name content content))
    (hfile : s.daemon.incoming id = some content) (hname : (export_name id name s).length ≤ setup.args.name_max) :
    (∃ response, (s.dispatch setup guest (end_request id uuid) found).2 = .response response) ∧
    (s.dispatch setup guest (end_request id uuid) found).1.daemon.exports (export_name id name s) = some content ∧
    (s.dispatch setup guest (end_request id uuid) found).1.daemon.transfers id = none := by
  have hend := end_eq ht hfile
  have hdestination : s.daemon.destination (gathering setup.args guest id name content content) =
    export_name id name s := rfl
  rw [hdestination, if_pos hname] at hend
  show (∃ response, (s.receive_file_end setup guest (end_request id uuid) found).2 = .response response) ∧
    (s.receive_file_end setup guest (end_request id uuid) found).1.daemon.exports _ = _ ∧
    (s.receive_file_end setup guest (end_request id uuid) found).1.daemon.transfers id = none
  rw [end_daemon, Daemon.dispatch, Server.receive_file_end, end_request_value, hend]
  exact ⟨⟨_, rfl⟩, update_self .., update_self ..⟩

theorem not_end_accepted (ht : s.daemon.transfers id = some (gathering setup.args guest id name content content))
    (hfile : s.daemon.incoming id = some content) (hname : ¬(export_name id name s).length ≤ setup.args.name_max) :
    ¬∃ response, (s.dispatch setup guest (end_request id uuid) found).2 = .response response := by
  rintro ⟨response, h⟩
  have h : (s.receive_file_end setup guest (end_request id uuid) found).2 = .response response := h
  have hend := end_eq ht hfile
  have hdestination : s.daemon.destination (gathering setup.args guest id name content content) =
    export_name id name s := rfl
  rw [hdestination, if_neg hname] at hend
  rw [Server.receive_file_end, end_request_value, hend] at h
  cases h

/-! ## A whole transfer -/

/-- How far the transfer is: what is left of the script. -/
def ExportStage (setup : Setup) (guest : Nat) (id name : Str) (content : ByteString) (script : List Label)
    (s : Server) : Prop :=
  (∃ uuid found more pieces, script = .request guest (begin_request setup id name content uuid) found ::
      export_rest guest id more pieces ∧
    is_uuid uuid = true ∧ (∀ m ∈ more, is_uuid m.1 = true) ∧ more.length = pieces.length + 1 ∧
    (∀ data ∈ pieces, data ≠ [] ∧ data.length ≤ CHUNK ∧ setup.args.b64decode (Base64.encode data) = some data) ∧
    pieces.flatten = content ∧ s.daemon.transfers id = none ∧ s.daemon.incoming id = none) ∨
  (∃ done more pieces, script = export_rest guest id more pieces ∧
    (∀ m ∈ more, is_uuid m.1 = true) ∧ more.length = pieces.length + 1 ∧
    (∀ data ∈ pieces, data ≠ [] ∧ data.length ≤ CHUNK ∧ setup.args.b64decode (Base64.encode data) = some data) ∧
    done ++ pieces.flatten = content ∧
    s.daemon.transfers id = some (gathering setup.args guest id name content done) ∧
    s.daemon.incoming id = some done) ∨
  script = [] ∧ s.daemon.transfers id = none

/-- The guest is there, and the transfer is on its way. -/
structure ExportProgress (setup : Setup) (guest : Nat) (id name : Str) (content : ByteString) (script : List Label)
    (s : Server) : Prop where
  keyed : Keyed s.daemon
  connected : s.daemon.peers guest = true
  stage : ExportStage setup guest id name content script s

variable {rest : List Label}

/-- The transfer, if there is one, is one of the guest. -/
theorem ExportStage.owns (h : ExportStage setup guest id name content rest s) (hne : peer ≠ guest) :
    s.daemon.owns peer id = false := by
  rcases h with ⟨uuid, found, more, pieces, -, -, -, -, -, -, hnew, -⟩ | ⟨done, more, pieces, -, -, -, -, -, ht, -⟩ |
    ⟨-, hnew⟩
  · rw [Daemon.owns, hnew]
  · rw [Daemon.owns, ht]
    exact decide_eq_false fun h => hne h.symm
  · rw [Daemon.owns, hnew]

theorem ExportStage.congr (h : ExportStage setup guest id name content rest s) (hsame : Same id s.daemon s'.daemon) :
    ExportStage setup guest id name content rest s' := by
  unfold ExportStage
  rw [hsame.1, hsame.2]
  exact h

theorem ExportProgress.other (h : ExportProgress setup guest id name content rest s)
    (hother : OtherRequest guest id label) (hup : ServerUp setup guest id s label) :
    ∃ s', (serverMachine setup history).step s label = some s' ∧
      ExportProgress setup guest id name content rest s' := by
  obtain ⟨s', hstep, hpeer⟩ := hup hother
  have hsame := same_step h.keyed (fun peer hne => h.stage.owns hne) hother hpeer hstep
  exact ⟨s', hstep, keyed_step h.keyed hstep, hpeer, h.stage.congr hsame⟩

theorem begin_request_op :
    get (begin_request setup id name content uuid) "op" ≠ .str (codes "transfer.end") :=
  fun h => absurd (Json.str.inj h) (by decide)

theorem chunk_request_op {data : ByteString} : get (chunk_request id data uuid) "op" ≠ .str (codes "transfer.end") :=
  fun h => absurd (Json.str.inj h) (by decide)

/-- Before its end a transfer only needs an answer, and no name. -/
theorem exported_of_response (id name : Str) (content : ByteString)
    (hop : get fields "op" ≠ .str (codes "transfer.end"))
    (hresponse : ∃ response, (s.dispatch setup guest fields found).2 = .response response) :
    Exported setup guest id name content s (.request guest fields found) ∧
      Named setup guest id name s (.request guest fields found) := by
  constructor
  · intro fields' found' heq _
    cases heq
    exact ⟨hresponse, fun hend => absurd hend hop⟩
  · intro fields' found' heq _ hend
    cases heq
    exact absurd hend hop

/-- A request of the transfer brings it further, unless the name of the file is too long at the end. -/
theorem ExportProgress.own {raw : Str} (hid : is_uuid id = true) (hname : BridgeService.safeName raw = some name)
    (hdigest : is_checksum (setup.args.hexdigest content) = true)
    (hsize : (content.length : Int) ≤ setup.args.max_file_size)
    (h : ExportProgress setup guest id name content (label :: rest) s) :
    (Exported setup guest id name content s label ↔ Named setup guest id name s label) ∧
    (Named setup guest id name s label → ∃ s', (serverMachine setup history).step s label = some s' ∧
      ExportProgress setup guest id name content rest s') := by
  have hpeers : ∀ fields found, (s.dispatch setup guest fields found).1.daemon.peers guest = true := by
    intro fields found
    rw [(frame_request h.keyed _ _ _ _).peers]
    exact h.connected
  have hkeyed : ∀ fields found, Keyed (s.dispatch setup guest fields found).1.daemon :=
    fun _ _ => (frame_request h.keyed _ _ _ _).keyed
  rcases h.stage with ⟨uuid, found, more, pieces, hscript, huuid, hmore, hlength, hpieces, hcontent, hnew, hfile⟩ |
    ⟨done, more, pieces, hscript, hmore, hlength, hpieces, hcontent, ht, hfile⟩ | ⟨hscript, -⟩
  · obtain ⟨rfl, rfl⟩ := List.cons.inj hscript
    obtain ⟨⟨response, hresponse⟩, hdaemon⟩ := begin_accepted guest uuid found hid hnew hfile hname hdigest hsize
    obtain ⟨hexported, hnamed⟩ := exported_of_response id name content begin_request_op ⟨response, hresponse⟩
    refine ⟨iff_of_true hexported hnamed,
      fun _ => ⟨_, step_of_response h.connected rfl huuid hresponse, hkeyed _ _, hpeers _ _, ?_⟩⟩
    refine Or.inr (Or.inl ⟨[], more, pieces, rfl, hmore, hlength, hpieces, hcontent, ?_, ?_⟩)
    · rw [hdaemon]
      exact update_self ..
    · rw [hdaemon]
      exact update_self ..
  · cases more with
    | nil => cases hlength
    | cons m more =>
      obtain ⟨uuid, found⟩ := m
      have huuid : is_uuid uuid = true := hmore _ List.mem_cons_self
      cases pieces with
      | nil =>
        obtain ⟨rfl, rfl⟩ := List.cons.inj hscript
        have hdone : done = content := by rwa [List.flatten_nil, List.append_nil] at hcontent
        rw [hdone] at ht hfile
        have hnamed : Named setup guest id name s (.request guest (end_request id uuid) found) ↔
            (export_name id name s).length ≤ setup.args.name_max := by
          refine ⟨fun hN => hN _ _ rfl (fun hother => hother.1 rfl) rfl, fun hN fields found' heq _ _ => hN⟩
        rw [hnamed]
        constructor
        · constructor
          · intro hE
            by_contra hlong
            exact not_end_accepted ht hfile hlong (hE _ _ rfl fun hother => hother.1 rfl).1
          · intro hN fields found' heq _
            cases heq
            obtain ⟨hresponse, hexports, -⟩ := end_accepted uuid found ht hfile hN
            exact ⟨hresponse, fun _ => hexports⟩
        · intro hN
          obtain ⟨⟨response, hresponse⟩, -, hgone⟩ := end_accepted uuid found ht hfile hN
          exact ⟨_, step_of_response h.connected rfl huuid hresponse, hkeyed _ _, hpeers _ _,
            Or.inr (Or.inr ⟨rfl, hgone⟩)⟩
      | cons data pieces =>
        obtain ⟨rfl, rfl⟩ := List.cons.inj hscript
        obtain ⟨hne, hle, hdecode⟩ := hpieces data List.mem_cons_self
        obtain ⟨⟨response, hresponse⟩, hdaemon⟩ := chunk_accepted uuid found ht hfile ⟨hne, hle⟩
          hdecode hcontent
        obtain ⟨hexported, hnamed⟩ := exported_of_response id name content chunk_request_op ⟨response, hresponse⟩
        refine ⟨iff_of_true hexported hnamed,
          fun _ => ⟨_, step_of_response h.connected rfl huuid hresponse, hkeyed _ _, hpeers _ _, ?_⟩⟩
        refine Or.inr (Or.inl ⟨done ++ data, more, pieces, rfl, fun m hm => hmore m (List.mem_cons_of_mem _ hm),
          Nat.succ.inj hlength, fun d hd => hpieces d (List.mem_cons_of_mem _ hd), ?_, ?_, ?_⟩)
        · rw [← hcontent, List.flatten_cons, List.append_assoc]
        · rw [hdaemon]
          exact update_self ..
        · rw [hdaemon]
          exact update_self ..
  · cases hscript

theorem sendable_rest (hid : is_uuid id = true) {more : List (Str × Found)} {pieces : List ByteString}
    (hmore : ∀ m ∈ more, is_uuid m.1 = true) (hpieces : ∀ data ∈ pieces, data.length ≤ CHUNK) :
    ∀ label ∈ export_rest guest id more pieces, Sendable label := by
  induction more generalizing pieces with
  | nil => exact fun label h => absurd h List.not_mem_nil
  | cons m more ih =>
    obtain ⟨uuid, found⟩ := m
    have huuid : is_uuid uuid = true := hmore _ List.mem_cons_self
    cases pieces with
    | nil =>
      intro label h
      cases List.mem_singleton.mp h
      exact sendable_end hid huuid
    | cons data pieces =>
      intro label h
      rcases List.mem_cons.mp h with rfl | h
      · exact sendable_chunk hid huuid (hpieces data List.mem_cons_self)
      · exact ih (fun m hm => hmore m (List.mem_cons_of_mem _ hm)) (fun d hd => hpieces d (List.mem_cons_of_mem _ hd))
          label h

/-- A file is exported, whatever else the daemon serves in between, if and only if its name is safe, it is not too
large, and its name is not too long at the end. -/
theorem exported_iff {queried : Option Str} {more : List (Str × Found)} {pieces : List ByteString}
    {labels : List Label} (hs : (serverMachine setup history).Reachable s) (hpeer : s.daemon.peers guest = true)
    (hid : is_uuid id = true) (hnew : s.daemon.transfers id = none) (hfile : s.daemon.incoming id = none)
    (huuid : is_uuid uuid = true) (hmore : ∀ m ∈ more, is_uuid m.1 = true) (hlength : more.length = pieces.length + 1)
    (hpieces : ∀ data ∈ pieces, data ≠ [] ∧ data.length ≤ CHUNK ∧ setup.args.b64decode (Base64.encode data) = some data)
    (hcontent : pieces.flatten = content) (hsize : (content.length : Int) ≤ BridgeService.MAX_FILE)
    (hdigest : is_checksum (setup.args.hexdigest content) = true)
    (hweave : Weave (OtherRequest guest id) (exportUri setup guest id content queried uuid found more pieces) labels)
    (hup : (serverMachine setup history).AllSteps (ServerUp setup guest id) s labels) :
    ((∀ label ∈ exportUri setup guest id content queried uuid found more pieces, Sendable label) ∧
      ∃ name, BridgeService.safeName (display_name queried) = some name ∧
        (serverMachine setup history).AllSteps (Exported setup guest id name content) s labels ∧
        ∃ s', (serverMachine setup history).exec s labels = some s') ↔
    ∃ name, BridgeService.safeName (display_name queried) = some name ∧
      (content.length : Int) ≤ setup.args.max_file_size ∧
      (serverMachine setup history).AllSteps (Named setup guest id name) s labels := by
  have hkeyed := keyed_of_reachable hs
  cases hname : BridgeService.safeName (display_name queried) with
  | none =>
    constructor
    · rintro ⟨-, name, hsome, -⟩
      cases hsome
    · rintro ⟨name, hsome, -⟩
      cases hsome
  | some name =>
    have hscript : exportUri setup guest id content queried uuid found more pieces =
        .request guest (begin_request setup id name content uuid) found :: export_rest guest id more pieces := by
      rw [exportUri, hname]
    rw [hscript] at hweave ⊢
    have hother : ∀ {name rest} label s, OtherRequest guest id label → ServerUp setup guest id s label →
        ExportProgress setup guest id name content rest s → ∃ s', (serverMachine setup history).step s label = some s' ∧
          ExportProgress setup guest id name content rest s' := fun _ _ hother hup h => h.other hother hup
    have hprogress : ExportProgress setup guest id name content
        (.request guest (begin_request setup id name content uuid) found :: export_rest guest id more pieces) s :=
      ⟨hkeyed, hpeer, Or.inl ⟨uuid, found, more, pieces, rfl, huuid, hmore, hlength, hpieces, hcontent, hnew, hfile⟩⟩
    by_cases hlarge : (content.length : Int) ≤ setup.args.max_file_size
    · obtain ⟨hiff, hend⟩ := Machine.allSteps_iff_of_weave (A := Exported setup guest id name content)
        (C := Named setup guest id name) (I := ExportProgress setup guest id name content)
        (fun label rest s h => h.own hid hname hdigest hlarge)
        (fun label rest s hlabel hup h => by
          refine ⟨?_, ?_, hother label s hlabel hup h⟩
          · exact fun fields found' _ hown => absurd hlabel hown
          · exact fun fields found' _ hown => absurd hlabel hown)
        hweave s hprogress hup
      constructor
      · rintro ⟨-, name', hsome, hexported, -⟩
        cases hsome
        exact ⟨name, rfl, hlarge, hiff.mp hexported⟩
      · rintro ⟨name', hsome, -, hnamed⟩
        cases hsome
        refine ⟨?_, name, rfl, hiff.mpr hnamed, (hend hnamed).imp fun _ => And.left⟩
        have hbound : content.length ≤ 2147483648 := by
          rw [BridgeService.MAX_FILE] at hsize
          omega
        intro label hlabel
        rcases List.mem_cons.mp hlabel with rfl | hlabel
        · exact sendable_begin hid huuid hname hbound hdigest
        · exact sendable_rest hid hmore (fun data hdata => (hpieces data hdata).2.1) label hlabel
    · constructor
      case mpr =>
        rintro ⟨-, -, hle, -⟩
        exact absurd hle hlarge
      rintro ⟨-, name', hsome, hexported, -⟩
      cases hsome
      refine absurd hexported (Machine.not_allSteps_of_weave (I := fun s => Keyed s.daemon ∧
        s.daemon.transfers id = none ∧ s.daemon.incoming id = none) ?_ ?_ hweave s ⟨hkeyed, hnew, hfile⟩ hup)
      · rintro s ⟨-, hnew, hfile⟩ hbegin
        exact not_begin_accepted hid hnew hfile hname hdigest hlarge (hbegin _ _ rfl fun hother => hother.1 rfl).1
      · rintro label s hlabel hup ⟨hkeyed, hnew, hfile⟩
        obtain ⟨s', hstep, hpeer⟩ := hup hlabel
        have howns : ∀ peer, peer ≠ guest → s.daemon.owns peer id = false := fun peer _ => by rw [Daemon.owns, hnew]
        have hsame := same_step hkeyed howns hlabel hpeer hstep
        exact ⟨s', hstep, keyed_step hkeyed hstep, hsame.1.trans hnew, hsame.2.trans hfile⟩

/-- In both directions, with whatever comes in between: a file gets from the host to Android if and only if there is no
backslash in its name, and from Android to the host if and only if its name is safe, the daemon takes files of that size
and the name that it gets in the end is not too long. -/
theorem transfers_iff (platform : BridgeService.Platform) (setup : Setup) (history : List Record) (id : Str)
    (content : ByteString) (hid : is_uuid id = true) (hsize : (content.length : Int) ≤ BridgeService.MAX_FILE)
    (hplatform : is_checksum (platform.hexdigest content) = true)
    (hsetup : is_checksum (setup.args.hexdigest content) = true) :
    (∀ (name : Str) (s : BridgeService.Service) (labels : List BridgeService.Label),
      (BridgeService.serviceMachine platform).Reachable s → s.connected = true → s.transfers id = none →
      s.incoming id = none → is_file_name name →
      (∀ data ∈ read_chunks content.length content, platform.decode (Base64.encode data) = some data) →
      Weave (OtherFrame id) ((send_file platform id name content).map fun m => .frame m.message) labels →
      (BridgeService.serviceMachine platform).AllSteps (ServiceUp platform id) s labels →
      ((∀ m ∈ send_file platform id name content, Forwarded id m.fields) ∧
        (BridgeService.serviceMachine platform).AllSteps (Received platform id name content) s labels ∧
        (∃ s', (BridgeService.serviceMachine platform).exec s labels = some s') ↔ backslash ∉ name)) ∧
    ∀ (guest : Nat) (uuid : Str) (queried : Option Str) (found : Found) (more : List (Str × Found))
      (pieces : List ByteString) (s : Server) (labels : List Label),
      (serverMachine setup history).Reachable s → s.daemon.peers guest = true → s.daemon.transfers id = none →
      s.daemon.incoming id = none → is_uuid uuid = true → (∀ m ∈ more, is_uuid m.1 = true) →
      more.length = pieces.length + 1 →
      (∀ data ∈ pieces, data ≠ [] ∧ data.length ≤ CHUNK ∧ setup.args.b64decode (Base64.encode data) = some data) →
      pieces.flatten = content →
      Weave (OtherRequest guest id) (exportUri setup guest id content queried uuid found more pieces) labels →
      (serverMachine setup history).AllSteps (ServerUp setup guest id) s labels →
      (((∀ label ∈ exportUri setup guest id content queried uuid found more pieces, Sendable label) ∧
        ∃ name, BridgeService.safeName (display_name queried) = some name ∧
          (serverMachine setup history).AllSteps (Exported setup guest id name content) s labels ∧
          ∃ s', (serverMachine setup history).exec s labels = some s') ↔
      ∃ name, BridgeService.safeName (display_name queried) = some name ∧
        (content.length : Int) ≤ setup.args.max_file_size ∧
        (serverMachine setup history).AllSteps (Named setup guest id name) s labels) := by
  refine ⟨?_, ?_⟩
  · intro name s labels hs hconnected hnew hfile hname hdecode hweave hup
    exact sent_iff hs hconnected hid hnew hfile hname hsize hplatform hdecode hweave hup
  · intro guest uuid queried found more pieces s labels hs hpeer hnew hfile huuid hmore hlength hpieces hcontent
      hweave hup
    exact exported_iff hs hpeer hid hnew hfile huuid hmore hlength hpieces hcontent hsize hsetup hweave hup

/-- The id of a transfer. -/
def exampleId : Str := codes "00000000-0000-4000-8000-000000000000"

/-- The setup with a decoder for one chunk. -/
def exampleDecoder : Setup :=
  { exampleSetup with args := { exampleSetup.args with
    b64decode := fun raw => if raw = ReboxedBridge.str "YQ==" then some (.of "a") else none } }

theorem own_of_mem_send_file {platform : BridgeService.Platform} {label : BridgeService.Label}
    (h : label ∈ (send_file platform id name content).map fun m => BridgeService.Label.frame m.message) :
    ¬OtherFrame id label := by
  obtain ⟨m, hm, rfl⟩ := List.mem_map.mp h
  rcases List.mem_cons.mp hm with rfl | hm
  · exact fun hother => hother rfl
  · rcases List.mem_append.mp hm with hm | hm
    · obtain ⟨data, -, rfl⟩ := List.mem_map.mp hm
      exact fun hother => hother rfl
    · cases List.mem_singleton.mp hm
      exact fun hother => hother rfl

theorem own_of_mem_export_rest {more : List (Str × Found)} {pieces : List ByteString}
    (h : label ∈ export_rest guest id more pieces) : ¬OtherRequest guest id label := by
  induction more generalizing pieces with
  | nil => exact absurd h List.not_mem_nil
  | cons m more ih =>
    cases pieces with
    | nil =>
      cases List.mem_singleton.mp h
      exact fun hother => hother.1 rfl
    | cons data pieces =>
      rcases List.mem_cons.mp h with rfl | h
      · exact fun hother => hother.1 rfl
      · exact ih h

/-- A file with the content `a` gets to the other side, while something else is sent. -/
theorem short_file_transferred :
    (∃ s, (BridgeService.serviceMachine BridgeService.examplePlatform).exec {} [.connect] = some s ∧
      (BridgeService.serviceMachine BridgeService.examplePlatform).AllSteps
        (Received BridgeService.examplePlatform exampleId (codes "a.txt") (.of "a")) s
        (.frame (.other false) ::
          (send_file BridgeService.examplePlatform exampleId (codes "a.txt") (.of "a")).map fun m =>
            .frame m.message)) ∧
    ∃ s, (serverMachine exampleDecoder []).exec {} [.connect 0 true] = some s ∧
      (serverMachine exampleDecoder []).AllSteps (Exported exampleDecoder 0 exampleId (codes "a.txt") (.of "a")) s
        (.connect 1 false ::
          exportUri exampleDecoder 0 exampleId (.of "a") (some (codes "a.txt")) exampleId {}
            [(exampleId, {}), (exampleId, {})] [.of "a"]) := by
  have hid : is_uuid exampleId = true := by decide
  have hchunks : read_chunks 1 (.of "a") = [.of "a"] := by decide
  have hboth := transfers_iff BridgeService.examplePlatform exampleDecoder [] exampleId (.of "a") hid (by decide)
    (by decide) (by decide)
  refine ⟨⟨_, rfl, ?_⟩, ⟨_, rfl, ?_⟩⟩
  · have hother : OtherFrame exampleId (.frame (.other false)) := trivial
    refine ((hboth.1 (codes "a.txt") _ _ ⟨[.connect], rfl⟩ rfl rfl rfl ?_ ?_ (.other hother (.refl _)) ?_).mpr
      (by decide)).2.1
    · exact ⟨⟨by decide, by decide, by decide, by decide, by decide⟩, by decide⟩
    · show ∀ data ∈ read_chunks 1 (.of "a"), _
      rw [hchunks]
      decide
    · refine Machine.allSteps_of_forall_mem (fun label hlabel s message hmessage hother => ?_) _
      rcases List.mem_cons.mp hlabel with rfl | hlabel
      · cases hmessage
        rfl
      · exact absurd hother (own_of_mem_send_file hlabel)
  · have hother : OtherRequest 0 exampleId (.connect 1 false) := trivial
    have hname : BridgeService.safeName (codes "a.txt") = some (codes "a.txt") := by decide
    have hshort : ∀ s, (export_name exampleId (codes "a.txt") s).length ≤ 255 := by
      intro s
      unfold export_name
      split_ifs <;> decide
    have hown : ∀ label ∈ exportUri exampleDecoder 0 exampleId (.of "a") (some (codes "a.txt")) exampleId {}
        [(exampleId, {}), (exampleId, {})] [.of "a"], ∀ s, ServerUp exampleDecoder 0 exampleId s label := by
      intro label hlabel s hother
      rw [exportUri, display_name, Option.getD_some, hname] at hlabel
      rcases List.mem_cons.mp hlabel with rfl | hlabel
      · exact absurd rfl hother.1
      · exact absurd hother (own_of_mem_export_rest hlabel)
    obtain ⟨-, name, hsome, hexported, -⟩ := (hboth.2 0 exampleId (some (codes "a.txt")) {}
      [(exampleId, {}), (exampleId, {})] [.of "a"] _
      (.connect 1 false :: exportUri exampleDecoder 0 exampleId (.of "a") (some (codes "a.txt")) exampleId {}
        [(exampleId, {}), (exampleId, {})] [.of "a"])
      ⟨[.connect 0 true], rfl⟩ rfl rfl rfl hid (by simpa using hid) rfl (by decide) rfl
      (.other hother (.refl _)) ⟨fun _ => ⟨_, rfl, rfl⟩, fun s' _ => Machine.allSteps_of_forall_mem hown s'⟩).mpr
      ⟨codes "a.txt", hname, by decide, Machine.allSteps_of_forall_mem (fun _ _ s _ _ _ _ _ => hshort s) _⟩
    cases hname.symm.trans hsome
    exact hexported

/-- A file whose name has a backslash in it does not get to Android, and the connection with it ends; and one whose name
has a slash in it does not get to the host. -/
theorem not_always_transferred :
    (¬∀ (id name : Str) (content : ByteString) (s : BridgeService.Service) (labels : List BridgeService.Label),
      (BridgeService.serviceMachine BridgeService.examplePlatform).Reachable s → s.connected = true →
      is_uuid id = true → s.transfers id = none → s.incoming id = none → is_file_name name →
      (content.length : Int) ≤ BridgeService.MAX_FILE →
      Weave (OtherFrame id)
        ((send_file BridgeService.examplePlatform id name content).map fun m => .frame m.message) labels →
      (BridgeService.serviceMachine BridgeService.examplePlatform).AllSteps
        (ServiceUp BridgeService.examplePlatform id) s labels →
      (BridgeService.serviceMachine BridgeService.examplePlatform).AllSteps
        (Received BridgeService.examplePlatform id name content) s labels) ∧
    ¬∀ (guest : Nat) (id uuid : Str) (queried : Option Str) (found : Found) (more : List (Str × Found))
      (pieces : List ByteString) (content : ByteString) (s : Server) (labels : List Label),
      (serverMachine exampleDecoder []).Reachable s → s.daemon.peers guest = true → is_uuid id = true →
      s.daemon.transfers id = none → s.daemon.incoming id = none →
      is_uuid uuid = true → (∀ m ∈ more, is_uuid m.1 = true) → more.length = pieces.length + 1 →
      (∀ data ∈ pieces, data ≠ [] ∧ data.length ≤ CHUNK) → pieces.flatten = content →
      (content.length : Int) ≤ BridgeService.MAX_FILE →
      Weave (OtherRequest guest id) (exportUri exampleDecoder guest id content queried uuid found more pieces) labels →
      (serverMachine exampleDecoder []).AllSteps (ServerUp exampleDecoder guest id) s labels →
      ∃ name, BridgeService.safeName (display_name queried) = some name ∧
        (serverMachine exampleDecoder []).AllSteps (Exported exampleDecoder guest id name content) s labels := by
  have hid : is_uuid exampleId = true := by decide
  constructor
  · intro h
    obtain ⟨s, hs⟩ : ∃ s, (BridgeService.serviceMachine BridgeService.examplePlatform).exec {} [.connect] = some s :=
      ⟨_, rfl⟩
    have hconnected : s.connected = true := by
      cases hs
      rfl
    have hnew : s.transfers exampleId = none ∧ s.incoming exampleId = none := by
      cases hs
      exact ⟨rfl, rfl⟩
    have hname : is_file_name (codes "a\\b") :=
      ⟨⟨by decide, by decide, by decide, by decide, by decide⟩, by decide⟩
    have hreceived := h exampleId (codes "a\\b") [] s _ ⟨_, hs⟩ hconnected hid hnew.1 hnew.2 hname (by decide) (.refl _)
      (Machine.allSteps_of_forall_mem (fun _ hlabel _ _ hmessage hother =>
        absurd hother (by exact own_of_mem_send_file hlabel)) _)
    exact not_received_begin (by decide) hreceived.1
  · intro h
    have hunsafe : BridgeService.safeName (display_name (some (codes "a/b"))) = none := by decide
    obtain ⟨name, hname, -⟩ := h 0 exampleId exampleId (some (codes "a/b")) {} [(exampleId, {})] [] [] _ []
      ⟨[.connect 0 true], rfl⟩ rfl hid rfl rfl hid (by simpa using hid) rfl (by simp) rfl (by decide) .nil trivial
    cases hunsafe.symm.trans hname

end AnboxReboxed.Scripts.FileTransfer
