import AnboxReboxed.Android.Proofs.PackagePartsProofs
import AnboxReboxed.Scripts.Proofs.TransferFramesProofs

/-!
# Proofs: a file that goes from the host to Android

Between two frames of the transfer the service has what was sent so far, and the other frames leave that alone.
-/

namespace AnboxReboxed.Scripts.FileTransfer

open AnboxReboxed.Lib AnboxReboxed.Scripts.BridgeFrames AnboxReboxed.Android AnboxReboxed.Android.BridgeService Function
open AnboxReboxed.Scripts.ReboxedBridge (Str str CHUNK slash backslash underscore is_checksum is_plain is_transfer_id
  World.Direct)
open AnboxReboxed.Android.PackageParts (Filed finishPackagePart_incoming finishReceivedFile_eq)

variable {platform : Platform} {id name cleaned : Str} {content : ByteString} {s : Service}
  {label : BridgeService.Label} {rest : List BridgeService.Label}

/-! ## The chunks of a file -/

theorem flatten_read_chunks {n : Nat} : ∀ {content : ByteString}, content.length ≤ n →
    (read_chunks n content).flatten = content := by
  induction n with
  | zero => exact fun h => (List.length_eq_zero_iff.mp (Nat.le_zero.mp h)).symm
  | succ n ih =>
    intro content h
    rw [read_chunks]
    split_ifs with hempty
    · exact hempty.symm
    · have hpos : 0 < content.length := List.length_pos_iff.mpr hempty
      rw [List.flatten_cons, ih (by rw [List.length_drop, CHUNK]; omega), List.take_append_drop]

theorem mem_read_chunks {n : Nat} {data : ByteString} : ∀ {content : ByteString}, data ∈ read_chunks n content →
    data ≠ [] ∧ data.length ≤ CHUNK := by
  induction n with
  | zero => exact fun h => absurd h List.not_mem_nil
  | succ n ih =>
    intro content h
    rw [read_chunks] at h
    split_ifs at h with hempty
    · exact absurd h List.not_mem_nil
    · rcases List.mem_cons.mp h with rfl | h
      · refine ⟨fun hnil => ?_, List.length_take_le ..⟩
        rcases List.take_eq_nil_iff.mp hnil with hzero | hnil
        · exact absurd hzero (by decide)
        · exact hempty hnil
      · exact ih h

/-! ## The name of a file -/

/-- What is left of a name is fine, as long as there is no backslash in it. -/
theorem safeName_iff (h : is_file_name name) : (∃ cleaned, safeName name = some cleaned) ↔ backslash ∉ name := by
  obtain ⟨⟨hne, hdot, hdots, hslash, hzero⟩, hlength⟩ := h
  have hshort : ¬(name = [] ∨ (name.flatMap Json.utf8).length > 255 ∨ name = str "." ∨ name = str "..") := by
    rintro (h | h | h | h)
    · exact hne h
    · omega
    · exact hdot h
    · exact hdots h
  unfold safeName
  rw [if_neg hshort]
  constructor
  · rintro ⟨cleaned, h⟩ hbackslash
    rw [if_pos (Or.inr (Or.inl hbackslash))] at h
    cases h
  · intro hbackslash
    -- A name without an underscore has not been changed.
    have hsame : ∀ text : Str, underscore ∉ text →
        (name.map fun c => if is_plain c then c else underscore) = text → name = text := by
      rintro text hunderscore rfl
      refine (List.map_id name).symm.trans (List.map_congr_left fun c hc => ?_)
      by_cases hplain : is_plain c = true
      · exact (if_pos hplain).symm
      · exact (hunderscore (List.mem_map.mpr ⟨c, hc, if_neg hplain⟩)).elim
    have hkept : ¬((name.map fun c => if is_plain c then c else underscore) = [] ∨
        (name.map fun c => if is_plain c then c else underscore) = str "." ∨
        (name.map fun c => if is_plain c then c else underscore) = str "..") := by
      rintro (h | h | h)
      · exact hne (hsame [] (by decide) h)
      · exact hdot (hsame (str ".") (by decide) h)
      · exact hdots (hsame (str "..") (by decide) h)
    refine ⟨name.map fun c => if is_plain c then c else underscore, ?_⟩
    rw [if_neg (by rintro (h | h | h); exacts [hslash h, hbackslash h, hzero h])]
    exact if_neg hkept

/-! ## What the service does with the frames -/

/-- A frame of another transfer leaves this one alone. -/
theorem handle_other (platform : Platform) {message : Message} (hfiled : Filed s)
    (hother : OtherFrame id (.frame message)) :
    (s.handle platform message).1.transfers id = s.transfers id ∧
    (s.handle platform message).1.incoming id = s.incoming id := by
  have hfound : ∀ {transfer_id : Option Str} {t : Transfer}, transfer_id ≠ some id →
      transfer_id.bind s.transfers = some t → id ≠ t.id := by
    rintro transfer_id t hne ht rfl
    obtain ⟨id', rfl, hid⟩ := Option.bind_eq_some_iff.mp ht
    exact hne (congrArg some (hfiled id' t hid).1.symm)
  cases message with
  | begin operation transfer_id size sha256 raw install_id index count =>
    have hother : transfer_id ≠ some id := hother
    show (s.beginTransfer ..).1.transfers id = _ ∧ (s.beginTransfer ..).1.incoming id = _
    unfold Service.beginTransfer
    cases hchecked : s.begin_checked transfer_id size sha256 raw with
    | none => exact ⟨rfl, rfl⟩
    | some checked =>
      obtain ⟨id', size', hash, name'⟩ := checked
      obtain ⟨-, -, rfl⟩ := Service.begin_checked_eq hchecked
      have hne : id ≠ id' := fun h => hother (congrArg some h.symm)
      by_cases hlate : Service.begin_late install_id index count = true
      · simp only [if_pos hlate]
        exact ⟨update_of_ne hne .., update_of_ne hne ..⟩
      · simp only [if_neg hlate]
        exact ⟨rfl, update_of_ne hne ..⟩
  | chunk transfer_id data =>
    show (s.transferChunk platform ..).1.transfers id = _ ∧ (s.transferChunk platform ..).1.incoming id = _
    unfold Service.transferChunk
    split
    · next t data ht hdata =>
      have hne : id ≠ t.id := hfound hother ht
      split_ifs
      · exact ⟨rfl, rfl⟩
      · exact ⟨update_of_ne hne .., update_of_ne hne ..⟩
    · exact ⟨rfl, rfl⟩
  | «end» transfer_id published =>
    show (s.endTransfer platform ..).1.transfers id = _ ∧ (s.endTransfer platform ..).1.incoming id = _
    cases ht : transfer_id.bind s.transfers with
    | none =>
      rw [Service.endTransfer_eq_none ht]
      exact ⟨rfl, rfl⟩
    | some t =>
      have hne : id ≠ t.id := hfound hother ht
      have hremoved : (s.remove t.id).transfers id = s.transfers id := update_of_ne hne ..
      have hdiscard : (s.discard t.id).incoming id = s.incoming id := update_of_ne hne ..
      rw [Service.endTransfer_eq_some ht, Service.finishTransfer]
      split_ifs
      · exact ⟨hremoved, hdiscard⟩
      · cases t.operation with
        | package_part =>
          exact ⟨(congrFun finishPackagePart_incoming.1 id).trans hremoved, finishPackagePart_incoming.2 id hne⟩
        | file_receive =>
          refine ⟨(congrFun finishReceivedFile_eq.1 id).trans hremoved, ?_⟩
          exact (congrFun finishReceivedFile_eq.2.1 id).trans hdiscard
  | cancel transfer_id =>
    have hne : id ≠ transfer_id := fun h => hother h.symm
    show (s.cancelTransfer transfer_id).transfers id = _ ∧ (s.cancelTransfer transfer_id).incoming id = _
    unfold Service.cancelTransfer
    cases ht : s.transfers transfer_id with
    | none => exact ⟨rfl, rfl⟩
    | some t =>
      obtain ⟨rfl, -⟩ := hfiled transfer_id t ht
      exact ⟨update_of_ne hne .., update_of_ne hne ..⟩
  | other throws => exact ⟨rfl, rfl⟩

/-- The transfer when a part of the file has come. -/
def arriving (platform : Platform) (id cleaned : Str) (content done : ByteString) : Transfer where
  id := id
  name := cleaned
  expectedSize := content.length
  expectedHash := platform.hexdigest content
  digest := done
  received := done.length
  operation := .file_receive
  installId := none
  index := 0
  count := 1

/-- How far the transfer is: what is left of the script. -/
def Stage (platform : Platform) (id name cleaned : Str) (content : ByteString) (script : List BridgeService.Label)
    (s : Service) : Prop :=
  script = (send_file platform id name content).map (fun m => .frame m.message) ∧
    s.transfers id = none ∧ s.incoming id = none ∨
  (∃ (done : ByteString) (pieces : List ByteString),
    script = pieces.map (fun data => .frame (chunk_sent id data).message) ++ [.frame (end_sent id).message] ∧
    (∀ data ∈ pieces, data ≠ [] ∧ data.length ≤ CHUNK ∧ platform.decode (Base64.encode data) = some data) ∧
    done ++ pieces.flatten = content ∧ s.transfers id = some (arriving platform id cleaned content done)) ∨
  script = []

/-- The connection is up, and the transfer is on its way. -/
structure Progress (platform : Platform) (id name cleaned : Str) (content : ByteString)
    (script : List BridgeService.Label) (s : Service) : Prop where
  connected : s.connected = true
  filed : Filed s
  stage : Stage platform id name cleaned content script s

theorem step_frame {message : Message} (hconnected : s.connected = true)
    (hreturned : (s.handle platform message).2 = true) :
    (serviceMachine platform).step s (.frame message) =
      some { (s.handle platform message).1 with connected := true } := by
  show s.step platform (.frame message) = _
  rw [Service.step, if_pos hconnected]
  show some { (s.handle platform message).1 with connected := (s.handle platform message).2 } = _
  rw [hreturned]

theorem Progress.other (h : Progress platform id name cleaned content rest s) (hother : OtherFrame id label)
    (hup : ServiceUp platform id s label) :
    ∃ s', (serviceMachine platform).step s label = some s' ∧ Progress platform id name cleaned content rest s' := by
  cases label with
  | frame message =>
    obtain ⟨htransfers, hincoming⟩ := handle_other platform h.filed hother
    refine ⟨_, step_frame h.connected (hup message rfl hother), rfl, h.filed.handle, ?_⟩
    rcases h.stage with ⟨hrest, hnew, hfile⟩ | ⟨done, pieces, hrest, hpieces, hcontent, ht⟩ | hrest
    · exact Or.inl ⟨hrest, htransfers.trans hnew, hincoming.trans hfile⟩
    · exact Or.inr (Or.inl ⟨done, pieces, hrest, hpieces, hcontent, htransfers.trans ht⟩)
    · exact Or.inr (Or.inr hrest)
  | _ => exact hother.elim

theorem handle_begin (hid : is_transfer_id id = true) (hnew : s.transfers id = none) (hfile : s.incoming id = none)
    (hsize : (content.length : Int) ≤ MAX_FILE) (hdigest : is_checksum (platform.hexdigest content) = true)
    (hname : safeName name = some cleaned) :
    s.handle platform (begin_sent platform id name content).message =
      ({ s.create id with transfers := update s.transfers id (some (arriving platform id cleaned content [])) },
      true) := by
  have hchecked : s.begin_checked (some id) (some content.length) (some (platform.hexdigest content)) (some name) =
      some (id, (content.length : Int), platform.hexdigest content, cleaned) := by
    have hfresh : ¬(is_transfer_id id = false ∨ (s.transfers id).isSome = true) := by simp [hid, hnew]
    have hrange : ¬((content.length : Int) < 0 ∨ (content.length : Int) > MAX_FILE) := by omega
    rw [Service.begin_checked, if_neg hfresh, if_neg hrange, if_neg (by simp [hdigest]), if_neg (by simp [hfile]),
      hname]
    rfl
  show s.beginTransfer .. = _
  rw [Service.beginTransfer, hchecked]
  rfl

theorem handle_chunk {done data : ByteString} {pieces : List ByteString} (hdata : data ≠ [] ∧ data.length ≤ CHUNK)
    (hdecode : platform.decode (Base64.encode data) = some data) (hcontent : done ++ (data :: pieces).flatten = content)
    (ht : s.transfers id = some (arriving platform id cleaned content done)) :
    (s.handle platform (chunk_sent id data).message).2 = true ∧
    (s.handle platform (chunk_sent id data).message).1.transfers id =
      some (arriving platform id cleaned content (done ++ data)) := by
  have hlength : done.length + (data.length + pieces.flatten.length) = content.length := by
    rw [← hcontent, List.flatten_cons, List.length_append, List.length_append]
  let t := arriving platform id cleaned content done
  have hfits : ¬(data = [] ∨ data.length > 256 * 1024 ∨ (t.received + data.length : Int) > t.expectedSize) := by
    have hle : data.length ≤ 256 * 1024 := hdata.2
    rintro (h | h | h)
    · exact hdata.1 h
    · omega
    · have h : (done.length + data.length : Int) > content.length := h
      omega
  have hchunk : s.handle platform (chunk_sent id data).message =
      ({ s with
        incoming := update s.incoming id ((s.incoming id).map (· ++ data))
        transfers := update s.transfers id
          (some { t with digest := t.digest ++ data, received := t.received + data.length }) }, true) := by
    show s.transferChunk platform (some id) (some (Base64.encode data)) = _
    rw [Service.transferChunk, Option.bind_some, Option.bind_some, ht, hdecode]
    exact if_neg hfits
  rw [hchunk]
  refine ⟨rfl, (update_self ..).trans ?_⟩
  rw [arriving, List.length_append]
  rfl

theorem handle_end (hfiled : Filed s) (ht : s.transfers id = some (arriving platform id cleaned content content)) :
    (s.handle platform (end_sent id).message).2 = true ∧
    (s.handle platform (end_sent id).message).1.downloads = s.downloads ++ [(cleaned, content)] := by
  obtain ⟨-, hfile, -⟩ := hfiled id _ ht
  have hbind : (some id).bind s.transfers = some (arriving platform id cleaned content content) := ht
  have hverified : ¬Service.verified platform (arriving platform id cleaned content content) = false := by
    simp [Service.verified, arriving]
  show (s.endTransfer platform (some id) true).2 = true ∧ (s.endTransfer platform (some id) true).1.downloads = _
  rw [Service.endTransfer_eq_some hbind, Service.finishTransfer, if_neg hverified]
  have hincoming : (s.remove id).incoming id = some content := hfile
  simp only [arriving, Service.finishReceivedFile, hincoming, if_true]
  exact ⟨trivial, rfl⟩

/-- A frame of the transfer brings it further. -/
theorem Progress.own (hid : is_transfer_id id = true) (hname : safeName name = some cleaned)
    (hsize : (content.length : Int) ≤ MAX_FILE) (hdigest : is_checksum (platform.hexdigest content) = true)
    (hdecode : ∀ data ∈ read_chunks content.length content, platform.decode (Base64.encode data) = some data)
    (h : Progress platform id name cleaned content (label :: rest) s) :
    Received platform id name content s label ∧
    ∃ s', (serviceMachine platform).step s label = some s' ∧ Progress platform id name cleaned content rest s' := by
  rcases h.stage with ⟨hscript, hnew, hfile⟩ | ⟨done, pieces, hscript, hpieces, hcontent, ht⟩ | hscript
  · rw [send_file, List.map_cons, List.cons.injEq] at hscript
    obtain ⟨rfl, rfl⟩ := hscript
    have hbegin := handle_begin hid hnew hfile hsize hdigest hname
    have hreturned : (s.handle platform (begin_sent platform id name content).message).2 = true := by rw [hbegin]
    refine ⟨fun message hmessage _ => ?_, _, step_frame h.connected hreturned, rfl, h.filed.handle, ?_⟩
    · cases hmessage
      exact ⟨hreturned, fun published hend => by cases hend⟩
    · refine Or.inr (Or.inl ⟨[], read_chunks content.length content, ?_, fun data hdata => ?_, ?_, ?_⟩)
      · rw [List.map_append, List.map_map]
        rfl
      · obtain ⟨hne, hle⟩ := mem_read_chunks hdata
        exact ⟨hne, hle, hdecode data hdata⟩
      · exact flatten_read_chunks (Nat.le_refl _)
      · rw [hbegin]
        exact update_self ..
  · cases pieces with
    | nil =>
      obtain ⟨rfl, rfl⟩ := List.cons.inj hscript
      have hdone : done = content := by rwa [List.flatten_nil, List.append_nil] at hcontent
      rw [hdone] at ht
      obtain ⟨hreturned, hdownloads⟩ := handle_end h.filed ht
      refine ⟨fun message hmessage _ => ?_, _, step_frame h.connected hreturned, rfl, h.filed.handle,
        Or.inr (Or.inr rfl)⟩
      cases hmessage
      refine ⟨hreturned, fun published hend => ⟨cleaned, hname, ?_⟩⟩
      exact hdownloads
    | cons data pieces =>
      obtain ⟨rfl, rfl⟩ := List.cons.inj hscript
      obtain ⟨hne, hle, hdata⟩ := hpieces data List.mem_cons_self
      obtain ⟨hreturned, htransfers⟩ := handle_chunk ⟨hne, hle⟩ hdata hcontent ht
      refine ⟨fun message hmessage _ => ?_, _, step_frame h.connected hreturned, rfl, h.filed.handle, ?_⟩
      · cases hmessage
        exact ⟨hreturned, fun published hend => by cases hend⟩
      · refine Or.inr (Or.inl
          ⟨done ++ data, pieces, rfl, fun d hd => hpieces d (List.mem_cons_of_mem _ hd), ?_, htransfers⟩)
        rw [← hcontent, List.flatten_cons, List.append_assoc]
  · cases hscript

/-- A name with a backslash is not accepted, and that ends the connection. -/
theorem not_received_begin (hname : safeName name = none) :
    ¬Received platform id name content s (.frame (begin_sent platform id name content).message) := by
  intro h
  have hchecked : s.begin_checked (some id) (some content.length) (some (platform.hexdigest content)) (some name) =
      none := by
    rw [Service.begin_checked, hname]
    split_ifs <;> rfl
  have hreturned := (h _ rfl fun hother => hother rfl).1
  have hbegin : s.handle platform (begin_sent platform id name content).message = (s, false) := by
    show s.beginTransfer .. = _
    rw [Service.beginTransfer, hchecked]
  rw [hbegin] at hreturned
  cases hreturned

theorem filed_of_reachable (h : (serviceMachine platform).Reachable s) : Filed s := by
  refine h.invariant (fun _ _ ht => by cases ht) fun s label s' hs hstep => ?_
  cases label with
  | connect =>
    obtain ⟨-, rfl⟩ := of_guard_eq_some hstep
    exact hs
  | frame message =>
    obtain ⟨-, rfl⟩ := of_guard_eq_some hstep
    have hfiled : Filed (s.handle platform message).1 := hs.handle
    exact hfiled
  | disconnect =>
    obtain ⟨-, rfl⟩ := of_guard_eq_some hstep
    exact hs
  | onDestroy =>
    cases Option.some.inj hstep
    exact fun _ _ ht => by cases ht

/-- A file is sent, whatever else is sent in between, if and only if there is no backslash in its name. -/
theorem sent_iff {labels : List BridgeService.Label} (hs : (serviceMachine platform).Reachable s)
    (hconnected : s.connected = true) (hid : is_uuid id = true) (hnew : s.transfers id = none)
    (hfile : s.incoming id = none) (hname : is_file_name name) (hsize : (content.length : Int) ≤ MAX_FILE)
    (hdigest : is_checksum (platform.hexdigest content) = true)
    (hdecode : ∀ data ∈ read_chunks content.length content, platform.decode (Base64.encode data) = some data)
    (hweave : Weave (OtherFrame id) ((send_file platform id name content).map fun m => .frame m.message) labels)
    (hup : (serviceMachine platform).AllSteps (ServiceUp platform id) s labels) :
    (∀ m ∈ send_file platform id name content, Forwarded id m.fields) ∧
      (serviceMachine platform).AllSteps (Received platform id name content) s labels ∧
      (∃ s', (serviceMachine platform).exec s labels = some s') ↔ backslash ∉ name := by
  have hfiled := filed_of_reachable hs
  have hforwarded : ∀ m ∈ send_file platform id name content, Forwarded id m.fields := by
    have hbound : content.length ≤ 2147483648 := by
      rw [MAX_FILE] at hsize
      omega
    rw [send_file, List.forall_mem_cons, List.forall_mem_append, List.forall_mem_map, List.forall_mem_singleton]
    exact ⟨forwarded_begin hid hname hbound hdigest,
      fun data hdata => forwarded_chunk hid (mem_read_chunks hdata).2, forwarded_end hid⟩
  rw [← safeName_iff hname]
  constructor
  · rintro ⟨-, hreceived, -⟩
    by_contra hnone
    refine Machine.not_allSteps_of_weave (I := fun s => s.connected = true ∧ Filed s) (fun s _ => ?_)
      (fun label s hother hup hs => ?_) hweave s ⟨hconnected, hfiled⟩ hup hreceived
    · exact not_received_begin (Option.eq_none_iff_forall_ne_some.mpr fun cleaned h => hnone ⟨cleaned, h⟩)
    · have hprogress : Progress platform id name name content [] s := ⟨hs.1, hs.2, Or.inr (Or.inr rfl)⟩
      obtain ⟨s', hstep, hs'⟩ := hprogress.other hother hup
      exact ⟨s', hstep, hs'.connected, hs'.filed⟩
  · rintro ⟨cleaned, hcleaned⟩
    have hown : ∀ label rest s, Progress platform id name cleaned content (label :: rest) s →
        Received platform id name content s label ∧
        ∃ s', (serviceMachine platform).step s label = some s' ∧ Progress platform id name cleaned content rest s' :=
      fun _ _ _ h => h.own (transfer_id_of_uuid hid) hcleaned hsize hdigest hdecode
    obtain ⟨hiff, hend⟩ := Machine.allSteps_iff_of_weave (A := Received platform id name content)
      (C := fun _ _ => True) (I := Progress platform id name cleaned content)
      (fun label rest s h => ⟨⟨fun _ => trivial, fun _ => (hown label rest s h).1⟩, fun _ => (hown label rest s h).2⟩)
      (fun label rest s hother hup h => by
        refine ⟨?_, trivial, h.other hother hup⟩
        exact fun message hmessage hown => absurd hother hown)
      hweave s ⟨hconnected, hfiled, Or.inl ⟨rfl, hnew, hfile⟩⟩ hup
    have htrue := Machine.allSteps_true labels s (m := serviceMachine platform)
    exact ⟨hforwarded, hiff.mpr htrue, (hend htrue).imp fun _ => And.left⟩

end AnboxReboxed.Scripts.FileTransfer
