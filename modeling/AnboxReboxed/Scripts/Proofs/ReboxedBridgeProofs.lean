import AnboxReboxed.Lib.Fallible
import AnboxReboxed.Scripts.ReboxedBridge

/-!
# Proofs: the files that the host receives

The file of a transfer is what its checksum has been fed with, and that is what the owner has sent. No transfer stays
behind without its owner.
-/

namespace AnboxReboxed.Scripts.ReboxedBridge

open AnboxReboxed.Lib Function

variable {args : Args} {d d' : Daemon} {w w' : World} {peer : Nat} {id name content : Str} {t : Transfer}

/-! ## Names -/

theorem direct_of_clean_name {value : Value} (h : clean_name value = .ok name) : World.Direct name := by
  cases value with
  | str raw =>
    obtain ⟨-, h⟩ := of_ite_error_eq_ok h
    cases hlength : encoded_length raw with
    | none =>
      rw [hlength] at h
      cases h
    | some length =>
      rw [hlength] at h
      obtain ⟨-, h⟩ := of_ite_error_eq_ok h
      obtain ⟨-, h⟩ := of_ite_error_eq_ok h
      obtain ⟨hsafe, h⟩ := of_ite_error_eq_ok h
      cases h
      have hplain : ∀ c ∈ raw.map fun c => if is_plain c then c else underscore, is_plain c = true := by
        intro c hc
        obtain ⟨c', -, rfl⟩ := List.mem_map.mp hc
        by_cases hc' : is_plain c' = true
        · rwa [if_pos hc']
        · rw [if_neg hc']
          decide
      refine ⟨fun h => hsafe (Or.inl h), fun h => hsafe (Or.inr (Or.inl h)), fun h => hsafe (Or.inr (Or.inr h)), ?_, ?_⟩
      · exact fun hmem => absurd (hplain slash hmem) (by decide)
      · exact fun hmem => absurd (hplain 0 hmem) (by decide)
  | _ => cases h

theorem direct_fallback (hid : is_transfer_id t.id = true) (hname : World.Direct t.name) :
    World.Direct t.fallback := by
  obtain ⟨-, -, -, hslash, hzero⟩ := hname
  rw [is_transfer_id, Bool.and_eq_true, List.all_eq_true] at hid
  have hhyphen : hyphen ∈ t.fallback := List.mem_append_right _ List.mem_cons_self
  have hnot : ∀ c, (is_alnum c || c == hyphen) = false → c ∉ t.name → c ∉ t.fallback := by
    intro c hc hmem h
    rcases List.mem_append.mp h with h | h
    · rw [hid.2 c h] at hc
      cases hc
    · rcases List.mem_cons.mp h with rfl | h
      · cases hc
      · exact hmem h
  refine ⟨List.ne_nil_of_mem hhyphen, ?_, ?_, hnot slash (by decide) hslash, hnot 0 (by decide) hzero⟩
  · intro h
    rw [h] at hhyphen
    exact absurd hhyphen (by decide)
  · intro h
    rw [h] at hhyphen
    exact absurd hhyphen (by decide)

/-! ## What the handlers do -/

namespace Daemon

theorem begin_eq_ok {transfer_id size sha256 name : Value} {uuid4 : Str} {answer : Answer}
    (h : d.receive_file_begin args peer transfer_id size sha256 name uuid4 = .ok (d', answer)) :
    ∃ id n expected cleaned, begin_id transfer_id uuid4 = .ok id ∧ is_transfer_id id = true ∧ d.transfers id = none ∧
      World.Direct cleaned ∧ size.int? = some n ∧ sha256 = .str expected ∧ answer = .begun id ∧
      d' = { d with
        transfers := update d.transfers id (some { id, name := cleaned, size := n, sha256 := expected, owner := peer })
        incoming := update d.incoming id (some []) } := by
  obtain ⟨id, hid, h⟩ := of_bind_eq_ok h
  obtain ⟨hnew, h⟩ := of_unless_eq_ok h
  obtain ⟨cleaned, hname, h⟩ := of_bind_eq_ok h
  obtain ⟨n, hsize, h⟩ := of_bind_eq_ok h
  obtain ⟨expected, hsha, h⟩ := of_bind_eq_ok h
  obtain ⟨-, h⟩ := of_unless_eq_ok h
  cases h
  have hvalid : is_transfer_id id = true := by
    have hid := hid
    rw [begin_id] at hid
    split at hid
    · split at hid <;> cases hid
      assumption
    · cases hid
  have hint : size.int? = some n := by
    rw [begin_size] at hsize
    split at hsize
    · cases hsize
    · obtain ⟨-, heq⟩ := of_ite_error_eq_ok hsize
      cases heq
      assumption
  have hexpected : sha256 = .str expected := by
    cases sha256 with
    | str s =>
      rw [begin_checksum] at hsha
      split at hsha <;> cases hsha
      rfl
    | _ => cases hsha
  exact ⟨id, n, expected, cleaned, hid, hvalid, Option.not_isSome_iff_eq_none.mp hnew, direct_of_clean_name hname,
    hint, hexpected, rfl, rfl⟩

theorem find_eq_ok {transfer_id : Value} (h : d.find peer transfer_id = .ok t) :
    ∃ id, transfer_id = .str id ∧ d.transfers id = some t ∧ t.owner = peer := by
  cases transfer_id with
  | str id =>
    rw [find] at h
    cases hid : d.transfers id with
    | none =>
      rw [hid] at h
      cases h
    | some t' =>
      rw [hid] at h
      obtain ⟨howner, heq⟩ := of_ite_error_eq_ok h
      cases heq
      exact ⟨id, rfl, hid, not_not.mp howner⟩
  | _ => cases h

theorem chunk_eq_ok {transfer_id data : Value} {answer : Answer}
    (h : d.receive_file_chunk args peer transfer_id data = .ok (d', answer)) :
    ∃ t raw bytes, d.find peer transfer_id = .ok t ∧ data = .str raw ∧ args.b64decode raw = some bytes ∧
      answer = .received t.id (t.received + bytes.length) t.size ∧
      d' = { d with
        transfers := update d.transfers t.id
          (some { t with hash := t.hash ++ bytes, received := t.received + bytes.length })
        incoming := update d.incoming t.id ((d.incoming t.id).map (· ++ bytes)) } := by
  obtain ⟨t, ht, h⟩ := of_bind_eq_ok h
  obtain ⟨bytes, hdata, h⟩ := of_bind_eq_ok h
  obtain ⟨-, h⟩ := of_unless_eq_ok h
  obtain ⟨-, h⟩ := of_unless_eq_ok h
  cases h
  cases data with
  | str raw =>
    obtain ⟨-, hdata⟩ := of_ite_error_eq_ok hdata
    cases hraw : args.b64decode raw with
    | none =>
      rw [hraw] at hdata
      cases hdata
    | some bytes' =>
      rw [hraw] at hdata
      cases hdata
      exact ⟨t, raw, bytes, ht, rfl, hraw, rfl, rfl⟩
  | _ => cases hdata

/-- The transfer is in order. -/
structure Ready (args : Args) (t : Transfer) : Prop where
  opened : t.closed = false
  size : (t.received : Int) = t.size
  sha256 : args.hexdigest t.hash = t.sha256

/-- The exits of `receive_file_end`. -/
theorem end_cases (args : Args) (d : Daemon) (peer : Nat) (transfer_id : Value) :
    (∃ e, d.receive_file_end args peer transfer_id = (d, .error e) ∧
      ∀ t, d.find peer transfer_id = .ok t → ¬Ready args t) ∨
    ∃ t, d.find peer transfer_id = .ok t ∧
      ((∃ e, d.receive_file_end args peer transfer_id = (d.forget t.id, .error e) ∧ ¬Ready args t) ∨
      (∃ e, d.receive_file_end args peer transfer_id = (d.close t, .error e) ∧
        ((d.destination t).length > args.name_max ∨ d.incoming t.id = none)) ∨
      ∃ content, Ready args t ∧ ¬(d.destination t).length > args.name_max ∧ d.incoming t.id = some content ∧
        d.receive_file_end args peer transfer_id =
          ({ d.forget t.id with exports := update d.exports (d.destination t) (some content) },
            .ok (.complete t.id (d.destination t)))) := by
  unfold receive_file_end
  cases hfind : d.find peer transfer_id with
  | error e => exact Or.inl ⟨e, rfl, fun _ h => by cases h⟩
  | ok t =>
    by_cases hclosed : t.closed = true
    · refine Or.inl ⟨.value_error, if_pos hclosed, fun t' ht' hready => ?_⟩
      cases ht'
      rw [hready.opened] at hclosed
      cases hclosed
    refine Or.inr ⟨t, rfl, ?_⟩
    by_cases hbad : (t.received : Int) ≠ t.size ∨ args.hexdigest t.hash ≠ t.sha256
    · refine Or.inl ⟨_, (if_neg hclosed).trans (if_pos hbad), fun hready => ?_⟩
      exact hbad.elim (fun h => h hready.size) fun h => h hready.sha256
    have hready : Ready args t := by
      refine ⟨eq_false_of_ne_true hclosed, ?_, ?_⟩
      · exact not_not.mp fun h => hbad (Or.inl h)
      · exact not_not.mp fun h => hbad (Or.inr h)
    refine Or.inr ?_
    by_cases hlong : (d.destination t).length > args.name_max
    · exact Or.inl ⟨_, (if_neg hclosed).trans ((if_neg hbad).trans (if_pos hlong)), Or.inl hlong⟩
    cases hfile : d.incoming t.id with
    | none =>
      refine Or.inl ⟨.os_error, (if_neg hclosed).trans ((if_neg hbad).trans ((if_neg hlong).trans ?_)), Or.inr rfl⟩
      rw [hfile]
    | some content =>
      refine Or.inr ⟨content, hready, hlong, rfl,
        (if_neg hclosed).trans ((if_neg hbad).trans ((if_neg hlong).trans ?_))⟩
      rw [hfile]

end Daemon

/-! ## The invariant -/

namespace World

/-- A transfer is what has been seen of it. -/
structure Sound (w : World) (id : Str) (t : Transfer) : Prop where
  id_eq : t.id = id
  valid : is_transfer_id id = true
  connected : w.daemon.peers t.owner = true
  direct : Direct t.name
  staged : w.daemon.incoming id = some t.hash
  received : t.received = t.hash.length
  sent : ∃ sent, w.seen.transfers id = some sent ∧ sent.owner = t.owner ∧ sent.size = t.size ∧
    sent.sha256 = t.sha256 ∧ sent.chunks.flatten = t.hash

structure Inv (args : Args) (w : World) : Prop where
  sound : ∀ id t, w.daemon.transfers id = some t → w.Sound id t
  staged : ∀ id, w.daemon.incoming id ≠ none → w.daemon.transfers id ≠ none
  genuine : ∀ name content, w.daemon.exports name = some content → w.Genuine args name content
  short : ∀ name, w.daemon.exports name ≠ none → name.length ≤ args.name_max

theorem inv_init (args : Args) : Inv args {} where
  sound _ _ h := by cases h
  staged _ h := absurd rfl h
  genuine _ _ h := by cases h
  short _ h := absurd rfl h

theorem Inv.intact (h : Inv args w) : w.Intact args := by
  refine ⟨h.genuine, fun id hid => ?_⟩
  obtain ⟨t, ht⟩ := Option.ne_none_iff_exists'.mp (h.staged id hid)
  exact ⟨t, ht, (h.sound id t ht).connected⟩

/-- Some transfers go, with their files. -/
theorem Inv.drop (h : Inv args w)
    (htransfers : ∀ id t, d'.transfers id = some t → w.daemon.transfers id = some t ∧
      d'.incoming id = w.daemon.incoming id ∧ d'.peers t.owner = w.daemon.peers t.owner)
    (hincoming : ∀ id, d'.incoming id ≠ none → d'.transfers id ≠ none) (hexports : d'.exports = w.daemon.exports) :
    Inv args { w with daemon := d' } := by
  refine ⟨fun id t ht => ?_, hincoming, ?_, ?_⟩
  · obtain ⟨hold, hfile, hpeers⟩ := htransfers id t ht
    obtain ⟨heq, hvalid, hconnected, hdirect, hstaged, hreceived, hsent⟩ := h.sound id t hold
    exact ⟨heq, hvalid, hpeers.trans hconnected, hdirect, hfile.trans hstaged, hreceived, hsent⟩
  · intro name content hcontent
    exact h.genuine name content (hexports ▸ hcontent)
  · intro name hname
    exact h.short name (hexports ▸ hname)

theorem Inv.forget (h : Inv args w) (id : Str) : Inv args { w with daemon := w.daemon.forget id } := by
  apply h.drop
  · intro id' t ht
    have hne : id' ≠ id := by
      rintro rfl
      have hnone : (w.daemon.forget id').transfers id' = none := update_self _ _ _
      rw [hnone] at ht
      cases ht
    exact ⟨(update_of_ne hne _ _).symm.trans ht, update_of_ne hne _ _, rfl⟩
  · intro id' hfile
    have hne : id' ≠ id := by
      rintro rfl
      exact hfile (update_self _ _ _)
    have hkept : (w.daemon.forget id).incoming id' = w.daemon.incoming id' := update_of_ne hne _ _
    have hsame : (w.daemon.forget id).transfers id' = w.daemon.transfers id' := update_of_ne hne _ _
    rw [hsame]
    exact h.staged id' (hkept ▸ hfile)
  · rfl

theorem Inv.leave (h : Inv args w) (peer : Nat) : Inv args { w with daemon := w.daemon.leave peer } := by
  have howns : ∀ {id t}, w.daemon.transfers id = some t → w.daemon.owns peer id = decide (t.owner = peer) := by
    intro id t ht
    rw [Daemon.owns, ht]
  apply h.drop
  · intro id t ht
    obtain ⟨hnot, hold⟩ := Option.ite_none_left_eq_some.mp ht
    have hne : t.owner ≠ peer := fun heq => hnot ((howns hold).trans (decide_eq_true heq))
    exact ⟨hold, if_neg hnot, update_of_ne hne _ _⟩
  · intro id hfile
    have hnot : ¬w.daemon.owns peer id = true := fun hown => hfile (if_pos hown)
    have hkept : (w.daemon.leave peer).incoming id = w.daemon.incoming id := if_neg hnot
    have hsame : (w.daemon.leave peer).transfers id = w.daemon.transfers id := if_neg hnot
    rw [hsame]
    exact h.staged id (hkept ▸ hfile)
  · rfl

/-- A transfer is put in place, with its file and with what has been seen of it. -/
theorem Inv.put (h : Inv args w) {o : Observed} (hexports : d'.exports = w.daemon.exports)
    (hseen : o.exports = w.seen.exports) (hpeers : d'.peers = w.daemon.peers)
    (hothers : ∀ id, id ≠ t.id → d'.transfers id = w.daemon.transfers id ∧ d'.incoming id = w.daemon.incoming id ∧
      o.transfers id = w.seen.transfers id) (hput : d'.transfers t.id = some t)
    (hsound : Sound ⟨d', o⟩ t.id t) : Inv args ⟨d', o⟩ := by
  refine ⟨fun id t' ht' => ?_, fun id hid => ?_, fun name content hcontent => ?_, fun name hname => ?_⟩
  · by_cases hid : id = t.id
    · rw [hid] at ht' ⊢
      cases Option.some.inj (hput.symm.trans ht')
      exact hsound
    · obtain ⟨htransfers, hincoming, hsent'⟩ := hothers id hid
      obtain ⟨heq, hvalid, hconnected, hdirect, hstaged, hreceived, sent, hsent, hrest⟩ :=
        h.sound id t' (htransfers ▸ ht')
      refine ⟨heq, hvalid, ?_, hdirect, hincoming.trans hstaged, hreceived, sent, hsent'.trans hsent, hrest⟩
      show d'.peers t'.owner = true
      rw [hpeers]
      exact hconnected
  · show d'.transfers id ≠ none
    by_cases heq : id = t.id
    · rw [heq, hput]
      exact Option.some_ne_none t
    · obtain ⟨htransfers, hincoming, -⟩ := hothers id heq
      rw [htransfers]
      exact h.staged id (hincoming ▸ hid)
  · obtain ⟨hdirect, sent, hsent, hrest⟩ := h.genuine name content (hexports ▸ hcontent)
    refine ⟨hdirect, sent, ?_, hrest⟩
    show o.exports name = some sent
    rw [hseen]
    exact hsent
  · exact h.short name (hexports ▸ hname)

/-! ## A step -/

theorem observe_error (o : Observed) (peer : Nat) (request : Request) (e : Failure) :
    o.observe args peer request (.error e) = o := by
  cases request with
  | transfer_begin transfer_id size sha256 name uuid4 => cases sha256 <;> rfl
  | transfer_chunk transfer_id data => cases data <;> rfl
  | transfer_end transfer_id => rfl
  | transfer_cancel transfer_id told => rfl

theorem Inv.begin (h : Inv args w) (hpeer : w.daemon.peers peer = true) {transfer_id size sha256 name : Value}
    {uuid4 : Str} {answer : Answer}
    (hbegin : w.daemon.receive_file_begin args peer transfer_id size sha256 name uuid4 = .ok (d', answer)) :
    Inv args ⟨d', w.seen.observe args peer (.transfer_begin transfer_id size sha256 name uuid4) (.ok answer)⟩ := by
  obtain ⟨id, n, expected, cleaned, -, hvalid, -, hdirect, hsize, rfl, rfl, rfl⟩ := Daemon.begin_eq_ok hbegin
  let t : Transfer := { id, name := cleaned, size := n, sha256 := expected, owner := peer }
  refine h.put (t := t) rfl rfl rfl ?_ ?_ ?_
  · intro id' hne
    exact ⟨update_of_ne hne _ _, update_of_ne hne _ _, update_of_ne hne _ _⟩
  · exact update_self _ _ _
  · refine ⟨rfl, hvalid, hpeer, hdirect, update_self _ _ _, rfl, ⟨peer, n, expected, []⟩, ?_, rfl, rfl, rfl, rfl⟩
    refine (update_self _ _ _).trans ?_
    rw [hsize]
    rfl

theorem Inv.chunk (h : Inv args w) {transfer_id data : Value} {answer : Answer}
    (hchunk : w.daemon.receive_file_chunk args peer transfer_id data = .ok (d', answer)) :
    Inv args ⟨d', w.seen.observe args peer (.transfer_chunk transfer_id data) (.ok answer)⟩ := by
  obtain ⟨t, raw, bytes, hfind, rfl, hraw, rfl, rfl⟩ := Daemon.chunk_eq_ok hchunk
  obtain ⟨id, -, ht, howner⟩ := Daemon.find_eq_ok hfind
  obtain ⟨rfl, hvalid, hconnected, hdirect, hstaged, hreceived, sent, hsent, hsentowner, hsize, hsha, hflat⟩ :=
    h.sound id t ht
  refine h.put (t := { t with hash := t.hash ++ bytes, received := t.received + bytes.length }) rfl rfl rfl ?_ ?_ ?_
  · intro id' hne
    exact ⟨update_of_ne hne _ _, update_of_ne hne _ _, update_of_ne hne _ _⟩
  · exact update_self _ _ _
  · refine ⟨rfl, hvalid, hconnected, hdirect, ?_, ?_, { sent with chunks := sent.chunks ++ [bytes] }, ?_, hsentowner,
      hsize, hsha, ?_⟩
    · refine (update_self _ _ _).trans ?_
      rw [hstaged]
      rfl
    · show t.received + bytes.length = (t.hash ++ bytes).length
      rw [List.length_append, hreceived]
    · refine (update_self _ _ _).trans ?_
      rw [hsent, hraw, Option.map_some, Sent.append, if_pos (howner.symm.trans hsentowner.symm)]
      rfl
    · show (sent.chunks ++ [bytes]).flatten = t.hash ++ bytes
      rw [List.flatten_append, List.flatten_singleton, hflat]

/-- The stream of a transfer is closed, and the rest of it stays. -/
theorem Inv.close (h : Inv args w) (ht : w.daemon.transfers id = some t) :
    Inv args { w with daemon := w.daemon.close t } := by
  obtain ⟨rfl, hvalid, hconnected, hdirect, hstaged, hreceived, hsent⟩ := h.sound id t ht
  refine h.put (t := { t with closed := true }) rfl rfl rfl ?_ ?_ ?_
  · exact fun id' hne => ⟨update_of_ne hne _ _, rfl, rfl⟩
  · exact update_self _ _ _
  · exact ⟨rfl, hvalid, hconnected, hdirect, hstaged, hreceived, hsent⟩

theorem Inv.direct_destination (h : Inv args w) (ht : w.daemon.transfers id = some t) :
    Direct (w.daemon.destination t) := by
  have hsound := h.sound id t ht
  unfold Daemon.destination
  by_cases htaken : (w.daemon.exports t.name).isSome = true
  · rw [if_pos htaken]
    exact direct_fallback (hsound.id_eq ▸ hsound.valid) hsound.direct
  · rw [if_neg htaken]
    exact hsound.direct

/-- The file of a transfer that is in order is moved to `exports`. -/
theorem Inv.complete (h : Inv args w) {bytes : ByteString} (ht : w.daemon.transfers id = some t)
    (hready : Daemon.Ready args t) (hshort : ¬(w.daemon.destination t).length > args.name_max)
    (hfile : w.daemon.incoming t.id = some bytes) :
    Inv args ⟨{ w.daemon.forget t.id with exports := update w.daemon.exports (w.daemon.destination t) (some bytes) },
      { w.seen with exports := update w.seen.exports (w.daemon.destination t) (w.seen.transfers t.id) }⟩ := by
  obtain ⟨rfl, -, -, -, hstaged, hreceived, sent, hsent, -, hsize, hsha, hflat⟩ := h.sound id t ht
  have hdirect := h.direct_destination ht
  have hforget := h.forget t.id
  cases Option.some.inj (hfile.symm.trans hstaged)
  refine ⟨fun id' t' ht' => ?_, hforget.staged, fun name content hcontent => ?_, fun name hname => ?_⟩
  · obtain ⟨heq, hvalid, hconnected, hname, hstaged', hreceived', hsent'⟩ := hforget.sound id' t' ht'
    exact ⟨heq, hvalid, hconnected, hname, hstaged', hreceived', hsent'⟩
  · have hcontent : update w.daemon.exports (w.daemon.destination t) (some t.hash) name = some content := hcontent
    by_cases heq : name = w.daemon.destination t
    · rw [heq, update_self] at hcontent
      rw [heq]
      cases Option.some.inj hcontent
      refine ⟨hdirect, sent, (update_self _ _ _).trans hsent, hflat.symm, ?_, hready.sha256.trans hsha.symm⟩
      rw [hsize, ← hready.size, hreceived]
    · obtain ⟨hname, sent', hsent', hrest⟩ := h.genuine name content ((update_of_ne heq _ _).symm.trans hcontent)
      exact ⟨hname, sent', (update_of_ne heq _ _).trans hsent', hrest⟩
  · by_cases heq : name = w.daemon.destination t
    · rw [heq]
      exact Nat.le_of_not_lt hshort
    · have hkept : update w.daemon.exports (w.daemon.destination t) (some t.hash) name = w.daemon.exports name :=
        update_of_ne heq _ _
      exact h.short name (hkept ▸ hname)

theorem Inv.end (h : Inv args w) (transfer_id : Value) :
    Inv args ⟨(w.daemon.receive_file_end args peer transfer_id).1,
      w.seen.observe args peer (.transfer_end transfer_id) (w.daemon.receive_file_end args peer transfer_id).2⟩ := by
  rcases Daemon.end_cases args w.daemon peer transfer_id with ⟨e, heq, -⟩ | ⟨t, hfind, hcases⟩
  · rw [heq, observe_error]
    exact h
  obtain ⟨id, -, ht, -⟩ := Daemon.find_eq_ok hfind
  rcases hcases with ⟨e, heq, -⟩ | ⟨e, heq, -⟩ | ⟨bytes, hready, hshort, hfile, heq⟩
  · rw [heq, observe_error]
    exact h.forget t.id
  · rw [heq, observe_error]
    exact h.close ht
  · rw [heq]
    exact h.complete ht hready hshort hfile

theorem Inv.cancel (h : Inv args w) (transfer_id : Value) (told : Bool) :
    Inv args { w with daemon := (w.daemon.cancel transfer_id told).1 } := by
  cases transfer_id with
  | str id =>
    show Inv args { w with daemon := if (w.daemon.transfers id).isSome then w.daemon.forget id else w.daemon }
    by_cases hid : (w.daemon.transfers id).isSome = true
    · rw [if_pos hid]
      exact h.forget id
    · rw [if_neg hid]
      exact h
  | _ => exact h

theorem Inv.dispatch (h : Inv args w) (hpeer : w.daemon.peers peer = true) (request : Request) :
    Inv args ⟨(w.daemon.dispatch args peer request).1,
      w.seen.observe args peer request (w.daemon.dispatch args peer request).2⟩ := by
  cases request with
  | transfer_begin transfer_id size sha256 name uuid4 =>
    rw [Daemon.dispatch]
    cases hbegin : w.daemon.receive_file_begin args peer transfer_id size sha256 name uuid4 with
    | error e =>
      rw [Daemon.unless_raised, observe_error]
      exact h
    | ok r => exact h.begin hpeer hbegin
  | transfer_chunk transfer_id data =>
    rw [Daemon.dispatch]
    cases hchunk : w.daemon.receive_file_chunk args peer transfer_id data with
    | error e =>
      rw [Daemon.unless_raised, observe_error]
      exact h
    | ok r => exact h.chunk hchunk
  | transfer_end transfer_id => exact h.end transfer_id
  | transfer_cancel transfer_id told => exact h.cancel transfer_id told

theorem serve_cases (d : Daemon) (peer : Nat) (request : Request) :
    d.serve args peer request = d.dispatch args peer request ∨
    ∃ d', d.dispatch args peer request = (d', .error .type_error) ∧
      d.serve args peer request = (d'.leave peer, .error .type_error) := by
  unfold Daemon.serve
  split
  · rename_i d' heq
    exact Or.inr ⟨d', heq, rfl⟩
  · exact Or.inl rfl

theorem Inv.connect (h : Inv args w) (peer : Nat) (guest : Option Nat) :
    Inv args { w with daemon := { w.daemon with peers := update w.daemon.peers peer true, guest } } := by
  refine ⟨fun id t ht => ?_, h.staged, h.genuine, h.short⟩
  obtain ⟨heq, hvalid, hconnected, hdirect, hstaged, hreceived, hsent⟩ := h.sound id t ht
  refine ⟨heq, hvalid, ?_, hdirect, hstaged, hreceived, hsent⟩
  show update w.daemon.peers peer true t.owner = true
  by_cases howner : t.owner = peer
  · rw [howner, update_self]
  · rw [update_of_ne howner]
    exact hconnected

theorem Inv.step {l : Label} (h : Inv args w) (hstep : w.step args l = some w') : Inv args w' := by
  cases l with
  | connect peer guest =>
    obtain ⟨-, heq⟩ := Option.ite_none_left_eq_some.mp hstep
    cases heq
    exact h.connect peer _
  | request peer request =>
    obtain ⟨hpeer, rfl⟩ := of_guard_eq_some hstep
    have hdispatch := h.dispatch hpeer request
    rcases serve_cases w.daemon peer request with heq | ⟨d', heq, hserve⟩
    · rw [heq]
      exact hdispatch
    · rw [heq, observe_error] at hdispatch
      rw [hserve, observe_error]
      exact hdispatch.leave peer
  | disconnect peer =>
    obtain ⟨-, rfl⟩ := of_guard_eq_some hstep
    exact h.leave peer

/-! ## What happens to the exports -/

theorem serve_exports_of_raised (d : Daemon) (peer : Nat) (request : Request) {e : Failure}
    (hraised : d.dispatch args peer request = (d', .error e)) (hexports : d'.exports = d.exports) :
    (d.serve args peer request).1.exports = d.exports ∧ ∃ e, (d.serve args peer request).2 = .error e := by
  rcases serve_cases d peer request with heq | ⟨d'', heq, hserve⟩
  · rw [heq, hraised]
    exact ⟨hexports, e, rfl⟩
  · cases hraised.symm.trans heq
    rw [hserve]
    exact ⟨hexports, _, rfl⟩

theorem cancel_exports (d : Daemon) (transfer_id : Value) (told : Bool) :
    (d.cancel transfer_id told).1.exports = d.exports := by
  cases transfer_id with
  | str id =>
    show (if (d.transfers id).isSome then d.forget id else d).exports = d.exports
    split <;> rfl
  | _ => rfl

/-- Only the end of a transfer changes the exports. -/
theorem serve_exports (d : Daemon) (peer : Nat) (request : Request)
    (hend : ∀ transfer_id, request ≠ .transfer_end transfer_id) :
    (d.serve args peer request).1.exports = d.exports := by
  have hdispatch : (d.dispatch args peer request).1.exports = d.exports := by
    cases request with
    | transfer_begin transfer_id size sha256 name uuid4 =>
      rw [Daemon.dispatch]
      cases hbegin : d.receive_file_begin args peer transfer_id size sha256 name uuid4 with
      | error e => rfl
      | ok r =>
        obtain ⟨d', answer⟩ := r
        obtain ⟨id, n, expected, cleaned, -, -, -, -, -, -, -, rfl⟩ := Daemon.begin_eq_ok hbegin
        rfl
    | transfer_chunk transfer_id data =>
      rw [Daemon.dispatch]
      cases hchunk : d.receive_file_chunk args peer transfer_id data with
      | error e => rfl
      | ok r =>
        obtain ⟨d', answer⟩ := r
        obtain ⟨t, raw, bytes, -, -, -, -, rfl⟩ := Daemon.chunk_eq_ok hchunk
        rfl
    | transfer_end transfer_id => exact absurd rfl (hend transfer_id)
    | transfer_cancel transfer_id told => exact cancel_exports d transfer_id told
  rcases serve_cases d peer request with heq | ⟨d', heq, hserve⟩
  · rw [heq]
    exact hdispatch
  · rw [hserve]
    rw [heq] at hdispatch
    exact hdispatch

theorem additive_of_exports {l : Label} (hcompletes : ¬w.Completes args l)
    (hexports : ∀ w', w.step args l = some w' → w'.daemon.exports = w.daemon.exports) : w.Additive args l := by
  intro w' hstep
  rw [hexports w' hstep]
  exact ⟨fun _ _ h => h, fun h => absurd h hcompletes⟩

/-- A new file is an addition when there was none of its name. -/
theorem update_additive {f : Str → Option ByteString} (bytes : ByteString) :
    ((∀ name content, f name = some content → update f id (some bytes) name = some content) ∧
      ∃ name content, f name = none ∧ update f id (some bytes) = update f name (some content)) ↔ f id = none := by
  constructor
  · rintro ⟨-, name, content, hnone, heq⟩
    by_cases hname : name = id
    · exact hname ▸ hnone
    · have hat := congrFun heq name
      rw [update_of_ne hname, update_self, hnone] at hat
      cases hat
  · intro hnone
    refine ⟨fun name content hcontent => ?_, id, bytes, hnone, rfl⟩
    have hne : name ≠ id := by
      rintro rfl
      rw [hnone] at hcontent
      cases hcontent
    rw [update_of_ne hne]
    exact hcontent

theorem destination_free_iff (d : Daemon) (t : Transfer) :
    d.exports (d.destination t) = none ↔ ¬(d.exports t.name ≠ none ∧ d.exports t.fallback ≠ none) := by
  unfold Daemon.destination
  cases hname : d.exports t.name with
  | none =>
    rw [if_neg (by simp), hname]
    exact ⟨fun _ h => h.1 rfl, fun _ => rfl⟩
  | some content =>
    rw [if_pos Option.isSome_some]
    refine ⟨fun h h' => h'.2 h, fun h => ?_⟩
    by_contra hfallback
    exact h ⟨Option.some_ne_none content, hfallback⟩

theorem Inv.additive_end (h : Inv args w) (hpeer : w.daemon.peers peer = true) (transfer_id : Value) :
    w.Additive args (.request peer (.transfer_end transfer_id)) ↔
      ¬w.Clobbers args (.request peer (.transfer_end transfer_id)) := by
  have hraised : ∀ {d' e}, w.daemon.receive_file_end args peer transfer_id = (d', .error e) →
      d'.exports = w.daemon.exports → w.Additive args (.request peer (.transfer_end transfer_id)) := by
    intro d' e heq hexports
    obtain ⟨hsame, e', he'⟩ := serve_exports_of_raised w.daemon peer (.transfer_end transfer_id) heq hexports
    apply additive_of_exports
    · rintro ⟨answer, hanswer⟩
      rw [he'] at hanswer
      cases hanswer
    · intro w' hstep
      obtain ⟨-, rfl⟩ := of_guard_eq_some hstep
      exact hsame
  -- What it takes to clobber, for the transfer that was found.
  have hclobbers : ∀ {t}, w.daemon.find peer transfer_id = .ok t →
      (w.Clobbers args (.request peer (.transfer_end transfer_id)) ↔
        Daemon.Ready args t ∧ w.daemon.exports t.name ≠ none ∧ w.daemon.exports t.fallback ≠ none) := by
    intro t hfind
    obtain ⟨id, rfl, ht, howner⟩ := Daemon.find_eq_ok hfind
    constructor
    · rintro ⟨t', ht', -, -, hopened, hsize, hsha, htaken⟩
      cases Option.some.inj (ht.symm.trans ht')
      exact ⟨⟨hopened, hsize, hsha⟩, htaken⟩
    · rintro ⟨⟨hopened, hsize, hsha⟩, htaken⟩
      exact ⟨t, ht, hpeer, howner, hopened, hsize, hsha, htaken⟩
  rcases Daemon.end_cases args w.daemon peer transfer_id with ⟨e, heq, hnot⟩ | ⟨t, hfind, hcases⟩
  · refine iff_of_true (hraised heq rfl) fun hc => ?_
    cases transfer_id with
    | str id =>
      obtain ⟨t, ht, -, howner, hopened, hsize, hsha, -⟩ := hc
      have hfind : w.daemon.find peer (.str id) = .ok t := by
        rw [Daemon.find, ht]
        exact if_neg (not_not.mpr howner)
      exact hnot t hfind ⟨hopened, hsize, hsha⟩
    | _ => exact hc.elim
  rcases hcases with ⟨e, heq, hnot⟩ | ⟨e, heq, hlong⟩ | ⟨bytes, hready, hshort, hfile, heq⟩
  · exact iff_of_true (hraised heq rfl) fun hc => hnot ((hclobbers hfind).mp hc).1
  · refine iff_of_true (hraised heq rfl) fun hc => ?_
    obtain ⟨-, hname, hfallback⟩ := (hclobbers hfind).mp hc
    rcases hlong with hlong | hfile
    · have hdestination : w.daemon.destination t = t.fallback := if_pos (Option.isSome_iff_ne_none.mpr hname)
      rw [hdestination] at hlong
      exact absurd (h.short _ hfallback) (Nat.not_le_of_lt hlong)
    · obtain ⟨id, -, ht, -⟩ := Daemon.find_eq_ok hfind
      have hsound := h.sound id t ht
      rw [hsound.id_eq, hsound.staged] at hfile
      cases hfile
  · have hserve : w.daemon.serve args peer (.transfer_end transfer_id) =
        ({ w.daemon.forget t.id with exports := update w.daemon.exports (w.daemon.destination t) (some bytes) },
          .ok (.complete t.id (w.daemon.destination t))) := by
      rw [Daemon.serve, Daemon.dispatch, heq]
    rw [hclobbers hfind, not_and, ← destination_free_iff, ← update_additive bytes]
    constructor
    · intro hadditive hready
      have hstep : w.step args (.request peer (.transfer_end transfer_id)) = some _ := if_pos hpeer
      obtain ⟨hkept, hadded⟩ := hadditive _ hstep
      rw [hserve] at hkept hadded
      exact ⟨hkept, hadded ⟨_, congrArg Prod.snd hserve⟩⟩
    · intro hfree w' hstep
      obtain ⟨-, rfl⟩ := of_guard_eq_some hstep
      rw [hserve]
      exact ⟨(hfree hready).1, fun _ => (hfree hready).2⟩

/-- A step keeps the exports, and adds to them what it should, unless it clobbers. -/
theorem Inv.additive_iff (h : Inv args w) (l : Label) : w.Additive args l ↔ ¬w.Clobbers args l := by
  cases l with
  | connect peer guest =>
    refine iff_of_true (additive_of_exports (fun h => h) fun w' hstep => ?_) fun h => h
    obtain ⟨-, heq⟩ := Option.ite_none_left_eq_some.mp hstep
    cases heq
    rfl
  | disconnect peer =>
    refine iff_of_true (additive_of_exports (fun h => h) fun w' hstep => ?_) fun h => h
    obtain ⟨-, rfl⟩ := of_guard_eq_some hstep
    rfl
  | request peer request =>
    by_cases hpeer : w.daemon.peers peer = true
    · have hother : (∀ transfer_id, request ≠ .transfer_end transfer_id) → ¬w.Completes args (.request peer request) →
          w.Additive args (.request peer request) := by
        intro hend hcompletes
        apply additive_of_exports hcompletes
        intro w' hstep
        obtain ⟨-, rfl⟩ := of_guard_eq_some hstep
        exact serve_exports w.daemon peer request hend
      cases request with
      | transfer_end transfer_id => exact h.additive_end hpeer transfer_id
      | _ => exact iff_of_true (hother (fun _ h => by cases h) fun h => h) fun h => h
    · refine iff_of_true (fun w' hstep => ?_) fun hc => ?_
      · obtain ⟨hconnected, -⟩ := of_guard_eq_some hstep
        exact absurd hconnected hpeer
      · cases request with
        | transfer_end transfer_id =>
          cases transfer_id with
          | str id =>
            obtain ⟨t, -, hconnected, -⟩ := hc
            exact hpeer hconnected
          | _ => exact hc
        | _ => exact hc

end World

/-- In every run, the files are what was sent and none is lost, if and only if no transfer is completed for which both
names are taken. -/
theorem received_intact_iff (args : Args) (labels : List Label) :
    ((daemonMachine args).AllSteps (World.Additive args) {} labels ∧
      (daemonMachine args).AllStates (World.Intact args) {} labels) ↔
    (daemonMachine args).AllSteps (fun w l => ¬w.Clobbers args l) {} labels := by
  have hsteps := Machine.allSteps_iff_of_relation (m := daemonMachine args) (R := World.Inv args)
    (C := fun w l => ¬w.Clobbers args l) (D := World.Additive args) (fun _ _ _ h _ hstep => h.step hstep)
    (fun _ l h => h.additive_iff l) labels {} (World.inv_init args)
  have hstates : (daemonMachine args).AllStates (World.Intact args) {} labels :=
    Machine.allStates_of_invariant (fun _ _ _ h hstep => World.Inv.step h hstep) (fun _ h => h.intact)
      (World.inv_init args)
  rw [hsteps]
  exact and_iff_left hstates

/-- The checksums of two files, and the chunks for them. -/
def exampleArgs : Args where
  max_file_size := 2147483648
  hexdigest data :=
    if data = ByteString.of "a" then str "ca978112ca1bbdcafac231b39a23dc4da786eff8147c4e72b9807785afee48bb"
    else if data = ByteString.of "b" then str "3e23e8160039594a33894f6564e1b1348bbd7a0088d42c4acb73eeaed59c009d"
    else []
  b64decode raw :=
    if raw = str "YQ==" then some (.of "a") else if raw = str "Yg==" then some (.of "b") else none

/-- A whole transfer of a peer, under one id and one name. -/
def exampleTransfer (raw checksum : String) : List Label :=
  [.request 0 (.transfer_begin (.str (str "A")) (.int 1) (.str (str checksum)) (.str (str "f")) []),
    .request 0 (.transfer_chunk (.str (str "A")) (.str (str raw))),
    .request 0 (.transfer_end (.str (str "A")))]

/-- The third transfer under the same id and name replaces the file of the second one. -/
theorem not_always_received_intact : ¬∀ args labels,
    (daemonMachine args).AllSteps (World.Additive args) {} labels ∧
      (daemonMachine args).AllStates (World.Intact args) {} labels := by
  intro h
  obtain ⟨w, hw⟩ : ∃ w, (daemonMachine exampleArgs).exec {}
      (.connect 0 false ::
        (exampleTransfer "YQ==" "ca978112ca1bbdcafac231b39a23dc4da786eff8147c4e72b9807785afee48bb" ++
        exampleTransfer "YQ==" "ca978112ca1bbdcafac231b39a23dc4da786eff8147c4e72b9807785afee48bb" ++
        (exampleTransfer "Yg==" "3e23e8160039594a33894f6564e1b1348bbd7a0088d42c4acb73eeaed59c009d").take 2)) =
      some w := ⟨_, rfl⟩
  have hsteps := (Machine.allSteps_append hw).mp (h exampleArgs (_ ++ [.request 0 (.transfer_end (.str (str "A")))])).1
  cases hw
  obtain ⟨hkept, -⟩ := hsteps.2.1 _ rfl
  have hlost := hkept (str "A-f") (.of "a") rfl
  exact absurd hlost (by decide)

end AnboxReboxed.Scripts.ReboxedBridge
