import AnboxReboxed.Android.BridgeService

/-!
# Proofs: the transfers in the bridge service of Android

A frame leaves all as it is, starts a transfer, goes on with one or takes one away together with its file; or it fails
when half of that is done.
-/

namespace AnboxReboxed.Android.BridgeService

open AnboxReboxed.Lib AnboxReboxed.Scripts.ReboxedBridge Function

variable {platform : Platform} {s s' : Service} {label : Label} {message : Message} {id : Str}

namespace Service

/-- An entry stands under the id of its transfer. -/
def Keyed (s : Service) : Prop := ∀ id t, s.transfers id = some t → t.id = id

theorem begin_checked_eq {transfer_id : Option Str} {size : Option Int} {sha256 name : Option Str} {size' : Int}
    {hash name' : Str} (h : s.begin_checked transfer_id size sha256 name = some (id, size', hash, name')) :
    s.transfers id = none ∧ s.incoming id = none ∧ transfer_id = some id := by
  cases transfer_id with
  | none => cases h
  | some id' =>
    cases size with
    | none => cases h
    | some n =>
      cases sha256 with
      | none => cases h
      | some expected =>
        cases name with
        | none => cases h
        | some raw =>
          simp only [begin_checked] at h
          split_ifs at h with h1 h2 h3 h4
          obtain ⟨cleaned, -, heq⟩ := Option.map_eq_some_iff.mp h
          cases heq
          exact ⟨Option.not_isSome_iff_eq_none.mp fun hs => h1 (Or.inr hs), Option.not_isSome_iff_eq_none.mp h4, rfl⟩

theorem endTransfer_eq_none {transfer_id : Option Str} {published : Bool} (h : transfer_id.bind s.transfers = none) :
    s.endTransfer platform transfer_id published = (s, false) := by
  rw [endTransfer, h]

theorem endTransfer_eq_some {transfer_id : Option Str} {published : Bool} {t : Transfer}
    (h : transfer_id.bind s.transfers = some t) :
    s.endTransfer platform transfer_id published =
      finishTransfer platform { s.remove t.id with outputs := update s.outputs t.id false } t published := by
  rw [endTransfer, h]

/-- A transfer that ends takes its file with it. -/
theorem endTransfer_eq {transfer_id : Option Str} (published : Bool) {t : Transfer} {content : ByteString}
    (ht : transfer_id.bind s.transfers = some t) (hcontent : s.incoming t.id = some content)
    (hsound : verified platform t = true → t.operation = .package_part →
      t.installId ≠ none ∧ (partName t.index t.name).length ≤ NAME_MAX) :
    ∃ s', s.endTransfer platform transfer_id published = (s', true) ∧ s'.transfers = update s.transfers t.id none ∧
      s'.incoming = update s.incoming t.id none ∧ s'.outputs = update s.outputs t.id false := by
  have houtputs : update (update s.outputs t.id false) t.id false = update s.outputs t.id false := update_idem ..
  rw [endTransfer_eq_some ht, finishTransfer]
  by_cases hverified : verified platform t = false
  · rw [if_pos hverified]
    exact ⟨_, rfl, rfl, rfl, houtputs⟩
  · rw [if_neg hverified]
    cases hop : t.operation with
    | package_part =>
      obtain ⟨hid, hlength⟩ := hsound (Bool.eq_true_of_not_eq_false hverified) hop
      obtain ⟨installId, hinstall⟩ := Option.ne_none_iff_exists'.mp hid
      have hincoming : (s.remove t.id).incoming t.id = some content := hcontent
      simp only [finishPackagePart, hinstall, hincoming, if_neg (Nat.not_lt.mpr hlength)]
      exact ⟨_, rfl, rfl, rfl, houtputs⟩
    | file_receive =>
      have hincoming : (s.remove t.id).incoming t.id = some content := hcontent
      simp only [finishReceivedFile, hincoming]
      cases published with
      | false => exact ⟨_, rfl, rfl, rfl, houtputs⟩
      | true => exact ⟨_, rfl, rfl, rfl, houtputs⟩

/-- What a frame does to the transfers and their files. -/
inductive Effect (s : Service) : Bool → Service → Prop where
  | nothing (returned : Bool) : Effect s returned s
  | begun {s' : Service} (t : Transfer) (hnew : s.transfers t.id = none)
    (htransfers : s'.transfers = update s.transfers t.id (some t))
    (hincoming : s'.incoming = update s.incoming t.id (some []))
    (houtputs : s'.outputs = update s.outputs t.id true) : Effect s true s'
  | received {s' : Service} (t t' : Transfer) (data : ByteString) (ht : s.transfers t.id = some t) (hid : t'.id = t.id)
    (htransfers : s'.transfers = update s.transfers t.id (some t'))
    (hincoming : s'.incoming = update s.incoming t.id ((s.incoming t.id).map (· ++ data)))
    (houtputs : s'.outputs = s.outputs) : Effect s true s'
  | finished {s' : Service} (t : Transfer) (ht : s.transfers t.id = some t)
    (htransfers : s'.transfers = update s.transfers t.id none)
    (hincoming : s'.incoming = update s.incoming t.id none)
    (houtputs : s'.outputs = update s.outputs t.id false) : Effect s true s'

theorem handle_effect (hkeyed : s.Keyed) (hexact : s.Exact) (hsound : s.Sound platform message) :
    Effect s (s.handle platform message).2 (s.handle platform message).1 := by
  cases message with
  | begin operation transfer_id size sha256 name install_id index count =>
    show Effect s (s.beginTransfer ..).2 (s.beginTransfer ..).1
    unfold beginTransfer
    cases hchecked : s.begin_checked transfer_id size sha256 name with
    | none => exact .nothing false
    | some checked =>
      obtain ⟨id, size', hash, name'⟩ := checked
      have hlate : begin_late install_id index count = true := hsound (by rw [hchecked]; exact Option.some_ne_none _)
      simp only [hlate, if_true]
      let t : Transfer := {
        id, name := name', expectedSize := size', expectedHash := hash, operation
        installId := if install_id = [] then none else some install_id
        index := index.toNat
        count := count.toNat }
      exact .begun t ( begin_checked_eq hchecked).1 rfl rfl rfl
  | chunk transfer_id data =>
    show Effect s (s.transferChunk platform ..).2 (s.transferChunk platform ..).1
    unfold transferChunk
    cases ht : transfer_id.bind s.transfers with
    | none => exact .nothing false
    | some t =>
      cases hdata : data.bind platform.decode with
      | none => exact .nothing false
      | some data =>
        obtain ⟨id, -, hid⟩ := Option.bind_eq_some_iff.mp ht
        have hmem : s.transfers t.id = some t := hkeyed id t hid ▸ hid
        simp only
        split_ifs with hbad
        · exact .nothing false
        · let t' := { t with digest := t.digest ++ data, received := t.received + data.length }
          exact .received t t' data hmem rfl rfl rfl rfl
  | «end» transfer_id published =>
    show Effect s (s.endTransfer platform ..).2 (s.endTransfer platform ..).1
    cases ht : transfer_id.bind s.transfers with
    | none =>
      rw [endTransfer_eq_none ht]
      exact .nothing false
    | some t =>
      obtain ⟨id, -, hid⟩ := Option.bind_eq_some_iff.mp ht
      have hmem : s.transfers t.id = some t := hkeyed id t hid ▸ hid
      obtain ⟨content, hcontent⟩ := Option.isSome_iff_exists.mp
        ((hexact t.id).1.mpr (by rw [hmem]; exact Option.isSome_some))
      obtain ⟨s', heq, htransfers, hincoming, houtputs⟩ := endTransfer_eq published ht hcontent (hsound t ht)
      rw [heq]
      exact .finished t hmem htransfers hincoming houtputs
  | cancel transfer_id =>
    show Effect s true (s.cancelTransfer transfer_id)
    unfold cancelTransfer
    cases ht : s.transfers transfer_id with
    | none => exact .nothing true
    | some t =>
      cases hkeyed transfer_id t ht
      exact .finished t ht rfl rfl rfl
  | other throws => exact .nothing _

theorem Effect.keyed {returned : Bool} (h : Effect s returned s') (hkeyed : s.Keyed) : s'.Keyed := by
  intro id t ht
  cases h with
  | nothing => exact hkeyed id t ht
  | begun t' hnew htransfers hincoming houtputs =>
    rw [htransfers] at ht
    rcases eq_or_ne id t'.id with rfl | hid
    · rw [update_self] at ht
      exact Option.some.inj ht ▸ rfl
    · rw [update_of_ne hid] at ht
      exact hkeyed id t ht
  | received t1 t2 data ht1 hid2 htransfers hincoming houtputs =>
    rw [htransfers] at ht
    rcases eq_or_ne id t1.id with rfl | hid
    · rw [update_self] at ht
      exact Option.some.inj ht ▸ hid2
    · rw [update_of_ne hid] at ht
      exact hkeyed id t ht
  | finished t' ht' htransfers hincoming houtputs =>
    rw [htransfers] at ht
    rcases eq_or_ne id t'.id with rfl | hid
    · rw [update_self] at ht
      cases ht
    · rw [update_of_ne hid] at ht
      exact hkeyed id t ht

theorem Effect.exact {returned : Bool} (h : Effect s returned s') (hexact : s.Exact) : s'.Exact := by
  intro id
  cases h with
  | nothing => exact hexact id
  | begun t hnew htransfers hincoming houtputs =>
    rw [htransfers, hincoming, houtputs]
    rcases eq_or_ne id t.id with rfl | hid
    · simp
    · rw [update_of_ne hid, update_of_ne hid, update_of_ne hid]
      exact hexact id
  | received t t' data ht hid' htransfers hincoming houtputs =>
    rw [htransfers, hincoming, houtputs]
    rcases eq_or_ne id t.id with rfl | hid
    · obtain ⟨hsome, hopen⟩ := hexact t.id
      rw [ht] at hsome hopen
      simpa using ⟨hsome.mpr rfl, hopen rfl⟩
    · rw [update_of_ne hid, update_of_ne hid]
      exact hexact id
  | finished t ht htransfers hincoming houtputs =>
    rw [htransfers, hincoming, houtputs]
    rcases eq_or_ne id t.id with rfl | hid
    · simp
    · rw [update_of_ne hid, update_of_ne hid, update_of_ne hid]
      exact hexact id

/-- A frame that fails too late leaves a file without a transfer. -/
theorem sound_of_exact (platform : Platform) (message : Message) (hkeyed : s.Keyed) (hexact : s.Exact)
    (h : (s.handle platform message).1.Exact) : s.Sound platform message := by
  cases message with
  | begin operation transfer_id size sha256 name install_id index count =>
    intro hchecked
    obtain ⟨⟨id, size', hash, name'⟩, hchecked⟩ := Option.ne_none_iff_exists'.mp hchecked
    by_contra hlate
    have heq : s.beginTransfer operation transfer_id size sha256 name install_id index count =
        (s.create id, false) := by
      simp only [beginTransfer, hchecked, if_neg hlate]
    have h := (h id).1
    rw [handle, heq] at h
    have hnone := (begin_checked_eq hchecked).1
    rw [show (s.create id).transfers id = none from hnone] at h
    exact absurd (h.mp (by simp [create])) (by simp)
  | «end» transfer_id published =>
    intro t ht hverified hop
    obtain ⟨id, -, hid⟩ := Option.bind_eq_some_iff.mp ht
    have hmem : s.transfers t.id = some t := hkeyed id t hid ▸ hid
    have hfile : (s.incoming t.id).isSome = true := (hexact t.id).1.mpr (by rw [hmem]; exact Option.isSome_some)
    by_contra hbad
    have heq : s.endTransfer platform transfer_id published =
        ({ s.remove t.id with outputs := update s.outputs t.id false }, false) := by
      have hverified' : ¬verified platform t = false := by rw [hverified]; decide
      simp only [endTransfer_eq_some ht, finishTransfer, if_neg hverified', hop, finishPackagePart]
      split
      · next installId content hinstall hcontent =>
        refine if_pos (Nat.lt_of_not_le fun hlength => hbad ⟨?_, hlength⟩)
        rw [hinstall]
        exact Option.some_ne_none _
      · rfl
    have h := (h t.id).1
    rw [handle, heq] at h
    have hnone : (s.remove t.id).transfers t.id = none := update_self ..
    rw [hnone] at h
    exact absurd (h.mp hfile) (by simp)
  | _ => trivial

theorem Exact.idle (hexact : s.Exact) (h : ∀ id, s.transfers id = none) : s.Idle := by
  refine fun id => ⟨h id, Option.not_isSome_iff_eq_none.mp fun hsome => ?_⟩
  have := (hexact id).1.mp hsome
  rw [h id] at this
  cases this

theorem careful_of_none (h : s.step platform label = none) : s.Careful platform label := by
  cases label with
  | frame message =>
    intro hconnected
    rw [step, if_pos hconnected] at h
    cases h
  | disconnect =>
    intro hconnected
    rw [step, if_pos hconnected] at h
    cases h
  | _ => trivial

theorem frame_eq_some (h : s.step platform (.frame message) = some s') :
    s.connected = true ∧ s' = { (s.handle platform message).1 with connected := (s.handle platform message).2 } := by
  obtain ⟨hconnected, rfl⟩ := of_guard_eq_some h
  exact ⟨hconnected, rfl⟩

/-- What a careful step keeps. -/
theorem Kept.step (hkeyed : s.Keyed) (hkept : s.Kept) (hcareful : s.Careful platform label)
    (h : s.step platform label = some s') : s'.Keyed ∧ s'.Kept := by
  obtain ⟨hexact, hidle⟩ := hkept
  cases label with
  | connect =>
    obtain ⟨-, rfl⟩ := of_guard_eq_some h
    exact ⟨hkeyed, hexact, fun h => by cases h⟩
  | frame message =>
    obtain ⟨hconnected, rfl⟩ := frame_eq_some h
    obtain ⟨hsound, hthrow⟩ := hcareful hconnected
    have heffect := handle_effect hkeyed hexact hsound
    refine ⟨heffect.keyed hkeyed, heffect.exact hexact, fun hthrown => ?_⟩
    have hthrown : (s.handle platform message).2 = false := hthrown
    have hnone := hthrow hthrown
    rw [hthrown] at heffect
    -- A frame that is rejected changes nothing.
    generalize (s.handle platform message).1 = s1 at heffect ⊢
    cases heffect
    exact hexact.idle hnone
  | disconnect =>
    obtain ⟨hconnected, rfl⟩ := of_guard_eq_some h
    exact ⟨hkeyed, hexact, fun _ => hexact.idle (hcareful hconnected)⟩
  | onDestroy =>
    cases Option.some.inj h
    have hnone (id : Str) : (if (s.transfers id).isSome = true then none else s.incoming id) = none := by
      split_ifs with hsome
      · rfl
      · exact Option.not_isSome_iff_eq_none.mp fun hs => hsome ((hexact id).1.mp hs)
    refine ⟨(fun id t ht => by cases ht), fun id => ⟨?_, (fun ht => by cases ht)⟩, fun _ id => ⟨rfl, hnone id⟩⟩
    show (Option.isSome (if _ then none else _) = true ↔ Option.isSome none = true)
    rw [hnone id]
    exact ⟨(fun h => by cases h), (fun h => by cases h)⟩

theorem careful_of_kept (hkeyed : s.Keyed) (hkept : s.Kept) (h : s.step platform label = some s') (hkept' : s'.Kept) :
    s.Careful platform label := by
  cases label with
  | frame message =>
    obtain ⟨hconnected, rfl⟩ := frame_eq_some h
    intro _
    have hsound := sound_of_exact platform message hkeyed hkept.1 hkept'.1
    refine ⟨hsound, fun hthrown id => ?_⟩
    have heffect := handle_effect hkeyed hkept.1 hsound
    have hidle := hkept'.2 hthrown id
    rw [hthrown] at heffect
    generalize (s.handle platform message).1 = s1 at heffect hidle
    cases heffect
    exact hidle.1
  | disconnect =>
    obtain ⟨hconnected, rfl⟩ := of_guard_eq_some h
    exact fun _ id => (hkept'.2 rfl id).1
  | _ => trivial

theorem beginAtomic_of_careful (hkeyed : s.Keyed) (hexact : s.Exact) (h : s.Careful platform label) :
    s.BeginAtomic label := by
  cases label with
  | frame message =>
    cases message with
    | begin operation transfer_id size sha256 name install_id index count =>
      intro hconnected hthrown
      have heffect := handle_effect hkeyed hexact (h hconnected).1
      simp only [handle, hthrown] at heffect
      generalize (s.beginTransfer operation transfer_id size sha256 name install_id index count).1 = s1 at heffect ⊢
      cases heffect
      exact ⟨rfl, fun _ => rfl⟩
    | _ => trivial
  | _ => trivial

end Service

/-- In every run, the files are those of the transfers, a `beginTransfer` that throws changes nothing and a connection
leaves nothing behind, if and only if no frame fails too late and no connection ends while there is a transfer. -/
theorem bookkept_iff (platform : Platform) (labels : List Label) :
    ((serviceMachine platform).AllStates Service.Kept (serviceMachine platform).init labels ∧
      (serviceMachine platform).AllSteps Service.BeginAtomic (serviceMachine platform).init labels) ↔
    (serviceMachine platform).AllSteps (Service.Careful platform) (serviceMachine platform).init labels := by
  have hinit : Service.Keyed {} ∧ Service.Kept {} :=
    ⟨(fun _ _ h => by cases h), fun _ => ⟨Iff.rfl, (fun h => by cases h)⟩, fun _ _ => ⟨rfl, rfl⟩⟩
  have hstates := Machine.allStates_iff_allSteps_of_enabled (m := serviceMachine platform)
    (R := fun s => s.Keyed ∧ s.Kept) (P := Service.Kept) (C := Service.Careful platform) (fun _ h => h.2)
    (fun _ _ h => Service.careful_of_none h) (fun _ _ _ hR hC h => hR.2.step hR.1 hC h)
    (fun _ _ _ hR h hP => Service.careful_of_kept hR.1 hR.2 h hP) labels (serviceMachine platform).init hinit
  rw [hstates]
  refine ⟨And.left, fun hcareful => ⟨hcareful, ?_⟩⟩
  exact Machine.allSteps_of_relation (R := fun s => s.Keyed ∧ s.Kept) (fun _ _ _ hR hC h => hR.2.step hR.1 hC h)
    (fun _ _ hR hC => Service.beginAtomic_of_careful hR.1 hR.2.1 hC) labels _ hinit hcareful

/-- The checksum of a text, and the chunk for it. -/
def examplePlatform : Platform where
  hexdigest data :=
    if data = ByteString.of "a" then str "ca978112ca1bbdcafac231b39a23dc4da786eff8147c4e72b9807785afee48bb"
    else str "e3b0c44298fc1c149afbf4c8996fb92427ae41e4649b934ca495991b7852b855"
  decode raw := if raw = str "YQ==" then some (.of "a") else none

/-- A part of a package with an index that there is not. -/
def exampleBegin (index : Int) : Message :=
  .begin .package_part (some (str "A")) (some 1)
    (some (str "ca978112ca1bbdcafac231b39a23dc4da786eff8147c4e72b9807785afee48bb")) (some (str "a.apk")) (str "I")
    index 1

/-- A `beginTransfer` that throws because of its index leaves a file; and a transfer is still there when the next
connection starts, so that its id cannot be used. -/
theorem not_always_bookkept :
    (¬∀ labels, (serviceMachine examplePlatform).AllSteps Service.BeginAtomic (serviceMachine examplePlatform).init
      labels) ∧
    ¬∀ labels, (serviceMachine examplePlatform).AllStates Service.Kept (serviceMachine examplePlatform).init
      labels := by
  constructor
  · intro h
    have hatomic := ((h [.connect, .frame (exampleBegin 1)]).2 _ rfl).1 rfl rfl
    exact absurd (hatomic.2 (str "A")) (by decide +kernel)
  · intro h
    obtain ⟨s, hs⟩ : ∃ s, (serviceMachine examplePlatform).exec (serviceMachine examplePlatform).init
        [.connect, .frame (exampleBegin 0), .disconnect] = some s := ⟨_, rfl⟩
    have hkept := (h _).last hs
    cases hs
    exact absurd (hkept.2 rfl (str "A")).1 (fun h => by cases h)

end AnboxReboxed.Android.BridgeService
