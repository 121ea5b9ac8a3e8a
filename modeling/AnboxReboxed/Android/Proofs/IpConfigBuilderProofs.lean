import AnboxReboxed.Android.IpConfigBuilder
import AnboxReboxed.Common.Proofs.BinaryWriterProofs

/-!
# Proofs: when the IP configuration can be read

One key `dns` is written before all of the servers, so that a reader gets one server, whatever their number is.
That no other reading of the bytes makes up for it is a matter of counting: each server that is read takes seven
bytes besides its own, and only two of them were written.
-/

namespace AnboxReboxed.Android

open AnboxReboxed.Lib AnboxReboxed.Common ByteString

/-! ## What is written -/

namespace IpConfigBuilder

variable (b : IpConfigBuilder) {store : IpConfigStore}

/-- `write` after the order is set, up to the result. -/
def body : WriterM Unit := do
  write_uint32 b.version_.value
  write_string_with_size assignment_key
  write_string_with_size (assignment_to_string b.assignment_)
  write_string_with_size link_address_key
  write_string_with_size b.address
  write_uint32 b.prefix_length
  write_string_with_size gateway_key
  write_uint32 is_default_gateway
  write_uint32 gateway_is_present
  write_string_with_size b.gateway_
  write_string_with_size dns_key
  b.dns_servers_.forM write_string_with_size
  write_string_with_size id_key
  write_uint32 b.id_
  write_string_with_size eos_key

theorem writes_body : Writes b.body b.bytes := by
  unfold body bytes
  refine (writes_uint32 _).bind ?_
  refine (writes_string_with_size _).bind ?_
  refine (writes_string_with_size _).bind ?_
  refine (writes_string_with_size _).bind ?_
  refine (writes_string_with_size _).bind ?_
  refine (writes_uint32 _).bind ?_
  refine (writes_string_with_size _).bind ?_
  refine (writes_uint32 _).bind ?_
  refine (writes_uint32 _).bind ?_
  refine (writes_string_with_size _).bind ?_
  refine (writes_string_with_size _).bind ?_
  refine (writes_forM _).bind ?_
  refine (writes_string_with_size _).bind ?_
  refine (writes_uint32 _).bind ?_
  exact writes_string_with_size _

theorem write_eq (w : BinaryWriter) : b.write w =
    (b.body >>= fun _ => do return (← get).bytes_written : WriterM Nat) { w with byte_order_ := .Big } := by
  simp only [body, bind_assoc]
  rfl

/-- `write`, when there is room for all of it and when there is not. -/
theorem write_spec (w : BinaryWriter) (hw : w.current_ = w.begin_) :
    (w.begin_ + b.bytes.length ≤ w.end_ → ∃ w', b.write w = (.ok b.bytes.length, w') ∧ w'.begin_ = w.begin_ ∧
      (w'.memory.drop w'.begin_).take b.bytes.length = b.bytes ∧
      ∀ i, i < w.begin_ ∨ w.end_ ≤ i → w'.memory[i]? = w.memory[i]?) ∧
    (w.end_ < w.begin_ + b.bytes.length → ∃ w', b.write w = (.error .out_of_range, w') ∧
      ∀ i, i < w.begin_ ∨ w.end_ ≤ i → w'.memory[i]? = w.memory[i]?) := by
  let big : BinaryWriter := { w with byte_order_ := .Big }
  obtain ⟨hok, herror⟩ := b.writes_body big rfl
  have hcurrent : big.current_ = w.begin_ := hw
  rw [write_eq]
  constructor
  · intro hroom
    have hroom' : big.current_ + b.bytes.length ≤ big.end_ := by rw [hcurrent]; exact hroom
    have hwithin := BinaryWriter.within_put hroom'
    refine ⟨big.put b.bytes hroom', ?_, rfl, BinaryWriter.written_put hw hroom', ?_⟩
    · have hsize : (big.put b.bytes hroom').bytes_written = b.bytes.length := by
        simp only [BinaryWriter.bytes_written, BinaryWriter.put]
        show w.current_ + b.bytes.length - w.begin_ = b.bytes.length
        omega
      rw [← hsize]
      exact bind_ok (hok hroom')
    · intro i hi
      apply hwithin.outside i
      rw [hcurrent]
      exact hi
  · intro hroom
    obtain ⟨w', heq, hwithin⟩ := herror (by rw [hcurrent]; exact hroom)
    refine ⟨w', bind_error heq, ?_⟩
    intro i hi
    apply hwithin.outside i
    rw [hcurrent]
    exact hi

theorem roundTrips_iff_read (w : BinaryWriter) (hw : w.current_ = w.begin_) :
    b.RoundTrips store w ↔ w.end_ - w.begin_ < b.bytes.length ∨ store.read b.bytes = some (b.configuration, []) := by
  have hend : w.begin_ ≤ w.end_ := Nat.le_trans w.begin_le w.current_le
  obtain ⟨hok, herror⟩ := b.write_spec w hw
  by_cases hroom : w.begin_ + b.bytes.length ≤ w.end_
  · obtain ⟨w', heq, hbegin, hbytes, houtside⟩ := hok hroom
    constructor
    · intro h
      refine Or.inr ?_
      have hread := h.read _ _ heq
      rwa [hbytes] at hread
    · intro h
      have hread := h.resolve_left (by omega)
      refine ⟨fun n w1 h1 => ?_, fun h1 => absurd h1 (by omega), fun i hi => ?_⟩
      · obtain ⟨hn, rfl⟩ := Prod.mk.inj (heq.symm.trans h1)
        cases hn
        rw [hbytes, hread]
      · rw [heq]
        exact houtside i hi
  · obtain ⟨w', heq, houtside⟩ := herror (by omega)
    refine ⟨fun _ => Or.inl (by omega), fun _ => ⟨fun n w1 h1 => ?_, fun _ => ⟨w', heq⟩, fun i hi => ?_⟩⟩
    · cases (Prod.mk.inj (heq.symm.trans h1)).1
    · rw [heq]
      exact houtside i hi

end IpConfigBuilder

/-! ## What is read -/

namespace IpConfigStore

variable {store : IpConfigStore} {c c' : IpConfiguration} {key l l' : ByteString}

theorem skip_destination_length (h : skip_destination l = some l') : l'.length ≤ l.length := by
  unfold skip_destination at h
  cases hs : readSized l with
  | none => simp [hs] at h
  | some p =>
    simp only [hs, Option.map_eq_some_iff, Prod.exists] at h
    obtain ⟨n, l1, hn, rfl⟩ := h
    have h1 := (readSized_some hs).2
    have h2 := readBe32_some hn
    omega

/-- A gateway that was read is a short text, and it took some bytes. -/
theorem read_route_some {g : Option ByteString} (h : read_route l = some (g, l')) :
    l'.length ≤ l.length ∧ ∀ s, g = some s → s.length < 65536 := by
  unfold read_route at h
  cases h1 : readBe32 l with
  | none => simp [h1] at h
  | some p =>
    have hlen1 := readBe32_some h1
    simp only [h1] at h
    cases h2 : (if p.1 = 1 then skip_destination p.2 else some p.2) with
    | none => simp [h2] at h
    | some l2 =>
      have hlen2 : l2.length ≤ p.2.length := by
        by_cases hp : p.1 = 1
        · rw [if_pos hp] at h2
          exact skip_destination_length h2
        · rw [if_neg hp] at h2
          exact Nat.le_of_eq (congrArg List.length (Option.some.inj h2)).symm
      simp only [h2] at h
      cases h3 : readBe32 l2 with
      | none => simp [h3] at h
      | some q =>
        have hlen3 := readBe32_some h3
        simp only [h3] at h
        by_cases hq : q.1 = 1
        · rw [if_pos hq] at h
          obtain ⟨r, hr, heq⟩ := Option.map_eq_some_iff.mp h
          obtain ⟨rfl, rfl⟩ := Prod.mk.inj heq
          have hr := readSized_some hr
          exact ⟨by omega, fun s hs => Option.some.inj hs ▸ hr.1⟩
        · rw [if_neg hq] at h
          obtain ⟨rfl, rfl⟩ := Prod.mk.inj (Option.some.inj h)
          exact ⟨by omega, fun s hs => by cases hs⟩

theorem read_gateway_some {version : Nat} {g : Option ByteString} (h : store.read_gateway version l = some (g, l')) :
    l'.length ≤ l.length ∧ ∀ s, g = some s → s.length < 65536 := by
  unfold read_gateway at h
  by_cases hroutes : store.has_routes version = true
  · rw [if_pos hroutes] at h
    exact read_route_some h
  · rw [if_neg hroutes] at h
    obtain ⟨p, hp, heq⟩ := Option.map_eq_some_iff.mp h
    obtain ⟨rfl, rfl⟩ := Prod.mk.inj heq
    have hp := readSized_some hp
    exact ⟨by omega, fun s hs => Option.some.inj hs ▸ hp.1⟩

/-- No text is longer than a size can say. -/
structure Short (c : IpConfiguration) : Prop where
  address : ∀ p, c.address = some p → p.1.length < 65536
  gateway : ∀ s, c.gateway = some s → s.length < 65536
  dns : ∀ s ∈ c.dns_servers, s.length < 65536

theorem short_init (version : Nat) : Short { version } where
  address p h := by cases h
  gateway s h := by cases h
  dns s h := by cases h

/-- What reading the values of a key can do. -/
structure Reads (key : ByteString) (c : IpConfiguration) (l : ByteString) (c' : IpConfiguration) (l' : ByteString) :
    Prop where
  length : l'.length ≤ l.length
  short : Short c → Short c'
  gateway : ∀ s, c.gateway = some s → c'.gateway = some s
  servers : (key = dns_key ∧ ∃ s, c'.dns_servers = c.dns_servers ++ [s] ∧ l.length = 2 + s.length + l'.length) ∨
    (key ≠ dns_key ∧ c'.dns_servers = c.dns_servers)

theorem reads_of_read_values (h : store.read_values key c l = some (c', l')) : Reads key c l c' l' := by
  unfold read_values at h
  by_cases hid : key = id_key
  · rw [if_pos hid] at h
    obtain ⟨p, hp, heq⟩ := Option.map_eq_some_iff.mp h
    obtain ⟨rfl, rfl⟩ := Prod.mk.inj heq
    have hlen := readBe32_some hp
    refine ⟨by omega, fun hc => ⟨hc.address, hc.gateway, hc.dns⟩, fun _ hs => hs, Or.inr ⟨?_, rfl⟩⟩
    rw [hid]
    decide
  rw [if_neg hid] at h
  by_cases hassignment : key = assignment_key
  · rw [if_pos hassignment] at h
    obtain ⟨p, hp, heq⟩ := Option.map_eq_some_iff.mp h
    obtain ⟨rfl, rfl⟩ := Prod.mk.inj heq
    have hlen := (readSized_some hp).2
    refine ⟨by omega, fun hc => ⟨hc.address, hc.gateway, hc.dns⟩, fun _ hs => hs, Or.inr ⟨?_, rfl⟩⟩
    rw [hassignment]
    decide
  rw [if_neg hassignment] at h
  by_cases haddress : key = link_address_key
  · rw [if_pos haddress] at h
    obtain ⟨p, hp, h⟩ := Option.bind_eq_some_iff.mp h
    obtain ⟨q, hq, heq⟩ := Option.map_eq_some_iff.mp h
    obtain ⟨rfl, rfl⟩ := Prod.mk.inj heq
    have hp := readSized_some hp
    have hq := readBe32_some hq
    refine ⟨by omega, fun hc => ⟨?_, hc.gateway, hc.dns⟩, fun _ hs => hs, Or.inr ⟨?_, rfl⟩⟩
    · intro r hr
      cases ha : c.address with
      | some r' =>
        rw [ha, Option.some_or] at hr
        exact hc.address r (ha.trans hr)
      | none =>
        rw [ha, Option.none_or] at hr
        cases hr
        exact hp.1
    · rw [haddress]
      decide
  rw [if_neg haddress] at h
  by_cases hgateway : key = gateway_key
  · rw [if_pos hgateway] at h
    obtain ⟨p, hp, heq⟩ := Option.map_eq_some_iff.mp h
    obtain ⟨rfl, rfl⟩ := Prod.mk.inj heq
    have hp := read_gateway_some hp
    refine ⟨hp.1, fun hc => ⟨hc.address, ?_, hc.dns⟩, fun s hs => by simp [hs], Or.inr ⟨?_, rfl⟩⟩
    · intro s hs
      cases hg : c.gateway with
      | some s' =>
        rw [hg, Option.some_or] at hs
        exact hc.gateway s (hg.trans hs)
      | none =>
        rw [hg, Option.none_or] at hs
        exact hp.2 s hs
    · rw [hgateway]
      decide
  rw [if_neg hgateway] at h
  by_cases hdns : key = dns_key
  · rw [if_pos hdns] at h
    obtain ⟨p, hp, heq⟩ := Option.map_eq_some_iff.mp h
    obtain ⟨rfl, rfl⟩ := Prod.mk.inj heq
    have hp := readSized_some hp
    refine ⟨by omega, fun hc => ⟨hc.address, hc.gateway, ?_⟩, fun _ hs => hs, Or.inl ⟨hdns, p.1, rfl, hp.2⟩⟩
    intro s hs
    rcases List.mem_append.mp hs with hs | hs
    · exact hc.dns s hs
    · rw [List.mem_singleton.mp hs]
      exact hp.1
  rw [if_neg hdns] at h
  by_cases htext : key ∈ proxy_text_keys
  · rw [if_pos htext] at h
    obtain ⟨p, hp, heq⟩ := Option.map_eq_some_iff.mp h
    obtain ⟨rfl, rfl⟩ := Prod.mk.inj heq
    have hp := readSized_some hp
    exact ⟨by omega, fun hc => hc, fun _ hs => hs, Or.inr ⟨hdns, rfl⟩⟩
  rw [if_neg htext] at h
  by_cases hport : key = proxy_port_key
  · rw [if_pos hport] at h
    obtain ⟨p, hp, heq⟩ := Option.map_eq_some_iff.mp h
    obtain ⟨rfl, rfl⟩ := Prod.mk.inj heq
    have hp := readBe32_some hp
    exact ⟨by omega, fun hc => hc, fun _ hs => hs, Or.inr ⟨hdns, rfl⟩⟩
  rw [if_neg hport] at h
  obtain ⟨rfl, rfl⟩ := Prod.mk.inj (Option.some.inj h)
  exact ⟨Nat.le_refl _, fun hc => hc, fun _ hs => hs, Or.inr ⟨hdns, rfl⟩⟩

/-- One turn of the loop. -/
theorem read_keys_cases {fuel : Nat} {r : IpConfiguration × ByteString} (h : store.read_keys (fuel + 1) c l = some r) :
    ∃ key l1, readSized l = some (key, l1) ∧ ((key = eos_key ∧ r = (c, l1)) ∨
      (key ≠ eos_key ∧ ∃ c' l', store.read_values key c l1 = some (c', l') ∧ store.read_keys fuel c' l' = some r)) := by
  unfold read_keys at h
  cases hs : readSized l with
  | none => simp [hs] at h
  | some p =>
    refine ⟨p.1, p.2, rfl, ?_⟩
    simp only [hs] at h
    by_cases heos : p.1 = eos_key
    · rw [if_pos heos] at h
      exact Or.inl ⟨heos, (Option.some.inj h).symm⟩
    · rw [if_neg heos] at h
      refine Or.inr ⟨heos, ?_⟩
      cases hv : store.read_values p.1 c p.2 with
      | none => simp [hv] at h
      | some q =>
        simp only [hv] at h
        exact ⟨q.1, q.2, rfl, h⟩

/-- The bytes it takes to read these servers. -/
def weight (servers : List ByteString) : Nat := (servers.map fun s => 7 + s.length).sum

theorem weight_cons (s : ByteString) (servers : List ByteString) :
    weight (s :: servers) = 7 + s.length + weight servers :=
  rfl

/-- What the loop can do: it has the bytes for what it reads, and `eos` after it. -/
theorem read_keys_some {fuel : Nat} : ∀ {c l c' l'}, store.read_keys fuel c l = some (c', l') →
    (Short c → Short c') ∧ (∀ s, c.gateway = some s → c'.gateway = some s) ∧
    ∃ servers, c'.dns_servers = c.dns_servers ++ servers ∧ weight servers + 5 + l'.length ≤ l.length := by
  induction fuel with
  | zero =>
    intro c l c' l' h
    cases h
  | succ fuel ih =>
    intro c l c' l' h
    obtain ⟨key, l1, hkey, hcases⟩ := read_keys_cases h
    have hlen := (readSized_some hkey).2
    rcases hcases with ⟨heos, hr⟩ | ⟨heos, c1, l2, hvalues, hrest⟩
    · obtain ⟨rfl, rfl⟩ := Prod.mk.inj hr
      have hlen3 : key.length = 3 := by rw [heos]; rfl
      exact ⟨fun hc => hc, fun _ hs => hs, [], (List.append_nil _).symm,
        by simp only [weight, List.map_nil, List.sum_nil]; omega⟩
    · have hreads := reads_of_read_values hvalues
      obtain ⟨hshort, hgateway, servers, hservers, hweight⟩ := ih hrest
      refine ⟨fun hc => hshort (hreads.short hc), fun s hs => hgateway s (hreads.gateway s hs), ?_⟩
      rcases hreads.servers with ⟨hdns, s, hs, hlen2⟩ | ⟨_, hsame⟩
      · have hlen3 : key.length = 3 := by rw [hdns]; rfl
        refine ⟨s :: servers, ?_, ?_⟩
        · rw [hservers, hs, List.append_assoc, List.singleton_append]
        · rw [weight_cons]
          omega
      · have hlen2 := hreads.length
        exact ⟨servers, by rw [hservers, hsame], by omega⟩

/-! ## Known keys -/

variable {fuel : Nat} {r : IpConfiguration × ByteString}

theorem read_keys_eos (c : IpConfiguration) (l : ByteString) :
    store.read_keys (fuel + 1) c (sized eos_key ++ l) = some (c, l) := by
  rw [read_keys, readSized_sized (by decide)]
  rfl

theorem read_keys_sized (hkey : key.length < 65536) (heos : key ≠ eos_key)
    (hvalues : store.read_values key c l = some (c', l')) :
    store.read_keys (fuel + 1) c (sized key ++ l) = store.read_keys fuel c' l' := by
  rw [read_keys, readSized_sized hkey]
  simp only [if_neg heos, hvalues]

theorem read_keys_sized_some (hkey : key.length < 65536) (heos : key ≠ eos_key)
    (h : store.read_keys fuel c (sized key ++ l) = some r) :
    ∃ n c' l', store.read_values key c l = some (c', l') ∧ store.read_keys n c' l' = some r := by
  cases fuel with
  | zero => cases h
  | succ n =>
    obtain ⟨key', l1, hread, hcases⟩ := read_keys_cases h
    rw [readSized_sized hkey] at hread
    obtain ⟨rfl, rfl⟩ := Prod.mk.inj (Option.some.inj hread)
    obtain ⟨_, c', l', hvalues, hrest⟩ := hcases.resolve_left fun h' => heos h'.1
    exact ⟨n, c', l', hvalues, hrest⟩

theorem read_values_assignment (a : Assignment) (c : IpConfiguration) (l : ByteString) :
    store.read_values assignment_key c (sized (assignment_to_string a) ++ l) =
      some ({ c with assignment := some a }, l) := by
  have hshort : (assignment_to_string a).length < 65536 := by cases a <;> decide
  have hvalue : value_of (assignment_to_string a) = some a := by cases a <;> decide
  have hid : assignment_key ≠ id_key := by decide
  rw [read_values, if_neg hid, if_pos rfl, readSized_sized hshort]
  simp only [Option.map_some, hvalue, Option.some_or]

theorem read_values_address {address : ByteString} (h : address.length < 65536) (n : UInt32)
    (hc : c.address = none) (l : ByteString) :
    store.read_values link_address_key c (sized address ++ (be32 n.toNat ++ l)) =
      some ({ c with address := some (address, n.toNat) }, l) := by
  have hid : link_address_key ≠ id_key := by decide
  have hassignment : link_address_key ≠ assignment_key := by decide
  rw [read_values, if_neg hid, if_neg hassignment, if_pos rfl, readSized_sized h]
  simp only [Option.bind_some, readBe32_be32, Nat.mod_eq_of_lt n.toNat_lt, Option.map_some, hc, Option.none_or]

theorem read_values_gateway (c : IpConfiguration) (l : ByteString) :
    store.read_values gateway_key c l = (store.read_gateway c.version l).map fun p =>
      ({ c with gateway := c.gateway.or p.1 }, p.2) := by
  have hid : gateway_key ≠ id_key := by decide
  have hassignment : gateway_key ≠ assignment_key := by decide
  have haddress : gateway_key ≠ link_address_key := by decide
  rw [read_values, if_neg hid, if_neg hassignment, if_neg haddress, if_pos rfl]

theorem read_values_dns (c : IpConfiguration) (l : ByteString) :
    store.read_values dns_key c l = (readSized l).map fun p =>
      ({ c with dns_servers := c.dns_servers ++ [p.1] }, p.2) := by
  have hid : dns_key ≠ id_key := by decide
  have hassignment : dns_key ≠ assignment_key := by decide
  have haddress : dns_key ≠ link_address_key := by decide
  have hgateway : dns_key ≠ gateway_key := by decide
  rw [read_values, if_neg hid, if_neg hassignment, if_neg haddress, if_neg hgateway, if_pos rfl]

theorem read_values_id (n : UInt32) (c : IpConfiguration) (l : ByteString) :
    store.read_values id_key c (be32 n.toNat ++ l) = some ({ c with id := some n.toNat }, l) := by
  rw [read_values, if_pos rfl, readBe32_be32, Nat.mod_eq_of_lt n.toNat_lt, Option.map_some]

/-- A route, as it is written. -/
theorem read_gateway_route {version : Nat} {gateway : ByteString} (hroutes : store.has_routes version = true)
    (h : gateway.length < 65536) (l : ByteString) :
    store.read_gateway version (be32 is_default_gateway.toNat ++ (be32 gateway_is_present.toNat ++
      (sized gateway ++ l))) = some (some gateway, l) := by
  have hdefault : is_default_gateway.toNat % 4294967296 = 0 := by decide
  have hpresent : gateway_is_present.toNat % 4294967296 = 1 := by decide
  have hnot : ¬(0 : Nat) = 1 := by decide
  rw [read_gateway, if_pos hroutes, read_route, readBe32_be32, hdefault]
  simp only [if_neg hnot]
  rw [readBe32_be32, hpresent]
  simp only [if_true]
  rw [readSized_sized h, Option.map_some]

/-! ## Unknown keys -/

theorem read_values_unknown (hkey : key.length ≤ 1) : store.read_values key c l = some (c, l) := by
  have hne : ∀ known : ByteString, 2 ≤ known.length → key ≠ known := by
    rintro known hknown rfl
    omega
  have htext : key ∉ proxy_text_keys := by
    intro hmem
    simp only [proxy_text_keys, List.mem_cons, List.not_mem_nil, or_false] at hmem
    rcases hmem with h | h | h | h
    · exact hne _ (by decide) h
    · exact hne _ (by decide) h
    · exact hne _ (by decide) h
    · exact hne _ (by decide) h
  rw [read_values, if_neg (hne _ (by decide)), if_neg (hne _ (by decide)), if_neg (hne _ (by decide)),
    if_neg (hne _ (by decide)), if_neg (hne _ (by decide)), if_neg htext, if_neg (hne _ (by decide))]

theorem read_keys_unknown (hkey : key.length ≤ 1) (h : store.read_keys fuel c (sized key ++ l) = some r) :
    ∃ n, store.read_keys n c l = some r := by
  have heos : key ≠ eos_key := by
    rintro rfl
    exact absurd hkey (by decide)
  obtain ⟨n, c', l', hvalues, hrest⟩ := read_keys_sized_some (by omega) heos h
  rw [read_values_unknown hkey] at hvalues
  obtain ⟨rfl, rfl⟩ := Prod.mk.inj (Option.some.inj hvalues)
  exact ⟨n, hrest⟩

end IpConfigStore

/-! ## The file as it is read -/

namespace IpConfigBuilder

open IpConfigStore

variable {b : IpConfigBuilder} {store : IpConfigStore} {fuel : Nat} {c : IpConfiguration} {l : ByteString}
  {r : IpConfiguration × ByteString}

/-- The end of the file, behind the servers. -/
def trailer (b : IpConfigBuilder) : ByteString := sized id_key ++ (be32 b.id_.toNat ++ sized eos_key)

/-- The route, and what is behind it. -/
def route (b : IpConfigBuilder) : ByteString :=
  be32 is_default_gateway.toNat ++ (be32 gateway_is_present.toNat ++ (sized b.gateway_ ++
    (sized dns_key ++ (b.dns_servers_.flatMap sized ++ b.trailer))))

/-- What is read before the gateway. -/
def beforeGateway (b : IpConfigBuilder) : IpConfiguration where
  version := b.version_.value.toNat
  assignment := some b.assignment_
  address := some (b.address, b.prefix_length.toNat)

theorem length_trailer (b : IpConfigBuilder) : b.trailer.length = 13 := rfl

theorem length_servers (servers : List ByteString) :
    (servers.flatMap sized).length + 5 * servers.length = weight servers := by
  induction servers with
  | nil => rfl
  | cons s servers ih =>
    rw [List.flatMap_cons, List.length_append, length_sized, List.length_cons, weight_cons]
    omega

/-- The keys of the file. -/
def keys (b : IpConfigBuilder) : ByteString :=
  sized assignment_key ++ (sized (assignment_to_string b.assignment_) ++ (sized link_address_key ++
    (sized b.address ++ (be32 b.prefix_length.toNat ++ (sized gateway_key ++ b.route)))))

theorem read_bytes (b : IpConfigBuilder) (store : IpConfigStore) :
    store.read b.bytes = store.read_keys b.keys.length { version := b.version_.value.toNat } b.keys := by
  have hversion : ¬(b.version_.value.toNat ≠ 1 ∧ b.version_.value.toNat ≠ 2) := by
    cases b.version_ with
    | Version1 => exact fun h => h.1 rfl
    | Version2 => exact fun h => h.2 rfl
  have hbytes : b.bytes = be32 b.version_.value.toNat ++ b.keys := rfl
  rw [hbytes, IpConfigStore.read, readBe32_be32, Nat.mod_eq_of_lt b.version_.value.toNat_lt]
  exact if_neg hversion

/-- The first keys are read as they were written. -/
theorem read_keys_front (haddress : b.address.length < 65536) :
    store.read_keys (fuel + 2) { version := b.version_.value.toNat } b.keys =
      store.read_keys fuel b.beforeGateway (sized gateway_key ++ b.route) := by
  rw [keys, read_keys_sized (by decide) (by decide) (read_values_assignment _ _ _),
    read_keys_sized (by decide) (by decide) (read_values_address haddress _ rfl _)]
  rfl

theorem length_keys_le (b : IpConfigBuilder) : 5 ≤ b.keys.length := by
  rw [keys, List.length_append, length_sized]
  have h : assignment_key.length = 12 := rfl
  omega

/-- The front of the file, when the file can be read. -/
theorem read_gateway_of_read (haddress : b.address.length < 65536) (h : store.read b.bytes = some r) :
    ∃ n, store.read_keys n b.beforeGateway (sized gateway_key ++ b.route) = some r := by
  obtain ⟨n, hn⟩ := Nat.exists_eq_add_of_le' (Nat.le_trans (by decide : 2 ≤ 5) b.length_keys_le)
  rw [read_bytes, hn, read_keys_front haddress] at h
  exact ⟨n, h⟩

/-- Where the file is read as a key of 868 bytes, two bytes before the servers, too little is left for them. -/
theorem not_read_of_long_key (hc : c.dns_servers = []) {text : ByteString} (htext : text.length = 2) :
    store.read_keys fuel c (be16 868 ++ (text ++ (b.dns_servers_.flatMap sized ++ b.trailer))) ≠
      some (b.configuration, []) := by
  intro h
  cases fuel with
  | zero => cases h
  | succ n =>
    have hservers := length_servers b.dns_servers_
    obtain ⟨key, l, hread, hcases⟩ := read_keys_cases h
    have hlen := (readSized_some hread).2
    simp only [List.length_append, length_be16, htext, length_trailer] at hlen
    have hkey : key.length = 868 := by
      rw [readSized, readBe16_be16] at hread
      simp only [Option.ite_none_right_eq_some, Option.some.injEq, Prod.mk.injEq] at hread
      obtain ⟨hle, rfl, _⟩ := hread
      exact List.length_take_of_le hle
    rcases hcases with ⟨heos, _⟩ | ⟨_, c', l', hvalues, hrest⟩
    · rw [heos] at hkey
      exact absurd hkey (by decide)
    · have hreads := reads_of_read_values hvalues
      have hsame : c'.dns_servers = [] := by
        rcases hreads.servers with ⟨hdns, _⟩ | ⟨_, hsame⟩
        · rw [hdns] at hkey
          exact absurd hkey (by decide)
        · rw [hsame, hc]
      obtain ⟨_, _, servers, hread, hweight⟩ := read_keys_some hrest
      have hall : servers = b.dns_servers_ := by
        rw [hsame, List.nil_append] at hread
        exact hread.symm
      have hlen' := hreads.length
      rw [hall] at hweight
      omega

/-- A version without routes takes two bytes of the first flag for the gateway, which is empty then. When it is
empty indeed, the flags are read as keys up to the size of `dns`, which is read as 868. -/
theorem not_read_of_no_routes (hroutes : store.has_routes b.version_.value.toNat = false)
    (haddress : b.address.length < 65536) : store.read b.bytes ≠ some (b.configuration, []) := by
  intro h
  obtain ⟨n, h⟩ := read_gateway_of_read haddress h
  obtain ⟨n, c, l, hvalues, h⟩ := read_keys_sized_some (by decide) (by decide) h
  have hroute : b.route = sized [] ++ (sized [] ++ (be32 gateway_is_present.toNat ++ (sized b.gateway_ ++
      (sized dns_key ++ (b.dns_servers_.flatMap sized ++ b.trailer))))) := rfl
  have hversion : b.beforeGateway.version = b.version_.value.toNat := rfl
  rw [read_values_gateway, read_gateway, hversion, hroutes, hroute, readSized_sized (by decide)] at hvalues
  obtain ⟨rfl, rfl⟩ := Prod.mk.inj (Option.some.inj hvalues)
  have hgateway : b.gateway_ = [] := by
    have hfirst := (read_keys_some h).2.1 [] rfl
    exact Option.some.inj hfirst
  have hflag : be32 gateway_is_present.toNat ++ (sized [] ++ (sized dns_key ++
      (b.dns_servers_.flatMap sized ++ b.trailer))) =
      sized [] ++ (sized [0] ++ (sized [] ++ (be16 868 ++ (.of "ns" ++ (b.dns_servers_.flatMap sized ++
        b.trailer))))) := rfl
  rw [hgateway] at h
  obtain ⟨n, h⟩ := read_keys_unknown (by decide) h
  rw [hflag] at h
  obtain ⟨n, h⟩ := read_keys_unknown (by decide) h
  obtain ⟨n, h⟩ := read_keys_unknown (by decide) h
  obtain ⟨n, h⟩ := read_keys_unknown (by decide) h
  exact not_read_of_long_key rfl rfl h

/-- What is read before the servers. -/
def beforeServers (b : IpConfigBuilder) : IpConfiguration := { b.beforeGateway with gateway := some b.gateway_ }

theorem read_values_route (hroutes : store.has_routes b.version_.value.toNat = true)
    (hgateway : b.gateway_.length < 65536) :
    store.read_values gateway_key b.beforeGateway b.route =
      some (b.beforeServers, sized dns_key ++ (b.dns_servers_.flatMap sized ++ b.trailer)) := by
  have hversion : store.has_routes b.beforeGateway.version = true := hroutes
  rw [read_values_gateway, route, read_gateway_route hversion hgateway]
  rfl

/-- No server is read behind the last one that was written. -/
theorem servers_of_trailer {c' : IpConfiguration} (h : store.read_keys fuel c b.trailer = some (c', l)) :
    c'.dns_servers = c.dns_servers := by
  obtain ⟨n, c1, l1, hvalues, hrest⟩ := read_keys_sized_some (by decide) (by decide) h
  rw [read_values_id] at hvalues
  obtain ⟨rfl, rfl⟩ := Prod.mk.inj (Option.some.inj hvalues)
  obtain ⟨_, _, servers, hservers, hweight⟩ := read_keys_some hrest
  cases servers with
  | nil => rw [hservers, List.append_nil]
  | cons s servers =>
    have hlen : (sized eos_key).length = 5 := rfl
    rw [weight_cons] at hweight
    omega

/-- A second server is taken for a key, and is not read as a server. -/
theorem not_read_second {s t : ByteString} {c' : IpConfiguration} (ht : t.length < 65536) (hc : c.dns_servers = [s])
    (h : store.read_keys fuel c (sized t ++ b.trailer) = some (c', [])) : c'.dns_servers ≠ [s, t] := by
  intro hall
  by_cases heos : t = eos_key
  · cases fuel with
    | zero => cases h
    | succ n =>
      rw [heos, read_keys_eos] at h
      cases h
  obtain ⟨n, c1, l1, hvalues, h⟩ := read_keys_sized_some ht heos h
  obtain ⟨_, _, servers, hservers, hweight⟩ := read_keys_some h
  have hreads := reads_of_read_values hvalues
  rcases hreads.servers with ⟨hdns, _⟩ | ⟨_, hsame⟩
  · rw [hdns, read_values_dns, trailer, readSized_sized (by decide)] at hvalues
    obtain ⟨rfl, rfl⟩ := Prod.mk.inj (Option.some.inj hvalues)
    have heq : [s, t] = [s] ++ [id_key] ++ servers := by
      rw [← hall, hservers]
      exact congrArg (· ++ [id_key] ++ servers) hc
    have hid : t = id_key := (List.cons.inj (List.cons.inj heq).2).1
    exact absurd (hdns.symm.trans hid) (by decide)
  · have heq : servers = [t] := by
      rw [hall, hsame, hc] at hservers
      exact (List.cons.inj hservers).2.symm
    have hlen := hreads.length
    rw [length_trailer] at hlen
    rw [heq, weight_cons] at hweight
    rw [read_values_unknown (by omega)] at hvalues
    obtain ⟨rfl, rfl⟩ := Prod.mk.inj (Option.some.inj hvalues)
    rw [servers_of_trailer h, hc] at hall
    cases hall

/-- Where the key `dns` was read, one server is there to be read. -/
theorem one_server_of_read (hservers : ∀ s ∈ b.dns_servers_, s.length < 65536) (hc : c.dns_servers = [])
    (h : store.read_keys fuel c (sized dns_key ++ (b.dns_servers_.flatMap sized ++ b.trailer)) =
      some (b.configuration, [])) : b.dns_servers_.length = 1 := by
  obtain ⟨n, c1, l1, hvalues, h⟩ := read_keys_sized_some (by decide) (by decide) h
  rw [read_values_dns, hc] at hvalues
  cases hb : b.dns_servers_ with
  | nil =>
    -- The key `id` is taken for a server.
    rw [hb, List.flatMap_nil, List.nil_append, trailer, readSized_sized (by decide)] at hvalues
    obtain ⟨rfl, rfl⟩ := Prod.mk.inj (Option.some.inj hvalues)
    obtain ⟨_, _, servers, heq, _⟩ := read_keys_some h
    have hnil : [] = id_key :: servers := hb.symm.trans heq
    cases hnil
  | cons s rest =>
    have hs : s.length < 65536 := hservers s (by rw [hb]; exact List.mem_cons_self)
    rw [hb, List.flatMap_cons, List.append_assoc, readSized_sized hs] at hvalues
    obtain ⟨rfl, rfl⟩ := Prod.mk.inj (Option.some.inj hvalues)
    obtain ⟨_, _, servers, heq, hweight⟩ := read_keys_some h
    have hall : servers = rest := by
      have hcons : s :: rest = s :: servers := hb.symm.trans heq
      exact (List.cons.inj hcons).2.symm
    have hlen := length_servers rest
    rw [hall, List.length_append, length_trailer, List.length_nil] at hweight
    cases rest with
    | nil => rfl
    | cons t rest =>
      -- Five bytes for each key are missing, and the trailer makes up for one of them at most.
      have hrest : rest = [] := by
        rw [← List.length_eq_zero_iff]
        rw [List.length_cons] at hlen
        omega
      subst hrest
      have ht : t.length < 65536 := hservers t (by rw [hb]; simp)
      rw [List.flatMap_cons, List.flatMap_nil, List.append_nil] at h
      exact absurd hb (not_read_second ht rfl h)

theorem short_of_read (h : store.read b.bytes = some (b.configuration, [])) :
    ∀ text ∈ b.address :: b.gateway_ :: b.dns_servers_, text.length < 65536 := by
  rw [read_bytes] at h
  have hshort := (read_keys_some h).1 (short_init _)
  intro text htext
  rcases List.mem_cons.mp htext with rfl | htext
  · exact hshort.address _ rfl
  · rcases List.mem_cons.mp htext with rfl | htext
    · exact hshort.gateway _ rfl
    · exact hshort.dns _ htext

/-- The file can be read exactly when it has one server, texts that are short enough, and a version with routes. -/
theorem read_iff_readable (b : IpConfigBuilder) (store : IpConfigStore) :
    store.read b.bytes = some (b.configuration, []) ↔ b.Readable store := by
  constructor
  · intro h
    have hshort := short_of_read h
    have haddress : b.address.length < 65536 := hshort _ List.mem_cons_self
    have hgateway : b.gateway_.length < 65536 := hshort _ (List.mem_cons_of_mem _ List.mem_cons_self)
    have hroutes : store.has_routes b.version_.value.toNat = true := by
      by_contra hno
      exact not_read_of_no_routes (Bool.eq_false_of_not_eq_true hno) haddress h
    refine ⟨hroutes, ?_, hshort⟩
    obtain ⟨n, h⟩ := read_gateway_of_read haddress h
    obtain ⟨n, c, l, hvalues, h⟩ := read_keys_sized_some (by decide) (by decide) h
    rw [read_values_route hroutes hgateway] at hvalues
    obtain ⟨rfl, rfl⟩ := Prod.mk.inj (Option.some.inj hvalues)
    have hservers : ∀ s ∈ b.dns_servers_, s.length < 65536 := by
      intro s hs
      exact hshort s (List.mem_cons_of_mem _ (List.mem_cons_of_mem _ hs))
    exact one_server_of_read hservers rfl h
  · rintro ⟨hroutes, hone, hshort⟩
    obtain ⟨s, hs⟩ := List.length_eq_one_iff.mp hone
    have haddress : b.address.length < 65536 := hshort _ List.mem_cons_self
    have hgateway : b.gateway_.length < 65536 := hshort _ (List.mem_cons_of_mem _ List.mem_cons_self)
    have hserver : s.length < 65536 := by
      apply hshort
      simp [hs]
    have hfuel : 6 ≤ b.keys.length := by
      rw [keys, List.length_append, length_sized]
      have h : assignment_key.length = 12 := rfl
      omega
    obtain ⟨n, hn⟩ := Nat.exists_eq_add_of_le' hfuel
    have hdns : store.read_values dns_key b.beforeServers (sized s ++ b.trailer) =
        some ({ b.beforeServers with dns_servers := [s] }, b.trailer) := by
      rw [read_values_dns, readSized_sized hserver]
      rfl
    rw [read_bytes, hn, read_keys_front haddress,
      read_keys_sized (by decide) (by decide) (read_values_route hroutes hgateway), hs, List.flatMap_cons,
      List.flatMap_nil, List.append_nil, read_keys_sized (by decide) (by decide) hdns, trailer,
      read_keys_sized (by decide) (by decide) (read_values_id _ _ _)]
    have hend : store.read_keys (n + 1) { b.beforeServers with dns_servers := [s], id := some b.id_.toNat }
        (sized eos_key ++ []) = _ := read_keys_eos _ _
    rw [List.append_nil] at hend
    rw [configuration, hs]
    exact hend

/-- A configuration that is written into a range of memory comes back exactly when it does not fit, which is
noticed, or can be read. -/
theorem round_trips_iff (b : IpConfigBuilder) (store : IpConfigStore) (w : BinaryWriter)
    (hw : w.current_ = w.begin_) :
    b.RoundTrips store w ↔ w.end_ - w.begin_ < b.bytes.length ∨ b.Readable store := by
  rw [roundTrips_iff_read b w hw, read_iff_readable]

/-- Android's reader: the gateway stands alone in the first version only. -/
def android : IpConfigStore := ⟨fun version => version ≠ 1⟩

/-- The buffer of `setup_network`. -/
def buffer : BinaryWriter := .new (List.replicate 512 0) 0 512 (by decide) (by rw [List.length_replicate])

/-- The configuration of `setup_network`, for these servers. -/
def containerConfiguration (dns_servers_ : List ByteString) : IpConfigBuilder where
  version_ := .Version2
  assignment_ := .Static
  address := .of "192.168.250.2"
  prefix_length := 24
  gateway_ := .of "192.168.250.1"
  dns_servers_ := dns_servers_
  id_ := 0

theorem default_configuration_round_trips :
    buffer.current_ = buffer.begin_ ∧ (containerConfiguration [.of "8.8.8.8"]).RoundTrips android buffer :=
  ⟨rfl, (round_trips_iff _ _ _ rfl).mpr (Or.inr ⟨by decide, rfl, by decide⟩)⟩

/-- The second of two servers is lost. -/
theorem second_server_lost :
    ¬(containerConfiguration [.of "8.8.8.8", .of "8.8.4.4"]).RoundTrips android buffer := by
  intro h
  rcases (roundTrips_iff_read _ buffer rfl).mp h with hroom | hread
  · have hsize : (containerConfiguration [.of "8.8.8.8", .of "8.8.4.4"]).bytes.length < 512 := by decide +kernel
    have hbuffer : buffer.end_ - buffer.begin_ = 512 := rfl
    omega
  · exact absurd ((read_iff_readable _ _).mp hread).one_server (by decide)

end IpConfigBuilder

end AnboxReboxed.Android
