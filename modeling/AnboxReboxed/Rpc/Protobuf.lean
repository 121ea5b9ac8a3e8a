import Mathlib.Tactic.Linarith

/-!
# The messages of `anbox_rpc.proto`

The two messages that travel over an RPC connection, and what is relied on of the library that
serializes them. `wire` is the encoding of these messages, with a parser that accepts nothing else.
-/

namespace AnboxReboxed.Rpc

abbrev Bytes := List UInt8

/-- `protobuf::rpc::Invocation`. -/
structure Invocation where
  id : UInt32
  method_name : Bytes
  parameters : Bytes
  protocol_version : UInt32
  deriving DecidableEq

/-- `protobuf::rpc::Result`. -/
structure Result where
  id : Option UInt32 := none
  response : Option Bytes := none
  events : List Bytes := []
  deriving DecidableEq

/-- `SerializeToArray`, whose length is `ByteSizeLong`, and `ParseFromArray`. -/
structure Protobuf where
  serializeInvocation : Invocation → Bytes
  parseInvocation : Bytes → Option Invocation
  serializeResult : Result → Bytes
  parseResult : Bytes → Option Result

/-- Parsing inverts serializing; a message is serialized to the shortest of its encodings, which holds
its `bytes` fields as they are. -/
structure Protobuf.Lawful (P : Protobuf) : Prop where
  parse_invocation : ∀ m, P.parseInvocation (P.serializeInvocation m) = some m
  parse_result : ∀ m, P.parseResult (P.serializeResult m) = some m
  invocation_shortest : ∀ b m, P.parseInvocation b = some m → (P.serializeInvocation m).length ≤ b.length
  result_shortest : ∀ b m, P.parseResult b = some m → (P.serializeResult m).length ≤ b.length
  response_held : ∀ m response, m.response = some response →
    response.length ≤ (P.serializeResult m).length

/-- A field on the wire, with the byte that holds its number and its wire type. -/
inductive Field where
  | varint (tag : UInt8) (n : Nat)
  | bytes (tag : UInt8) (b : Bytes)

def Field.WellTagged : Field → Prop
  | .varint tag _ => tag % 8 = 0
  | .bytes tag _ => tag % 8 = 2

/-- Seven bits a byte, the lowest first; all bytes but the last have their highest bit set. -/
def writeVarint (n : Nat) : Bytes :=
  if n < 128 then [n.toUInt8] else (n % 128 + 128).toUInt8 :: writeVarint (n / 128)
termination_by n
decreasing_by omega

def readVarint : Bytes → Option (Nat × Bytes)
  | [] => none
  | b :: rest =>
    if b.toNat < 128 then some (b.toNat, rest)
    else (readVarint rest).map fun (n, rest') => (b.toNat - 128 + 128 * n, rest')

def Field.write : Field → Bytes
  | .varint tag n => tag :: writeVarint n
  | .bytes tag b => tag :: (writeVarint b.length ++ b)

def Field.read : Bytes → Option (Field × Bytes)
  | [] => none
  | tag :: rest =>
    (readVarint rest).bind fun (n, rest') =>
      if tag % 8 = 0 then some (.varint tag n, rest')
      else if tag % 8 = 2 then
        if n ≤ rest'.length then some (.bytes tag (rest'.take n), rest'.drop n) else none
      else none

/-- The fields of a message; `fuel` bounds their number. -/
def readFields : Nat → Bytes → Option (List Field)
  | _, [] => some []
  | 0, _ :: _ => none
  | fuel + 1, b :: rest =>
    (Field.read (b :: rest)).bind fun (f, rest') => (readFields fuel rest').map (f :: ·)

/-- The last of the values with the given tag. -/
def lastVarint (tag : UInt8) (fields : List Field) : Option Nat :=
  fields.foldl (fun acc f => match f with
    | .varint t n => if t = tag then some n else acc
    | .bytes _ _ => acc) none

def lastBytes (tag : UInt8) (fields : List Field) : Option Bytes :=
  fields.foldl (fun acc f => match f with
    | .bytes t b => if t = tag then some b else acc
    | .varint _ _ => acc) none

/-- All values with the given tag. -/
def allBytes (tag : UInt8) (fields : List Field) : List Bytes :=
  fields.filterMap fun f => match f with
    | .bytes t b => if t = tag then some b else none
    | .varint _ _ => none

def Invocation.fields (m : Invocation) : List Field :=
  [.varint 0x08 m.id.toNat, .bytes 0x12 m.method_name, .bytes 0x1a m.parameters,
    .varint 0x20 m.protocol_version.toNat]

def Result.fields (m : Result) : List Field :=
  (m.id.toList.map fun id => .varint 0x08 id.toNat) ++ (m.response.toList.map (.bytes 0x12)) ++
    m.events.map (.bytes 0x1a)

def Invocation.ofFields (fields : List Field) : Option Invocation := do
  let id ← lastVarint 0x08 fields
  let method_name ← lastBytes 0x12 fields
  let parameters ← lastBytes 0x1a fields
  let protocol_version ← lastVarint 0x20 fields
  return ⟨id.toUInt32, method_name, parameters, protocol_version.toUInt32⟩

def Result.ofFields (fields : List Field) : Result :=
  ⟨(lastVarint 0x08 fields).map (·.toUInt32), lastBytes 0x12 fields, allBytes 0x1a fields⟩

def writeFields (fields : List Field) : Bytes := fields.flatMap Field.write

/-- The wire format, without the other encodings of a message that the library accepts. -/
def wire : Protobuf where
  serializeInvocation m := writeFields m.fields
  parseInvocation b :=
    ((readFields b.length b).bind Invocation.ofFields).filter fun m => writeFields m.fields = b
  serializeResult m := writeFields m.fields
  parseResult b :=
    ((readFields b.length b).map Result.ofFields).filter fun m => writeFields m.fields = b

theorem toNat_toUInt8_of_lt {n : Nat} (h : n < 256) : n.toUInt8.toNat = n := by
  simp [Nat.mod_eq_of_lt h]

theorem readVarint_writeVarint (n : Nat) (rest : Bytes) :
    readVarint (writeVarint n ++ rest) = some (n, rest) := by
  induction n using Nat.strongRecOn with
  | ind n ih =>
    rw [writeVarint]
    split
    · rename_i hlt
      simp only [List.cons_append, List.nil_append, readVarint,
        toNat_toUInt8_of_lt (show n < 256 by omega), if_pos hlt]
    · rename_i hge
      have hbyte := toNat_toUInt8_of_lt (show n % 128 + 128 < 256 by omega)
      have hhigh : ¬n % 128 + 128 < 128 := by omega
      simp only [List.cons_append, readVarint, hbyte, if_neg hhigh, ih (n / 128) (by omega),
        Option.map_some]
      congr 2
      omega

theorem Field.read_write {f : Field} (hf : f.WellTagged) (rest : Bytes) :
    Field.read (f.write ++ rest) = some (f, rest) := by
  cases f with
  | varint tag n =>
    have htag : tag % 8 = 0 := hf
    simp [Field.write, Field.read, readVarint_writeVarint, htag]
  | bytes tag b =>
    have htag : tag % 8 = 2 := hf
    simp [Field.write, Field.read, readVarint_writeVarint, htag]

theorem Field.write_ne_nil (f : Field) : ∃ b bs, f.write = b :: bs := by
  cases f with
  | varint tag n => exact ⟨_, _, rfl⟩
  | bytes tag b => exact ⟨_, _, rfl⟩

theorem length_le_writeFields (fields : List Field) : fields.length ≤ (writeFields fields).length := by
  induction fields with
  | nil => simp [writeFields]
  | cons f fields ih =>
    obtain ⟨b, bs, hb⟩ := f.write_ne_nil
    simp only [writeFields, List.flatMap_cons, List.length_append, hb, List.length_cons] at ih ⊢
    omega

theorem readFields_writeFields {fields : List Field} (h : ∀ f ∈ fields, f.WellTagged) :
    ∀ {fuel : Nat}, fields.length ≤ fuel → readFields fuel (writeFields fields) = some fields := by
  induction fields with
  | nil =>
    intro fuel _
    cases fuel <;> rfl
  | cons f fields ih =>
    intro fuel hfuel
    obtain ⟨k, rfl⟩ : ∃ k, fuel = k + 1 := ⟨fuel - 1, by simp at hfuel; omega⟩
    obtain ⟨b, bs, hb⟩ := f.write_ne_nil
    have hread := Field.read_write (h f List.mem_cons_self) (writeFields fields)
    have hrest := ih (fun g hg => h g (List.mem_cons_of_mem f hg)) (Nat.le_of_succ_le_succ hfuel)
    simp only [writeFields, List.flatMap_cons, hb, List.cons_append] at hread hrest ⊢
    rw [readFields, hread]
    simp only [Option.bind_some, hrest, Option.map_some]

theorem Invocation.ofFields_fields (m : Invocation) : ofFields m.fields = some m := by
  simp [ofFields, fields, lastVarint, lastBytes]

theorem foldl_events (tag : UInt8) (htag : tag ≠ 0x1a) (acc : Option Bytes) (events : List Bytes) :
    (events.map (Field.bytes 0x1a)).foldl (fun acc f => match f with
      | .bytes t b => if t = tag then some b else acc
      | .varint _ _ => acc) acc = acc := by
  induction events generalizing acc with
  | nil => rfl
  | cons e events ih =>
    rw [List.map_cons, List.foldl_cons]
    simp only [if_neg (Ne.symm htag)]
    exact ih acc

theorem foldl_events_varint (tag : UInt8) (acc : Option Nat) (events : List Bytes) :
    (events.map (Field.bytes 0x1a)).foldl (fun acc f => match f with
      | .varint t n => if t = tag then some n else acc
      | .bytes _ _ => acc) acc = acc := by
  induction events generalizing acc with
  | nil => rfl
  | cons e events ih => exact ih acc

theorem Result.ofFields_fields (m : Result) : ofFields m.fields = m := by
  obtain ⟨id, response, events⟩ := m
  have hevents : allBytes 0x1a (events.map (Field.bytes 0x1a)) = events := by
    induction events with
    | nil => rfl
    | cons e events ih => exact congrArg (List.cons e) ih
  have hvarint := foldl_events_varint 0x08
  have hbytes := foldl_events 0x12 (by decide)
  simp only [allBytes] at hevents
  cases id <;> cases response <;>
    simp [ofFields, fields, lastVarint, lastBytes, allBytes, hvarint, hbytes, hevents]

theorem Invocation.fields_wellTagged (m : Invocation) : ∀ f ∈ m.fields, f.WellTagged := by
  intro f hf
  simp only [fields, List.mem_cons, List.not_mem_nil, or_false] at hf
  rcases hf with rfl | rfl | rfl | rfl <;> simp [Field.WellTagged]

theorem Result.fields_wellTagged (m : Result) : ∀ f ∈ m.fields, f.WellTagged := by
  intro f hf
  simp only [fields, List.mem_append, List.mem_map] at hf
  rcases hf with (⟨id, -, rfl⟩ | ⟨b, -, rfl⟩) | ⟨b, -, rfl⟩ <;> simp [Field.WellTagged]

theorem wire_lawful : wire.Lawful where
  parse_invocation := by
    intro m
    have hread := readFields_writeFields m.fields_wellTagged (length_le_writeFields m.fields)
    simp [wire, hread, Invocation.ofFields_fields]
  parse_result := by
    intro m
    have hread := readFields_writeFields m.fields_wellTagged (length_le_writeFields m.fields)
    simp [wire, hread, Result.ofFields_fields]
  invocation_shortest := by
    intro b m h
    have hb := (Option.filter_eq_some_iff.mp h).2
    exact Nat.le_of_eq (congrArg List.length (of_decide_eq_true hb))
  result_shortest := by
    intro b m h
    have hb := (Option.filter_eq_some_iff.mp h).2
    exact Nat.le_of_eq (congrArg List.length (of_decide_eq_true hb))
  response_held := by
    intro m response h
    simp [wire, writeFields, Result.fields, h, Field.write]
    omega

end AnboxReboxed.Rpc
