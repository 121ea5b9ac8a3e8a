import AnboxReboxed.Common.BinaryWriter

/-!
# The IP configuration of the container

The host writes the network configuration of Android into a file, and Android's `IpConfigStore` reads it: after the
version come keys, each with its values, up to the key `eos`. The reader stands here as far as the file has to do
with it; how it reads a gateway depends on the version.
-/

namespace AnboxReboxed.Android

open AnboxReboxed.Lib AnboxReboxed.Common

def assignment_key : ByteString := .of "ipAssignment"
def link_address_key : ByteString := .of "linkAddress"
def gateway_key : ByteString := .of "gateway"
def dns_key : ByteString := .of "dns"
def id_key : ByteString := .of "id"
def eos_key : ByteString := .of "eos"

def is_default_gateway : UInt32 := 0
def gateway_is_present : UInt32 := 1

inductive Version where
  | Version1
  | Version2
  deriving DecidableEq

def Version.value : Version → UInt32
  | .Version1 => 1
  | .Version2 => 2

inductive Assignment where
  | Static
  | DHCP
  deriving DecidableEq

def assignment_to_string : Assignment → ByteString
  | .Static => .of "STATIC"
  | .DHCP => .of "DHCP"

structure IpConfigBuilder where
  version_ : Version
  assignment_ : Assignment
  address : ByteString
  prefix_length : UInt32
  gateway_ : ByteString
  dns_servers_ : List ByteString
  id_ : UInt32

def IpConfigBuilder.write (b : IpConfigBuilder) : WriterM Nat := do
  set_byte_order .Big
  write_uint32 b.version_.value
  write_string_with_size assignment_key
  write_string_with_size (assignment_to_string b.assignment_)
  write_string_with_size link_address_key
  write_string_with_size b.address
  write_uint32 b.prefix_length
  write_string_with_size gateway_key
  write_uint32 is_default_gateway
  write_uint32 gateway_is_present
  write_string_with_size b.gateway_
  write_string_with_size dns_key
  b.dns_servers_.forM write_string_with_size
  write_string_with_size id_key
  write_uint32 b.id_
  write_string_with_size eos_key
  let writer ← get
  return writer.bytes_written

/-! ## The reader -/

/-- What was read. The first address and the first gateway count, and the last assignment and the last id. -/
structure IpConfiguration where
  version : Nat
  assignment : Option Assignment := none
  address : Option (ByteString × Nat) := none
  gateway : Option ByteString := none
  dns_servers : List ByteString := []
  id : Option Nat := none
  deriving DecidableEq

/-- A reader. A version either has routes, a flag for a destination and a flag for a gateway, or the gateway
alone. -/
structure IpConfigStore where
  has_routes : Nat → Bool

namespace IpConfigStore

open ByteString

/-- The keys of the proxy that have a text. The port has a number. -/
def proxy_text_keys : List ByteString := [.of "proxySettings", .of "proxyHost", .of "proxyPac", .of "exclusionList"]

def proxy_port_key : ByteString := .of "proxyPort"

def value_of (text : ByteString) : Option Assignment :=
  if text = assignment_to_string .Static then some .Static
  else if text = assignment_to_string .DHCP then some .DHCP
  else none

def skip_destination (l : ByteString) : Option ByteString :=
  match readSized l with
  | none => none
  | some (_, l) => (readBe32 l).map Prod.snd

/-- The gateway of a version that has routes. It has none when its flag is not set. -/
def read_route (l : ByteString) : Option (Option ByteString × ByteString) :=
  match readBe32 l with
  | none => none
  | some (has_destination, l) =>
    match if has_destination = 1 then skip_destination l else some l with
    | none => none
    | some l =>
      match readBe32 l with
      | none => none
      | some (has_gateway, l) =>
        if has_gateway = 1 then (readSized l).map fun (gateway, l) => (some gateway, l) else some (none, l)

def read_gateway (store : IpConfigStore) (version : Nat) (l : ByteString) :
    Option (Option ByteString × ByteString) :=
  if store.has_routes version then read_route l
  else (readSized l).map fun (gateway, l) => (some gateway, l)

/-- The values of a key. A key that is not known has none. -/
def read_values (store : IpConfigStore) (key : ByteString) (c : IpConfiguration) (l : ByteString) :
    Option (IpConfiguration × ByteString) :=
  if key = id_key then (readBe32 l).map fun (id, l) => ({ c with id := some id }, l)
  else if key = assignment_key then
    (readSized l).map fun (text, l) => ({ c with assignment := (value_of text).or c.assignment }, l)
  else if key = link_address_key then
    (readSized l).bind fun (address, l) => (readBe32 l).map fun (prefix_length, l) =>
      ({ c with address := c.address.or (some (address, prefix_length)) }, l)
  else if key = gateway_key then
    (store.read_gateway c.version l).map fun (gateway, l) => ({ c with gateway := c.gateway.or gateway }, l)
  else if key = dns_key then
    (readSized l).map fun (server, l) => ({ c with dns_servers := c.dns_servers ++ [server] }, l)
  else if key ∈ proxy_text_keys then (readSized l).map fun (_, l) => (c, l)
  else if key = proxy_port_key then (readBe32 l).map fun (_, l) => (c, l)
  else some (c, l)

/-- The loop over the keys. Each key takes two bytes at least, so that the number of bytes is enough `fuel`. -/
def read_keys (store : IpConfigStore) : Nat → IpConfiguration → ByteString → Option (IpConfiguration × ByteString)
  | 0, _, _ => none
  | fuel + 1, c, l =>
    match readSized l with
    | none => none
    | some (key, l) =>
      if key = eos_key then some (c, l)
      else
        match store.read_values key c l with
        | none => none
        | some (c, l) => store.read_keys fuel c l

/-- The configuration, and what was not read. -/
def read (store : IpConfigStore) (l : ByteString) : Option (IpConfiguration × ByteString) :=
  match readBe32 l with
  | none => none
  | some (version, l) => if version ≠ 1 ∧ version ≠ 2 then none else store.read_keys l.length { version } l

end IpConfigStore

namespace IpConfigBuilder

/-- What a reader is to get. -/
def configuration (b : IpConfigBuilder) : IpConfiguration where
  version := b.version_.value.toNat
  assignment := some b.assignment_
  address := some (b.address, b.prefix_length.toNat)
  gateway := some b.gateway_
  dns_servers := b.dns_servers_
  id := some b.id_.toNat

/-- All that `write` writes when there is room for it. -/
def bytes (b : IpConfigBuilder) : ByteString :=
  ByteString.be32 b.version_.value.toNat ++ (ByteString.sized assignment_key ++
  (ByteString.sized (assignment_to_string b.assignment_) ++ (ByteString.sized link_address_key ++
  (ByteString.sized b.address ++ (ByteString.be32 b.prefix_length.toNat ++ (ByteString.sized gateway_key ++
  (ByteString.be32 is_default_gateway.toNat ++ (ByteString.be32 gateway_is_present.toNat ++
  (ByteString.sized b.gateway_ ++ (ByteString.sized dns_key ++ (b.dns_servers_.flatMap ByteString.sized ++
  (ByteString.sized id_key ++ (ByteString.be32 b.id_.toNat ++ ByteString.sized eos_key)))))))))))))

/-- The file that is written into a range of memory can be read, or the range is too small, which is noticed. -/
structure RoundTrips (b : IpConfigBuilder) (store : IpConfigStore) (w : BinaryWriter) : Prop where
  read : ∀ n w', b.write w = (.ok n, w') →
    store.read ((w'.memory.drop w'.begin_).take n) = some (b.configuration, [])
  exhausted : w.end_ - w.begin_ < b.bytes.length → ∃ w', b.write w = (.error .out_of_range, w')
  outside : ∀ i, i < w.begin_ ∨ w.end_ ≤ i → (b.write w).2.memory[i]? = w.memory[i]?

/-- There is one server for the one key, no text is longer than its size can say, and the version has routes. -/
structure Readable (b : IpConfigBuilder) (store : IpConfigStore) : Prop where
  routes : store.has_routes b.version_.value.toNat = true
  one_server : b.dns_servers_.length = 1
  short : ∀ text ∈ b.address :: b.gateway_ :: b.dns_servers_, text.length < 65536

end IpConfigBuilder

end AnboxReboxed.Android
