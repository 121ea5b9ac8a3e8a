import AnboxReboxed.Lib.Machine
import AnboxReboxed.Lib.Wire
import Mathlib.Logic.Function.Basic

/-!
# Files that the host receives

A peer of the bridge sends a file in chunks. The daemon gathers them in a file of its own under `incoming`, and moves it
to `exports` when its size and its checksum are those that the peer declared. A request is served in one go, so the
requests of the peers interleave as a whole.
-/

namespace AnboxReboxed.Scripts.ReboxedBridge

open AnboxReboxed.Lib Function

/-- The code points of a text. A text of JSON may have lone surrogates. -/
abbrev Str := List Nat

def str (text : String) : Str := text.toList.map Char.toNat

/-- A value in a request. -/
inductive Value where
  | none
  | bool (b : Bool)
  | int (n : Int)
  | float (zero : Bool)
  | str (s : Str)
  | list (empty : Bool)
  | dict (empty : Bool)
  deriving DecidableEq

def Value.truthy : Value → Bool
  | .none => false
  | .bool b => b
  | .int n => n ≠ 0
  | .float zero => !zero
  | .str s => s ≠ []
  | .list empty | .dict empty => !empty

/-- The number that `isinstance(value, int)` finds; a boolean is one, too. -/
def Value.int? : Value → Option Int
  | .bool b => some (if b then 1 else 0)
  | .int n => some n
  | _ => Option.none

/-- What a handler raises. -/
inductive Failure where
  | bridge_error (message : String)
  | value_error
  | os_error
  | type_error
  deriving DecidableEq

def CHUNK : Nat := 256 * 1024

/-- The options of the daemon, the longest name of a file, and what it computes with. -/
structure Args where
  max_file_size : Int
  name_max : Nat := 255
  /-- The SHA-256 of the data, as digits. -/
  hexdigest : ByteString → Str
  /-- There is none where `base64.b64decode` raises a `ValueError`. -/
  b64decode : Str → Option ByteString

def slash : Nat := 47
def backslash : Nat := 92
def underscore : Nat := 95
def hyphen : Nat := 45

def is_alnum (c : Nat) : Bool := (48 ≤ c && c ≤ 57) || (65 ≤ c && c ≤ 90) || (97 ≤ c && c ≤ 122)

/-- `re.fullmatch(r"[A-Za-z0-9-]{1,64}", transfer_id)` -/
def is_transfer_id (s : Str) : Bool := 1 ≤ s.length && s.length ≤ 64 && s.all fun c => is_alnum c || c == hyphen

/-- `re.fullmatch(r"[0-9a-f]{64}", expected)` -/
def is_checksum (s : Str) : Bool := s.length == 64 && s.all fun c => (48 ≤ c && c ≤ 57) || (97 ≤ c && c ≤ 102)

/-- What `[A-Za-z0-9._() +@-]` matches. -/
def is_plain (c : Nat) : Bool := is_alnum c || (str "._() +@-").contains c

/-- `len(s.encode())`, unless there is a surrogate. -/
def encoded_length : Str → Option Nat
  | [] => some 0
  | c :: s =>
    if 0xD800 ≤ c ∧ c ≤ 0xDFFF then none
    else (encoded_length s).map (· + if c < 0x80 then 1 else if c < 0x800 then 2 else if c < 0x10000 then 3 else 4)

def clean_name : Value → Except Failure Str
  | .str name =>
    if name = [] then .error (.bridge_error "invalid file name")
    else match encoded_length name with
      | none => .error .value_error
      | some length =>
        if length > 255 then .error (.bridge_error "invalid file name")
        else if name = str "." ∨ name = str ".." ∨ slash ∈ name ∨ backslash ∈ name ∨ 0 ∈ name then
          .error (.bridge_error "file name contains path syntax")
        else
          let cleaned := name.map fun c => if is_plain c then c else underscore
          if cleaned = [] ∨ cleaned = str "." ∨ cleaned = str ".." then .error (.bridge_error "file name is unsafe")
          else .ok cleaned
  | _ => .error (.bridge_error "invalid file name")

structure Transfer where
  id : Str
  name : Str
  size : Int
  sha256 : Str
  received : Nat := 0
  /-- What the checksum has been fed with. -/
  hash : ByteString := []
  /-- The stream is closed. -/
  closed : Bool := false
  owner : Nat

/-- Where the file goes when its name is taken. -/
def Transfer.fallback (t : Transfer) : Str := t.id ++ hyphen :: t.name

/-- A file of `incoming` stands under the id of its transfer: it is named after that, with `.part` behind. -/
structure Daemon where
  peers : Nat → Bool := fun _ => false
  guest : Option Nat := none
  transfers : Str → Option Transfer := fun _ => none
  incoming : Str → Option ByteString := fun _ => none
  exports : Str → Option ByteString := fun _ => none

/-- The fields of a request, and what happens to be found out while it is served. -/
inductive Request where
  | transfer_begin (transfer_id size sha256 name : Value) (uuid4 : Str)
  | transfer_chunk (transfer_id data : Value)
  | transfer_end (transfer_id : Value)
  /-- The guest, if there is one, is told about it or cannot be. -/
  | transfer_cancel (transfer_id : Value) (told : Bool)

inductive Answer where
  | begun (transfer_id : Str)
  | received (transfer_id : Str) (received : Nat) (size : Int)
  | complete (transfer_id path : Str)
  | cancelled

namespace Daemon

variable (args : Args) (d : Daemon)

def begin_id (transfer_id : Value) (uuid4 : Str) : Except Failure Str :=
  match if transfer_id.truthy then transfer_id else .str uuid4 with
  | .str id => if is_transfer_id id then .ok id else .error (.bridge_error "invalid transfer id")
  | _ => .error (.bridge_error "invalid transfer id")

def begin_size (size : Value) : Except Failure Int :=
  match size.int? with
  | none => .error (.bridge_error "invalid transfer size")
  | some n => if n < 0 ∨ n > args.max_file_size then .error (.bridge_error "invalid transfer size") else .ok n

def begin_checksum : Value → Except Failure Str
  | .str expected =>
    if is_checksum expected then .ok expected else .error (.bridge_error "invalid transfer checksum")
  | _ => .error (.bridge_error "invalid transfer checksum")

def receive_file_begin (peer : Nat) (transfer_id size sha256 name : Value) (uuid4 : Str) :
    Except Failure (Daemon × Answer) := do
  let id ← begin_id transfer_id uuid4
  if (d.transfers id).isSome then throw (.bridge_error "duplicate transfer id")
  let name ← clean_name name
  let size ← begin_size args size
  let expected ← begin_checksum sha256
  if (d.incoming id).isSome then throw (.bridge_error "unsafe transfer staging path")
  let transfer : Transfer := { id, name, size, sha256 := expected, owner := peer }
  return ({ d with
    transfers := update d.transfers id (some transfer)
    incoming := update d.incoming id (some []) }, .begun id)

/-- The transfer of the peer. A value that cannot be hashed is not looked up. -/
def find (peer : Nat) (transfer_id : Value) : Except Failure Transfer :=
  match transfer_id with
  | .list _ | .dict _ => .error .type_error
  | .str id =>
    match d.transfers id with
    | none => .error (.bridge_error "unknown transfer")
    | some t => if t.owner ≠ peer then .error (.bridge_error "unknown transfer") else .ok t
  | _ => .error (.bridge_error "unknown transfer")

def chunk_data : Value → Except Failure ByteString
  | .str raw =>
    if raw.length > CHUNK * 4 / 3 + 8 then .error (.bridge_error "invalid transfer chunk")
    else match args.b64decode raw with
      | none => .error (.bridge_error "invalid base64 chunk")
      | some data => .ok data
  | _ => .error (.bridge_error "invalid transfer chunk")

def receive_file_chunk (peer : Nat) (transfer_id data : Value) : Except Failure (Daemon × Answer) := do
  let t ← d.find peer transfer_id
  let data ← chunk_data args data
  if data = [] ∨ data.length > CHUNK ∨ (t.received + data.length : Int) > t.size then
    throw (.bridge_error "transfer exceeds declared size")
  if t.closed then throw .value_error
  let t' := { t with hash := t.hash ++ data, received := t.received + data.length }
  return ({ d with
    transfers := update d.transfers t.id (some t')
    incoming := update d.incoming t.id ((d.incoming t.id).map (· ++ data)) }, .received t.id t'.received t'.size)

def destination (t : Transfer) : Str := if (d.exports t.name).isSome then t.fallback else t.name

/-- Without a transfer, its entry is gone and so is its file. -/
def forget (id : Str) : Daemon :=
  { d with transfers := update d.transfers id none, incoming := update d.incoming id none }

/-- An exit with the stream closed. -/
def close (t : Transfer) : Daemon :=
  { d with transfers := update d.transfers t.id (some { t with closed := true }) }

def receive_file_end (peer : Nat) (transfer_id : Value) : Daemon × Except Failure Answer :=
  match d.find peer transfer_id with
  | .error e => (d, .error e)
  | .ok t =>
    if t.closed then (d, .error .value_error)
    else if (t.received : Int) ≠ t.size ∨ args.hexdigest t.hash ≠ t.sha256 then
      (d.forget t.id, .error (.bridge_error "transfer size or checksum mismatch"))
    else if (d.destination t).length > args.name_max then (d.close t, .error .os_error)
    else match d.incoming t.id with
      | none => (d.close t, .error .os_error)
      | some content =>
        ({ d.forget t.id with exports := update d.exports (d.destination t) (some content) },
          .ok (.complete t.id (d.destination t)))

def cancel (transfer_id : Value) (told : Bool) : Daemon × Except Failure Answer :=
  let answer := if d.guest.isSome && !told then .error .os_error else .ok .cancelled
  match transfer_id with
  | .list _ | .dict _ => (d, .error .type_error)
  | .str id => (if (d.transfers id).isSome then d.forget id else d, answer)
  | _ => (d, answer)

/-- A handler that changes nothing when it raises. -/
def unless_raised : Except Failure (Daemon × Answer) → Daemon × Except Failure Answer
  | .error e => (d, .error e)
  | .ok (d', answer) => (d', .ok answer)

def dispatch (peer : Nat) : Request → Daemon × Except Failure Answer
  | .transfer_begin transfer_id size sha256 name uuid4 =>
    d.unless_raised (d.receive_file_begin args peer transfer_id size sha256 name uuid4)
  | .transfer_chunk transfer_id data => d.unless_raised (d.receive_file_chunk args peer transfer_id data)
  | .transfer_end transfer_id => d.receive_file_end args peer transfer_id
  | .transfer_cancel transfer_id told => d.cancel transfer_id told

/-- The transfer is one of the peer. -/
def owns (peer : Nat) (id : Str) : Bool :=
  match d.transfers id with
  | none => false
  | some t => t.owner = peer

/-- The end of `client`: the transfers of the peer go with it. -/
def leave (peer : Nat) : Daemon :=
  { d with
    peers := update d.peers peer false
    guest := if d.guest = some peer then none else d.guest
    transfers := fun id => if d.owns peer id then none else d.transfers id
    incoming := fun id => if d.owns peer id then none else d.incoming id }

/-- A request in the loop of `client`, which does not catch a `TypeError`. -/
def serve (peer : Nat) (request : Request) : Daemon × Except Failure Answer :=
  match d.dispatch args peer request with
  | (d', .error .type_error) => (d'.leave peer, .error .type_error)
  | r => r

end Daemon

inductive Label where
  /-- A peer has said hello. -/
  | connect (peer : Nat) (guest : Bool)
  | request (peer : Nat) (request : Request)
  | disconnect (peer : Nat)

/-- What a peer declared, and the chunks that it sent and that were received. -/
structure Sent where
  owner : Nat
  size : Int
  sha256 : Str
  chunks : List ByteString := []

/-- What can be seen from outside: the requests, and the answers to them. -/
structure Observed where
  transfers : Str → Option Sent := fun _ => none
  /-- The transfer that a file of `exports` was announced for. -/
  exports : Str → Option Sent := fun _ => none

def Sent.append (sent : Sent) (peer : Nat) (data : ByteString) : Sent :=
  if peer = sent.owner then { sent with chunks := sent.chunks ++ [data] } else sent

def Observed.observe (args : Args) (o : Observed) (peer : Nat) : Request → Except Failure Answer → Observed
  | .transfer_begin _ size (.str sha256) _ _, .ok (.begun id) =>
    { o with transfers := update o.transfers id (size.int?.map fun size => { owner := peer, size, sha256 }) }
  | .transfer_chunk _ (.str raw), .ok (.received id _ _) =>
    { o with
      transfers := update o.transfers id
        ((o.transfers id).map fun sent => sent.append peer ((args.b64decode raw).getD [])) }
  | .transfer_end _, .ok (.complete id path) => { o with exports := update o.exports path (o.transfers id) }
  | _, _ => o

structure World where
  daemon : Daemon := {}
  seen : Observed := {}

namespace World

variable (args : Args)

def step (w : World) : Label → Option World
  | .connect peer guest =>
    if w.daemon.peers peer = true ∨ (guest = true ∧ w.daemon.guest ≠ none) then none
    else some { w with daemon := { w.daemon with
      peers := update w.daemon.peers peer true
      guest := if guest then some peer else w.daemon.guest } }
  | .request peer request =>
    if w.daemon.peers peer then
      let r := w.daemon.serve args peer request
      some { daemon := r.1, seen := w.seen.observe args peer request r.2 }
    else none
  | .disconnect peer => if w.daemon.peers peer then some { w with daemon := w.daemon.leave peer } else none

/-- The name of something directly in a directory. -/
def Direct (name : Str) : Prop := name ≠ [] ∧ name ≠ str "." ∧ name ≠ str ".." ∧ slash ∉ name ∧ 0 ∉ name

/-- A file of `exports` is what its owner sent, and as it was declared. -/
def Genuine (w : World) (name : Str) (content : ByteString) : Prop :=
  Direct name ∧ ∃ sent, w.seen.exports name = some sent ∧ content = sent.chunks.flatten ∧
    (content.length : Int) = sent.size ∧ args.hexdigest content = sent.sha256

/-- What holds in every state. -/
def Intact (w : World) : Prop :=
  (∀ name content, w.daemon.exports name = some content → w.Genuine args name content) ∧
  ∀ id, w.daemon.incoming id ≠ none → ∃ t, w.daemon.transfers id = some t ∧ w.daemon.peers t.owner = true

/-- The step is a `transfer.end` that is answered with ok. -/
def Completes (w : World) : Label → Prop
  | .request peer (.transfer_end transfer_id) =>
    ∃ answer, (w.daemon.serve args peer (.transfer_end transfer_id)).2 = .ok answer
  | _ => False

/-- No file of `exports` changes, and a transfer that is completed adds one. -/
def Additive (w : World) (l : Label) : Prop :=
  ∀ w', w.step args l = some w' →
    (∀ name content, w.daemon.exports name = some content → w'.daemon.exports name = some content) ∧
    (w.Completes args l → ∃ name content, w.daemon.exports name = none ∧
      w'.daemon.exports = update w.daemon.exports name (some content))

/-- A transfer is in order, but both of the names for it are taken. -/
def Clobbers (w : World) : Label → Prop
  | .request peer (.transfer_end (.str id)) =>
    ∃ t, w.daemon.transfers id = some t ∧ w.daemon.peers peer = true ∧ t.owner = peer ∧ t.closed = false ∧
      (t.received : Int) = t.size ∧ args.hexdigest t.hash = t.sha256 ∧
      w.daemon.exports t.name ≠ none ∧ w.daemon.exports t.fallback ≠ none
  | _ => False

end World

/-- A daemon whose directories are empty. -/
def daemonMachine (args : Args) : Machine World Label where
  init := {}
  step := World.step args

end AnboxReboxed.Scripts.ReboxedBridge
