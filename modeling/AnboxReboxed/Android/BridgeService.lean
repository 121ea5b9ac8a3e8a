import AnboxReboxed.Lib.Json
import AnboxReboxed.Scripts.ReboxedBridge
import Mathlib.Data.List.Sort

/-!
# The transfers in the bridge service of Android

The service handles the frames of the host one by one. A transfer gathers its chunks in a file of its own under
`bridge-incoming`; a file that is complete goes to the downloads, and a part of a package to a directory of its
installation, which is installed when there are as many files in it as the part says. A handler that throws ends the
connection, and the service connects again.

Files can be written, and nothing but the service is in its directories. Where a report to the host cannot be sent any
more, the connection ends right behind the frame.
-/

namespace AnboxReboxed.Android.BridgeService

open AnboxReboxed.Lib AnboxReboxed.Scripts.ReboxedBridge Function

def MAX_FILE : Int := 2 * 1024 * 1024 * 1024
def NAME_MAX : Nat := 255

/-- What the service computes with. -/
structure Platform where
  /-- The SHA-256 of the data, as digits. -/
  hexdigest : ByteString → Str
  /-- There is none where `Base64.decode` throws. -/
  decode : Str → Option ByteString

inductive Operation where
  | file_receive
  | package_part
  deriving DecidableEq

structure Transfer where
  id : Str
  name : Str
  expectedSize : Int
  expectedHash : Str
  /-- What the digest has been fed with. -/
  digest : ByteString := []
  received : Nat := 0
  operation : Operation
  installId : Option Str
  index : Nat
  count : Nat

/-- The fields of a frame as they are read: there is none where `getString` or `getLong` throws. -/
inductive Message where
  | begin (operation : Operation) (transfer_id : Option Str) (size : Option Int) (sha256 name : Option Str)
    (install_id : Str) (index count : Int)
  | chunk (transfer_id data : Option Str)
  /-- The download, if it comes to that, is published or cannot be. -/
  | «end» (transfer_id : Option Str) (published : Bool)
  | cancel (transfer_id : Str)
  /-- A frame that has nothing to do with the transfers. -/
  | other (throws : Bool)

/-- The files of a directory, by name. -/
abbrev Directory := List (Str × ByteString)

def Directory.put (files : Directory) (name : Str) (content : ByteString) : Directory :=
  files.filter (fun f => f.1 ≠ name) ++ [(name, content)]

/-- A name does not come behind another one. -/
def ordered : Str → Str → Bool
  | [], _ => true
  | _ :: _, [] => false
  | a :: s, b :: t => a < b || (a == b && ordered s t)

/-- `files.sortedBy { it.name }` -/
def Directory.sorted (files : Directory) : Directory := files.insertionSort fun f g => ordered f.1 g.1 = true

/-- A file of `bridge-incoming` stands under the id of its transfer: it is named after that, with `.part` behind. -/
structure Service where
  connected : Bool := false
  transfers : Str → Option Transfer := fun _ => none
  incoming : Str → Option ByteString := fun _ => none
  /-- The files of `bridge-incoming` that are open. -/
  outputs : Str → Bool := fun _ => false
  installations : Str → Directory := fun _ => []
  downloads : Directory := []
  /-- The calls of `installApks`, each with the id and the files. -/
  installed : List (Str × Directory) := []

def safeName (raw : Str) : Option Str :=
  if raw = [] ∨ (raw.flatMap Json.utf8).length > 255 ∨ raw = str "." ∨ raw = str ".." then none
  else if slash ∈ raw ∨ backslash ∈ raw ∨ 0 ∈ raw then none
  else
    let cleaned := raw.map fun c => if is_plain c then c else underscore
    if cleaned = [] ∨ cleaned = str "." ∨ cleaned = str ".." then none else some cleaned

/-- `"%03d-%s".format(index, name)`, for an index of at most three digits. -/
def partName (index : Nat) (name : Str) : Str :=
  [48 + index / 100, 48 + index / 10 % 10, 48 + index % 10, hyphen] ++ name

namespace Service

variable (platform : Platform) (s : Service)

/-- What `beginTransfer` checks before the file of the transfer is there: the id, the size, the checksum and the
name. -/
def begin_checked : Option Str → Option Int → Option Str → Option Str → Option (Str × Int × Str × Str)
  | some id, some size, some hash, some name =>
    if is_transfer_id id = false ∨ (s.transfers id).isSome then none
    else if size < 0 ∨ size > MAX_FILE then none
    else if is_checksum hash = false then none
    else if (s.incoming id).isSome then none
    else (safeName name).map fun name => (id, size, hash, name)
  | _, _, _, _ => none

/-- What it checks behind that. -/
def begin_late (install_id : Str) (index count : Int) : Bool :=
  (install_id = [] || is_transfer_id install_id) && decide (1 ≤ count ∧ count ≤ 128 ∧ 0 ≤ index ∧ index < count)

/-- `FileOutputStream(part)` -/
def create (id : Str) : Service :=
  { s with incoming := update s.incoming id (some []), outputs := update s.outputs id true }

/-- The output is closed and the file is gone. -/
def discard (id : Str) : Service :=
  { s with incoming := update s.incoming id none, outputs := update s.outputs id false }

def remove (id : Str) : Service := { s with transfers := update s.transfers id none }

/-- A handler returns or throws. -/
def beginTransfer (operation : Operation) (transfer_id : Option Str) (size : Option Int) (sha256 name : Option Str)
    (install_id : Str) (index count : Int) : Service × Bool :=
  match s.begin_checked transfer_id size sha256 name with
  | none => (s, false)
  | some (id, size, hash, name) =>
    if begin_late install_id index count then
      let transfer : Transfer := {
        id, name, expectedSize := size, expectedHash := hash, operation
        installId := if install_id = [] then none else some install_id
        index := index.toNat
        count := count.toNat }
      ({ s.create id with transfers := update s.transfers id (some transfer) }, true)
    else (s.create id, false)

def transferChunk (transfer_id data : Option Str) : Service × Bool :=
  match transfer_id.bind s.transfers, data.bind platform.decode with
  | some t, some data =>
    if data = [] ∨ data.length > 256 * 1024 ∨ (t.received + data.length : Int) > t.expectedSize then (s, false)
    else
      ({ s with
        incoming := update s.incoming t.id ((s.incoming t.id).map (· ++ data))
        transfers := update s.transfers t.id
          (some { t with digest := t.digest ++ data, received := t.received + data.length }) }, true)
  | _, _ => (s, false)

/-- `finishReceivedFile`: the file is gone in any case. -/
def finishReceivedFile (t : Transfer) (published : Bool) : Service :=
  match s.incoming t.id with
  | some content =>
    if published then { s.discard t.id with downloads := s.downloads ++ [(t.name, content)] } else s.discard t.id
  | none => s.discard t.id

def finishPackagePart (t : Transfer) : Service × Bool :=
  match t.installId, s.incoming t.id with
  | some installId, some content =>
    if (partName t.index t.name).length > NAME_MAX then (s, false)
    else
      let files := (s.installations installId).put (partName t.index t.name) content
      ({ s.discard t.id with
        installations := update s.installations installId files
        installed := if files.length = t.count then s.installed ++ [(installId, files.sorted)] else s.installed },
        true)
  | _, _ => (s, false)

/-- The size and the checksum are those that were declared. -/
def verified (t : Transfer) : Bool :=
  (t.received : Int) = t.expectedSize && platform.hexdigest t.digest = t.expectedHash

/-- The rest of `endTransfer`, once the entry is gone and the output is closed. -/
def finishTransfer (t : Transfer) (published : Bool) : Service × Bool :=
  if verified platform t = false then (s.discard t.id, true)
  else match t.operation with
    | .package_part => s.finishPackagePart t
    | .file_receive => (s.finishReceivedFile t published, true)

def endTransfer (transfer_id : Option Str) (published : Bool) : Service × Bool :=
  match transfer_id.bind s.transfers with
  | none => (s, false)
  | some t => finishTransfer platform { s.remove t.id with outputs := update s.outputs t.id false } t published

def cancelTransfer (id : Str) : Service :=
  match s.transfers id with
  | none => s
  | some t => (s.remove id).discard t.id

def handle : Message → Service × Bool
  | .begin operation transfer_id size sha256 name install_id index count =>
    s.beginTransfer operation transfer_id size sha256 name install_id index count
  | .chunk transfer_id data => s.transferChunk platform transfer_id data
  | .«end» transfer_id published => s.endTransfer platform transfer_id published
  | .cancel transfer_id => (s.cancelTransfer transfer_id, true)
  | .other throws => (s, !throws)

end Service

inductive Label where
  | connect
  | frame (message : Message)
  /-- The end of the input, or an error. -/
  | disconnect
  | onDestroy

namespace Service

variable (platform : Platform)

/-- The loop of `connectorLoop`, and `onDestroy`. -/
def step (s : Service) : Label → Option Service
  | .connect => if s.connected = false then some { s with connected := true } else none
  | .frame message =>
    if s.connected = true then
      let (s', returned) := s.handle platform message
      some { s' with connected := returned }
    else none
  | .disconnect => if s.connected = true then some { s with connected := false } else none
  | .onDestroy =>
    some { s with
      connected := false
      transfers := fun _ => none
      incoming := fun id => if (s.transfers id).isSome then none else s.incoming id
      outputs := fun id => if (s.transfers id).isSome then false else s.outputs id }

/-- The files of `bridge-incoming` are those of the transfers, which have their outputs open. -/
def Exact (s : Service) : Prop :=
  ∀ id, ((s.incoming id).isSome = true ↔ (s.transfers id).isSome = true) ∧
    ((s.transfers id).isSome = true → s.outputs id = true)

/-- There is no transfer and no file left. -/
def Idle (s : Service) : Prop := ∀ id, s.transfers id = none ∧ s.incoming id = none

/-- What holds in every state: a connection that has ended has left nothing behind, either. -/
def Kept (s : Service) : Prop := s.Exact ∧ (s.connected = false → s.Idle)

/-- A `beginTransfer` that throws changes neither the transfers nor the set of the files. -/
def BeginAtomic (s : Service) : Label → Prop
  | .frame (.begin operation transfer_id size sha256 name install_id index count) =>
    s.connected = true → (s.beginTransfer operation transfer_id size sha256 name install_id index count).2 = false →
      (s.beginTransfer operation transfer_id size sha256 name install_id index count).1.transfers = s.transfers ∧
      ∀ id, ((s.beginTransfer operation transfer_id size sha256 name install_id index count).1.incoming id).isSome =
        (s.incoming id).isSome
  | _ => True

/-- A frame with nothing to complain about once the file is there, or once the entry is gone. -/
def Sound (s : Service) : Message → Prop
  | .begin _ transfer_id size sha256 name install_id index count =>
    s.begin_checked transfer_id size sha256 name ≠ none → begin_late install_id index count = true
  | .«end» transfer_id _ =>
    ∀ t, transfer_id.bind s.transfers = some t → verified platform t = true → t.operation = .package_part →
      t.installId ≠ none ∧ (partName t.index t.name).length ≤ NAME_MAX
  | _ => True

/-- No frame fails too late, and the connection does not end while there is a transfer, which it does when a handler
throws. -/
def Careful (s : Service) : Label → Prop
  | .frame message =>
    s.connected = true →
      s.Sound platform message ∧ ((s.handle platform message).2 = false → ∀ id, s.transfers id = none)
  | .disconnect => s.connected = true → ∀ id, s.transfers id = none
  | _ => True

end Service

/-- A service without any files. -/
def serviceMachine (platform : Platform) : Machine Service Label where
  init := {}
  step := Service.step platform

end AnboxReboxed.Android.BridgeService
