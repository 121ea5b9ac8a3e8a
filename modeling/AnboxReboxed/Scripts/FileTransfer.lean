import AnboxReboxed.Android.BridgeService
import AnboxReboxed.Lib.Weave
import AnboxReboxed.Lib.Wire
import AnboxReboxed.Scripts.BridgeFrames

/-!
# Files that go from one side to the other

`send_file` of the host sends a file to the service in Android, through the daemon; `exportUri` of the service sends one
to the daemon. Both send the data in chunks, and other frames may come in between.
-/

namespace AnboxReboxed.Scripts.FileTransfer

open AnboxReboxed.Lib AnboxReboxed.Lib.Json AnboxReboxed.Scripts.BridgeFrames AnboxReboxed.Android
open AnboxReboxed.Scripts.ReboxedBridge (Str str CHUNK slash backslash hyphen encoded_length World.Direct Args)

/-- The chunks that `stream.read(CHUNK)` returns, up to the end of the file. -/
def read_chunks : Nat → ByteString → List ByteString
  | 0, _ => []
  | n + 1, content => if content = [] then [] else content.take CHUNK :: read_chunks n (content.drop CHUNK)

/-! ## From the host to Android -/

/-- The name of a file that there is. -/
def is_file_name (name : Str) : Prop := World.Direct name ∧ (name.flatMap utf8).length ≤ 255

/-- A message for the service: its fields, and what the service reads in them. -/
structure Sent where
  fields : Fields
  message : BridgeService.Message

section

variable (platform : BridgeService.Platform) (id name : Str) (content : ByteString)

def begin_sent : Sent where
  fields := [(codes "op", .str (codes "file.receive")), (codes "transfer_id", .str id), (codes "name", .str name),
    (codes "size", .int content.length), (codes "sha256", .str (platform.hexdigest content))]
  message := .begin .file_receive (some id) (some content.length) (some (platform.hexdigest content)) (some name) [] 0 1

def chunk_sent (data : ByteString) : Sent where
  fields := [(codes "op", .str (codes "transfer.chunk")), (codes "transfer_id", .str id),
    (codes "data", .str (Base64.encode data))]
  message := .chunk (some id) (some (Base64.encode data))

def end_sent : Sent where
  fields := [(codes "op", .str (codes "transfer.end")), (codes "transfer_id", .str id)]
  message := .«end» (some id) true

/-- The messages of `send_file`. The download can be published. -/
def send_file : List Sent :=
  begin_sent platform id name content ::
    ((read_chunks content.length content).map (chunk_sent id) ++ [end_sent id])

/-- What `send_file` asks the daemon for. -/
def forward_request (fields : Fields) : Fields :=
  [(codes "op", .str (codes "guest.forward")), (codes "id", .str id), (codes "message", .dict fields),
    (codes "version", .int VERSION)]

/-- The message passes the daemon: it fits a frame on both ways, and it is forwarded when the guest is there. -/
def Forwarded (fields : Fields) : Prop :=
  dumps_length (.dict (forward_request id fields)) ≤ MAX_FRAME ∧
  dumps_length (.dict (set fields "version" (.int VERSION))) ≤ MAX_FRAME ∧
  ∀ (server : Server) (peer : Nat) (found : Found), server.daemon.guest ≠ none → server.daemon.guest ≠ some peer →
    found.failed = false →
      server.guest_forward peer (forward_request id fields) found = .response [(codes "forwarded", .bool true)]

/-- A frame that is not about this transfer. -/
def OtherFrame : BridgeService.Label → Prop
  | .frame (.begin _ transfer_id ..) | .frame (.chunk transfer_id _) | .frame (.«end» transfer_id _) =>
    transfer_id ≠ some id
  | .frame (.cancel transfer_id) => transfer_id ≠ id
  | .frame (.other _) => True
  | _ => False

/-- The connection does not end because of another frame. -/
def ServiceUp (s : BridgeService.Service) (label : BridgeService.Label) : Prop :=
  ∀ message, label = .frame message → OtherFrame id label → (s.handle platform message).2 = true

/-- A frame of the transfer is accepted, and the file is downloaded at the end. -/
def Received (s : BridgeService.Service) (label : BridgeService.Label) : Prop :=
  ∀ message, label = .frame message → ¬OtherFrame id label →
    (s.handle platform message).2 = true ∧
    ∀ published, message = .«end» (some id) published →
      ∃ cleaned, BridgeService.safeName name = some cleaned ∧
        (s.handle platform message).1.downloads = s.downloads ++ [(cleaned, content)]

end

/-! ## From Android to the host -/

section

variable (setup : Setup) (guest : Nat) (id name : Str) (content : ByteString)

def begin_request (uuid : Str) : Fields :=
  [(codes "op", .str (codes "transfer.begin")), (codes "transfer_id", .str id), (codes "name", .str name),
    (codes "size", .int content.length), (codes "sha256", .str (setup.args.hexdigest content)),
    (codes "id", .str uuid), (codes "version", .int VERSION)]

def chunk_request (data : ByteString) (uuid : Str) : Fields :=
  [(codes "op", .str (codes "transfer.chunk")), (codes "transfer_id", .str id),
    (codes "data", .str (Base64.encode data)), (codes "id", .str uuid), (codes "version", .int VERSION)]

def end_request (uuid : Str) : Fields :=
  [(codes "op", .str (codes "transfer.end")), (codes "transfer_id", .str id), (codes "id", .str uuid),
    (codes "version", .int VERSION)]

/-- The rest of the requests: each has an id of its own, and the daemon finds out something while it serves it. -/
def export_rest : List (Str × Found) → List ByteString → List Label
  | (uuid, found) :: more, data :: pieces =>
    .request guest (chunk_request id data uuid) found :: export_rest more pieces
  | (uuid, found) :: _, [] => [.request guest (end_request id uuid) found]
  | [], _ => []

/-- The name that the file goes by: there may be none to be found. -/
def display_name (queried : Option Str) : Str := queried.getD (str "android-export")

/-- The requests of `exportUri`, which sends nothing when the name is unsafe. What it reads from the file comes in
pieces. -/
def exportUri (queried : Option Str) (uuid : Str) (found : Found) (more : List (Str × Found))
    (pieces : List ByteString) : List Label :=
  match BridgeService.safeName (display_name queried) with
  | none => []
  | some name =>
    .request guest (begin_request setup id name content uuid) found :: export_rest guest id more pieces

/-- A frame of Android that is sent, and that the daemon reads. -/
def Sendable : Label → Prop
  | .request _ fields _ => android_length (.dict fields) ≤ MAX_FRAME
  | _ => True

/-- Another step: it is not about this transfer, and the guest stays. -/
def OtherRequest : Label → Prop
  | .request _ fields found => get fields "transfer_id" ≠ .str id ∧ found.uuid4 ≠ id
  | .connect .. => True
  | .disconnect peer => peer ≠ guest

/-- The connection does not end because of another step. -/
def ServerUp (s : Server) (label : Label) : Prop :=
  OtherRequest guest id label → ∃ s', s.step setup label = some s' ∧ s'.daemon.peers guest = true

/-- The name of the file among the exports: the id comes before a name that is taken. -/
def export_name (s : Server) : Str := if (s.daemon.exports name).isSome then id ++ hyphen :: name else name

/-- A request of the transfer is accepted, and the file is among the exports at the end. -/
def Exported (s : Server) (label : Label) : Prop :=
  ∀ fields found, label = .request guest fields found → ¬OtherRequest guest id label →
    (∃ response, (s.dispatch setup guest fields found).2 = .response response) ∧
    (get fields "op" = .str (codes "transfer.end") →
      (s.dispatch setup guest fields found).1.daemon.exports (export_name id name s) = some content)

/-- When the transfer ends, a file can have the name that it gets. -/
def Named (s : Server) (label : Label) : Prop :=
  ∀ fields found, label = .request guest fields found → ¬OtherRequest guest id label →
    get fields "op" = .str (codes "transfer.end") → (export_name id name s).length ≤ setup.args.name_max

end

end AnboxReboxed.Scripts.FileTransfer
