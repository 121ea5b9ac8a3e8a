import AnboxReboxed.Lib.Json
import AnboxReboxed.Scripts.ReboxedBridge

/-!
# What the bridge sends in a frame

The daemon answers each request of a peer in a frame of JSON, which it does not send when it is longer than `MAX_FRAME`.
It keeps a history, and a part of that goes into the answer to a `status` request. The two frames for the clipboard have
the whole text in them.
-/

namespace AnboxReboxed.Scripts.BridgeFrames

open AnboxReboxed.Lib AnboxReboxed.Lib.Json AnboxReboxed.Scripts.ReboxedBridge Function

def VERSION : Int := 1
def MAX_FRAME : Nat := 1024 * 1024
def MAX_CLIPBOARD : Nat := 1024 * 1024
def HISTORY_LIMIT : Nat := 200

/-- The fields of an object. -/
abbrev Fields := List (Str × Json)

def get? (fields : Fields) (key : String) : Option Json := fields.lookup (codes key)

/-- `fields.get(key)` -/
def get (fields : Fields) (key : String) : Json := (get? fields key).getD .null

/-- `fields[key] = value` -/
def set (fields : Fields) (key : String) (value : Json) : Fields :=
  if (get? fields key).isSome then fields.map fun f => if f.1 = codes key then (f.1, value) else f
  else fields ++ [(codes key, value)]

/-- A value as far as the transfers look at it. -/
def value : Json → Value
  | .null => .none
  | .bool b => .bool b
  | .int n => .int n
  | .float zero _ => .float zero
  | .str s => .str s
  | .list items => .list items.isEmpty
  | .dict fields => .dict fields.isEmpty

/-- `len(json.dumps(value, separators=(",", ":")).encode())` -/
def dumps_length (value : Json) : Nat := size escapeAscii value

/-- What `record` adds to the history. -/
inductive Record where
  | receiving (id name : Str) (size : Json) (updated_at : Nat)
  | complete (id name : Str) (size : Json) (path : Str) (updated_at : Nat)
  | cancelled (id : Json) (updated_at : Nat)
  | event (kind state detail : Json) (updated_at : Nat)

def Record.json : Record → Json
  | .receiving id name size updated_at =>
    .dict [(codes "id", .str id), (codes "name", .str name), (codes "size", size),
      (codes "direction", .str (codes "android-to-host")), (codes "state", .str (codes "receiving")),
      (codes "updated_at", .int updated_at)]
  | .complete id name size path updated_at =>
    .dict [(codes "id", .str id), (codes "name", .str name), (codes "size", size),
      (codes "direction", .str (codes "android-to-host")), (codes "state", .str (codes "complete")),
      (codes "path", .str path), (codes "updated_at", .int updated_at)]
  | .cancelled id updated_at =>
    .dict [(codes "id", id), (codes "state", .str (codes "cancelled")), (codes "updated_at", .int updated_at)]
  | .event kind state detail updated_at =>
    .dict [(codes "kind", kind), (codes "state", state), (codes "detail", detail),
      (codes "updated_at", .int updated_at)]

/-- The values in a record, and the rest of its text. -/
def Record.weight : Record → Nat
  | .receiving id name size updated_at =>
    escaped escapeAscii id + escaped escapeAscii name + dumps_length size + dumps_length (.int updated_at) + 91
  | .complete id name size path updated_at =>
    escaped escapeAscii id + escaped escapeAscii name + dumps_length size + escaped escapeAscii path +
      dumps_length (.int updated_at) + 100
  | .cancelled id updated_at => dumps_length id + dumps_length (.int updated_at) + 41
  | .event kind state detail updated_at =>
    dumps_length kind + dumps_length state + dumps_length detail + dumps_length (.int updated_at) + 42

/-- The options of the daemon, and what it depends on besides. -/
structure Setup where
  args : Args
  /-- `backend.name` -/
  backend : Str
  /-- The path of `exports`. -/
  exports : Str
  /-- What `str` makes of a value that is not a text. -/
  repr : Json → Str

/-- What happens to be found out while a request is served. -/
structure Found where
  uuid4 : Str := []
  /-- `int(time.time())` -/
  time : Nat := 0
  /-- A call to the outside fails. -/
  failed : Bool := false
  /-- The text of an `OSError` or a `ValueError`. -/
  text : Str := []

structure Server where
  daemon : Daemon := {}
  /-- The ids in `transfers`. -/
  ids : List Str := []
  /-- The size of a transfer as the peer declared it. -/
  declared : Str → Json := fun _ => .null
  history : List Record := []

/-- How a handler ends. -/
inductive Outcome where
  | response (fields : Fields)
  /-- By an error that `client` catches. -/
  | raised (message : Str)
  | type_error

namespace Server

variable (setup : Setup) (s : Server)

/-- `history[-n:]` -/
def recent (n : Nat) : List Record := s.history.drop (s.history.length - n)

def record (r : Record) : Server := { s with history := recent { s with history := s.history ++ [r] } HISTORY_LIMIT }

def with_daemon (daemon : Daemon) : Server :=
  { s with daemon, ids := s.ids.filter fun id => (daemon.transfers id).isSome }

def status : Fields :=
  [(codes "connected", .bool s.daemon.guest.isSome), (codes "protocol", .int VERSION),
    (codes "clipboard_backend", .str setup.backend), (codes "active_transfers", .int s.ids.length),
    (codes "history", .list ((s.recent 20).map Record.json))]

def message (found : Found) : Failure → Str
  | .bridge_error message => str message
  | _ => found.text

/-- The path of a file in `exports`, as a text. -/
def export_path (name : Str) : Str := setup.exports ++ slash :: name

def receive_file_begin (peer : Nat) (request : Fields) (found : Found) : Server × Outcome :=
  match s.daemon.receive_file_begin setup.args peer (value (get request "transfer_id")) (value (get request "size"))
      (value (get request "sha256")) (value (get request "name")) found.uuid4 with
  | .ok (daemon, .begun id) =>
    let name := ((daemon.transfers id).map Transfer.name).getD []
    (record { s with
      daemon
      ids := s.ids ++ [id]
      declared := update s.declared id (get request "size") } (.receiving id name (get request "size") found.time),
      .response [(codes "transfer_id", .str id)])
  | .ok _ => (s, .response [])
  | .error .type_error => (s, .type_error)
  | .error e => (s, .raised (message found e))

def receive_file_chunk (peer : Nat) (request : Fields) (found : Found) : Server × Outcome :=
  match s.daemon.receive_file_chunk setup.args peer (value (get request "transfer_id"))
      (value (get request "data")) with
  | .ok (daemon, .received id received _) =>
    ({ s with daemon },
      .response [(codes "transfer_id", .str id), (codes "received", .int received), (codes "size", s.declared id)])
  | .ok _ => (s, .response [])
  | .error .type_error => (s, .type_error)
  | .error e => (s, .raised (message found e))

def receive_file_end (peer : Nat) (request : Fields) (found : Found) : Server × Outcome :=
  match s.daemon.receive_file_end setup.args peer (value (get request "transfer_id")) with
  | (daemon, .ok (.complete id path)) =>
    let name := ((s.daemon.transfers id).map Transfer.name).getD []
    ((s.with_daemon daemon).record (.complete id name (s.declared id) (export_path setup path) found.time),
      .response [(codes "transfer_id", .str id), (codes "path", .str (export_path setup path)),
        (codes "state", .str (codes "complete"))])
  | (daemon, .ok _) => (s.with_daemon daemon, .response [])
  | (daemon, .error .type_error) => (s.with_daemon daemon, .type_error)
  | (daemon, .error e) => (s.with_daemon daemon, .raised (message found e))

/-- What the guest is told. -/
def cancel_frame (transfer_id : Json) : Json :=
  .dict [(codes "op", .str (codes "transfer.cancel")), (codes "transfer_id", transfer_id),
    (codes "version", .int VERSION)]

/-- The history has the cancellation even if there is no such transfer. -/
def cancel (request : Fields) (found : Found) : Server × Outcome :=
  let transfer_id := get request "transfer_id"
  let exceeds := decide (dumps_length (cancel_frame transfer_id) > MAX_FRAME)
  match s.daemon.cancel (value transfer_id) (!exceeds && !found.failed) with
  | (daemon, .error .type_error) => (s.with_daemon daemon, .type_error)
  | (daemon, .error _) =>
    ((s.with_daemon daemon).record (.cancelled transfer_id found.time),
      .raised (if exceeds then str "outgoing frame exceeds limit" else found.text))
  | (daemon, .ok _) =>
    ((s.with_daemon daemon).record (.cancelled transfer_id found.time),
      .response [(codes "state", .str (codes "cancelled"))])

def clipboard_push (request : Fields) (found : Found) : Outcome :=
  match get request "text" with
  | .str text =>
    if text = [] then .raised (str "clipboard text is empty or oversized")
    else match encoded_length text with
      | none => .raised found.text
      | some length =>
        if length > MAX_CLIPBOARD then .raised (str "clipboard text is empty or oversized")
        else if found.failed then .raised found.text
        else .response [(codes "digest", .str (setup.args.hexdigest ((text.flatMap utf8).map Nat.toUInt8)))]
  | _ => .raised (str "clipboard text is empty or oversized")

/-- `write_frame` to the guest may fail, too. -/
def guest_forward (peer : Nat) (request : Fields) (found : Found) : Outcome :=
  if s.daemon.guest = some peer then .raised (str "only the authenticated host role may forward")
  else match get request "message" with
    | .dict message =>
      match get message "op" with
      | .str _ =>
        if s.daemon.guest = none then .raised (str "Android bridge service is not connected")
        else if dumps_length (.dict (set message "version" (.int VERSION))) > MAX_FRAME then
          .raised (str "outgoing frame exceeds limit")
        else if found.failed then .raised found.text
        else .response [(codes "forwarded", .bool true)]
      | _ => .raised (str "invalid forwarded message")
    | _ => .raised (str "invalid forwarded message")

def host_event (peer : Nat) (request : Fields) (found : Found) : Server × Outcome :=
  if s.daemon.guest ≠ some peer then (s, .raised (str "only the authenticated guest role may emit events"))
  else match get request "event" with
    | .dict event =>
      (s.record (.event ((get? event "op").getD (.str (codes "host.event")))
        ((get? event "state").getD (.str (codes "updated"))) ((get? event "detail").getD (.str [])) found.time),
        .response [(codes "recorded", .bool true)])
    | _ => (s, .raised (str "invalid host event"))

/-- `android.info`, `diagnostics.result` and `install.result` -/
def result (request : Fields) (found : Found) : Server × Outcome :=
  (s.record (.event (get request "op") ((get? request "state").getD (.str (codes "updated")))
    ((get? request "detail").getD (.str [])) found.time), .response [(codes "recorded", .bool true)])

def unsupported (operation : Json) : Str :=
  str "unsupported operation: " ++ match operation with
    | .str s => s
    | v => setup.repr v

def dispatch (peer : Nat) (request : Fields) (found : Found) : Server × Outcome :=
  match get request "op" with
  | .str operation =>
    if operation = codes "status" then (s, .response (s.status setup))
    else if operation = codes "clipboard.push" then (s, clipboard_push setup request found)
    else if operation = codes "transfer.begin" then s.receive_file_begin setup peer request found
    else if operation = codes "transfer.chunk" then s.receive_file_chunk setup peer request found
    else if operation = codes "transfer.end" then s.receive_file_end setup peer request found
    else if operation = codes "transfer.cancel" then s.cancel request found
    else if operation = codes "guest.forward" then (s, s.guest_forward peer request found)
    else if operation = codes "host.event" then s.host_event peer request found
    else if operation = codes "android.info" ∨ operation = codes "diagnostics.result" ∨
        operation = codes "install.result" then s.result request found
    else (s, .raised (unsupported setup (.str operation)))
  | operation => (s, .raised (unsupported setup operation))

/-- The answer to a request that went well. -/
def ok_frame (request : Fields) (response : Fields) : Json :=
  .dict (response ++ [(codes "id", get request "id"), (codes "ok", .bool true), (codes "version", .int VERSION)])

/-- What `send_error` writes. -/
def error_frame (request : Fields) (message : Str) : Json :=
  .dict [(codes "id", get request "id"), (codes "ok", .bool false), (codes "error", .str message),
    (codes "version", .int VERSION)]

/-- What `send_error` is called with: also an answer that is too long is an error. -/
def sent_error (request : Fields) : Outcome → Option Str
  | .response response =>
    if dumps_length (ok_frame request response) > MAX_FRAME then some (str "outgoing frame exceeds limit") else none
  | .raised message => some message
  | .type_error => none

def leave (peer : Nat) : Server := s.with_daemon (s.daemon.leave peer)

/-- A round of the loop in `client`. The connection ends when the error cannot be sent, either. -/
def client (peer : Nat) (request : Fields) (found : Found) : Server :=
  let (s', outcome) := s.dispatch setup peer request found
  match outcome, sent_error request outcome with
  | .type_error, _ => s'.leave peer
  | _, some message => if dumps_length (error_frame request message) > MAX_FRAME then s'.leave peer else s'
  | _, none => s'

end Server

inductive Label where
  /-- A peer has said hello. -/
  | connect (peer : Nat) (guest : Bool)
  | request (peer : Nat) (request : Fields) (found : Found)
  | disconnect (peer : Nat)

/-- A request that fits a frame, as the host sends it. -/
def Label.Framed : Label → Prop
  | .request _ fields _ => dumps_length (.dict fields) ≤ MAX_FRAME
  | _ => True

namespace Server

variable (setup : Setup)

def step (s : Server) : Label → Option Server
  | .connect peer guest =>
    if s.daemon.peers peer = true ∨ (guest = true ∧ s.daemon.guest ≠ none) then none
    else some { s with daemon := { s.daemon with
      peers := update s.daemon.peers peer true
      guest := if guest then some peer else s.daemon.guest } }
  | .request peer request found =>
    if s.daemon.peers peer = true then some (s.client setup peer request found) else none
  | .disconnect peer => if s.daemon.peers peer = true then some (s.leave peer) else none

end Server

/-- What `UUID.randomUUID().toString()` looks like. -/
def is_uuid (s : Str) : Bool :=
  s.length == 36 && s.all fun c => (48 ≤ c && c ≤ 57) || (97 ≤ c && c ≤ 102) || c == hyphen

/-- How many characters a code point takes in a frame of the host. -/
def ascii_cost (c : Nat) : Nat :=
  if c = 34 ∨ c = 92 ∨ c = 10 ∨ c = 13 ∨ c = 9 ∨ c = 12 ∨ c = 8 then 2
  else if 32 ≤ c ∧ c ≤ 126 then 1
  else if c < 0x10000 then 6
  else 12

/-- How many bytes a code point takes in a frame of Android. -/
def utf8_cost (c : Nat) : Nat :=
  if c = 34 ∨ c = 92 ∨ c = 10 ∨ c = 13 ∨ c = 9 ∨ c = 12 ∨ c = 8 ∨ c = 47 then 2
  else if c < 32 then 6
  else if c < 0x80 ∨ 0xD800 ≤ c ∧ c ≤ 0xDFFF then 1
  else if c < 0x800 then 2
  else if c < 0x10000 then 3
  else 4

/-- `value.toString().toByteArray(Charsets.UTF_8).size` -/
def android_length (value : Json) : Nat := size escapeUtf8 value

/-- A daemon with the history of an earlier one. -/
def serverMachine (setup : Setup) (history : List Record) : Machine Server Label where
  init := { history }
  step := Server.step setup

end AnboxReboxed.Scripts.BridgeFrames
