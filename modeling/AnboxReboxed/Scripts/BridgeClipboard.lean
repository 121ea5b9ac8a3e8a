import AnboxReboxed.Lib.Machine
import AnboxReboxed.Lib.Wire

/-!
# The clipboards on both sides of the bridge

The daemon polls the clipboard of the host and sends what is new in a `clipboard.changed` frame; the service in Android
is called back for every change of its clipboard and sends that in a `clipboard.push` frame. Each side keeps the digest
of one text, so that it does not send back what it got from the other one.

The guest is connected, both directions are enabled, and the clipboards can be read and written.
-/

namespace AnboxReboxed.Scripts.BridgeClipboard

open AnboxReboxed.Lib

/-- The digits of a checksum. -/
abbrev Digest := ByteString

def MAX_CLIPBOARD : Nat := 1024 * 1024

/-- A `clipboard.changed` frame. -/
structure Changed where
  text : ByteString
  digest : Digest
  deriving DecidableEq

/-- A text is its bytes in UTF-8. -/
structure Clipboards where
  host : ByteString
  last_clipboard : Option Digest := none
  suppress_clipboard : Option Digest := none
  /-- What `clipboard_poll` has read and not looked at so far. -/
  polling : Option ByteString := none
  /-- The text of the `clipboard.push` that waits for `backend.write`. -/
  writing : Option ByteString := none
  android : ByteString
  lastRemoteClipboard : Option Digest := none
  /-- The changes that `onPrimaryClipChanged` has still to be called for. -/
  callbacks : Nat := 0
  /-- The frames to Android. -/
  changed : List Changed := []
  /-- The frames to the host, by their texts. -/
  pushed : List ByteString := []

inductive Label where
  | host_copy (text : ByteString)
  | android_copy (text : ByteString)
  /-- `clipboard_poll` up to the text that it awaits, and the rest of a round. -/
  | poll_read
  | poll_done
  /-- `clipboard.push` up to the write that it awaits, and the write. -/
  | push
  | write
  | receiveClipboard
  | onPrimaryClipChanged

/-- The text of a user. -/
def Label.copied? : Label → Option ByteString
  | .host_copy text | .android_copy text => some text
  | _ => none

namespace Clipboards

variable (digest_text : ByteString → Digest) (w : Clipboards)

/-- A round of `clipboard_poll`, from where the text is there. -/
def clipboard_poll (text : ByteString) : Clipboards :=
  let w := { w with polling := none }
  if text.length > MAX_CLIPBOARD then w
  else if some (digest_text text) = w.suppress_clipboard then
    { w with suppress_clipboard := none, last_clipboard := some (digest_text text) }
  else if text ≠ [] ∧ some (digest_text text) ≠ w.last_clipboard then
    { w with
      last_clipboard := some (digest_text text)
      changed := w.changed ++ [{ text, digest := digest_text text }] }
  else w

/-- `dispatch` of a `clipboard.push`. -/
def clipboard_push (text : ByteString) : Clipboards :=
  if text = [] ∨ text.length > MAX_CLIPBOARD then w
  else if some (digest_text text) ≠ w.last_clipboard then
    { w with
      suppress_clipboard := some (digest_text text)
      last_clipboard := some (digest_text text)
      writing := some text }
  else w

def receiveClipboard (message : Changed) : Clipboards :=
  if message.text = [] ∨ message.text.length > 1024 * 1024 then w
  else { w with
    lastRemoteClipboard := some message.digest
    android := message.text
    callbacks := w.callbacks + 1 }

def onPrimaryClipChanged : Clipboards :=
  if w.android = [] ∨ w.android.length > 1024 * 1024 then w
  else if some (digest_text w.android) = w.lastRemoteClipboard then { w with lastRemoteClipboard := none }
  else { w with pushed := w.pushed ++ [w.android] }

/-- A user copies a text that is short enough for the bridge. The requests of the guest are served one by one, and so
are the rounds of `clipboard_poll`. -/
def step : Label → Option Clipboards
  | .host_copy text => if text ≠ [] ∧ text.length ≤ MAX_CLIPBOARD then some { w with host := text } else none
  | .android_copy text =>
    if text ≠ [] ∧ text.length ≤ MAX_CLIPBOARD then some { w with android := text, callbacks := w.callbacks + 1 }
    else none
  | .poll_read => if w.polling = none then some { w with polling := some w.host } else none
  | .poll_done => w.polling.map (w.clipboard_poll digest_text)
  | .push =>
    match w.writing, w.pushed with
    | none, text :: pushed => some (clipboard_push digest_text { w with pushed } text)
    | _, _ => none
  | .write => w.writing.map fun text => { w with host := text, writing := none }
  | .receiveClipboard =>
    match w.changed with
    | message :: changed => some (receiveClipboard { w with changed } message)
    | [] => none
  | .onPrimaryClipChanged =>
    if w.callbacks ≠ 0 then some (onPrimaryClipChanged digest_text { w with callbacks := w.callbacks - 1 }) else none

end Clipboards

/-- The clipboards, and what has been seen of them. -/
structure World where
  now : Clipboards
  /-- What came through the bridge since a user copied something there. -/
  host_got : List ByteString := []
  android_got : List ByteString := []
  /-- What the poll has read is still on the host. -/
  fresh : Bool := false
  /-- There was a poll since the last change on the host. -/
  polled : Bool := false
  /-- The last text that a user copied since the bridge has been quiet. -/
  copied : Option ByteString := none

namespace World

variable (digest_text : ByteString → Digest)

/-- Nothing is under way. -/
def Quiescent (w : World) : Prop :=
  w.now.pushed = [] ∧ w.now.changed = [] ∧ w.now.writing = none ∧ w.polled = true ∧ w.now.callbacks = 0

instance (w : World) : Decidable w.Quiescent := inferInstanceAs (Decidable (_ ∧ _ ∧ _ ∧ _ ∧ _))

def observe (w : World) (now : Clipboards) (label : Label) : World :=
  let w' := { w with now, copied := if w.Quiescent then none else w.copied }
  match label with
  | .host_copy text => { w' with host_got := [], fresh := false, polled := false, copied := some text }
  | .android_copy text => { w' with android_got := [], copied := some text }
  | .poll_read => { w' with fresh := true }
  | .poll_done => { w' with fresh := false, polled := w.polled || w.fresh }
  | .write => { w' with host_got := w.host_got ++ [now.host], fresh := false, polled := false }
  | .receiveClipboard => { w' with android_got := w.android_got ++ [now.android] }
  | _ => w'

def step (w : World) (label : Label) : Option World :=
  (w.now.step digest_text label).map fun now => w.observe now label

/-- When all is quiet, the last text that was copied is on both sides. -/
def Converged (w : World) : Prop :=
  w.Quiescent → ∀ text, w.copied = some text → w.now.host = text ∧ w.now.android = text

/-- What a step sends is nothing that came through the bridge, unless a user has copied something there since. -/
def Echoless (w : World) (label : Label) : Prop :=
  ∀ w', w.step digest_text label = some w' →
    (∀ message, w'.now.changed = w.now.changed ++ [message] → message.text ∉ w.host_got) ∧
    ∀ text, w'.now.pushed = w.now.pushed ++ [text] → text ∉ w.android_got

/-- Nothing that was copied on the other side is still to come, and no text is copied that is taken for one from there.
Neither the poll and a push nor two changes of the clipboard in Android get into each other's way. -/
def Orderly (w : World) : Label → Prop
  | .host_copy text =>
    w.now.pushed = [] ∧ w.now.writing = none ∧
    (w.now.callbacks = 0 ∨
      w.now.callbacks = 1 ∧ w.now.lastRemoteClipboard = some (digest_text w.now.android)) ∧
    w.now.suppress_clipboard ≠ some (digest_text text)
  | .android_copy text =>
    w.now.changed = [] ∧
    (w.now.writing = none → w.now.host = [] ∨ w.now.last_clipboard = some (digest_text w.now.host)) ∧
    (w.now.polling = none ∨ w.now.polling = some w.now.host) ∧
    w.now.lastRemoteClipboard ≠ some (digest_text text)
  | .poll_read => w.now.writing = none
  | .push => w.now.polling = none
  | .receiveClipboard => w.now.callbacks = 0
  | _ => True

instance (w : World) (label : Label) : Decidable (w.Orderly digest_text label) :=
  match label with
  | .host_copy _ | .android_copy _ => inferInstanceAs (Decidable (_ ∧ _ ∧ _ ∧ _))
  | .poll_read | .push | .receiveClipboard => inferInstanceAs (Decidable (_ = _))
  | .poll_done | .write | .onPrimaryClipChanged => instDecidableTrue

end World

/-- Both sides start with what is on their clipboards. -/
def clipboardMachine (digest_text : ByteString → Digest) (host android : ByteString) : Machine World Label where
  init := { now := { host, android } }
  step := World.step digest_text

end AnboxReboxed.Scripts.BridgeClipboard
