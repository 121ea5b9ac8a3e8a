import AnboxReboxed.Lib.Delimited
import AnboxReboxed.Lib.OrdMap
import AnboxReboxed.Qemu.QemudMessageProcessor
import Mathlib.Data.List.Lex

/-!
# `AtParser`

Lines with AT commands, and the table of the handlers that are run for them. The scan of a buffer works with
positions in it, as the source does.
-/

namespace AnboxReboxed.Qemu

open AnboxReboxed.Lib

/-- The bytes of a `std::string` are compared as unsigned numbers. -/
instance instLinearOrderUInt8 : LinearOrder UInt8 where
  le_refl := fun a => Nat.le_refl a.toNat
  le_trans := fun _ _ _ => UInt8.le_trans
  le_antisymm := fun _ _ => UInt8.le_antisymm
  le_total := UInt8.le_total
  lt_iff_le_not_ge := by
    intro a b
    rw [UInt8.not_le]
    exact ⟨fun h => ⟨UInt8.le_of_lt h, h⟩, fun h => h.2⟩
  toDecidableLE := inferInstance

/-- `handlers_`, with handlers from `η`; an empty `std::function` is `none`. -/
structure AtParser (η : Type) where
  handlers_ : OrdMap Bytes (Option η) := ∅

namespace AtParser

variable {η : Type}

/-- `insert` leaves a command alone that is there already. -/
def register_command (p : AtParser η) (command : Bytes) (handler : Option η) : AtParser η :=
  if command ∈ p.handlers_ then p else { handlers_ := p.handlers_.insert command handler }

/-- `byte == '\n' || byte == '\r'`. -/
def isEol (byte : UInt8) : Bool := byte == 10 || byte == 13

/-- The loop of `process_data` from `pos` on: the commands that it processes, and the value of
`bytes_processed` at its end. -/
def scan (data : Bytes) (pos bytes_processed : Nat) : List Bytes × Nat :=
  if h : pos < data.length then
    if isEol data[pos] then
      let command := (data.drop bytes_processed).take (pos - bytes_processed)
      let (commands, processed) := scan data (pos + 1) (bytes_processed + (pos - bytes_processed) + 1)
      (command :: commands, processed)
    else scan data (pos + 1) bytes_processed
  else ([], bytes_processed)
termination_by data.length - pos

/-- The handler of the first command in the table that `real_command` starts with. -/
def findHandler (p : AtParser η) (real_command : Bytes) : Option η :=
  (p.handlers_.entries.find? fun e => e.1.isPrefixOf real_command).bind Prod.snd

/-- `processs_command`: the handler that is run, and what it is given. -/
def processs_command (p : AtParser η) (command : Bytes) : Option (η × Bytes) :=
  if (ascii "AT").isPrefixOf command then
    let real_command := command.drop 2
    (p.findHandler real_command).map fun handler => (handler, real_command)
  else none

/-- `handler` belongs to the first command of the table that `real_command` starts with. -/
def IsFirstHandler (p : AtParser η) (real_command : Bytes) (handler : η) : Prop :=
  ∃ command, p.handlers_.find? command = some (some handler) ∧ command <+: real_command ∧
    ∀ other ∈ p.handlers_, other <+: real_command → command ≤ other

end AtParser

end AnboxReboxed.Qemu

/-!
## `GsmMessageProcessor`

The modem of the Android side: the AT commands it knows, and the replies to them.
-/

namespace AnboxReboxed.Qemu

open AnboxReboxed.Lib

/-- The handlers of the constructor. -/
inductive GsmHandler where
  | ok_reply
  | handle_ctec
  | handle_cmgf
  | handle_creg
  | handle_cgreg
  | handle_cfun
  deriving DecidableEq

namespace GsmHandler

/-- The message a handler gives to `send_reply`. -/
def reply (command : Bytes) : GsmHandler → Option Bytes
  | ok_reply => some (ascii "OK")
  | handle_ctec =>
    if command = ascii "+CTEC=?" then some (ascii "+CTEC: 0,1,2,3")
    else if command = ascii "+CTEC?" then some (ascii "+CTEC: 0,f")
    else none
  | handle_cmgf => if command = ascii "+CMGF=0" then some [] else none
  | handle_creg =>
    if command = ascii "+CREG=?" then some (ascii "+CREG: (0-2)")
    else if command = ascii "+CREG?" then some (ascii "+CREF: 0,0")
    else if (ascii "+CREG=").isPrefixOf command then some []
    else none
  | handle_cgreg =>
    if command = ascii "+CGREG=?" then some (ascii "+CGREG: (0-2)")
    else if command = ascii "+CGREG?" then some (ascii "+CGREG: 0,0")
    else if (ascii "+CGREG=").isPrefixOf command then some []
    else none
  | handle_cfun =>
    if command = ascii "+CFUN?" then some (ascii "+CFUN: 1")
    else if (ascii "+CFUN=").isPrefixOf command then some []
    else none

end GsmHandler

structure GsmMessageProcessor where
  buffer_ : Bytes := []
  /-- The lines that `processs_command` was called with. -/
  handled : List Bytes := []
  /-- The handlers that were run, and what they were given. -/
  invoked : List (GsmHandler × Bytes) := []
  /-- What was given to the messenger. -/
  sent : List Bytes := []
  deriving DecidableEq

namespace GsmMessageProcessor

/-- The commands of the constructor, in its order. -/
def commands : List (Bytes × GsmHandler) :=
  [(ascii "E0Q0V1", .ok_reply), (ascii "S0=0", .ok_reply), (ascii "+CTEC", .handle_ctec),
    (ascii "+CMEE=1", .ok_reply), (ascii "+CCWA=1", .ok_reply), (ascii "+CMOD=0", .ok_reply),
    (ascii "+CMUT=0", .ok_reply), (ascii "+CSSN=0,1", .ok_reply), (ascii "+COLP=0", .ok_reply),
    (ascii "+CSCS=\"HEX\"", .ok_reply), (ascii "+CUSD=1", .ok_reply), (ascii "+CGEREP=1,0", .ok_reply),
    (ascii "+CMGF", .handle_cmgf), (ascii "%CPI=3", .ok_reply), (ascii "%CSTAT=1", .ok_reply),
    (ascii "+CREG", .handle_creg), (ascii "+CGREG", .handle_cgreg), (ascii "+CFUN", .handle_cfun)]

/-- `parser_` after the constructor. -/
def parser_ : AtParser GsmHandler :=
  commands.foldl (fun p c => p.register_command c.1 (some c.2)) {}

def send_reply (s : GsmMessageProcessor) (message : Bytes) : GsmMessageProcessor :=
  { s with sent := s.sent ++ [message ++ ascii "\rOK\n"] }

/-- `processs_command` of the parser with the handlers of this class. -/
def processs_command (s : GsmMessageProcessor) (command : Bytes) : GsmMessageProcessor :=
  let s := { s with handled := s.handled ++ [command] }
  match parser_.processs_command command with
  | none => s
  | some (handler, real_command) =>
    let s := { s with invoked := s.invoked ++ [(handler, real_command)] }
    match handler.reply real_command with
    | none => s
    | some message => s.send_reply message

def process_data (s : GsmMessageProcessor) (data : Bytes) : GsmMessageProcessor :=
  let buffer_ := s.buffer_ ++ data
  let (commands, bytes_processed) := AtParser.scan buffer_ 0 0
  { commands.foldl processs_command s with buffer_ := buffer_.drop bytes_processed }

/-- The state after the calls with `chunks`. -/
def run (chunks : List Bytes) : GsmMessageProcessor := chunks.foldl process_data {}

end GsmMessageProcessor

end AnboxReboxed.Qemu
