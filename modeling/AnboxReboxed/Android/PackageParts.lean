import AnboxReboxed.Android.BridgeService

/-!
# Packages that arrive in parts

An installation has an id, and a package for it comes in parts with an index each. The service does not keep account of
the parts: it looks at how many files there are.
-/

namespace AnboxReboxed.Android.PackageParts

open AnboxReboxed.Lib AnboxReboxed.Android.BridgeService
open AnboxReboxed.Scripts.ReboxedBridge (Str str)

/-- A part whose size and checksum are in order. -/
structure Part where
  installId : Str
  index : Nat
  count : Nat
  name : Str
  content : ByteString

def Part.file (p : Part) : Str × ByteString := (partName p.index p.name, p.content)

/-- The part that a frame completes. -/
def completed (platform : Platform) (s : Service) : Message → Option Part
  | .«end» transfer_id _ =>
    (transfer_id.bind s.transfers).bind fun t =>
      if Service.verified platform t = true ∧ t.operation = .package_part then
        t.installId.map fun installId =>
          { installId, index := t.index, count := t.count, name := t.name, content := t.digest }
      else none
  | _ => none

/-- The service, and the parts that have arrived. -/
structure World where
  service : Service := {}
  arrived : List Part := []

namespace World

variable (platform : Platform)

/-- The part that a step completes. -/
def part? (w : World) : Label → Option Part
  | .frame message => if w.service.connected = true then completed platform w.service message else none
  | _ => none

def step (w : World) (label : Label) : Option World :=
  (w.service.step platform label).map fun service =>
    { service, arrived := w.arrived ++ (w.part? platform label).toList }

/-- The calls of `installApks` for an installation. -/
def calls (w : World) (id : Str) : List (Str × Directory) := w.service.installed.filter fun call => call.1 = id

/-- The parts of an installation. -/
def parts (w : World) (id : Str) : List Part := w.arrived.filter fun p => p.installId = id

/-- The files are those of the parts with the indices up to a count that a part has declared, in this order. -/
def Complete (w : World) (id : Str) (files : Directory) : Prop :=
  (∃ p ∈ w.parts id, p.count = files.length) ∧
  ∀ i file, files[i]? = some file → ∃ p ∈ w.parts id, p.index = i ∧ file = p.file

/-- The parts are those that the host sends for a package of `n` files, in whatever order. -/
def Delivered (w : World) (id : Str) (n : Nat) : Prop :=
  0 < n ∧ (∀ p ∈ w.parts id, p.count = n) ∧ ((w.parts id).map Part.index).Perm (List.range n)

/-- An installation is called for once at most and with all of its files; and it is called for when these are there. -/
def Assembled (w : World) : Prop :=
  ∀ id, (w.calls id).length ≤ 1 ∧ (∀ call ∈ w.calls id, w.Complete id call.2) ∧
    ∀ n, w.Delivered id n → (w.calls id).length = 1

/-- All of the indices have arrived. -/
def Full (w : World) (id : Str) (n : Nat) : Prop := ∀ i < n, ∃ p ∈ w.parts id, p.index = i

/-- A part has a name for which there is room and comes for an installation that is not full. It agrees with the others
on the count, and with one of its own index on the name. -/
def Orderly (w : World) (label : Label) : Prop :=
  ∀ p ∈ w.part? platform label,
    (partName p.index p.name).length ≤ NAME_MAX ∧ ¬w.Full p.installId p.count ∧
    ∀ q ∈ w.parts p.installId, q.count = p.count ∧ (q.index = p.index → q.name = p.name)

instance (w : World) (id : Str) (n : Nat) : Decidable (w.Full id n) :=
  inferInstanceAs (Decidable (∀ i < n, ∃ p ∈ w.parts id, p.index = i))

instance (w : World) (label : Label) : Decidable (w.Orderly platform label) :=
  inferInstanceAs (Decidable (∀ p ∈ w.part? platform label, _ ∧ _ ∧ ∀ q ∈ w.parts p.installId, _))

end World

def partsMachine (platform : Platform) : Machine World Label where
  init := {}
  step := World.step platform

end AnboxReboxed.Android.PackageParts
