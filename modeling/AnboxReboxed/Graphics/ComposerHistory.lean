import AnboxReboxed.Graphics.LayerComposer

/-!
# The history of a `LayerComposer`

The composer with a record of what it was asked and what its worker drew: the frames accepted, those
drawn as new frames, those presented, the calls of `request_redraw` and the draw passes the worker
started, each with the number of requests made before it.
-/

namespace AnboxReboxed.Graphics

open AnboxReboxed.Lib

inductive PassKind where
  | newFrame
  | redraw
  deriving DecidableEq

/-- A draw pass of the worker: the windows it resolved, the frame presented last when it started, and
the number of calls of `request_redraw` that had completed. -/
structure DrawPass where
  kind : PassKind
  windows : WindowRenderableList
  lastPresented : Option Frame
  requests : Nat

structure ComposerHistory where
  composer : Composer
  /-- The frames that entered the pending slot. -/
  accepted : List Frame := []
  /-- The frames the worker took to draw. -/
  drawn : List Frame := []
  /-- The frames whose drawing is complete. -/
  presented : List Frame := []
  /-- The calls of `request_redraw` so far. -/
  requests : Nat := 0
  passes : List DrawPass := []
  /-- The times the worker woke up for a redraw and resolved no window, each with the number of requests
  made before. -/
  skipped : List Nat := []

namespace ComposerHistory

/-- The worker woke up. -/
def recordWake (n : ComposerHistory) (s : Composer) : ComposerHistory :=
  match s.worker with
  | .drawing frame windows =>
    { n with
      composer := s
      drawn := n.drawn ++ [frame]
      passes := n.passes ++ [⟨.newFrame, windows, n.presented.getLast?, n.requests⟩] }
  | .redrawing windows =>
    { n with
      composer := s
      passes := n.passes ++ [⟨.redraw, windows, n.presented.getLast?, n.requests⟩] }
  | .waiting => { n with composer := s, skipped := n.skipped ++ [n.requests] }
  | _ => { n with composer := s }

/-- The worker drew a window, or finished its pass. -/
def recordDraw (n : ComposerHistory) (s : Composer) : ComposerHistory :=
  match n.composer.worker with
  | .drawing frame [] => { n with composer := s, presented := n.presented ++ [frame] }
  | _ => { n with composer := s }

def record (n : ComposerHistory) (op : ComposerOp) (s : Composer) : ComposerHistory :=
  match op with
  | .commit _ => { n with composer := s, accepted := n.accepted ++ s.pending_.toList }
  | .request_redraw => { n with composer := s, requests := n.requests + 1 }
  | .wake _ => n.recordWake s
  | .draw => n.recordDraw s
  | _ => { n with composer := s }

/-- The worker waits on `wake_` and its predicate is false. -/
def Idle (n : ComposerHistory) : Prop :=
  n.composer.worker = .waiting ∧ n.composer.stopping_ = false ∧ n.composer.pending_ = none ∧
    n.composer.redraw_requested_ = false

end ComposerHistory

end AnboxReboxed.Graphics
