import AnboxReboxed.Emugl.World
import Mathlib.Data.List.Dedup

/-!
# `LayerComposer` in mode `LatestFrame`

Any number of threads submit frames, a worker presents the latest one, and the guest uses the renderer
all the while. A submitter freezes the colour buffers of its frame window by window and puts the frame
into the one pending slot; the worker draws it, keeps it as the last presented one and releases the
one before. Each step below is one critical section, or one call of the renderer.
-/

namespace AnboxReboxed.Graphics

open AnboxReboxed.Lib AnboxReboxed.Emugl

/-- `Strategy::WindowRenderableList` in iteration order; a window that is gone is `none`. -/
abbrev WindowRenderableList := List (Option Nat × List Renderable)

/-- `LayerComposer::Frame`. -/
structure Frame where
  windows : WindowRenderableList
  retained_buffers : List Renderable
  sequence : Nat

/-- A call of `submit_layers` under way. -/
inductive Submission where
  /-- In the loop over the windows: those done, those to come, and `frozen_lists`. -/
  | freezing (done todo : WindowRenderableList) (frozen_lists : List (List Renderable))
  /-- A window could not be frozen; these lists are still to be released. -/
  | rejecting (frozen_lists : List (List Renderable))

/-- Where `run` is. -/
inductive WorkerPc where
  /-- At `wake_.wait`. -/
  | waiting
  /-- Drawing `redraw_windows`; these windows are left. -/
  | redrawing (windows : WindowRenderableList)
  /-- Drawing `frame`; these windows are left. -/
  | drawing (frame : Frame) (windows : WindowRenderableList)
  /-- `old_frame` has been replaced in `last_presented_`. -/
  | releasing (old_frame : Option Frame)
  /-- Before `++presented_`. -/
  | counting
  | returned

/-- How far the destructor is. -/
inductive DestructorPc where
  | notCalled
  | joining
  | releasingLast
  | done
  deriving DecidableEq

/-- The composer with the renderer and the guest's books. `created` and `released` record the history:
the colour buffers that `retain_frame` left in the table, with their objects, and what `release_frame`
found under the handles it was given. -/
structure Composer where
  ledger : Ledger
  submissions : List Submission := []
  worker : WorkerPc := .waiting
  destructor : DestructorPc := .notCalled
  pending_ : Option Frame := none
  last_presented_ : Option Frame := none
  stopping_ : Bool := false
  redraw_requested_ : Bool := false
  submitted_ : Nat := 0
  presented_ : Nat := 0
  dropped_ : Nat := 0
  redraws_ : Nat := 0
  created : List (HandleType × ColorBufferPtr) := []
  released : List (HandleType × Option ColorBufferPtr) := []

inductive ComposerOp where
  /-- An operation of the guest on the renderer. -/
  | guest (op : Op)
  /-- `submit_layers` is called, and `process_layers` returns `win_layers`. -/
  | submit_layers (win_layers : WindowRenderableList)
  /-- The submission `k` handles its next window. -/
  | freeze (k : Nat) (gl : HandleType → Bool)
  /-- The submission `k` releases the next frozen list, or returns when there is none. -/
  | reject (k : Nat)
  /-- The submission `k` stores its frame. -/
  | commit (k : Nat)
  | request_redraw
  /-- The worker wakes up; `windows` are those of `process_layers({})`, which have no layers. -/
  | wake (windows : List (Option Nat))
  /-- The worker draws the next window, or goes on when there is none. -/
  | draw
  | releaseOld
  | count
  /-- The destructor sets `stopping_`. -/
  | stop
  /-- The destructor goes on: it joins the worker and releases the pending frame, then the last. -/
  | destroy

/-- The handles of a list of layers, each once. -/
def handlesOf (renderables : List Renderable) : List HandleType :=
  (renderables.map Renderable.buffer).dedup

namespace Composer

/-- The colour buffers of the renderer. -/
def buffers (s : Composer) : OrdMap HandleType ColorBufferRef := s.ledger.world.renderer.m_colorbuffers

/-- `renderer_->release_frame(renderables)`. -/
def release_frame (s : Composer) (renderables : List Renderable) : Composer :=
  { s with
    ledger := { s.ledger with
      world := { s.ledger.world with
        renderer := s.ledger.world.renderer.release_frame renderables } }
    released := s.released ++ (handlesOf renderables).map fun h =>
      (h, (s.buffers.find? h).map ColorBufferRef.cb) }

/-- `release_frame` for a frame that may be missing. -/
def release (s : Composer) (frame : Option Frame) : Composer :=
  match frame with
  | none => s
  | some frame => s.release_frame frame.retained_buffers

/-- Only the composer freezes and releases frames. -/
def isFrameOp : Op → Bool
  | .retain_frame .. => true
  | .release_frame .. => true
  | _ => false

/-- A step of the guest. -/
def guest (s : Composer) (op : Op) : Option Composer :=
  if s.ledger.permits op ∧ ¬ isFrameOp op then
    (s.ledger.world.step op).map fun (w, reply) => { s with ledger := s.ledger.record op w reply }
  else none

/-- The entries of the table whose object was made at the address `nextPtr` or later. -/
def newBuffers (table : OrdMap HandleType ColorBufferRef) (nextPtr : ColorBufferPtr) :
    List (HandleType × ColorBufferPtr) :=
  (table.entries.filter fun e => nextPtr ≤ e.2.cb).map fun e => (e.1, e.2.cb)

/-- One round of the loop of `submit_layers`. -/
def freezeWindow (s : Composer) (k : Nat) (gl : HandleType → Bool) (done : WindowRenderableList)
    (window : Option Nat) (renderables : List Renderable) (todo : WindowRenderableList)
    (frozen_lists : List (List Renderable)) : Option Composer :=
  match window with
  | none =>
    some { s with submissions :=
             s.submissions.set k (.freezing (done ++ [(none, renderables)]) todo frozen_lists) }
  | some win =>
    let w := s.ledger.world
    (w.renderer.retain_frame w.nextPtr gl renderables).map fun res =>
      { s with
        ledger := { s.ledger with
          world := { w with renderer := res.renderer, nextPtr := res.nextPtr } }
        created := s.created ++ newBuffers res.renderer.m_colorbuffers w.nextPtr
        submissions := s.submissions.set k
          (if res.ok then
            .freezing (done ++ [(some win, res.renderables)]) todo (frozen_lists ++ [res.renderables])
          else .rejecting frozen_lists) }

def freeze (s : Composer) (k : Nat) (gl : HandleType → Bool) : Option Composer :=
  match s.submissions[k]? with
  | some (.freezing done ((window, renderables) :: todo) frozen_lists) =>
    s.freezeWindow k gl done window renderables todo frozen_lists
  | _ => none

def reject (s : Composer) (k : Nat) : Option Composer :=
  match s.submissions[k]? with
  | some (.rejecting (frozen :: frozen_lists)) =>
    some { s.release_frame frozen with submissions := s.submissions.set k (.rejecting frozen_lists) }
  | some (.rejecting []) => some { s with submissions := s.submissions.eraseIdx k }
  | _ => none

/-- The critical section of `submit_layers`: a frame that is still pending is dropped. -/
def commit (s : Composer) (k : Nat) : Option Composer :=
  match s.submissions[k]? with
  | some (.freezing done [] frozen_lists) =>
    let s' := s.release s.pending_
    some { s' with
      submissions := s.submissions.eraseIdx k
      submitted_ := s.submitted_ + 1
      dropped_ := if s.pending_.isSome then s.dropped_ + 1 else s.dropped_
      pending_ := some
        { windows := done, retained_buffers := frozen_lists.flatten, sequence := s.submitted_ + 1 } }
  | _ => none

/-- The first critical section of `run`. -/
def wake (s : Composer) (windows : List (Option Nat)) : Option Composer :=
  match s.worker with
  | .waiting =>
    if s.stopping_ then some { s with worker := .returned }
    else
      match s.pending_ with
      | some frame =>
        some { s with pending_ := none, redraw_requested_ := false, worker := .drawing frame frame.windows }
      | none =>
        if s.redraw_requested_ then
          let redraw_windows := match s.last_presented_ with
            | some frame => frame.windows
            | none => windows.map fun w => (w, [])
          some { s with
            redraw_requested_ := false
            worker := if redraw_windows.isEmpty then .waiting else .redrawing redraw_windows }
        else none
  | _ => none

/-- One round of `draw_windows`; after the last window of a frame comes the second critical section
of `run`. Drawing leaves the tables alone. -/
def draw (s : Composer) : Option Composer :=
  match s.worker with
  | .redrawing (_ :: windows) => some { s with worker := .redrawing windows }
  | .redrawing [] => some { s with worker := .waiting, redraws_ := s.redraws_ + 1 }
  | .drawing frame (_ :: windows) => some { s with worker := .drawing frame windows }
  | .drawing frame [] =>
    some { s with worker := .releasing s.last_presented_, last_presented_ := some frame }
  | _ => none

/-- What the next call of `Renderer::draw` by the worker gets. -/
def nextDraw (s : Composer) : List Renderable :=
  match s.worker with
  | .redrawing ((some _, renderables) :: _) => renderables
  | .drawing _ ((some _, renderables) :: _) => renderables
  | _ => []

def releaseOld (s : Composer) : Option Composer :=
  match s.worker with
  | .releasing old_frame => some { s.release old_frame with worker := .counting }
  | _ => none

def count (s : Composer) : Option Composer :=
  match s.worker with
  | .counting => some { s with worker := .waiting, presented_ := s.presented_ + 1 }
  | _ => none

/-- The destructor sets `stopping_`; no call of `submit_layers` is under way any more. -/
def stop (s : Composer) : Option Composer :=
  if s.destructor = .notCalled ∧ s.submissions.isEmpty then
    some { s with destructor := .joining, stopping_ := true }
  else none

def destroy (s : Composer) : Option Composer :=
  match s.destructor, s.worker with
  | .joining, .returned =>
    some { s.release s.pending_ with destructor := .releasingLast }
  | .releasingLast, _ => some { s.release s.last_presented_ with destructor := .done }
  | _, _ => none

def step (s : Composer) : ComposerOp → Option Composer
  | .guest op => s.guest op
  | .submit_layers win_layers =>
    if s.destructor = .notCalled then
      some { s with submissions := s.submissions ++ [.freezing [] win_layers []] }
    else none
  | .freeze k gl => s.freeze k gl
  | .reject k => s.reject k
  | .commit k => s.commit k
  | .request_redraw => some { s with redraw_requested_ := true }
  | .wake windows => s.wake windows
  | .draw => s.draw
  | .releaseOld => s.releaseOld
  | .count => s.count
  | .stop => s.stop
  | .destroy => s.destroy

end Composer

/-- A composer over a fresh renderer with `configs` configurations. -/
def composerMachine (configs : Nat) : Machine Composer ComposerOp where
  init := { ledger := { world := (renderMachine configs).init } }
  step := Composer.step

end AnboxReboxed.Graphics
