import AnboxReboxed.Emugl.Renderer

/-!
# Frame snapshots

`retain_frame` replaces every colour buffer of a frame by a private copy, or undoes its work and
leaves the frame alone; `release_frame` drops the copies again.
-/

namespace AnboxReboxed.Emugl

open AnboxReboxed.Lib

namespace Renderer

/-- The local variables of `retain_frame`. `nextPtr` is the address the next `ColorBuffer` object
gets. -/
structure RetainState where
  renderer : Renderer
  snapshots : OrdMap HandleType HandleType := ∅
  created : List HandleType := []
  nextPtr : ColorBufferPtr
  deriving DecidableEq

/-- What one round of the first loop of `retain_frame` decides before it touches GL. -/
inductive RetainCheck where
  /-- The source has a snapshot already. -/
  | known
  /-- The source is missing or the copy would exceed the budget. -/
  | rejected
  /-- A copy of `source` that takes `allocation_bytes` may be made. -/
  | admitted (source : ColorBufferRef) (allocation_bytes : Nat)
  deriving DecidableEq

/-- The tests of one round of the first loop of `retain_frame`. -/
def retainCheck (st : RetainState) (source_handle : HandleType) : RetainCheck :=
  if source_handle ∈ st.snapshots then .known
  else
    match st.renderer.m_colorbuffers.find? source_handle with
    | none => .rejected
    | some source =>
      let width := toSize source.width
      let height := toSize source.height
      if sizeMax / height / 8 < width then .rejected
      else
        let allocation_bytes := width * height * 8 % 2 ^ 64
        if max_color_buffers ≤ st.renderer.m_colorbuffers.size ∨
            max_color_buffer_bytes < allocation_bytes ∨
            max_color_buffer_bytes - allocation_bytes < st.renderer.m_colorBufferBytes then .rejected
        else .admitted source allocation_bytes

/-- The entry for a finished snapshot `cb` of `source`, under the handle `genHandle` returned with
the renderer `r`. -/
def retainCommit (st : RetainState) (r : Renderer) (source_handle snapshot_handle : HandleType)
    (source : ColorBufferRef) (allocation_bytes : Nat) (cb : ColorBufferPtr) : RetainState where
  renderer := r.addColorBuffer snapshot_handle
    { cb, refcount := 1, allocation_bytes, width := source.width, height := source.height,
      format := source.format }
  snapshots := st.snapshots.insert source_handle snapshot_handle
  created := st.created ++ [snapshot_handle]
  nextPtr := st.nextPtr + 1

/-- How the first loop of `retain_frame` ends. -/
inductive RetainOutcome where
  /-- Every source has a snapshot. -/
  | retained (st : RetainState)
  /-- A round failed; `rollback` is next. -/
  | failed (st : RetainState)
  /-- `genHandle` found no free number and does not return. -/
  | hung
  deriving DecidableEq

/-- The first loop of `retain_frame`; `gl h` says whether creating and filling the copy of `h`
succeeds. -/
def retainLoop (gl : HandleType → Bool) : RetainState → List Renderable → RetainOutcome
  | st, [] => .retained st
  | st, renderable :: renderables =>
    match retainCheck st renderable.buffer with
    | .known => retainLoop gl st renderables
    | .rejected => .failed st
    | .admitted source allocation_bytes =>
      match createColorBufferObject source.width source.height source.format
          (if gl renderable.buffer then some st.nextPtr else none) with
      | none => .failed { st with nextPtr := st.nextPtr + 1 }
      | some cb =>
        match st.renderer.genHandle with
        | none => .hung
        | some (snapshot_handle, r) =>
          retainLoop gl
            (retainCommit st r renderable.buffer snapshot_handle source allocation_bytes cb) renderables

/-- One entry dropped by `rollback`. -/
def rollbackOne (r : Renderer) (handle : HandleType) : Renderer :=
  match r.m_colorbuffers.find? handle with
  | none => r
  | some entry => r.freeColorBuffer handle entry

/-- The lambda `rollback` of `retain_frame`. -/
def rollback (r : Renderer) (created : List HandleType) : Renderer := created.foldl rollbackOne r

/-- What `retain_frame` leaves behind: its result, the renderer, the frame it was given and the next
free address. -/
structure RetainResult where
  ok : Bool
  renderer : Renderer
  renderables : List Renderable
  nextPtr : ColorBufferPtr

/-- `retain_frame`. On success every renderable names the snapshot of its buffer; `snapshots` has an
entry for each of them. -/
def retain_frame (r : Renderer) (nextPtr : ColorBufferPtr) (gl : HandleType → Bool)
    (renderables : List Renderable) : Option RetainResult :=
  match retainLoop gl { renderer := r, nextPtr } renderables with
  | .hung => none
  | .failed st =>
    some { ok := false, renderer := rollback st.renderer st.created, renderables,
           nextPtr := st.nextPtr }
  | .retained st =>
    some { ok := true, renderer := st.renderer,
           renderables := renderables.map fun renderable =>
             { renderable with buffer := (st.snapshots.find? renderable.buffer).getD 0 },
           nextPtr := st.nextPtr }

/-- One round of `release_frame`: a handle met before in the same frame is skipped. -/
def releaseOne (acc : Renderer × OrdSet HandleType) (renderable : Renderable) :
    Renderer × OrdSet HandleType :=
  let handle := renderable.buffer
  if handle ∈ acc.2 then acc else (acc.1.dropReference handle, acc.2.insert handle ())

/-- `release_frame`. -/
def release_frame (r : Renderer) (renderables : List Renderable) : Renderer :=
  (renderables.foldl releaseOne (r, ∅)).1

end Renderer

end AnboxReboxed.Emugl
