import Relief.Render.Tiled
import Relief.Error

set_option autoImplicit false

/-! # Render jobs: a frame in ticks, with a way to stop it

A job renders one whole frame, a tile for each tick of a timer, and looks before every tick whether
it has been cancelled. Who may cancel it is not the job's affair: the flag is read from the state
that the observers share, so an observer can set it, and whoever set it before the run has set it
for good. A timer needs a period; a job with none fails where it would start its timer, when its
frame is already open.

The observers of a tile are functions, so a job is described here up to the first observer that
does not return. -/

namespace Relief

/-- A job, with the milliseconds from one tile to the next. -/
structure RenderJob where
  tick : Nat
deriving DecidableEq, Repr

/-- What a finished frame amounts to. -/
structure RenderSummary where
  rendered : Nat
  total : Nat
deriving DecidableEq, Repr

/-- How a job ends without a finished frame. -/
inductive JobFailure where
  | error (err : Error)
  /-- There is no timer without a period. -/
  | noPeriod

namespace RenderJob

/-- The tick of a job when nothing is said, about thirty tiles a second. -/
def standardTick : Nat := 33

variable {σ : Type}

/-- What a job leaves: how it ended, the renderer, and the shared state. -/
structure Ended (σ : Type) where
  result : Except JobFailure RenderSummary
  renderer : TileRenderer σ
  state : σ

/-- The ticks of a job. Before each the flag is looked at first and the frame second; a tile that
    cannot be rendered ends them. `left` is the number of tiles still to come. -/
def ticks (cancelled : σ → Bool) (total : Nat) :
    (left rendered : Nat) → TileRenderer σ → σ → Ended σ
  | left, rendered, r, s =>
    if cancelled s then ⟨.error (.error (.cancelled rendered total)), r, s⟩
    else
      match left with
      | 0 => ⟨.ok ⟨rendered, total⟩, r, s⟩
      | left + 1 =>
        match r.poll s with
        | .error err => ⟨.error (.error (.render err)), r, s⟩
        | .ok (r, s) => ticks cancelled total left (rendered + 1) r s

/-- Closes the frame that a job has opened. -/
def close (ended : Ended σ) : Ended σ :=
  match ended.renderer.finish with
  | .ok r => { ended with renderer := r }
  | .error err => { ended with result := .error (.error (.render err)) }

/-- Runs a job to its end. As its observers return, every frame that it opens is closed again,
    unless the timer cannot be started. -/
def run (job : RenderJob) (cancelled : σ → Bool) (r : TileRenderer σ) (s : σ) : Ended σ :=
  match r.begin with
  | .error err => ⟨.error (.error (.render err)), r, s⟩
  | .ok r =>
    if job.tick = 0 then ⟨.error .noPeriod, r, s⟩
    else close (ticks cancelled r.remaining r.remaining 0 r s)

end RenderJob

end Relief
