import Relief.Preview.Job

set_option autoImplicit false

/-! # Waiting: a job between its ticks

Between two tiles the loop of a job waits for two things at once, the next tick of its timer and a
word from the handle that cancels it, and goes on with whichever comes. Other tasks run in the
meantime; they may cancel the job, or let go of the handle, after which no word can come any more.
`Runs` holds of every way in which a run can end then if its observers return, which they always do
here as they are functions. What becomes of a run whose observer does not return is told apart from
this, where runs are taken step by step (`frame_open_of_breakdown`).

Where nothing happens in the meantime, the order in which the loop is woken does not matter:
`runs_iff_eq_run` says that `run` is the only way to end. Whatever observers that return and other
tasks make of the shared state, a run of a job with a period leaves the renderer as it found it
(`frame_closed_of_runs`). A run without one does not: it fails between opening its frame and the
loop that closes it. -/

namespace Relief

namespace TileRenderer

variable {σ : Type} {r r' : TileRenderer σ} {s s' : σ}

/-- A successful poll leaves a tile less. -/
theorem remaining_of_poll (h : r.poll s = .ok (r', s')) : r.remaining = r'.remaining + 1 := by
  obtain ⟨t, hnext, -⟩ := poll_eq_ok_iff.1 h
  obtain ⟨f, field, hf, -, hleft, -, rfl⟩ := renderNext_eq_ok_iff.1 hnext
  simp only [remaining, hf]
  simp only [Frame.remaining, Frame.advance] at hleft ⊢
  omega

/-- A successful poll changes nothing of a renderer but its open frame. -/
theorem exists_frame_of_poll (h : r.poll s = .ok (r', s')) :
    ∃ f, r' = { r with frame := some f } := by
  obtain ⟨t, hnext, -⟩ := poll_eq_ok_iff.1 h
  obtain ⟨f, field, -, -, -, -, rfl⟩ := renderNext_eq_ok_iff.1 hnext
  exact ⟨f.advance, rfl⟩

/-- Closing a frame undoes its opening, however much of it is done. -/
theorem finish_of_idle (hidle : r.frame = none) (f : Frame) :
    ({ r with frame := some f } : TileRenderer σ).finish = .ok r := by
  have hclosed : ({ r with frame := none } : TileRenderer σ) = r := by
    rw [← hidle]
  exact congrArg Except.ok hclosed

theorem isDone_iff : r.isDone = true ↔ r.remaining = 0 := by
  rw [isDone, beq_iff_eq]

theorem isDone_eq_false_iff : r.isDone = false ↔ r.remaining ≠ 0 := by
  rw [← Bool.not_eq_true, isDone_iff]

end TileRenderer

namespace RenderJob

variable {σ : Type}

/-! ## The loop -/

/-- How the handle of a job shows in the shared state. -/
structure Handle (σ : Type) where
  cancelled : σ → Bool
  /-- Whether nobody holds the handle any more. -/
  dropped : σ → Bool

/-- The loop of a job where it looks at the flag. -/
structure Loop (σ : Type) where
  renderer : TileRenderer σ
  state : σ
  rendered : Nat
  /-- Whether the loop still waits for a word from the handle. -/
  listening : Bool

/-- Whether a loop goes on to wait, as it sees neither a cancellation nor the end of its frame. -/
def Loop.GoesOn (h : Handle σ) (x : Loop σ) : Prop :=
  h.cancelled x.state = false ∧ x.renderer.isDone = false

/-- How a loop can end when `meanwhile` says what other tasks may make of the shared state while
    the loop waits, and every observer returns from every tile. -/
inductive Ends (h : Handle σ) (meanwhile : σ → σ → Prop) (total : Nat) :
    Loop σ → Ended σ → Prop where
  | cancelled {x : Loop σ} (hflag : h.cancelled x.state = true) :
      Ends h meanwhile total x
        ⟨.error (.error (.cancelled x.rendered total)), x.renderer, x.state⟩
  | done {x : Loop σ} (hflag : h.cancelled x.state = false) (hdone : x.renderer.isDone = true) :
      Ends h meanwhile total x ⟨.ok ⟨x.rendered, total⟩, x.renderer, x.state⟩
  /-- The handle says that the job is cancelled. -/
  | word {x : Loop σ} {s : σ} {e : Ended σ} (hon : x.GoesOn h) (hlistening : x.listening = true)
      (hwait : meanwhile x.state s) (hflag : h.cancelled s = true)
      (hend : Ends h meanwhile total { x with state := s } e) : Ends h meanwhile total x e
  /-- The handle is gone without a word. The loop notices it once. -/
  | silence {x : Loop σ} {s : σ} {e : Ended σ} (hon : x.GoesOn h)
      (hlistening : x.listening = true) (hwait : meanwhile x.state s)
      (hflag : h.cancelled s = false) (hdropped : h.dropped s = true)
      (hend : Ends h meanwhile total { x with state := s, listening := false } e) :
      Ends h meanwhile total x e
  | tick {x : Loop σ} {s s' : σ} {r : TileRenderer σ} {e : Ended σ} (hon : x.GoesOn h)
      (hwait : meanwhile x.state s) (hpoll : x.renderer.poll s = .ok (r, s'))
      (hend : Ends h meanwhile total ⟨r, s', x.rendered + 1, x.listening⟩ e) :
      Ends h meanwhile total x e
  | failed {x : Loop σ} {s : σ} {err : RenderError} (hon : x.GoesOn h)
      (hwait : meanwhile x.state s) (hpoll : x.renderer.poll s = .error err) :
      Ends h meanwhile total x ⟨.error (.error (.render err)), x.renderer, s⟩

/-- How a run can end whose observers return. -/
inductive Runs (job : RenderJob) (h : Handle σ) (meanwhile : σ → σ → Prop) (r : TileRenderer σ)
    (s : σ) : Ended σ → Prop where
  | refused {err : RenderError} (hbegin : r.begin = .error err) :
      Runs job h meanwhile r s ⟨.error (.error (.render err)), r, s⟩
  | noPeriod {r' : TileRenderer σ} (hbegin : r.begin = .ok r') (htick : job.tick = 0) :
      Runs job h meanwhile r s ⟨.error .noPeriod, r', s⟩
  | looped {r' : TileRenderer σ} {e : Ended σ} (hbegin : r.begin = .ok r') (htick : job.tick ≠ 0)
      (hend : Ends h meanwhile r'.remaining ⟨r', s, 0, true⟩ e) :
      Runs job h meanwhile r s (close e)

/-! ## Ticks, one at a time -/

section Ticks

variable {cancelled : σ → Bool} {total left rendered : Nat} {r r' : TileRenderer σ} {s s' : σ}

theorem ticks_of_cancelled (hflag : cancelled s = true) :
    ticks cancelled total left rendered r s
      = ⟨.error (.error (.cancelled rendered total)), r, s⟩ := by
  unfold ticks
  rw [if_pos hflag]

theorem ticks_zero (hflag : cancelled s = false) :
    ticks cancelled total 0 rendered r s = ⟨.ok ⟨rendered, total⟩, r, s⟩ := by
  unfold ticks
  rw [if_neg (by rw [hflag]; exact Bool.false_ne_true)]

theorem ticks_succ_of_ok (hflag : cancelled s = false) (hpoll : r.poll s = .ok (r', s')) :
    ticks cancelled total (left + 1) rendered r s
      = ticks cancelled total left (rendered + 1) r' s' := by
  rw [ticks, if_neg (by rw [hflag]; exact Bool.false_ne_true), hpoll]

theorem ticks_succ_of_error {err : RenderError} (hflag : cancelled s = false)
    (hpoll : r.poll s = .error err) :
    ticks cancelled total (left + 1) rendered r s = ⟨.error (.error (.render err)), r, s⟩ := by
  rw [ticks, if_neg (by rw [hflag]; exact Bool.false_ne_true), hpoll]

end Ticks

/-! ## The loop without other tasks -/

section Alone

variable {h : Handle σ} {meanwhile : σ → σ → Prop} {total : Nat}

/-- One way for a loop to end is to hear of nothing but ticks. -/
theorem ends_ticks (hrefl : ∀ s, meanwhile s s) {left : Nat} (rendered : Nat)
    {r : TileRenderer σ} (hleft : r.remaining = left) (s : σ) (listening : Bool) :
    Ends h meanwhile total ⟨r, s, rendered, listening⟩
      (ticks h.cancelled total left rendered r s) := by
  induction left generalizing r s rendered with
  | zero =>
      cases hflag : h.cancelled s with
      | true =>
          rw [ticks_of_cancelled hflag]
          exact .cancelled hflag
      | false =>
          rw [ticks_zero hflag]
          exact .done hflag (TileRenderer.isDone_iff.2 hleft)
  | succ left ih =>
      cases hflag : h.cancelled s with
      | true =>
          rw [ticks_of_cancelled hflag]
          exact .cancelled hflag
      | false =>
          have hdone : r.isDone = false := by
            rw [TileRenderer.isDone_eq_false_iff, hleft]
            exact Nat.succ_ne_zero left
          cases hpoll : r.poll s with
          | error err =>
              rw [ticks_succ_of_error hflag hpoll]
              exact .failed ⟨hflag, hdone⟩ (hrefl s) hpoll
          | ok next =>
              obtain ⟨r', s'⟩ := next
              have hleft' : r'.remaining = left := by
                have hless := TileRenderer.remaining_of_poll hpoll
                omega
              rw [ticks_succ_of_ok hflag hpoll]
              exact .tick ⟨hflag, hdone⟩ (hrefl s) hpoll (ih (rendered + 1) hleft' s')

/-- Without other tasks there is no other way: the handle has no word to say where the flag has
    just been found unset, and that it is gone is noticed without consequence. -/
theorem Ends.eq_ticks {x : Loop σ} {e : Ended σ} (hend : Ends h Eq total x e) :
    e = ticks h.cancelled total x.renderer.remaining x.rendered x.renderer x.state := by
  induction hend with
  | cancelled hflag => exact (ticks_of_cancelled hflag).symm
  | done hflag hdone =>
      rw [TileRenderer.isDone_iff.1 hdone]
      exact (ticks_zero hflag).symm
  | word hon _ hwait hflag _ _ =>
      rw [← hwait, hon.1] at hflag
      cases hflag
  | silence _ _ hwait _ _ _ ih =>
      subst hwait
      exact ih
  | tick hon hwait hpoll _ ih =>
      subst hwait
      rw [TileRenderer.remaining_of_poll hpoll, ticks_succ_of_ok hon.1 hpoll]
      exact ih
  | failed hon hwait hpoll =>
      subst hwait
      obtain ⟨left, hleft⟩ :=
        Nat.exists_eq_succ_of_ne_zero (TileRenderer.isDone_eq_false_iff.1 hon.2)
      rw [hleft, ticks_succ_of_error hon.1 hpoll]

/-- One way for a run to end is the one of `run`. -/
theorem runs_run (hrefl : ∀ s, meanwhile s s) (job : RenderJob) (r : TileRenderer σ) (s : σ) :
    job.Runs h meanwhile r s (job.run h.cancelled r s) := by
  unfold run
  cases hbegin : r.begin with
  | error err => exact .refused hbegin
  | ok r' =>
      by_cases htick : job.tick = 0
      · simp only [if_pos htick]
        exact .noPeriod hbegin htick
      · simp only [if_neg htick]
        exact .looped hbegin htick (ends_ticks hrefl 0 rfl s true)

/-- **A run without other tasks has one end**, in whatever order the loop is woken, and whether or
    not somebody still holds the handle. -/
theorem runs_iff_eq_run {job : RenderJob} {r : TileRenderer σ} {s : σ} {e : Ended σ} :
    job.Runs h Eq r s e ↔ e = job.run h.cancelled r s := by
  constructor
  · intro hrun
    cases hrun with
    | refused hbegin => simp only [run, hbegin]
    | noPeriod hbegin htick => simp only [run, hbegin, if_pos htick]
    | looped hbegin htick hend =>
        rw [hend.eq_ticks]
        simp only [run, hbegin, if_neg htick]
  · rintro rfl
    exact runs_run (fun _ => rfl) job r s

end Alone

/-! ## The frame of a run -/

section Frames

variable {job : RenderJob} {h : Handle σ} {meanwhile : σ → σ → Prop} {total : Nat}
  {r : TileRenderer σ} {s : σ} {e : Ended σ}

/-- While a loop goes on, nothing of its renderer changes but the open frame. -/
theorem Ends.exists_frame {x : Loop σ} (hend : Ends h meanwhile total x e)
    (hx : ∃ f, x.renderer = { r with frame := some f }) :
    ∃ f, e.renderer = { r with frame := some f } := by
  induction hend with
  | cancelled _ => exact hx
  | done _ _ => exact hx
  | word _ _ _ _ _ ih => exact ih hx
  | silence _ _ _ _ _ _ ih => exact ih hx
  | tick _ _ hpoll _ ih =>
      obtain ⟨f, hf⟩ := hx
      obtain ⟨f', hf'⟩ := TileRenderer.exists_frame_of_poll hpoll
      exact ih ⟨f', by rw [hf', hf]⟩
  | failed _ _ _ => exact hx

/-- What a loop leaves of an idle renderer is that renderer, once its frame is closed. -/
theorem close_of_frame (hidle : r.frame = none)
    (he : ∃ f, e.renderer = { r with frame := some f }) :
    close e = { e with renderer := r } := by
  obtain ⟨f, hf⟩ := he
  simp only [close, hf, TileRenderer.finish_of_idle hidle]

/-- A loop that ends in a cancellation has found the flag set. -/
theorem Ends.cancelled_state {x : Loop σ} (hend : Ends h meanwhile total x e) {k n : Nat}
    (hresult : e.result = .error (.error (.cancelled k n))) : h.cancelled e.state = true := by
  induction hend with
  | cancelled hflag => exact hflag
  | done _ _ => cases hresult
  | word _ _ _ _ _ ih => exact ih hresult
  | silence _ _ _ _ _ _ ih => exact ih hresult
  | tick _ _ _ _ ih => exact ih hresult
  | failed _ _ _ => cases hresult

/-- So has a run. -/
theorem Runs.cancelled_state (hrun : job.Runs h meanwhile r s e) {k n : Nat}
    (hresult : e.result = .error (.error (.cancelled k n))) : h.cancelled e.state = true := by
  cases hrun with
  | refused _ => cases hresult
  | noPeriod _ _ => cases hresult
  | looped hbegin _ hend =>
      obtain ⟨hidle, rfl⟩ := TileRenderer.begin_eq_ok_iff.1 hbegin
      rw [close_of_frame hidle (hend.exists_frame ⟨_, rfl⟩)] at hresult ⊢
      exact hend.cancelled_state hresult

/-- **A job with a period closes every frame that it opens, if its observers return.** Whatever
    they and other tasks make of the shared state, and whether the run is finished, cancelled or
    failed, an idle renderer is left as it was and takes the next frame. A frame that was open
    before is left alone, and so is everything else. Without a period the frame of an idle renderer
    stays open, and no further one can be opened. -/
theorem frame_closed_of_runs (hrun : job.Runs h meanwhile r s e) :
    (∀ f, r.frame = some f → e = ⟨.error (.error (.render .frameInProgress)), r, s⟩) ∧
    (r.frame = none → job.tick ≠ 0 →
      e.renderer = r ∧ e.renderer.frame = none ∧ ∃ next, e.renderer.begin = .ok next) ∧
    (r.frame = none → job.tick = 0 →
      e = ⟨.error .noPeriod, { r with frame := some (Frame.start r.size) }, s⟩ ∧
        e.renderer.begin = .error .frameInProgress) := by
  cases hrun with
  | refused hbegin =>
      unfold TileRenderer.begin at hbegin
      cases hframe : r.frame with
      | none => simp only [hframe, reduceCtorEq] at hbegin
      | some f =>
          simp only [hframe, Except.error.injEq] at hbegin
          subst hbegin
          exact ⟨fun _ _ => rfl, nofun, nofun⟩
  | noPeriod hbegin htick =>
      obtain ⟨hidle, rfl⟩ := TileRenderer.begin_eq_ok_iff.1 hbegin
      refine ⟨fun f hf => ?_, fun _ hperiod => absurd htick hperiod, fun _ _ => ⟨rfl, rfl⟩⟩
      rw [hidle] at hf
      cases hf
  | looped hbegin htick hend =>
      obtain ⟨hidle, rfl⟩ := TileRenderer.begin_eq_ok_iff.1 hbegin
      have hclosed := close_of_frame hidle (hend.exists_frame ⟨_, rfl⟩)
      refine ⟨fun f hf => ?_, fun _ _ => ?_, fun _ hnone => absurd hnone htick⟩
      · rw [hidle] at hf
        cases hf
      · rw [hclosed]
        exact ⟨rfl, hidle, _, TileRenderer.begin_eq_ok_iff.2 ⟨hidle, rfl⟩⟩

/-- A frame of four tiles, cancelled by an observer on the first of them. -/
theorem frame_closed_of_runs_cancelled :
    let h : Handle Bool := ⟨id, fun _ => true⟩
    let r : TileRenderer Bool :=
      ⟨⟨300, 300⟩, .raster, [fun _ _ => true], none, some fun c => c.along .u⟩
    let e := RenderJob.run ⟨33⟩ h.cancelled r false
    RenderJob.Runs ⟨33⟩ h Eq r false e ∧ e.renderer.frame = none ∧
      ∃ next, e.renderer.begin = .ok next := by
  intro h r e
  have hrun : RenderJob.Runs ⟨33⟩ h Eq r false e := runs_run (fun _ => rfl) _ r false
  obtain ⟨-, hclosed, -⟩ := frame_closed_of_runs hrun
  exact ⟨hrun, (hclosed rfl (by decide)).2⟩

/-- That a run always closes its frame fails where the timer has no period. -/
theorem frame_left_open_without_period :
    ¬ ∀ (job : RenderJob) (r : TileRenderer Unit), r.frame = none →
      let e := job.run (fun _ => false) r ()
      e.renderer.frame = none ∧ ∃ next, e.renderer.begin = .ok next := by
  intro hclosed
  have hnone := (hclosed ⟨0⟩ (TileRenderer.new.setSize ⟨2, 1⟩) rfl).1
  cases hnone

end Frames

end RenderJob

end Relief
