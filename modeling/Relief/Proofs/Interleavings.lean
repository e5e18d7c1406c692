import Relief.Proofs.Jobs

set_option autoImplicit false

/-! # Interleavings: a run step by step, with other tasks in between

A job learns of its cancellation through a channel. The handle sends the flag at the other end, any
number of times, or is let go of; the job looks at the flag at one place of its loop, and while it
waits for a tick it also listens for something new in the channel. Whoever holds the handle may run
between any two steps of the job.

`Step` says what one step of a run can be, with an event for what can be seen of it, and `Steps`
what can happen in a row. A tile is rendered and shown to all observers in one step, from which
every observer returns. Three facts about single steps carry what is said of whole runs. A step
costs something of what a run can still spend on looks at its flag (`Step.spends`), which is where a
loop that listened to a channel without a handle would run forever. A step keeps account of the
tiles (`Sound.step`). And once the flag is set, at most the tile is delivered that the loop was on
its way to (`Step.delivers`). -/

namespace Relief

/-! ## The channel -/

/-- The channel from the handle of a job to the job. It holds the flag that was sent last. -/
structure Channel where
  flag : Bool
  /-- How often a flag has been sent. -/
  version : Nat
  /-- The version that the job has heard of. -/
  heard : Nat
  /-- Whether the handle is gone. -/
  closed : Bool
  /-- What is sent is a cancellation. -/
  flag_of_news : version ≠ heard → flag = true

namespace Channel

/-- The channel of a new job. -/
def new : Channel := ⟨false, 0, 0, false, fun h => absurd rfl h⟩

/-- The handle sends a cancellation. -/
def cancel (c : Channel) : Channel :=
  ⟨true, c.version + 1, c.heard, c.closed, fun _ => rfl⟩

/-- The handle is let go of. -/
def drop (c : Channel) : Channel := { c with closed := true }

/-- The job hears what was sent last. -/
def hear (c : Channel) : Channel :=
  ⟨c.flag, c.version, c.version, c.closed, fun h => absurd rfl h⟩

/-- What the holder of the handle can make of the channel. -/
inductive Moves : Channel → Channel → Prop where
  | refl (c : Channel) : Moves c c
  | cancel {c d : Channel} (h : Moves c d) (hopen : d.closed = false) : Moves c d.cancel
  | drop {c d : Channel} (h : Moves c d) (hopen : d.closed = false) : Moves c d.drop

variable {c d e : Channel}

theorem Moves.trans (h : Moves c d) (h' : Moves d e) : Moves c e := by
  induction h' with
  | refl => exact h
  | cancel _ hopen ih => exact .cancel ih hopen
  | drop _ hopen ih => exact .drop ih hopen

/-- A flag that is set stays set. -/
theorem Moves.flag (h : Moves c d) (hflag : c.flag = true) : d.flag = true := by
  induction h with
  | refl => exact hflag
  | cancel => rfl
  | drop _ _ ih => exact ih

end Channel

/-- What a job shares with its observers and with other tasks. -/
structure Shared (σ : Type) where
  channel : Channel
  rest : σ

namespace Shared

variable {σ : Type}

/-- Whether the job has been cancelled. -/
def cancelled (s : Shared σ) : Bool := s.channel.flag

/-- The job hears what was sent last. -/
def hear (s : Shared σ) : Shared σ := { s with channel := s.channel.hear }

@[simp]
theorem cancelled_hear (s : Shared σ) : s.hear.cancelled = s.cancelled := rfl

theorem cancelled_of_news {s : Shared σ} (h : s.channel.version ≠ s.channel.heard) :
    s.cancelled = true :=
  s.channel.flag_of_news h

end Shared

namespace RenderJob

variable {σ : Type}

/-! ## Steps -/

/-- Where a run stands. -/
inductive Place where
  | start
  /-- Where the loop looks at the flag. -/
  | top
  /-- The flag was not set; the frame is looked at next. -/
  | looked
  | waiting
  /-- It is time for a tile. -/
  | ticked
  /-- The loop is left, and its frame is still open. -/
  | left (result : Except JobFailure RenderSummary)
  | returned (result : Except JobFailure RenderSummary)

/-- A run on its way. -/
structure Machine (σ : Type) where
  loop : Loop (Shared σ)
  place : Place
  total : Nat

/-- What can be seen of a step. -/
inductive Event where
  /-- Another task cancels the job. -/
  | cancel
  /-- Another task lets go of the handle. -/
  | drop
  /-- Another task works on its own part of the shared state. -/
  | elsewhere
  | look
  | tile (t : Tile)
  /-- Any other step of the run. -/
  | quiet

namespace Event

/-- Whether a step is one of the run. -/
def isOwn : Event → Bool
  | cancel | drop | elsewhere => false
  | look | tile _ | quiet => true

/-- Whether the run looks at its flag, which it does once in each iteration of its loop. -/
def isLook : Event → Bool
  | look => true
  | cancel | drop | elsewhere | tile _ | quiet => false

/-- The tile that is delivered. -/
def tile? : Event → Option Tile
  | tile t => some t
  | cancel | drop | elsewhere | look | quiet => none

end Event

/-- The tiles that are delivered along events. -/
def tiles (events : List Event) : List Tile := events.filterMap Event.tile?

/-- What another task can do. -/
inductive Meanwhile : Event → Shared σ → Shared σ → Prop where
  | cancel {s : Shared σ} (hopen : s.channel.closed = false) :
      Meanwhile .cancel s { s with channel := s.channel.cancel }
  | drop {s : Shared σ} (hopen : s.channel.closed = false) :
      Meanwhile .drop s { s with channel := s.channel.drop }
  | elsewhere {s : Shared σ} (rest : σ) : Meanwhile .elsewhere s { s with rest := rest }

/-- What can happen next. Where the loop waits, every branch that is ready may be the one that is
    taken: there is something new in the channel, or the handle is gone without, or it is time for
    a tile. -/
inductive Step (job : RenderJob) : Machine σ → Event → Machine σ → Prop where
  | meanwhile {x : Loop (Shared σ)} {place : Place} {total : Nat} {event : Event} {s : Shared σ}
      (h : Meanwhile event x.state s) :
      Step job ⟨x, place, total⟩ event ⟨{ x with state := s }, place, total⟩
  | refused {x : Loop (Shared σ)} {total : Nat} {err : RenderError}
      (hbegin : x.renderer.begin = .error err) :
      Step job ⟨x, .start, total⟩ .quiet ⟨x, .returned (.error (.error (.render err))), total⟩
  | noPeriod {x : Loop (Shared σ)} {total : Nat} {r : TileRenderer (Shared σ)}
      (hbegin : x.renderer.begin = .ok r) (htick : job.tick = 0) :
      Step job ⟨x, .start, total⟩ .quiet
        ⟨{ x with renderer := r }, .returned (.error .noPeriod), total⟩
  | opened {x : Loop (Shared σ)} {total : Nat} {r : TileRenderer (Shared σ)}
      (hbegin : x.renderer.begin = .ok r) (htick : job.tick ≠ 0) :
      Step job ⟨x, .start, total⟩ .quiet ⟨{ x with renderer := r }, .top, r.remaining⟩
  | stop {x : Loop (Shared σ)} {total : Nat} (hflag : x.state.cancelled = true) :
      Step job ⟨x, .top, total⟩ .look
        ⟨x, .left (.error (.error (.cancelled x.rendered total))), total⟩
  | look {x : Loop (Shared σ)} {total : Nat} (hflag : x.state.cancelled = false) :
      Step job ⟨x, .top, total⟩ .look ⟨x, .looked, total⟩
  | done {x : Loop (Shared σ)} {total : Nat} (hdone : x.renderer.isDone = true) :
      Step job ⟨x, .looked, total⟩ .quiet ⟨x, .left (.ok ⟨x.rendered, total⟩), total⟩
  | wait {x : Loop (Shared σ)} {total : Nat} (hdone : x.renderer.isDone = false) :
      Step job ⟨x, .looked, total⟩ .quiet ⟨x, .waiting, total⟩
  | word {x : Loop (Shared σ)} {total : Nat} (hlistening : x.listening = true)
      (hnews : x.state.channel.version ≠ x.state.channel.heard) :
      Step job ⟨x, .waiting, total⟩ .quiet
        ⟨{ x with state := x.state.hear }, .top, total⟩
  | silence {x : Loop (Shared σ)} {total : Nat} (hlistening : x.listening = true)
      (hheard : x.state.channel.version = x.state.channel.heard)
      (hclosed : x.state.channel.closed = true) :
      Step job ⟨x, .waiting, total⟩ .quiet ⟨{ x with listening := false }, .top, total⟩
  | tick {x : Loop (Shared σ)} {total : Nat} :
      Step job ⟨x, .waiting, total⟩ .quiet ⟨x, .ticked, total⟩
  | tile {x : Loop (Shared σ)} {total : Nat} {t : Tile} {r : TileRenderer (Shared σ)}
      {s : Shared σ} (hnext : x.renderer.renderNext = .ok (t, r))
      (hpoll : x.renderer.poll x.state = .ok (r, s)) :
      Step job ⟨x, .ticked, total⟩ (.tile t) ⟨⟨r, s, x.rendered + 1, x.listening⟩, .top, total⟩
  | failed {x : Loop (Shared σ)} {total : Nat} {err : RenderError}
      (hpoll : x.renderer.poll x.state = .error err) :
      Step job ⟨x, .ticked, total⟩ .quiet ⟨x, .left (.error (.error (.render err))), total⟩
  | close {x : Loop (Shared σ)} {total : Nat} {result : Except JobFailure RenderSummary}
      {e : Ended (Shared σ)} (hclose : close ⟨result, x.renderer, x.state⟩ = e) :
      Step job ⟨x, .left result, total⟩ .quiet
        ⟨{ x with renderer := e.renderer, state := e.state }, .returned e.result, total⟩

/-- What can happen in a row. -/
inductive Steps (job : RenderJob) (x : Machine σ) : List Event → Machine σ → Prop where
  | nil : Steps job x [] x
  | snoc {events : List Event} {event : Event} {y z : Machine σ} (h : Steps job x events y)
      (hstep : Step job y event z) : Steps job x (events ++ [event]) z

/-- A run that begins now. -/
def Machine.start (r : TileRenderer (Shared σ)) (s : Shared σ) : Machine σ :=
  ⟨⟨r, s, 0, true⟩, .start, 0⟩

variable {job : RenderJob} {x y : Machine σ} {event : Event} {events : List Event}

theorem Steps.append {z : Machine σ} {more : List Event} (h : Steps job x events y)
    (h' : Steps job y more z) : Steps job x (events ++ more) z := by
  induction h' with
  | nil => rwa [List.append_nil]
  | snoc _ hstep ih =>
      rw [← List.append_assoc]
      exact .snoc ih hstep

/-! ## No run gets stuck or goes on forever -/

/-- **A run that has not returned can go on**, without the help of other tasks. -/
theorem exists_step (job : RenderJob) (x : Machine σ) :
    (∃ result, x.place = .returned result) ∨
      ∃ event y, event.isOwn = true ∧ Step job x event y := by
  obtain ⟨x, place, total⟩ := x
  cases place with
  | start =>
      right
      cases hbegin : x.renderer.begin with
      | error err => exact ⟨_, _, rfl, .refused hbegin⟩
      | ok r =>
          by_cases htick : job.tick = 0
          · exact ⟨_, _, rfl, .noPeriod hbegin htick⟩
          · exact ⟨_, _, rfl, .opened hbegin htick⟩
  | top =>
      right
      cases hflag : x.state.cancelled with
      | true => exact ⟨_, _, rfl, .stop hflag⟩
      | false => exact ⟨_, _, rfl, .look hflag⟩
  | looked =>
      right
      cases hdone : x.renderer.isDone with
      | true => exact ⟨_, _, rfl, .done hdone⟩
      | false => exact ⟨_, _, rfl, .wait hdone⟩
  | waiting => exact Or.inr ⟨_, _, rfl, .tick⟩
  | ticked =>
      right
      cases hpoll : x.renderer.poll x.state with
      | error err => exact ⟨_, _, rfl, .failed hpoll⟩
      | ok next =>
          obtain ⟨r, s⟩ := next
          obtain ⟨t, hnext, -⟩ := TileRenderer.poll_eq_ok_iff.1 hpoll
          exact ⟨_, _, rfl, .tile hnext hpoll⟩
  | left result => exact Or.inr ⟨_, _, rfl, .close rfl⟩
  | returned result => exact Or.inl ⟨result, rfl⟩

/-- How many looks at its flag a run can still take: one for each tile that is left, one when it
    hears that the handle is gone, and the last. Of a flag that is set it takes one at most. -/
def Machine.looksLeft (x : Machine σ) : Nat :=
  match x.place with
  | .start => Frame.cellCount x.loop.renderer.size + 2
  | .top =>
    if x.loop.state.cancelled then 1
    else x.loop.renderer.remaining + x.loop.listening.toNat + 1
  | .looked | .waiting | .ticked => x.loop.renderer.remaining + x.loop.listening.toNat
  | .left _ | .returned _ => 0

/-- How many steps of its own a run takes at most before it looks at its flag again or returns. -/
def Place.stepsLeft : Place → Nat
  | .start => 1
  | .top => 0
  | .looked => 4
  | .waiting => 3
  | .ticked => 2
  | .left _ => 1
  | .returned _ => 0

/-- How many steps of its own a run can still take. -/
def Machine.stepsLeft (x : Machine σ) : Nat := 5 * x.looksLeft + x.place.stepsLeft

theorem Meanwhile.flag {s s' : Shared σ} (h : Meanwhile event s s')
    (hflag : s.cancelled = true) : s'.cancelled = true := by
  cases h with
  | cancel => rfl
  | drop => exact hflag
  | elsewhere => exact hflag

theorem Meanwhile.not_own {s s' : Shared σ} (h : Meanwhile event s s') :
    event.isOwn = false ∧ event.isLook = false ∧ event.tile? = none := by
  cases h <;> exact ⟨rfl, rfl, rfl⟩

theorem looksLeft_top_le (x : Loop (Shared σ)) (total : Nat) :
    Machine.looksLeft ⟨x, .top, total⟩ ≤ x.renderer.remaining + x.listening.toNat + 1 := by
  simp only [Machine.looksLeft]
  split <;> omega

theorem looksLeft_top_of_flag {x : Loop (Shared σ)} (hflag : x.state.cancelled = true)
    (total : Nat) : Machine.looksLeft ⟨x, .top, total⟩ = 1 := by
  simp only [Machine.looksLeft, hflag, if_true]

theorem looksLeft_top_of_not_flag {x : Loop (Shared σ)} (hflag : x.state.cancelled = false)
    (total : Nat) : Machine.looksLeft ⟨x, .top, total⟩
      = x.renderer.remaining + x.listening.toNat + 1 := by
  simp only [Machine.looksLeft, hflag, Bool.false_eq_true, if_false]

/-- Another task can only spare a run some looks. -/
theorem Meanwhile.looksLeft_le {x : Loop (Shared σ)} {s : Shared σ}
    (h : Meanwhile event x.state s) (place : Place) (total : Nat) :
    Machine.looksLeft ⟨{ x with state := s }, place, total⟩
      ≤ Machine.looksLeft ⟨x, place, total⟩ := by
  cases place with
  | top =>
      cases hflag : x.state.cancelled with
      | true =>
          have hflag' : ({ x with state := s } : Loop (Shared σ)).state.cancelled = true :=
            h.flag hflag
          rw [looksLeft_top_of_flag hflag, looksLeft_top_of_flag hflag']
      | false =>
          rw [looksLeft_top_of_not_flag hflag]
          exact looksLeft_top_le _ total
  | _ => exact Nat.le_refl _

/-- **Every step costs something**: a look is one less to take, and a step of the run is one less as
    well, whatever other tasks do. -/
theorem Step.spends (hstep : Step job x event y) :
    event.isLook.toNat + y.looksLeft ≤ x.looksLeft ∧
      event.isOwn.toNat + y.stepsLeft ≤ x.stepsLeft := by
  cases hstep with
  | @meanwhile x place total _ s h =>
      obtain ⟨hown, hlook, -⟩ := h.not_own
      have hless := h.looksLeft_le place total
      rw [hown, hlook]
      simp only [Machine.stepsLeft, Bool.toNat_false]
      omega
  | @opened x total r hbegin _ =>
      obtain rfl : r = x.renderer.opened 0 := (TileRenderer.begin_eq_ok_iff.1 hbegin).2
      have hleft : (x.renderer.opened 0).remaining = Frame.cellCount x.renderer.size := rfl
      have hstart : Machine.looksLeft ⟨x, .start, total⟩ = Frame.cellCount x.renderer.size + 2 :=
        rfl
      have htop := looksLeft_top_le { x with renderer := x.renderer.opened 0 }
        (Frame.cellCount x.renderer.size)
      have hlisten := Bool.toNat_le x.listening
      simp only [Machine.stepsLeft, hstart, hleft, Place.stepsLeft, Event.isOwn, Event.isLook,
        Bool.toNat_true, Bool.toNat_false] at htop ⊢
      omega
  | @stop x total hflag =>
      simp only [Machine.stepsLeft, Machine.looksLeft, hflag, if_true, Place.stepsLeft,
        Event.isOwn, Event.isLook, Bool.toNat_true]
      omega
  | @look x total hflag =>
      simp only [Machine.stepsLeft, Machine.looksLeft, hflag, Bool.false_eq_true, if_false,
        Place.stepsLeft, Event.isOwn, Event.isLook, Bool.toNat_true]
      omega
  | @word x total hlistening hnews =>
      -- What the job hears of is a cancellation, so it looks at its flag only once more.
      have hflag := Shared.cancelled_of_news hnews
      simp only [Machine.stepsLeft, Machine.looksLeft, Shared.cancelled_hear, hflag, if_true,
        Place.stepsLeft, Event.isOwn, Event.isLook, Bool.toNat_true, Bool.toNat_false, hlistening]
      omega
  | @silence x total hlistening _ _ =>
      -- From here on the job does not listen any more.
      have htop := looksLeft_top_le { x with listening := false } total
      simp only [Machine.stepsLeft, Machine.looksLeft, Place.stepsLeft, Event.isOwn, Event.isLook,
        Bool.toNat_true, Bool.toNat_false, hlistening] at htop ⊢
      omega
  | @tile x total t r s hnext hpoll =>
      have hless := TileRenderer.remaining_of_poll hpoll
      have htop := looksLeft_top_le ⟨r, s, x.rendered + 1, x.listening⟩ total
      simp only [Machine.stepsLeft, Machine.looksLeft, Place.stepsLeft, Event.isOwn, Event.isLook,
        Bool.toNat_true, Bool.toNat_false] at htop ⊢
      omega
  | close _ => exact ⟨Nat.le_refl _, Nat.le_refl _⟩
  | refused _ | noPeriod _ _ | done _ | wait _ | tick | failed _ =>
      simp only [Machine.stepsLeft, Machine.looksLeft, Place.stepsLeft, Event.isOwn, Event.isLook,
        Bool.toNat_true, Bool.toNat_false]
      omega

/-- What a run spends on a row of steps. -/
theorem Steps.spends (h : Steps job x events y) :
    events.countP Event.isLook + y.looksLeft ≤ x.looksLeft ∧
      events.countP Event.isOwn + y.stepsLeft ≤ x.stepsLeft := by
  induction h with
  | nil => simp
  | @snoc events event y z _ hstep ih =>
      have hspent := hstep.spends
      have hcount : ∀ p : Event → Bool, (events ++ [event]).countP p
          = events.countP p + (p event).toNat := by
        intro p
        rw [List.countP_append, List.countP_singleton]
        cases p event <;> rfl
      rw [hcount, hcount]
      omega

/-! ## What is delivered -/

/-- Whether observers use the handle, if they hold it, as anybody can. -/
def Observing (observers : List (TileObserver (Shared σ))) : Prop :=
  ∀ observer ∈ observers, ∀ (t : Tile) (s : Shared σ), s.channel.Moves (observer t s).channel

theorem Observing.notify {observers : List (TileObserver (Shared σ))} (h : Observing observers)
    (t : Tile) (s : Shared σ) :
    s.channel.Moves (TileRenderer.notify observers t s).channel := by
  induction observers generalizing s with
  | nil => exact .refl _
  | cons observer rest ih =>
      have hfirst := h observer (List.mem_cons_self ..) t s
      exact hfirst.trans (ih (fun o ho => h o (List.mem_cons_of_mem _ ho)) (observer t s))

/-- The observers of a run are those it began with. -/
theorem Step.observers (hstep : Step job x event y) :
    y.loop.renderer.observers = x.loop.renderer.observers := by
  cases hstep with
  | noPeriod hbegin _ | opened hbegin _ =>
      obtain ⟨-, rfl⟩ := TileRenderer.begin_eq_ok_iff.1 hbegin
      rfl
  | tile hnext hpoll =>
      obtain ⟨f, rfl⟩ := TileRenderer.exists_frame_of_poll hpoll
      rfl
  | @close x total result e hclose =>
      subst hclose
      simp only [RenderJob.close, TileRenderer.finish]
      cases x.renderer.frame <;> rfl
  | _ => rfl

theorem Steps.observers (h : Steps job x events y) :
    y.loop.renderer.observers = x.loop.renderer.observers := by
  induction h with
  | nil => rfl
  | snoc _ hstep ih => exact hstep.observers.trans ih

/-- How many tiles are still delivered of a run whose flag is set. -/
def Place.tilesLeft : Place → Nat
  | .looked | .waiting | .ticked => 1
  | .start | .top | .left _ | .returned _ => 0

theorem state_close (e : Ended (Shared σ)) : (RenderJob.close e).state = e.state := by
  simp only [RenderJob.close]
  cases e.renderer.finish <;> rfl

/-- **A flag that is set stays set, and stops the next tile but one**: a tile is only delivered to
    a run that did not see the flag when it looked last. -/
theorem Step.delivers (hstep : Step job x event y)
    (hobserving : Observing x.loop.renderer.observers)
    (hflag : x.loop.state.cancelled = true) :
    y.loop.state.cancelled = true ∧
      event.tile?.toList.length + y.place.tilesLeft ≤ x.place.tilesLeft := by
  cases hstep with
  | @meanwhile x place total _ s h =>
      obtain ⟨-, -, hnone⟩ := h.not_own
      rw [hnone]
      exact ⟨h.flag hflag, Nat.le_of_eq (Nat.zero_add _)⟩
  | look hunset =>
      rw [hflag] at hunset
      cases hunset
  | @tile x total t r s hnext hpoll =>
      obtain ⟨t', hnext', rfl⟩ := TileRenderer.poll_eq_ok_iff.1 hpoll
      obtain ⟨f, rfl⟩ := TileRenderer.exists_frame_of_poll hpoll
      exact ⟨(hobserving.notify _ _).flag hflag, Nat.le_refl 1⟩
  | close hclose =>
      subst hclose
      rw [state_close]
      exact ⟨hflag, Nat.le_refl 0⟩
  | refused _ | noPeriod _ _ | opened _ _ | stop _ | done _ | wait _ | word _ _ | silence _ _ _
  | tick | failed _ =>
      exact ⟨hflag, by simp [Event.tile?, Place.tilesLeft]⟩

theorem tiles_concat (events : List Event) (event : Event) :
    tiles (events ++ [event]) = tiles events ++ event.tile?.toList := by
  rw [tiles, List.filterMap_append]
  cases event <;> rfl

/-- What a run delivers from a time on at which its flag is set. -/
theorem Steps.delivers (h : Steps job x events y)
    (hobserving : Observing x.loop.renderer.observers)
    (hflag : x.loop.state.cancelled = true) :
    y.loop.state.cancelled = true ∧
      (tiles events).length + y.place.tilesLeft ≤ x.place.tilesLeft := by
  induction h with
  | nil => exact ⟨hflag, Nat.le_of_eq (Nat.zero_add _)⟩
  | @snoc events event y z h hstep ih =>
      obtain ⟨hflag', hbefore⟩ := ih
      obtain ⟨hflag'', hlast⟩ := hstep.delivers (by rwa [h.observers]) hflag'
      refine ⟨hflag'', ?_⟩
      rw [tiles_concat, List.length_append]
      omega

/-! ## The account of a run -/

section Account

variable {r : TileRenderer (Shared σ)} {field : Field Float32} {shown : List Tile}

/-- A loop in a frame of which some tiles have been delivered. -/
structure Loop.Along (r : TileRenderer (Shared σ)) (field : Field Float32) (shown : List Tile)
    (x : Loop (Shared σ)) : Prop where
  renderer : x.renderer = r.opened x.rendered
  bounded : x.rendered ≤ Frame.cellCount r.size
  shown : shown = r.firstTiles field x.rendered

/-- What a result says of a run that has delivered some tiles of a frame: it was cancelled and
    counts them, or it counts them and they are all. -/
def Accounts (total : Nat) (shown : List Tile) (flag : Bool)
    (result : Except JobFailure RenderSummary) : Prop :=
  (flag = true ∧ result = .error (.error (.cancelled shown.length total))) ∨
    (shown.length = total ∧ result = .ok ⟨total, total⟩)

/-- A run that keeps account of the tiles that it has delivered. -/
inductive Machine.Sound (r : TileRenderer (Shared σ)) (field : Field Float32) :
    List Tile → Machine σ → Prop where
  | start (s : Shared σ) : Sound r field [] (.start r s)
  | top {shown : List Tile} {x : Loop (Shared σ)} (hx : x.Along r field shown) :
      Sound r field shown ⟨x, .top, Frame.cellCount r.size⟩
  | looked {shown : List Tile} {x : Loop (Shared σ)} (hx : x.Along r field shown) :
      Sound r field shown ⟨x, .looked, Frame.cellCount r.size⟩
  | waiting {shown : List Tile} {x : Loop (Shared σ)} (hx : x.Along r field shown)
      (hless : x.rendered < Frame.cellCount r.size) :
      Sound r field shown ⟨x, .waiting, Frame.cellCount r.size⟩
  | ticked {shown : List Tile} {x : Loop (Shared σ)} (hx : x.Along r field shown)
      (hless : x.rendered < Frame.cellCount r.size) :
      Sound r field shown ⟨x, .ticked, Frame.cellCount r.size⟩
  | left {shown : List Tile} {x : Loop (Shared σ)} {result : Except JobFailure RenderSummary}
      (hx : x.Along r field shown)
      (hresult : Accounts (Frame.cellCount r.size) shown x.state.cancelled result) :
      Sound r field shown ⟨x, .left result, Frame.cellCount r.size⟩
  | returned {shown : List Tile} {x : Loop (Shared σ)} {result : Except JobFailure RenderSummary}
      {k : Nat} (hrenderer : x.renderer = r) (hbounded : k ≤ Frame.cellCount r.size)
      (hshown : shown = r.firstTiles field k)
      (hresult : Accounts (Frame.cellCount r.size) shown x.state.cancelled result) :
      Sound r field shown ⟨x, .returned result, Frame.cellCount r.size⟩

theorem Accounts.meanwhile {total : Nat} {result : Except JobFailure RenderSummary}
    {s s' : Shared σ} (h : Accounts total shown s.cancelled result)
    (hwait : Meanwhile event s s') : Accounts total shown s'.cancelled result :=
  h.imp_left fun hcancelled => ⟨hwait.flag hcancelled.1, hcancelled.2⟩

theorem Loop.Along.length_shown {x : Loop (Shared σ)} (hx : x.Along r field shown) :
    shown.length = x.rendered := by
  rw [hx.shown, TileRenderer.length_firstTiles]

theorem Loop.Along.isDone_iff {x : Loop (Shared σ)} (hx : x.Along r field shown) :
    x.renderer.isDone = true ↔ x.rendered = Frame.cellCount r.size := by
  have hleft : x.renderer.remaining = Frame.cellCount r.size - x.rendered := by
    rw [hx.renderer]
    rfl
  have hbounded := hx.bounded
  rw [TileRenderer.isDone_iff, hleft]
  omega

/-- A step that delivers no tile keeps account. -/
theorem Machine.Sound.step_of_no_tile (hx : x.Sound r field shown) (hidle : r.frame = none)
    (hfield : r.height = some field) (htick : 0 < job.tick) (hstep : Step job x event y)
    (hnone : event.tile? = none) : y.Sound r field shown := by
  cases hstep with
  | @meanwhile x place total _ s h =>
      cases hx with
      | start => exact .start s
      | top hx => exact .top ⟨hx.renderer, hx.bounded, hx.shown⟩
      | looked hx => exact .looked ⟨hx.renderer, hx.bounded, hx.shown⟩
      | waiting hx hless => exact .waiting ⟨hx.renderer, hx.bounded, hx.shown⟩ hless
      | ticked hx hless => exact .ticked ⟨hx.renderer, hx.bounded, hx.shown⟩ hless
      | left hx hresult =>
          exact .left ⟨hx.renderer, hx.bounded, hx.shown⟩ (hresult.meanwhile h)
      | returned hrenderer hbounded hshown hresult =>
          exact .returned hrenderer hbounded hshown (hresult.meanwhile h)
  | refused hbegin =>
      cases hx
      rw [TileRenderer.begin_of_idle hidle] at hbegin
      cases hbegin
  | noPeriod _ hzero => exact absurd hzero (Nat.ne_of_gt htick)
  | opened hbegin _ =>
      cases hx
      rw [TileRenderer.begin_of_idle hidle] at hbegin
      cases hbegin
      exact .top ⟨rfl, Nat.zero_le _, rfl⟩
  | stop hflag =>
      cases hx with
      | top hx => exact .left hx (Or.inl ⟨hflag, by rw [hx.length_shown]⟩)
  | look hflag =>
      cases hx with
      | top hx => exact .looked hx
  | done hdone =>
      cases hx with
      | looked hx =>
          have hall := hx.isDone_iff.1 hdone
          exact .left hx (Or.inr ⟨hx.length_shown.trans hall, by rw [hall]⟩)
  | wait hdone =>
      cases hx with
      | looked hx =>
          rw [← Bool.not_eq_true, hx.isDone_iff] at hdone
          exact .waiting hx (Nat.lt_of_le_of_ne hx.bounded hdone)
  | word hlistening hnews =>
      cases hx with
      | waiting hx _ => exact .top ⟨hx.renderer, hx.bounded, hx.shown⟩
  | silence hlistening hheard hclosed =>
      cases hx with
      | waiting hx _ => exact .top ⟨hx.renderer, hx.bounded, hx.shown⟩
  | tick =>
      cases hx with
      | waiting hx hless => exact .ticked hx hless
  | tile hnext hpoll => cases hnone
  | @failed x total err hpoll =>
      cases hx with
      | ticked hx hless =>
          rw [hx.renderer, TileRenderer.poll_opened hfield hless] at hpoll
          cases hpoll
  | @close x total result e hclose =>
      subst hclose
      cases hx with
      | left hx hresult =>
          rw [close_of_frame hidle ⟨_, hx.renderer⟩]
          exact .returned rfl hx.bounded hx.shown hresult

/-- **Every step keeps account** of the tiles that have been delivered. -/
theorem Machine.Sound.step (hx : x.Sound r field shown) (hidle : r.frame = none)
    (hfield : r.height = some field) (htick : 0 < job.tick) (hstep : Step job x event y) :
    y.Sound r field (shown ++ event.tile?.toList) := by
  cases htile : event.tile? with
  | none =>
      rw [Option.toList_none, List.append_nil]
      exact hx.step_of_no_tile hidle hfield htick hstep htile
  | some t =>
      cases hstep with
      | meanwhile h =>
          rw [h.not_own.2.2] at htile
          cases htile
      | @tile x total t' r' s hnext hpoll =>
          cases htile
          cases hx with
          | ticked hx hless =>
              rw [hx.renderer, TileRenderer.renderNext_opened hfield hless] at hnext
              cases hnext
              refine .top ⟨rfl, hless, ?_⟩
              rw [hx.shown]
              exact (TileRenderer.firstTiles_succ r field x.rendered).symm
      | _ => cases htile

/-- So does a run. -/
theorem Steps.sound (h : Steps job x events y) (hx : x.Sound r field shown)
    (hidle : r.frame = none) (hfield : r.height = some field) (htick : 0 < job.tick) :
    y.Sound r field (shown ++ tiles events) := by
  induction h with
  | nil => rwa [tiles, List.filterMap_nil, List.append_nil]
  | snoc _ hstep ih =>
      rw [tiles_concat, ← List.append_assoc]
      exact ih.step hidle hfield htick hstep

/-- What a run has delivered is the first tiles of its frame. -/
theorem Machine.Sound.exists_firstTiles (hx : x.Sound r field shown) :
    ∃ k, k ≤ Frame.cellCount r.size ∧ shown = r.firstTiles field k := by
  cases hx with
  | start => exact ⟨0, Nat.zero_le _, rfl⟩
  | top hx | looked hx | waiting hx _ | ticked hx _ | left hx _ =>
      exact ⟨_, hx.bounded, hx.shown⟩
  | returned _ hbounded hshown _ => exact ⟨_, hbounded, hshown⟩

/-- What a run leaves when it returns. -/
theorem Machine.Sound.of_returned (hx : x.Sound r field shown)
    {result : Except JobFailure RenderSummary} (hreturned : x.place = .returned result) :
    x.loop.renderer = r ∧
      Accounts (Frame.cellCount r.size) shown x.loop.state.cancelled result := by
  cases hx with
  | returned hrenderer _ _ hresult =>
      cases hreturned
      exact ⟨hrenderer, hresult⟩
  | _ => cases hreturned

/-- Whether a run ends, or has ended, in a cancellation. -/
inductive Place.Cancels : Place → Prop where
  | left (k total : Nat) : Cancels (.left (.error (.error (.cancelled k total))))
  | returned (k total : Nat) : Cancels (.returned (.error (.error (.cancelled k total))))

/-- A look at a flag that is set is the end of a run, and the end stays the same. -/
theorem Machine.Sound.cancels (hx : x.Sound r field shown) (hidle : r.frame = none)
    (hflag : x.loop.state.cancelled = true) (hstep : Step job x event y)
    (h : x.place.Cancels ∨ event = .look) : y.place.Cancels := by
  rcases h with hcancels | rfl
  · cases hstep with
    | meanwhile _ => exact hcancels
    | @close x total result e hclose =>
        subst hclose
        cases hx with
        | left hx _ =>
            rw [close_of_frame hidle ⟨_, hx.renderer⟩]
            cases hcancels with
            | left k total => exact .returned k total
    | _ => cases hcancels
  · cases hstep with
    | meanwhile h => cases h
    | stop _ => exact .left _ _
    | look hunset =>
        rw [hflag] at hunset
        cases hunset

/-- **A flag that is set before a look ends the run in a cancellation.** -/
theorem Steps.cancels (h : Steps job x events y) (hx : x.Sound r field shown)
    (hidle : r.frame = none) (hfield : r.height = some field) (htick : 0 < job.tick)
    (hobserving : Observing x.loop.renderer.observers)
    (hflag : x.loop.state.cancelled = true) (hlook : Event.look ∈ events) :
    y.place.Cancels := by
  induction h with
  | nil => cases hlook
  | @snoc events event y z h hstep ih =>
      have hsound := h.sound hx hidle hfield htick
      have hflag' := (h.delivers hobserving hflag).1
      refine hsound.cancels hidle hflag' hstep ?_
      rcases List.mem_append.1 hlook with hbefore | hlast
      · exact Or.inl (ih hbefore)
      · exact Or.inr (List.mem_singleton.1 hlast).symm

end Account

/-! ## A run that is left alone -/

/-- What a run amounts to from where it stands, if no other task runs. -/
def Machine.outcome (job : RenderJob) (x : Machine σ) : Ended (Shared σ) :=
  match x.place with
  | .start => job.run Shared.cancelled x.loop.renderer x.loop.state
  | .top | .looked | .waiting | .ticked =>
    RenderJob.close (ticks Shared.cancelled x.total x.loop.renderer.remaining x.loop.rendered
      x.loop.renderer x.loop.state)
  | .left result => RenderJob.close ⟨result, x.loop.renderer, x.loop.state⟩
  | .returned result => ⟨result, x.loop.renderer, x.loop.state⟩

/-- What a run knows where it stands, if no other task runs. -/
def Machine.Settled (x : Machine σ) : Prop :=
  match x.place with
  | .start => x.loop.rendered = 0
  | .looked => x.loop.state.cancelled = false
  | .waiting | .ticked => x.loop.state.cancelled = false ∧ x.loop.renderer.isDone = false
  | .top | .left _ | .returned _ => True

/-- A step of a run does not change what it amounts to. -/
theorem Step.outcome (hstep : Step job x event y) (hown : event.isOwn = true) (hx : x.Settled) :
    y.Settled ∧ y.outcome job = x.outcome job := by
  cases hstep with
  | meanwhile h =>
      rw [h.not_own.1] at hown
      cases hown
  | refused hbegin => exact ⟨trivial, by simp only [Machine.outcome, run, hbegin]⟩
  | noPeriod hbegin hzero =>
      exact ⟨trivial, by simp only [Machine.outcome, run, hbegin, if_pos hzero]⟩
  | @opened x total r hbegin hperiod =>
      have hfirst : x.rendered = 0 := hx
      exact ⟨trivial, by simp only [Machine.outcome, run, hbegin, if_neg hperiod, hfirst]⟩
  | @stop x total hflag =>
      exact ⟨trivial, by simp only [Machine.outcome, ticks_of_cancelled hflag]⟩
  | look hflag => exact ⟨hflag, rfl⟩
  | @done x total hdone =>
      have hunset : x.state.cancelled = false := hx
      refine ⟨trivial, ?_⟩
      simp only [Machine.outcome, TileRenderer.isDone_iff.1 hdone, ticks_zero hunset]
  | wait hdone => exact ⟨⟨hx, hdone⟩, rfl⟩
  | @word x total _ hnews =>
      have hflag := Shared.cancelled_of_news hnews
      rw [hx.1] at hflag
      cases hflag
  | silence _ _ _ => exact ⟨trivial, rfl⟩
  | tick => exact ⟨hx, rfl⟩
  | tile _ hpoll =>
      refine ⟨trivial, ?_⟩
      simp only [Machine.outcome, TileRenderer.remaining_of_poll hpoll,
        ticks_succ_of_ok hx.1 hpoll]
  | @failed x total err hpoll =>
      obtain ⟨left, hleft⟩ :=
        Nat.exists_eq_succ_of_ne_zero (TileRenderer.isDone_eq_false_iff.1 hx.2)
      refine ⟨trivial, ?_⟩
      simp only [Machine.outcome, hleft, ticks_succ_of_error hx.1 hpoll]
  | close hclose =>
      subst hclose
      exact ⟨trivial, rfl⟩

/-- **Left alone, a run ends as `run` says**, whichever branches are taken where it waits. -/
theorem Steps.eq_run {r : TileRenderer (Shared σ)} {s : Shared σ}
    (h : Steps job (.start r s) events y) (hown : ∀ event ∈ events, event.isOwn = true)
    {result : Except JobFailure RenderSummary} (hreturned : y.place = .returned result) :
    job.run Shared.cancelled r s = ⟨result, y.loop.renderer, y.loop.state⟩ := by
  have houtcome : y.Settled ∧ y.outcome job = job.run Shared.cancelled r s := by
    clear hreturned
    induction h with
    | nil => exact ⟨rfl, rfl⟩
    | @snoc events event y z h hstep ih =>
        obtain ⟨hbefore, hlast⟩ := List.forall_mem_append.1 hown
        obtain ⟨hsettled, hrun⟩ := ih hbefore
        have hlast' : event.isOwn = true := hlast event (List.mem_singleton_self _)
        obtain ⟨hsettled', hsame⟩ := hstep.outcome hlast' hsettled
        exact ⟨hsettled', hsame.trans hrun⟩
  rw [← houtcome.2]
  simp only [Machine.outcome, hreturned]

/-! ## A run that finds a frame open -/

/-- A run that cannot open its frame has nothing else to do. -/
theorem Steps.refused {r : TileRenderer (Shared σ)} {s : Shared σ} {f : Frame}
    (h : Steps job (.start r s) events y) (hframe : r.frame = some f) :
    tiles events = [] ∧ y.loop.renderer = r ∧
      (y.place = .start ∨ y.place = .returned (.error (.error (.render .frameInProgress)))) := by
  induction h with
  | nil => exact ⟨rfl, rfl, Or.inl rfl⟩
  | @snoc events event y z h hstep ih =>
      obtain ⟨hnone, hrenderer, hplace⟩ := ih
      have hbegin : y.loop.renderer.begin = .error .frameInProgress := by
        rw [hrenderer, TileRenderer.begin, hframe]
      rw [tiles_concat, hnone]
      cases hstep with
      | meanwhile h =>
          rw [h.not_own.2.2]
          exact ⟨rfl, hrenderer, hplace⟩
      | refused hbegin' =>
          obtain rfl := Except.error.inj (hbegin'.symm.trans hbegin)
          exact ⟨rfl, hrenderer, Or.inr rfl⟩
      | noPeriod hbegin' _ | opened hbegin' _ => cases hbegin'.symm.trans hbegin
      | _ => rcases hplace with hplace | hplace <;> cases hplace

/-! ## Every interleaving -/

/-- **A cancellation stops a run after one more tile at most, whenever it comes.**

Let another task, or an observer, cancel a job that is under way or let go of its handle at any
moment, and let the loop take any branch that is ready; the observers return from every tile. From
the moment at which the flag is set, at most one more tile is delivered. If the loop looks at its
flag again after that moment, the run ends in a cancellation that counts the tiles it has delivered.
If the flag is never set, with or without somebody who could, the run ends with all tiles of its
frame. In any case the tiles are those of the frame in their order, the loop takes at most two
iterations more than there are tiles, and when the run returns the renderer is as it was before and
no frame is open.

A run that has not returned can always take a step of its own, and it takes a bounded number of
them, so one that is let go on returns. A run that finds a frame open is refused and leaves it
alone. A run that is left alone ends as `run` says. -/
theorem every_interleaving_accounts {job : RenderJob} (htick : 0 < job.tick)
    {r : TileRenderer (Shared σ)} {field : Field Float32} (hfield : r.height = some field)
    (hobserving : ∀ observer ∈ r.observers, ∀ (t : Tile) (s : Shared σ),
      s.channel.Moves (observer t s).channel) (s : Shared σ) :
    let total := (r.size.width ⌈/⌉ 256) * (r.size.height ⌈/⌉ 256)
    let start := Machine.start r s
    (r.frame = none → ∀ events y, Steps job start events y →
      (∃ k, k ≤ total ∧ tiles events = r.firstTiles field k) ∧
      events.countP Event.isLook ≤ total + 2 ∧
      (y.loop.state.cancelled = true → ∀ more z, Steps job y more z →
        (tiles more).length ≤ 1 ∧
        (Event.look ∈ more → ∀ result, z.place = .returned result →
          result = .error (.error (.cancelled (tiles (events ++ more)).length total)))) ∧
      ∀ result, y.place = .returned result →
        y.loop.renderer = r ∧ y.loop.renderer.frame = none ∧
        (y.loop.state.cancelled = false →
          result = .ok ⟨total, total⟩ ∧ (tiles events).length = total) ∧
        (result = .ok ⟨total, total⟩ ∨
          result = .error (.error (.cancelled (tiles events).length total)))) ∧
    (∀ f, r.frame = some f → ∀ events y, Steps job start events y →
      tiles events = [] ∧ y.loop.renderer = r ∧ ∀ result, y.place = .returned result →
        result = .error (.error (.render .frameInProgress))) ∧
    ∀ events y, Steps job start events y →
      ((∃ result, y.place = .returned result) ∨
        ∃ event z, event.isOwn = true ∧ Step job y event z) ∧
      events.countP Event.isOwn ≤ 5 * (total + 2) + 1 ∧
      ((∀ event ∈ events, event.isOwn = true) → ∀ result, y.place = .returned result →
        job.run Shared.cancelled r s = ⟨result, y.loop.renderer, y.loop.state⟩) := by
  intro total start
  have htotal : Frame.cellCount r.size = total := Frame.cellCount_eq_ceilDiv r.size
  refine ⟨fun hidle events y h => ?_, fun f hframe events y h => ?_, fun events y h => ?_⟩
  · have hsound : y.Sound r field (tiles events) := h.sound (.start s) hidle hfield htick
    have hobserving' : Observing y.loop.renderer.observers := by rwa [h.observers]
    refine ⟨?_, ?_, fun hflag more z h' => ⟨?_, fun hlook result hreturned => ?_⟩, ?_⟩
    · exact htotal ▸ hsound.exists_firstTiles
    · have hspent : events.countP Event.isLook + y.looksLeft ≤ Frame.cellCount r.size + 2 :=
        h.spends.1
      rw [htotal] at hspent
      exact Nat.le_of_add_right_le hspent
    · have hdelivered := (h'.delivers hobserving' hflag).2
      have hless : y.place.tilesLeft ≤ 1 := by cases y.place <;> simp [Place.tilesLeft]
      omega
    · have hcancels := h'.cancels hsound hidle hfield htick hobserving' hflag hlook
      have hsound' := (h.append h').sound (.start s) hidle hfield htick
      obtain ⟨-, haccounts⟩ := hsound'.of_returned hreturned
      rw [hreturned] at hcancels
      cases hcancels
      rcases haccounts with ⟨-, hresult⟩ | ⟨-, hresult⟩
      · rw [← htotal]
        exact hresult
      · cases hresult
    · intro result hreturned
      obtain ⟨hrenderer, haccounts⟩ := hsound.of_returned hreturned
      rw [htotal] at haccounts
      refine ⟨hrenderer, by rw [hrenderer, hidle], fun hunset => ?_, ?_⟩
      · rcases haccounts with ⟨hflag, -⟩ | ⟨hall, hresult⟩
        · rw [hunset] at hflag
          cases hflag
        · exact ⟨hresult, hall⟩
      · exact (haccounts.imp And.right And.right).symm
  · obtain ⟨hnone, hrenderer, hplace⟩ := h.refused hframe
    refine ⟨hnone, hrenderer, fun result hreturned => ?_⟩
    rcases hplace with hplace | hplace
    · cases hplace.symm.trans hreturned
    · cases hplace.symm.trans hreturned
      rfl
  · have hspent : events.countP Event.isOwn + y.stepsLeft
        ≤ 5 * (Frame.cellCount r.size + 2) + 1 := h.spends.2
    rw [htotal] at hspent
    exact ⟨exists_step job y, Nat.le_of_add_right_le hspent, fun hown result => h.eq_run hown⟩

/-- A job of four tiles that is cancelled when it is time for the first one: that one still comes,
    and is counted. -/
theorem every_interleaving_accounts_late :
    let job : RenderJob := ⟨33⟩
    let r : TileRenderer (Shared Nat) :=
      ⟨⟨300, 300⟩, .raster, [fun _ s => { s with rest := s.rest + 1 }], none,
        some fun c => c.along .u⟩
    let s : Shared Nat := ⟨.new, 0⟩
    0 < job.tick ∧ r.frame = none ∧
    (∀ observer ∈ r.observers, ∀ (t : Tile) (s : Shared Nat),
      s.channel.Moves (observer t s).channel) ∧
    ∃ events y more z result, Steps job (.start r s) events y ∧
      y.loop.state.cancelled = true ∧ Steps job y more z ∧ z.place = .returned result ∧
      tiles events = [] ∧ (tiles more).length = 1 ∧
      result = .error (.error (.cancelled 1 4)) ∧ z.loop.renderer.frame = none := by
  intro job r s
  have hobserving : ∀ observer ∈ r.observers, ∀ (t : Tile) (s : Shared Nat),
      s.channel.Moves (observer t s).channel := by
    intro observer hobserver t s
    obtain rfl := List.mem_singleton.1 hobserver
    exact .refl _
  have htick : 0 < job.tick := by decide
  have hless : 0 < Frame.cellCount r.size := by decide
  let first := r.tileAt (fun c => c.along .u) 0
  let x : Loop (Shared Nat) := ⟨r.opened 0, s, 0, true⟩
  let y : Loop (Shared Nat) := { x with state := { s with channel := s.channel.cancel } }
  let z : Loop (Shared Nat) := ⟨r.opened 1, { y.state with rest := 1 }, 1, true⟩
  have hopened : Step job (.start r s) .quiet ⟨x, .top, (r.opened 0).remaining⟩ :=
    .opened (x := ⟨r, s, 0, true⟩) (TileRenderer.begin_of_idle rfl) (Nat.ne_of_gt htick)
  rw [show (r.opened 0).remaining = 4 by decide] at hopened
  have hcancel : Step job ⟨x, .ticked, 4⟩ .cancel ⟨y, .ticked, 4⟩ := .meanwhile (.cancel rfl)
  have hlate : Steps job (.start r s) [.quiet, .look, .quiet, .quiet, .cancel] ⟨y, .ticked, 4⟩ :=
    .snoc (.snoc (.snoc (.snoc (.snoc .nil hopened) (.look rfl)) (.wait (by decide))) .tick) hcancel
  have hafter : Steps job ⟨y, .ticked, 4⟩ [.tile first, .look, .quiet]
      ⟨{ z with renderer := r }, .returned (.error (.error (.cancelled 1 4))), 4⟩ :=
    .snoc (.snoc (.snoc .nil (.tile (TileRenderer.renderNext_opened rfl hless)
      (TileRenderer.poll_opened rfl hless _))) (.stop (x := z) rfl)) (.close (x := z) rfl)
  obtain ⟨haccounts, -, -⟩ := every_interleaving_accounts htick rfl hobserving s
  have htotal : (r.size.width ⌈/⌉ 256) * (r.size.height ⌈/⌉ 256) = 4 := by
    rw [← Frame.cellCount_eq_ceilDiv]
    decide
  rw [htotal] at haccounts
  obtain ⟨-, -, hcancelled, -⟩ := haccounts rfl _ _ hlate
  obtain ⟨-, hresult⟩ := hcancelled rfl _ _ hafter
  obtain ⟨-, -, -, hreturned⟩ := haccounts rfl _ _ (hlate.append hafter)
  exact ⟨htick, rfl, hobserving, _, _, _, _, _, hlate, rfl, hafter, rfl, rfl, rfl,
    hresult (by simp) _ rfl, (hreturned _ rfl).2.1⟩

end RenderJob

end Relief
