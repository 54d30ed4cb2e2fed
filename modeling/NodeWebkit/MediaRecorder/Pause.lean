import Mathlib.Data.List.Basic

/-!
# Pausing a recording — MediaPause and MediaRecorderSink

`pause()` and `resume()` only leave a mark in the `MediaPause` of each track; the times of a pause
are latched when the next frame of the track arrives. Commands and frames come in any order.

## The crux

A `MediaPause` has room for one mark. Two commands without a frame of the track between them
overwrite each other, and the assertions of the source say that this does not happen; nothing in
the code keeps a page from calling `pause()` and `resume()` in one task.

## The architecture

* **`Track.run_eq`** — a track depends on the commands and its own frames only;
* **`pausedTotal`**, **`recorded`** — what the pauses of a track add up to and which frames lie
  outside them, read off the sequence of commands and frames;
* **`Spaced`** — the condition: commands alternate, with a frame of the track between any two;
* **`Track.asserted_run_iff`** — the assertions hold exactly for a spaced sequence;
* **`Track.deltaTime_run`**, **`Track.captured_run`** — on a spaced sequence the latched times are
  the first reading and the frames that are encoded the second;
* **`Track.ordered_run`** — and the adjusted times never go back, by the invariant `Track.Below`.

`pause_iff` is the statement about a whole recording, both tracks of it.
-/

namespace NodeWebkit.MediaRecorder

/-! ## The source -/

inductive PauseState where
  | active | pause | paused | resume
  deriving DecidableEq

/-- `base::TimeTicks` and `base::TimeDelta` are integers. -/
structure MediaPause where
  deltaTime : Int := 0
  pauseTime : Int := 0
  pause_ : PauseState := .active
  deriving DecidableEq

namespace MediaPause

/-- The latching part of `isPaused`. -/
def latch (self : MediaPause) (time : Int) : MediaPause :=
  match self.pause_ with
  | .pause =>
    { self with
      pauseTime := time
      pause_ := .paused }
  | .resume =>
    { self with
      deltaTime := self.deltaTime + (time - self.pauseTime)
      pause_ := .active }
  | _ => self

def isPaused (self : MediaPause) (time : Int) : Bool × MediaPause :=
  let self := self.latch time
  (self.pause_ != .active, self)

/-- `Pause` with its assertion: the flag says whether the assertion held. -/
def doPause (self : MediaPause) : Bool × MediaPause :=
  (self.pause_ == .active, { self with pause_ := .pause })

def doResume (self : MediaPause) : Bool × MediaPause :=
  (self.pause_ == .paused, { self with pause_ := .resume })

end MediaPause

/-- A call of `UpdateVideo` or `UpdateAudio`: the capture time of the frame and the time handed
on. -/
structure Update where
  captured : Int
  adjusted : Int
  deriving DecidableEq

/-- A track of the sink: its `MediaPause`, the frames it handed to the encoder, and whether the
assertions of its `MediaPause` have held so far. -/
structure Track where
  pause : MediaPause := {}
  updates : List Update := []
  asserted : Bool := true
  deriving DecidableEq

namespace Track

def doPause (self : Track) : Track :=
  let (ok, pause) := self.pause.doPause
  { self with
    pause := pause
    asserted := self.asserted && ok }

def doResume (self : Track) : Track :=
  let (ok, pause) := self.pause.doResume
  { self with
    pause := pause
    asserted := self.asserted && ok }

/-- The shared part of the two frame callbacks. -/
def onFrame (self : Track) (time : Int) : Track :=
  let (paused, pause) := self.pause.isPaused time
  if paused then { self with pause := pause }
  else
    { self with
      pause := pause
      updates := self.updates ++ [⟨time, time - pause.deltaTime⟩] }

end Track

structure MediaRecorderSink where
  video : Track := {}
  audio : Track := {}
  events : List String := []
  deriving DecidableEq

namespace MediaRecorderSink

def doPause (self : MediaRecorderSink) : MediaRecorderSink where
  video := self.video.doPause
  audio := self.audio.doPause
  events := self.events ++ ["NWObjectMediaRecorderPause"]

def doResume (self : MediaRecorderSink) : MediaRecorderSink where
  video := self.video.doResume
  audio := self.audio.doResume
  events := self.events ++ ["NWObjectMediaRecorderResume"]

/-- `OnVideoFrame` once the encoder is initialised. -/
def onVideoFrame (self : MediaRecorderSink) (time : Int) : MediaRecorderSink :=
  { self with video := self.video.onFrame time }

/-- `OnData`. -/
def onData (self : MediaRecorderSink) (time : Int) : MediaRecorderSink :=
  { self with audio := self.audio.onFrame time }

inductive Op where
  | pause
  | resume
  | videoFrame (time : Int)
  | audioFrame (time : Int)
  deriving DecidableEq

def step (self : MediaRecorderSink) : Op → MediaRecorderSink
  | .pause => self.doPause
  | .resume => self.doResume
  | .videoFrame time => self.onVideoFrame time
  | .audioFrame time => self.onData time

def run (ops : List Op) : MediaRecorderSink := ops.foldl step {}

end MediaRecorderSink

/-! ## One track at a time -/

/-- What one track sees of a recording. -/
inductive TrackOp where
  | pause
  | resume
  | frame (time : Int)
  deriving DecidableEq

namespace Track

def step (self : Track) : TrackOp → Track
  | .pause => self.doPause
  | .resume => self.doResume
  | .frame time => self.onFrame time

def run (self : Track) (ops : List TrackOp) : Track := ops.foldl step self

end Track

open MediaRecorderSink (Op)

/-- The commands and the video frames. -/
def videoOps : List Op → List TrackOp
  | [] => []
  | .pause :: ops => .pause :: videoOps ops
  | .resume :: ops => .resume :: videoOps ops
  | .videoFrame time :: ops => .frame time :: videoOps ops
  | .audioFrame _ :: ops => videoOps ops

/-- The commands and the audio frames. -/
def audioOps : List Op → List TrackOp
  | [] => []
  | .pause :: ops => .pause :: audioOps ops
  | .resume :: ops => .resume :: audioOps ops
  | .videoFrame _ :: ops => audioOps ops
  | .audioFrame time :: ops => .frame time :: audioOps ops

/-- **The tracks are independent.** Each one runs on the commands and its own frames. -/
theorem Track.run_eq (ops : List Op) (s : MediaRecorderSink) :
    (ops.foldl MediaRecorderSink.step s).video = s.video.run (videoOps ops) ∧
    (ops.foldl MediaRecorderSink.step s).audio = s.audio.run (audioOps ops) := by
  induction ops generalizing s with
  | nil => exact ⟨rfl, rfl⟩
  | cons op ops ih =>
    obtain ⟨hv, ha⟩ := ih (s.step op)
    rw [List.foldl_cons, hv, ha]
    cases op with
    | pause => exact ⟨rfl, rfl⟩
    | resume => exact ⟨rfl, rfl⟩
    | videoFrame time => exact ⟨rfl, rfl⟩
    | audioFrame time => exact ⟨rfl, rfl⟩

/-! ## Reading pauses off the sequence -/

/-- The times of the frames, in their order. -/
def frameTimes : List TrackOp → List Int
  | [] => []
  | .frame time :: ops => time :: frameTimes ops
  | _ :: ops => frameTimes ops

/-- The time of the first frame. -/
def firstFrame (ops : List TrackOp) : Option Int := (frameTimes ops).head?

/-- The sum over the completed pauses: the first frame after the resume minus the first frame
after the pause. Inside a pause, `start` is the first frame after it began, if there is one. -/
def pausedTotal (start : Option (Option Int)) : List TrackOp → Int
  | [] => 0
  | .pause :: ops =>
    match start with
    | none => pausedTotal (some (firstFrame ops)) ops
    | some start => pausedTotal (some start) ops
  | .resume :: ops =>
    match start with
    | some (some t1) =>
      (match firstFrame ops with
        | some t2 => t2 - t1
        | none => 0) + pausedTotal none ops
    | _ => pausedTotal none ops
  | .frame _ :: ops => pausedTotal start ops

/-- The frames that were not captured between a pause and a resume; `paused` says whether the
sequence starts inside a pause. -/
def recorded (paused : Bool) : List TrackOp → List Int
  | [] => []
  | .pause :: ops => recorded true ops
  | .resume :: ops => recorded false ops
  | .frame time :: ops => if paused then recorded paused ops else time :: recorded paused ops

/-- Commands alternate, and the track has a frame between any two of them: `paused` says which
one comes next, `seen` whether a frame has come since the last one. -/
def Spaced (paused seen : Bool) : List TrackOp → Prop
  | [] => True
  | .pause :: ops => paused = false ∧ seen = true ∧ Spaced true false ops
  | .resume :: ops => paused = true ∧ seen = true ∧ Spaced false false ops
  | .frame _ :: ops => Spaced paused true ops

/-! ## What the pause state stands for -/

namespace PauseState

/-- The next command is a resume. -/
def isPause : PauseState → Bool
  | .pause | .paused => true
  | .active | .resume => false

/-- A frame has come since the last command. -/
def isLatched : PauseState → Bool
  | .active | .paused => true
  | .pause | .resume => false

end PauseState

namespace Track

/-- A frame latches the state and leaves the commands to come as they are. -/
theorem onFrame_pause (t : Track) (time : Int) :
    (t.onFrame time).pause = t.pause.latch time ∧ (t.onFrame time).asserted = t.asserted := by
  unfold onFrame MediaPause.isPaused
  dsimp only
  split
  · exact ⟨rfl, rfl⟩
  · exact ⟨rfl, rfl⟩

/-- Latching a mark keeps whether the track is paused: `Pause` becomes `Paused` and `Resume` becomes
`Active`. What changes is that the track is ready for the next command. -/
theorem latch_state (m : MediaPause) (time : Int) :
    (m.latch time).pause_.isPause = m.pause_.isPause ∧
      (m.latch time).pause_.isLatched = true := by
  obtain ⟨delta, start, st⟩ := m
  cases st with
  | active => exact ⟨rfl, rfl⟩
  | pause => exact ⟨rfl, rfl⟩
  | paused => exact ⟨rfl, rfl⟩
  | resume => exact ⟨rfl, rfl⟩

/-- **The assertions hold exactly when the commands are spaced.** Whether the next command is
asserted is told by two bits of the pause state, whether it is a pause and whether it is latched,
and these are the two arguments of `Spaced`. -/
theorem asserted_run_iff (ops : List TrackOp) (t : Track) :
    (t.run ops).asserted = true ↔
      t.asserted = true ∧ Spaced t.pause.pause_.isPause t.pause.pause_.isLatched ops := by
  induction ops generalizing t with
  | nil => exact ⟨fun h => ⟨h, trivial⟩, fun h => h.1⟩
  | cons op ops ih =>
    show ((t.step op).run ops).asserted = true ↔ _
    rw [ih]
    cases op with
    | pause =>
      show (t.asserted && (t.pause.pause_ == .active)) = true ∧ Spaced true false ops ↔ _
      -- the only state in which `Pause` is asserted is `Active`
      cases t.pause.pause_ <;> simp [Spaced, PauseState.isPause, PauseState.isLatched]
    | resume =>
      show (t.asserted && (t.pause.pause_ == .paused)) = true ∧ Spaced false false ops ↔ _
      cases t.pause.pause_ <;> simp [Spaced, PauseState.isPause, PauseState.isLatched]
    | frame time =>
      show (t.onFrame time).asserted = true ∧ Spaced (t.onFrame time).pause.pause_.isPause
        (t.onFrame time).pause.pause_.isLatched ops ↔ _
      obtain ⟨hpause, hasserted⟩ := t.onFrame_pause time
      obtain ⟨hnext, hlatched⟩ := latch_state t.pause time
      rw [hpause, hasserted, hnext, hlatched]
      exact Iff.rfl

/-- A frame is handed on unless its track is inside a pause; its time is adjusted by the delta
that counts the pause it ends. -/
theorem onFrame_updates (t : Track) (time : Int) :
    (t.onFrame time).updates = t.updates ++
      if t.pause.pause_.isPause then []
      else [⟨time, time - (t.pause.latch time).deltaTime⟩] := by
  obtain ⟨⟨delta, start, st⟩, updates, asserted⟩ := t
  cases st with
  | active => rfl
  | pause => exact (List.append_nil updates).symm
  | paused => exact (List.append_nil updates).symm
  | resume => rfl

/-- A frame leaves a spaced sequence spaced, as `Spaced` goes on from the state that latching the
mark comes to. -/
theorem spaced_step_frame {t : Track} {time : Int} {ops : List TrackOp}
    (h : Spaced t.pause.pause_.isPause t.pause.pause_.isLatched (.frame time :: ops)) :
    Spaced (t.step (.frame time)).pause.pause_.isPause
      (t.step (.frame time)).pause.pause_.isLatched ops := by
  obtain ⟨hpause, -⟩ := t.onFrame_pause time
  obtain ⟨hnext, hlatched⟩ := latch_state t.pause time
  rw [show t.step (.frame time) = t.onFrame time from rfl, hpause, hnext, hlatched]
  exact h

theorem spaced_command {t : Track} {ops : List TrackOp} :
    (Spaced t.pause.pause_.isPause t.pause.pause_.isLatched (.pause :: ops) →
      t.pause.pause_ = .active ∧ Spaced true false ops) ∧
    (Spaced t.pause.pause_.isPause t.pause.pause_.isLatched (.resume :: ops) →
      t.pause.pause_ = .paused ∧ Spaced false false ops) := by
  cases t.pause.pause_ <;> simp [Spaced, PauseState.isPause, PauseState.isLatched]

/-- What the rest of the sequence adds to `deltaTime`. -/
def toCome (m : MediaPause) (ops : List TrackOp) : Int :=
  match m.pause_ with
  | .active => pausedTotal none ops
  | .pause => pausedTotal (some (firstFrame ops)) ops
  | .paused => pausedTotal (some (some m.pauseTime)) ops
  | .resume =>
    (match firstFrame ops with
      | some t2 => t2 - m.pauseTime
      | none => 0) + pausedTotal none ops

/-- **The accumulated delta is the sum over the pauses**, from any state of the track on. -/
theorem deltaTime_run {ops : List TrackOp} {t : Track}
    (h : Spaced t.pause.pause_.isPause t.pause.pause_.isLatched ops) :
    (t.run ops).pause.deltaTime = t.pause.deltaTime + toCome t.pause ops := by
  induction ops generalizing t with
  | nil =>
    show t.pause.deltaTime = _
    cases hst : t.pause.pause_ <;> simp [toCome, hst, pausedTotal, firstFrame, frameTimes]
  | cons op ops ih =>
    show ((t.step op).run ops).pause.deltaTime = _
    cases op with
    | pause =>
      obtain ⟨hst, hops⟩ := spaced_command.1 h
      rw [ih (t := t.step .pause) hops]
      show t.pause.deltaTime + pausedTotal (some (firstFrame ops)) ops = _
      simp only [toCome, hst, pausedTotal]
    | resume =>
      obtain ⟨hst, hops⟩ := spaced_command.2 h
      rw [ih (t := t.step .resume) hops]
      show t.pause.deltaTime + (_ + pausedTotal none ops) = _
      simp only [toCome, hst, pausedTotal]
      rfl
    | frame time =>
      rw [ih (spaced_step_frame h), show t.step (.frame time) = t.onFrame time from rfl,
        (t.onFrame_pause time).1]
      -- the first frame after a command is this one
      cases hst : t.pause.pause_ with
      | active => simp only [MediaPause.latch, hst, toCome, pausedTotal]
      | pause =>
        simp only [MediaPause.latch, hst, toCome, pausedTotal, firstFrame, frameTimes,
          List.head?_cons]
      | paused => simp only [MediaPause.latch, hst, toCome, pausedTotal]
      | resume =>
        simp only [MediaPause.latch, hst, toCome, pausedTotal, firstFrame, frameTimes,
          List.head?_cons]
        exact Int.add_assoc ..

/-- **Exactly the frames outside the pauses are encoded.** A frame is handed on when latching leaves
the track active, which is when the last command before it is not a `pause`. -/
theorem captured_run {ops : List TrackOp} {t : Track}
    (h : Spaced t.pause.pause_.isPause t.pause.pause_.isLatched ops) :
    (t.run ops).updates.map Update.captured =
      t.updates.map Update.captured ++ recorded t.pause.pause_.isPause ops := by
  induction ops generalizing t with
  | nil =>
    show t.updates.map Update.captured = _
    rw [recorded, List.append_nil]
  | cons op ops ih =>
    show ((t.step op).run ops).updates.map Update.captured = _
    cases op with
    | pause => exact ih (t := t.step .pause) h.2.2
    | resume => exact ih (t := t.step .resume) h.2.2
    | frame time =>
      rw [ih (spaced_step_frame h), show t.step (.frame time) = t.onFrame time from rfl,
        onFrame_updates, (t.onFrame_pause time).1, (latch_state t.pause time).1]
      cases hst : t.pause.pause_ <;> simp [recorded, PauseState.isPause]

/-- What is already encoded fits below every frame to come: the track's delta, and the start of
its pause where one has begun, leave room. -/
def Below (t : Track) (ops : List TrackOp) : Prop :=
  match t.pause.pause_ with
  | .active | .pause =>
    ∀ time ∈ frameTimes ops, ∀ u ∈ t.updates, u.adjusted + t.pause.deltaTime ≤ time
  | .paused | .resume => ∀ u ∈ t.updates, u.adjusted + t.pause.deltaTime ≤ t.pause.pauseTime

/-- A frame that is handed on comes after everything encoded, in adjusted time. -/
theorem Below.room {t : Track} {time : Int} {ops : List TrackOp}
    (h : t.Below (.frame time :: ops)) (hnext : t.pause.pause_.isPause = false) :
    ∀ u ∈ t.updates, u.adjusted + (t.pause.latch time).deltaTime ≤ time := by
  intro u hu
  unfold Below at h
  cases hst : t.pause.pause_ with
  | active =>
    simp only [hst] at h
    simp only [MediaPause.latch, hst]
    exact h time (List.mem_cons_self ..) u hu
  | resume =>
    -- the delta grows by the length of the pause, which ends with this frame
    simp only [hst] at h
    simp only [MediaPause.latch, hst]
    have := h u hu
    omega
  | pause => rw [hst] at hnext; cases hnext
  | paused => rw [hst] at hnext; cases hnext

/-- **A frame keeps the bound.** `Below` says that no later frame of the track can be encoded before
what is encoded already. Capture times do not go back, so a frame that is handed on is a bound for
the frames after it, and one inside a pause leaves the bound where the pause began. -/
theorem Below.onFrame {t : Track} {time : Int} {ops : List TrackOp}
    (h : t.Below (.frame time :: ops)) (hlater : ∀ later ∈ frameTimes ops, time ≤ later) :
    (t.onFrame time).Below ops := by
  have hpause := (t.onFrame_pause time).1
  have hupdates := t.onFrame_updates time
  cases hnext : t.pause.pause_.isPause with
  | false =>
    -- the frame is handed on, and later frames come after it
    have hroom := h.room hnext
    have hactive : (t.pause.latch time).pause_ = .active := by
      cases hst : t.pause.pause_ <;> simp_all [MediaPause.latch, PauseState.isPause]
    unfold Below
    rw [hpause, hactive, hupdates, hnext]
    intro later hmem u hu
    have hle := hlater later hmem
    rcases List.mem_append.mp hu with hu | hu
    · have := hroom u hu
      omega
    · simp only [Bool.false_eq_true, if_false, List.mem_singleton] at hu
      subst hu
      show time - _ + _ ≤ later
      omega
  | true =>
    -- the frame is dropped; the first one of a pause becomes its start
    rw [hnext, if_pos rfl, List.append_nil] at hupdates
    unfold Below at h ⊢
    rw [hpause, hupdates]
    cases hst : t.pause.pause_ with
    | pause =>
      simp only [hst] at h
      simp only [MediaPause.latch, hst]
      exact fun u hu => h time (List.mem_cons_self ..) u hu
    | paused =>
      simp only [hst] at h
      simp only [MediaPause.latch, hst]
      exact h
    | active => rw [hst] at hnext; cases hnext
    | resume => rw [hst] at hnext; cases hnext

/-- **The adjusted times never go back** while the capture times do not. The induction is on the
sequence and carries `Below` beside the order: a command changes neither, and a frame is put behind
everything encoded because it has room there (`Below.room`). -/
theorem ordered_run {ops : List TrackOp} {t : Track}
    (h : Spaced t.pause.pause_.isPause t.pause.pause_.isLatched ops)
    (htimes : (frameTimes ops).Pairwise (· ≤ ·)) (hbelow : t.Below ops)
    (hordered : t.updates.Pairwise fun u u' => u.adjusted ≤ u'.adjusted) :
    (t.run ops).updates.Pairwise fun u u' => u.adjusted ≤ u'.adjusted := by
  induction ops generalizing t with
  | nil => exact hordered
  | cons op ops ih =>
    show ((t.step op).run ops).updates.Pairwise _
    cases op with
    | pause =>
      -- a command only leaves its mark, nothing is encoded
      obtain ⟨hst, hops⟩ := spaced_command.1 h
      refine ih (t := t.step .pause) hops htimes ?_ hordered
      unfold Below at hbelow
      rw [hst] at hbelow
      exact hbelow
    | resume =>
      obtain ⟨hst, hops⟩ := spaced_command.2 h
      refine ih (t := t.step .resume) hops htimes ?_ hordered
      unfold Below at hbelow
      rw [hst] at hbelow
      exact hbelow
    | frame time =>
      obtain ⟨hlater, htimes⟩ := List.pairwise_cons.mp htimes
      have hupdates := t.onFrame_updates time
      refine ih (spaced_step_frame h) htimes ?_ ?_
      · show (t.onFrame time).Below ops
        exact hbelow.onFrame hlater
      · show (t.onFrame time).updates.Pairwise _
        rw [hupdates]
        split
        · rwa [List.append_nil]
        · rename_i hnext
          refine List.pairwise_append.mpr ⟨hordered, List.pairwise_singleton .., ?_⟩
          intro u hu u' hu'
          rw [List.mem_singleton] at hu'
          subst hu'
          have := hbelow.room (by simpa using hnext) u hu
          show u.adjusted ≤ time - _
          omega

end Track

/-! ## A whole recording -/

/-- What a track of a recording owes to the commands and its frames: the assertions held, the
delta is the sum over the completed pauses, the frames outside the pauses and no others were
encoded, and their adjusted times never go back. -/
structure Timed (ops : List TrackOp) (t : Track) : Prop where
  asserted : t.asserted = true
  delta : t.pause.deltaTime = pausedTotal none ops
  captured : t.updates.map Update.captured = recorded false ops
  ordered : t.updates.Pairwise fun u u' => u.adjusted ≤ u'.adjusted

/-- **Pauses are timed right exactly when the commands are spaced.** For every sequence of
commands and frames with capture times that do not go back on a track, both tracks are right if
and only if pause and resume alternate, a pause first, and each track has a frame between any two
of them. -/
theorem pause_iff (ops : List Op) (hvideo : (frameTimes (videoOps ops)).Pairwise (· ≤ ·))
    (haudio : (frameTimes (audioOps ops)).Pairwise (· ≤ ·)) :
    (Timed (videoOps ops) (MediaRecorderSink.run ops).video ∧
      Timed (audioOps ops) (MediaRecorderSink.run ops).audio) ↔
    (Spaced false true (videoOps ops) ∧ Spaced false true (audioOps ops)) := by
  obtain ⟨hv, ha⟩ := Track.run_eq ops {}
  have htrack : ∀ ops : List TrackOp, (frameTimes ops).Pairwise (· ≤ ·) →
      (Timed ops (Track.run {} ops) ↔ Spaced false true ops) := by
    intro ops htimes
    constructor
    · intro h
      exact ((Track.asserted_run_iff ops {}).mp h.asserted).2
    · intro h
      -- at the start nothing is encoded, so there is nothing to come after
      have hstart : Track.Below {} ops := by
        intro time _ u hu
        cases hu
      refine ⟨(Track.asserted_run_iff ops {}).mpr ⟨rfl, h⟩, ?_, ?_, ?_⟩
      · rw [Track.deltaTime_run (t := {}) h]
        exact Int.zero_add _
      · rw [Track.captured_run (t := {}) h]
        rfl
      · exact Track.ordered_run (t := {}) h htimes hstart List.Pairwise.nil
  -- the two tracks do not meet, each sees the commands and its own frames
  show Timed _ (ops.foldl MediaRecorderSink.step {}).video ∧
    Timed _ (ops.foldl MediaRecorderSink.step {}).audio ↔ _
  rw [hv, ha]
  exact and_congr (htrack _ hvideo) (htrack _ haudio)

/-- Two pauses with a frame of each track between any two commands. -/
def spacedRecording : List Op :=
  [.videoFrame 0, .audioFrame 0, .pause, .audioFrame 10, .videoFrame 12, .videoFrame 20, .resume,
    .videoFrame 30, .audioFrame 31, .pause, .videoFrame 40, .audioFrame 40, .resume,
    .audioFrame 55, .videoFrame 60]

/-- Its video track was paused from 12 to 30 and from 40 to 60. -/
theorem pause_iff_spacedRecording :
    (MediaRecorderSink.run spacedRecording).video.pause.deltaTime = (30 - 12) + (60 - 40) ∧
      Timed (videoOps spacedRecording) (MediaRecorderSink.run spacedRecording).video ∧
      Timed (audioOps spacedRecording) (MediaRecorderSink.run spacedRecording).audio :=
  ⟨by decide, (pause_iff spacedRecording (by decide) (by decide)).mpr
    ⟨by simp [spacedRecording, videoOps, Spaced], by simp [spacedRecording, audioOps, Spaced]⟩⟩

/-- `pause(); resume();` with no frame in between: the assertion of `Resume` fails. -/
theorem backToBack_not_timed :
    ¬ (∀ ops : List Op, (frameTimes (videoOps ops)).Pairwise (· ≤ ·) →
      (frameTimes (audioOps ops)).Pairwise (· ≤ ·) →
      Timed (videoOps ops) (MediaRecorderSink.run ops).video ∧
        Timed (audioOps ops) (MediaRecorderSink.run ops).audio) := by
  intro h
  have hvideo := (h [.videoFrame 0, .audioFrame 0, .pause, .resume, .videoFrame 10, .audioFrame 10]
    (by decide) (by decide)).1.asserted
  revert hvideo
  decide

end NodeWebkit.MediaRecorder
