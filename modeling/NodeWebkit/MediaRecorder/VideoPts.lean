import NodeWebkit.MediaRecorder.UpdateVideo

/-!
# Video frames come in order — the times of the frames

Each frame is one later than the last, or later still if the capture time asks for it; a frame that
would be more than one ahead of its capture time is dropped.

## The crux

The expected position of a frame is rounded to an integer, and a frame that is in time gets a
position that was not computed from its capture time at all. That its position is nevertheless
within one of the exact one comes from the two comparisons of the code together: the frame is not
behind its rounded position, and it is at most one ahead of the exact one.

## The architecture

* **`near_of_kept`** — a frame that is kept is within one of its exact position;
* **`Ready`** — the invariant: what is encoded is `Timed`, nothing is later than the last position,
  and the start time is that of the first frame;
* **`Scheduled`** — what giving a frame its time comes to, for the first frame
  (`Ready.scheduled_first`) and for a later one (`Ready.scheduled_later`);
* **`Ready.step`** — every operation keeps it;
* **`StepTimed`** — the condition: the first capture time is not the null time, and the positions
  fit an `int`.

`video_pts` is the statement about runs.
-/

namespace NodeWebkit.MediaRecorder.Video

/-- The frame is within one of the position its capture time has after the first frame. -/
def Near (c : Codec) (first : TimeTicks) (e : Encoded) : Prop :=
  |(e.pts : ℚ) - c.timeBase.position (e.time - first)| ≤ 1

namespace Recorder

variable {toInt : ℚ → Int} {scale : Scaler → Picture → Picture} {c : Codec} {s : Recorder}

/-- The frames handed over are in order and each is near its exact position. -/
structure Timed (c : Codec) (s : Recorder) : Prop where
  ordered : s.encoded.Pairwise fun e e' => e.pts < e'.pts
  near : ∀ e ∈ s.encoded, ∀ first, s.firstTime = some first → Near c first e

/-- The condition on a frame: the start time is null for the first one only, and the position of any
other one fits an `int`. -/
def StepTimed (c : Codec) (s : Recorder) : Op → Prop
  | .updateVideo _ time _ => s.Accepts →
    (s.videoStart.isNull = true → s.firstTime = none) ∧
      (s.videoStart.isNull = false →
        FitsInt (truncate (c.timeBase.position (time - s.videoStart) + 1 / 2)))
  | _ => True

/-! ## One frame -/

/-- A frame is only dropped after the first one, and then nothing is changed. -/
theorem schedule_of_dropped {time : TimeTicks} (h : (s.schedule toInt c time).2 = false) :
    s.videoStart.isNull = false ∧ (s.schedule toInt c time).1 = s := by
  rcases schedule_cases toInt c time s with
    ⟨_, heq⟩ | ⟨hstart, ⟨_, heq⟩ | ⟨_, heq⟩ | ⟨_, _, heq⟩⟩
  · rw [heq] at h
    cases h
  · rw [heq] at h
    cases h
  · rw [heq]
    exact ⟨hstart, rfl⟩
  · rw [heq] at h
    cases h

/-- A frame that is kept comes after the one before it and is near its exact position. -/
theorem near_of_kept (htoInt : Truncates toInt) {pts : Int} (hpts : 0 ≤ pts) {d : ℚ}
    (hfits : FitsInt (truncate (d + 1 / 2))) :
    (pts + 1 < toInt (d + 1 / 2) → |((toInt (d + 1 / 2) : Int) : ℚ) - d| ≤ 1) ∧
      (toInt (d + 1 / 2) ≤ pts + 1 → ((pts + 1 : Int) : ℚ) - d ≤ 1 →
        |((pts + 1 : Int) : ℚ) - d| ≤ 1) := by
  have hposQ : (0 : ℚ) ≤ pts := by exact_mod_cast hpts
  rw [htoInt _ hfits]
  constructor
  · intro hbehind
    -- only a position after the start can be ahead of the frame
    have hd : 0 ≤ d := by
      by_contra hneg
      have hlt : d + 1 / 2 < 1 := by linarith
      have hle : truncate (d + 1 / 2) ≤ 0 := by
        unfold truncate
        split
        · exact Int.lt_add_one_iff.mp (Int.floor_lt.mpr (by push_cast; linarith))
        · exact Int.ceil_le.mpr (by push_cast; linarith)
      omega
    obtain ⟨-, hlo, hhi⟩ := truncate_add_half hd
    rw [abs_le]
    constructor <;> linarith
  · intro hnext hearly
    have hd : 0 ≤ d := by
      push_cast at hearly
      linarith
    obtain ⟨-, hlo, -⟩ := truncate_add_half hd
    have hle : ((truncate (d + 1 / 2) : Int) : ℚ) ≤ ((pts + 1 : Int) : ℚ) := by
      exact_mod_cast hnext
    rw [abs_le]
    constructor <;> linarith

/-- What a run keeps under the condition. -/
structure Ready (c : Codec) (s : Recorder) : Prop where
  timed : Timed c s
  last : ∀ e ∈ s.encoded, e.pts ≤ s.pts
  first : s.firstTime = none → s.encoded = []
  started : s.videoStart.isNull = false → s.firstTime = some s.videoStart ∧ 0 ≤ s.pts

/-- The time that a frame is given. -/
structure Scheduled (c : Codec) (time : TimeTicks) (s s' : Recorder) : Prop where
  encoded : s'.encoded = s.encoded
  first : s'.firstTime = some (s.firstTime.getD time)
  later : ∀ e ∈ s.encoded, e.pts < s'.pts
  near : ∀ first, s'.firstTime = some first → |(s'.pts : ℚ) - c.timeBase.position (time - first)| ≤ 1
  started : s'.videoStart.isNull = false → s'.firstTime = some s'.videoStart ∧ 0 ≤ s'.pts

/-- The first frame is at the start: its capture time becomes the start time and its position is
zero, which is the exact position of the start. -/
theorem Ready.scheduled_first {time : TimeTicks} (h : Ready c s) (hnone : s.firstTime = none) :
    Scheduled c time s { s.noted time with
      videoStart := time
      pts := 0 } := by
  have hempty := h.first hnone
  have hnoted : (s.noted time).firstTime = some time := by
    show s.firstTime.or (some time) = _
    rw [hnone]
    rfl
  refine ⟨rfl, ?_, ?_, ?_, ?_⟩
  · rw [hnone]
    exact hnoted
  · rw [hempty]
    intro e he
    cases he
  · intro first hfirst
    have htime : time = first := Option.some.inj (hnoted.symm.trans hfirst)
    rw [← htime, sub_self, position_zero]
    norm_num
  · exact fun _ => ⟨hnoted, Int.le_refl 0⟩

/-- A later frame, ahead of the last one and near its position. The start time is known and stays,
so the frames before it keep the time they are measured from. -/
theorem Ready.scheduled_later {time : TimeTicks} (h : Ready c s)
    (hstart : s.videoStart.isNull = false) {pts : Int} (hlater : s.pts < pts)
    (hnear : |(pts : ℚ) - c.timeBase.position (time - s.videoStart)| ≤ 1) :
    Scheduled c time s { s.noted time with pts := pts } := by
  obtain ⟨hfirst, hpts⟩ := h.started hstart
  -- noting the time again keeps the first one
  have hnoted : (s.noted time).firstTime = some s.videoStart := by
    show s.firstTime.or (some time) = _
    rw [hfirst]
    rfl
  refine ⟨rfl, ?_, ?_, ?_, ?_⟩
  · rw [hfirst]
    exact hnoted
  · intro e he
    have hlast := h.last e he
    show e.pts < pts
    omega
  · intro first hf
    rw [← Option.some.inj (hnoted.symm.trans hf)]
    exact hnear
  · intro _
    refine ⟨hnoted, ?_⟩
    show 0 ≤ pts
    omega

/-- **A frame that is kept has its time.** The cases are those of `schedule_cases`: the start, a
jump ahead to the expected position, or one more than the last position. The dropped frame is
excluded. -/
theorem schedule_scheduled (htoInt : Truncates toInt) {time : TimeTicks} (h : Ready c s)
    (hnull : s.videoStart.isNull = true → s.firstTime = none)
    (hfits : s.videoStart.isNull = false →
      FitsInt (truncate (c.timeBase.position (time - s.videoStart) + 1 / 2)))
    (hkept : ((s.noted time).schedule toInt c time).2 = true) :
    Scheduled c time s ((s.noted time).schedule toInt c time).1 := by
  have hnear : s.videoStart.isNull = false → _ := fun hstart =>
    near_of_kept htoInt (h.started hstart).2 (hfits hstart)
  rcases schedule_cases toInt c time (s.noted time) with
    ⟨hstart, heq⟩ | ⟨hstart, ⟨hbehind, heq⟩ | ⟨_, heq⟩ | ⟨hnext, hearly, heq⟩⟩
  · rw [heq]
    exact h.scheduled_first (hnull hstart)
  · have hlater : s.pts + 1 < c.timeBase.expectedPts toInt (time - s.videoStart) := hbehind
    have hgreater : s.pts < c.timeBase.expectedPts toInt (time - s.videoStart) :=
      (Int.lt_succ s.pts).trans hlater
    rw [heq]
    exact h.scheduled_later hstart hgreater ((hnear hstart).1 hbehind)
  · rw [heq] at hkept
    -- an early frame is not kept
    cases hkept
  · rw [heq]
    exact h.scheduled_later hstart (Int.lt_succ s.pts) ((hnear hstart).2 hnext hearly)

/-- Drawing leaves the times alone, so a frame that has its time may be drawn before it is handed
over. -/
theorem Scheduled.draw {time : TimeTicks} {s' : Recorder} (h : Scheduled c time s s')
    (canvas : Canvas) : Scheduled c time s { s' with canvas := canvas } :=
  ⟨h.encoded, h.first, h.later, h.near, h.started⟩

/-- The frames that were handed over before are near their positions still: the first time, from
which the positions are counted, is only ever set once. -/
theorem Scheduled.near_before {time : TimeTicks} {s' : Recorder} (hs : Scheduled c time s s')
    (h : Ready c s) : ∀ e ∈ s.encoded, ∀ first, s'.firstTime = some first → Near c first e := by
  intro e he first hfirst
  rw [hs.first] at hfirst
  cases hsome : s.firstTime with
  | none =>
    rw [h.first hsome] at he
    cases he
  | some start =>
    rw [hsome] at hfirst
    exact h.timed.near e he first (hsome.trans hfirst)

/-- A frame that needed a scaler and got none. It has taken its time, so the next frame is later
still, but nothing is handed over. -/
theorem Scheduled.ready {time : TimeTicks} {s' : Recorder} (hs : Scheduled c time s s')
    (h : Ready c s) : Ready c s' where
  timed := by
    refine ⟨?_, ?_⟩
    · rw [hs.encoded]
      exact h.timed.ordered
    · rw [hs.encoded]
      exact hs.near_before h
  last := by
    rw [hs.encoded]
    exact fun e he => (hs.later e he).le
  first := by
    intro hnone
    rw [hs.first] at hnone
    cases hnone
  started := hs.started

/-- A frame that is handed over. It is later than all before it, because their positions are at most
the last one, and it is near its own. -/
theorem Scheduled.encode {time : TimeTicks} {s' : Recorder} (hs : Scheduled c time s s')
    (h : Ready c s) (frame : VideoFrame) (drawn : Drawn) :
    Ready c (s'.encode frame time drawn) where
  timed := by
    constructor
    · show (s'.encoded ++ [_]).Pairwise _
      -- the new packet is behind all others
      rw [hs.encoded]
      refine List.pairwise_append.mpr ⟨h.timed.ordered, List.pairwise_singleton .., ?_⟩
      intro e he e' he'
      rw [List.mem_singleton.mp he']
      exact hs.later e he
    · intro e he first hfirst
      have he : e ∈ s'.encoded ++ [_] := he
      rw [hs.encoded] at he
      -- a packet from before, or the new one
      rcases List.mem_append.mp he with hold | hnew
      · exact hs.near_before h e hold first hfirst
      · rw [List.mem_singleton.mp hnew]
        exact hs.near first hfirst
  last := by
    intro e he
    have he : e ∈ s'.encoded ++ [_] := he
    rw [hs.encoded] at he
    rcases List.mem_append.mp he with hold | hnew
    · exact (hs.later e hold).le
    · rw [List.mem_singleton.mp hnew]
      exact Int.le_refl _
  first := by
    intro hnone
    have hnone : s'.firstTime = none := hnone
    rw [hs.first] at hnone
    cases hnone
  started := hs.started

/-- A frame that is dropped leaves its time as it was, so the next frame has the same position to
ask for. -/
theorem pts_of_dropped {frame : VideoFrame} {time : TimeTicks} {scalerOk : Bool}
    (h : (s.updateVideo toInt scale c frame time scalerOk).2 = .dropped) :
    (s.updateVideo toInt scale c frame time scalerOk).1.pts = s.pts := by
  by_cases haccepts : s.Accepts
  case neg => rw [updateVideo_of_not_accepts haccepts]
  rcases updateVideo_cases toInt scale c haccepts frame time scalerOk with
    ⟨hdropped, heq⟩ | ⟨_, canvas, drawn, _, ⟨_, heq⟩ | ⟨_, heq⟩⟩
  · rw [heq]
    show ((s.noted time).schedule toInt c time).1.pts = s.pts
    rw [(schedule_of_dropped hdropped).2]
    rfl
  · rw [heq] at h
    cases h
  · rw [heq] at h
    cases h

/-- **Every operation keeps the invariant.** A frame that the recorder does not accept changes
nothing; of the others the dropped ones change no time, those without a scaler take their time, and
the rest are handed over. -/
theorem Ready.step (htoInt : Truncates toInt) (h : Ready c s) {op : Op} (hok : s.StepTimed c op) :
    Ready c (s.step toInt scale c op) := by
  cases op with
  | initFile => exact ⟨⟨h.timed.ordered, h.timed.near⟩, h.last, h.first, h.started⟩
  | updateVideo frame time scalerOk =>
    show Ready c (s.updateVideo toInt scale c frame time scalerOk).1
    by_cases haccepts : s.Accepts
    case neg =>
      rw [updateVideo_of_not_accepts haccepts]
      exact h
    obtain ⟨hnull, hfits⟩ := hok haccepts
    rcases updateVideo_cases toInt scale c haccepts frame time scalerOk with
      ⟨hdropped, heq⟩ | ⟨hkept, canvas, drawn, _, hend⟩
    · -- dropped: the start is known, so the first capture time is on record already
      obtain ⟨hstart, hs⟩ := schedule_of_dropped hdropped
      have hfirst := (h.started hstart).1
      have hsame : s.noted time = s := by
        unfold noted
        have hor : s.firstTime.or (some time) = s.firstTime := by
          rw [hfirst]
          rfl
        rw [hor]
      rw [heq]
      show Ready c ((s.noted time).schedule toInt c time).1
      rw [hs, hsame]
      exact h
    · have hscheduled := schedule_scheduled htoInt h hnull hfits hkept
      have hdrawn := hscheduled.draw canvas
      rcases hend with ⟨_, heq⟩ | ⟨_, heq⟩
      · rw [heq]
        exact hdrawn.ready h
      · rw [heq]
        exact hdrawn.encode h frame drawn

/-- **Video frames come in order and on time.** For every sequence of frames and capture times,
every source and every scaler: in every run whose steps meet the condition the frames handed over
are strictly later one by one and each is within one of its exact position; and a frame that is
dropped leaves the time as it was, in any state. -/
theorem video_pts {toInt : ℚ → Int} (htoInt : Truncates toInt)
    (scale : Scaler → Picture → Picture) (c : Codec) (haveVideo : Bool) (data : Picture)
    (ops : List Op) (t : Recorder) :
    (Lts.Run (Lts.Guarded (StepTimed c) (Lts.ofFn (step toInt scale c)))
        (initVideo haveVideo data) ops t → Timed c t) ∧
      ∀ (s : Recorder) (frame : VideoFrame) (time : TimeTicks) (scalerOk : Bool),
        (s.updateVideo toInt scale c frame time scalerOk).2 = .dropped →
        (s.updateVideo toInt scale c frame time scalerOk).1.pts = s.pts := by
  constructor
  · intro hrun
    have hstart : Ready c (initVideo haveVideo data) :=
      ⟨⟨List.Pairwise.nil, fun _ he => (List.not_mem_nil he).elim⟩,
        fun _ he => (List.not_mem_nil he).elim, fun _ => rfl, fun hnull => Bool.noConfusion hnull⟩
    have hready := hrun.invariant (I := Ready c)
      (fun s op t hs hst => by
        obtain ⟨hok, heq⟩ := hst
        rw [← heq]
        exact Ready.step htoInt hs hok) hstart
    exact hready.timed
  · intro s frame time scalerOk
    exact pts_of_dropped

/-- Thirty frames a second of 64 by 48 pixels with halved chroma. -/
def thirtyFps : Codec where
  size := ⟨64, 48⟩
  pixFmt := 0
  timeBase := ⟨1, 30⟩
  desc :=
    { shifts := ⟨1, 1⟩
      components := 3
      planar := true
      rgb := false }

/-- A grey frame of this size. -/
def greyFrame : VideoFrame := ⟨⟨64, 48⟩, 0, fun _ _ _ => 128⟩

/-- Frames at the given times, for a recorder that is ready. -/
def framesAt (times : List TimeTicks) : List Op :=
  .initFile :: times.map fun time => .updateVideo greyFrame time true

/-- Two frames a tenth of a second apart at thirty frames a second: positions 0 and 3, as the second
frame jumps ahead to where its capture time puts it. -/
theorem video_pts_twoFrames :
    ∃ t, Timed thirtyFps t ∧ t.encoded.map Encoded.pts = [0, 3] := by
  have hrun : Lts.Run
      (Lts.Guarded (StepTimed thirtyFps)
        (Lts.ofFn (step truncate (fun _ picture => picture) thirtyFps)))
      (initVideo true (fun _ _ _ => 0)) (framesAt [1000000, 1100000]) _ :=
    .cons ⟨trivial, rfl⟩ (.cons ⟨fun _ => ⟨fun _ => rfl, fun h => Bool.noConfusion h⟩, rfl⟩
      (.cons ⟨fun _ => ⟨fun h => Bool.noConfusion h, fun _ => by decide +kernel⟩, rfl⟩ (.nil _)))
  exact ⟨_, (video_pts (fun _ _ => rfl) _ thirtyFps true _ _ _).1 hrun, by decide +kernel⟩

/-- The first capture time is the null time: the second frame is taken for the first one, too. -/
theorem nullTime_not_timed :
    ∃ t, Lts.Run (Lts.ofFn (step truncate (fun _ picture => picture) thirtyFps))
        (initVideo true (fun _ _ _ => 0)) (framesAt [0, 40000]) t ∧ ¬ Timed thirtyFps t := by
  refine ⟨_, .cons rfl (.cons rfl (.cons rfl (.nil _))), ?_⟩
  intro h
  have hordered := h.ordered
  revert hordered
  decide +kernel

end Recorder

end NodeWebkit.MediaRecorder.Video
