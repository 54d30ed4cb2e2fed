import NodeWebkit.Lib.Stopwatch
import NodeWebkit.MediaRecorder.AudioSamples
import NodeWebkit.MediaRecorder.Pause
import NodeWebkit.MediaRecorder.VideoPts

/-!
# The reel of a recording — the sink in front of its encoder

`OnVideoFrame` and `OnData` ask the `MediaPause` of their track first and hand on what is left with
its time set back. Here they run in front of the two halves of the encoder, `UpdateVideo` and
`UpdateAudio`.

## The two levels

* **`Sink`** — the code: the two pauses of a sink and the two halves of its encoder;
* **`Reel`** — what a recording is: a stopwatch per track, the frames and buses that came while it
  was running, and what it showed when a frame came. It has no encoder, no latched times and no
  positions.

## How they are tied

* **`Shows`** — a `MediaPause` is such a stopwatch: a capture time set back is what the watch shows;
* **`Video.Recorder.Taken`** — what a call of `UpdateVideo` does with a frame;
* **`Encodes`** — how far the video half is along the reel. A frame may be dropped because it comes
  too early for its position, so what is encoded is a sublist of what was shot, and every shot that
  is missing lies within a position of one that is there.
-/

namespace NodeWebkit.MediaRecorder

open Stopwatch (Watch)
open Video (Codec VideoFrame Picture Scaler)

/-! ## The source -/

/-- The sink when both streams are open, with the two halves of its encoder. -/
structure Sink (fmt : Audio.SampleFormat) (params : Audio.AudioParameters) where
  videoPause : MediaPause := {}
  audioPause : MediaPause := {}
  video : Video.Recorder
  audio : Audio.Recorder fmt params

namespace Sink

variable {fmt : Audio.SampleFormat} {params : Audio.AudioParameters}

inductive Op where
  | pause
  | resume
  /-- `InitFile`. -/
  | initFile
  | onVideoFrame (frame : VideoFrame) (time : TimeTicks) (scalerOk : Bool)
  | onData (bus : Audio.AudioBus) (time : TimeTicks) (delay : Nat) (calls : List Audio.Answers)

def doPause (self : Sink fmt params) : Sink fmt params :=
  { self with
    videoPause := self.videoPause.doPause.2
    audioPause := self.audioPause.doPause.2 }

def doResume (self : Sink fmt params) : Sink fmt params :=
  { self with
    videoPause := self.videoPause.doResume.2
    audioPause := self.audioPause.doResume.2 }

section

variable (toInt : ℚ → Int) (scale : Scaler → Picture → Picture) (c : Codec)
  (resample : Audio.Resampler fmt params)

/-- `UpdateVideo`, with what the audio sees of it. -/
def updateVideo (frame : VideoFrame) (time : TimeTicks) (scalerOk : Bool)
    (self : Sink fmt params) : Option (Sink fmt params) :=
  (self.audio.step toInt resample (.updateVideo time)).map fun audio =>
    { self with
      video := (self.video.updateVideo toInt scale c frame time scalerOk).1
      audio := audio }

def onVideoFrame (frame : VideoFrame) (time : TimeTicks) (scalerOk : Bool)
    (self : Sink fmt params) : Option (Sink fmt params) :=
  let (paused, pause) := self.videoPause.isPaused time
  let self := { self with videoPause := pause }
  if paused then some self
  else self.updateVideo toInt scale c resample frame (time - pause.deltaTime) scalerOk

def onData (bus : Audio.AudioBus) (time : TimeTicks) (delay : Nat) (calls : List Audio.Answers)
    (self : Sink fmt params) : Option (Sink fmt params) :=
  let (paused, pause) := self.audioPause.isPaused time
  let self := { self with audioPause := pause }
  if paused then some self
  else
    (self.audio.updateAudio toInt resample bus (time - pause.deltaTime) delay calls).map
      fun audio => { self with audio := audio }

def step (self : Sink fmt params) : Op → Option (Sink fmt params)
  | .pause => some self.doPause
  | .resume => some self.doResume
  | .initFile =>
    (self.audio.step toInt resample .initFile).map fun audio =>
      { self with
        video := self.video.step toInt scale c .initFile
        audio := audio }
  | .onVideoFrame frame time scalerOk =>
    self.onVideoFrame toInt scale c resample frame time scalerOk
  | .onData bus time delay calls => self.onData toInt resample bus time delay calls

end

/-- The sink after `InitVideo` and `InitAudio`. -/
def init (fmt : Audio.SampleFormat) (params : Audio.AudioParameters) (nbSamples sampleRate : Nat)
    (audioOnly : Bool) (forceSync : Int) (data : Picture) : Sink fmt params where
  video := .initVideo (!audioOnly) data
  audio := .initAudio fmt params nbSamples sampleRate (!audioOnly) audioOnly forceSync

end Sink

open Sink (Op)

/-! ## The reel -/

/-- A frame with what the stopwatch of the video showed when it came. -/
structure Shot where
  frame : VideoFrame
  time : Int

/-- What is recorded: the shots and the buses that come while their watch is running, once there is
a file; with video, the sound starts after the first shot. -/
structure Reel where
  audioOnly : Bool
  ready : Bool := false
  videoWatch : Watch Int := .fresh
  audioWatch : Watch Int := .fresh
  shots : List Shot := []
  buses : List Audio.AudioBus := []

namespace Reel

def setRunning (running : Bool) (self : Reel) : Reel :=
  { self with
    videoWatch := self.videoWatch.setRunning running
    audioWatch := self.audioWatch.setRunning running }

def shoot (frame : VideoFrame) (time : Int) (self : Reel) : Reel :=
  let watch := self.videoWatch.tick time
  { self with
    videoWatch := watch
    shots :=
      if watch.running && self.ready && !self.audioOnly then self.shots ++ [⟨frame, watch.value⟩]
      else self.shots }

def hear (bus : Audio.AudioBus) (time : Int) (self : Reel) : Reel :=
  let watch := self.audioWatch.tick time
  { self with
    audioWatch := watch
    buses :=
      if watch.running && self.ready && (self.audioOnly || !self.shots.isEmpty) then
        self.buses ++ [bus]
      else self.buses }

def step (self : Reel) : Op → Reel
  | .pause => self.setRunning false
  | .resume => self.setRunning true
  | .initFile => { self with ready := true }
  | .onVideoFrame frame time _ => self.shoot frame time
  | .onData bus time _ _ => self.hear bus time

/-- The reel of a sequence of calls. -/
def run (audioOnly : Bool) (ops : List Op) : Reel := ops.foldl step { audioOnly := audioOnly }

/-- What the watch showed at the first shot. -/
def start (self : Reel) : Int := (self.shots.head?.map Shot.time).getD 0

end Reel

/-- The capture times of the video frames, in their order. -/
def videoTimes : List Op → List Int
  | [] => []
  | .onVideoFrame _ time _ :: ops => time :: videoTimes ops
  | _ :: ops => videoTimes ops

/-! ## A pause is a stopwatch -/

/-- `isPaused` latches the mark and answers whether the track is paused. The answer is read off the
mark that was there before, which latching does not change in this respect. -/
theorem MediaPause.isPaused_eq (m : MediaPause) (time : Int) :
    m.isPaused time = (m.pause_.isPause, m.latch time) := by
  obtain ⟨delta, start, st⟩ := m
  cases st with
  | active => rfl
  | pause => rfl
  | paused => rfl
  | resume => rfl

/-- The watch of a track is where its `MediaPause` says: a capture time set back by the delta is
what the watch shows, counted from the first frame; inside a pause it stands where it stood at the
first frame of the pause. -/
structure Shows (base : Int) (m : MediaPause) (w : Watch Int) : Prop where
  running : w.running = !m.pause_.isPause
  counting : w.counting = (m.pause_ == .active || m.pause_ == .pause)
  fresh : w.last = none → m.deltaTime = 0 ∧ w.counting = true
  told : ∀ last, w.last = some last →
    base + w.value + m.deltaTime = if w.counting then last else m.pauseTime

namespace Shows

variable {base time : Int} {m : MediaPause} {w : Watch Int}

/-- A new pause shows what a fresh watch shows: nothing is counted, no frame has come. -/
theorem init (base : Int) : Shows base {} .fresh where
  running := rfl
  counting := rfl
  fresh := fun _ => ⟨rfl, rfl⟩
  told := by
    intro last hlast
    cases hlast

/-- `Pause` stops the watch. The mark says that the pause begins with the next frame, so the watch
goes on counting until then. -/
theorem doPause (h : Shows base m w) (hactive : m.pause_ = .active) :
    Shows base m.doPause.2 (w.setRunning false) where
  running := rfl
  counting := by
    show w.counting = true
    rw [h.counting, hactive]
    rfl
  fresh := h.fresh
  told := h.told

/-- `Resume` starts the watch, which counts again from the next frame on; the pause ends when that
frame latches its mark. -/
theorem doResume (h : Shows base m w) (hpaused : m.pause_ = .paused) :
    Shows base m.doResume.2 (w.setRunning true) where
  running := rfl
  counting := by
    show w.counting = false
    rw [h.counting, hpaused]
    rfl
  fresh := h.fresh
  told := h.told

/-- A frame latches the pause and ticks the watch. What the pause adds to its `deltaTime` when it
ends is the time during which the watch did not count, and the two together are the capture time. -/
theorem tick (h : Shows base m w) (hw : Watch.Within base w)
    (hbase : w.last = none → time = base) : Shows base (m.latch time) (w.tick time) := by
  obtain ⟨delta, start, st⟩ := m
  have hrunning := h.running
  have hcounting := h.counting
  have hvalue : base + (w.tick time).value + delta = if w.counting then time else start := by
    cases hlast : w.last with
    | none =>
      obtain ⟨hdelta, hcounts⟩ := h.fresh hlast
      have hzero := hw.first hlast
      have hstart := hbase hlast
      have hdelta : delta = 0 := hdelta
      rw [Watch.tick_first hlast, hcounts, if_pos rfl]
      omega
    | some last =>
      have htold : base + w.value + delta = if w.counting then last else start := h.told last hlast
      rw [Watch.tick_later hlast]
      cases hcounts : w.counting with
      | true =>
        rw [hcounts, if_pos rfl] at htold
        rw [if_pos rfl, if_pos rfl]
        omega
      | false =>
        rw [hcounts, if_neg Bool.false_ne_true] at htold
        rw [if_neg Bool.false_ne_true, if_neg Bool.false_ne_true]
        omega
  refine ⟨?_, ?_, ?_, ?_⟩
  · show w.running = _
    rw [(Track.latch_state _ time).1]
    exact hrunning
  · show w.running = _
    rw [hrunning]
    cases st <;> rfl
  · intro hnone
    cases hnone
  · intro last hlast
    cases hlast
    rw [hcounting] at hvalue
    show _ = if w.running then time else _
    rw [hrunning]
    cases st with
    | active => exact hvalue
    | pause => exact hvalue
    | paused => exact hvalue
    | resume =>
      -- the delta grows by the length of the pause, which ends here
      have hvalue : base + (w.tick time).value + delta = start := hvalue
      show base + (w.tick time).value + (delta + (time - start)) = time
      omega

/-- The time that is handed on is what the watch shows: the capture time without the pauses is the
time that was counted. -/
theorem read (h : Shows base m w) (hlast : w.last = some time) (hcounts : w.counting = true) :
    time - m.deltaTime = base + w.value := by
  have htold := h.told time hlast
  rw [hcounts, if_pos rfl] at htold
  omega

end Shows

/-! ## What a call of UpdateVideo does -/

theorem TimeBase.position_le (base : TimeBase) {dt dt' : Int} (h : dt ≤ dt') :
    base.position dt ≤ base.position dt' := by
  have hcast : (dt : ℚ) ≤ dt' := by exact_mod_cast h
  unfold TimeBase.position
  gcongr

/-- A position that is not negative is rounded down, so a later one that fits keeps it in range. -/
theorem fitsInt_of_le {q q' : ℚ} (hq : 0 ≤ q) (hle : q ≤ q')
    (h : FitsInt (truncate (q' + 1 / 2))) : FitsInt (truncate (q + 1 / 2)) := by
  have hpos : (0 : ℚ) ≤ q + 1 / 2 := by linarith
  have hpos' : (0 : ℚ) ≤ q' + 1 / 2 := by linarith
  rw [truncate, if_pos hpos'] at h
  rw [truncate, if_pos hpos]
  have hnonneg : 0 ≤ ⌊q + 1 / 2⌋ := Int.floor_nonneg.mpr hpos
  have hmono : ⌊q + 1 / 2⌋ ≤ ⌊q' + 1 / 2⌋ := Int.floor_le_floor (by linarith)
  obtain ⟨-, hlt⟩ := h
  constructor
  · exact le_trans (by decide) hnonneg
  · omega

namespace Video

/-- With a scaler at hand every frame is drawn. The scaler is missing only where FFmpeg had no
memory for it, which the operations here leave out. -/
theorem Canvas.draw_ne_noScaler (scale : Scaler → Picture → Picture) (c : Codec)
    (frame : VideoFrame) (canvas : Canvas) : (canvas.draw scale c frame true).2 ≠ .noScaler := by
  unfold Canvas.draw
  split
  · dsimp only
    split
    · exact Drawn.noConfusion
    · rw [if_pos rfl]
      exact Drawn.noConfusion
  · exact Drawn.noConfusion

namespace Recorder

/-- The frame is handed over with the time of the recorder, or dropped because the frame before it
is ahead of its position. -/
structure Taken (c : Codec) (frame : VideoFrame) (time : TimeTicks) (s t : Recorder) : Prop where
  haveVideo : t.haveVideo = s.haveVideo
  fileReady : t.fileReady = s.fileReady
  firstTime : t.firstTime = some (s.firstTime.getD time)
  videoStart : t.videoStart = if s.videoStart.isNull then time else s.videoStart
  encoded :
    (∃ e, t.encoded = s.encoded ++ [e] ∧ e.src = frame.size ∧ e.srcFormat = frame.format ∧
      e.time = time ∧ e.pts = t.pts) ∨
    (s.videoStart.isNull = false ∧ t.encoded = s.encoded ∧ t.pts = s.pts ∧
      c.timeBase.position (time - s.videoStart) < s.pts)

/-- Giving a frame its time changes the start and the time of the frame only. -/
theorem schedule_start (toInt : ℚ → Int) (c : Codec) (time : TimeTicks) (s : Recorder) :
    (s.schedule toInt c time).1.haveVideo = s.haveVideo ∧
      (s.schedule toInt c time).1.fileReady = s.fileReady ∧
      (s.schedule toInt c time).1.firstTime = s.firstTime ∧
      (s.schedule toInt c time).1.videoStart =
        if s.videoStart.isNull then time else s.videoStart := by
  rcases schedule_cases toInt c time s with
    ⟨hnull, heq⟩ | ⟨hnull, ⟨_, heq⟩ | ⟨_, heq⟩ | ⟨_, _, heq⟩⟩ <;>
    rw [heq, hnull] <;> exact ⟨rfl, rfl, rfl, rfl⟩

/-- The first time is that of the first frame, later frames do not change it. -/
theorem noted_firstTime (time : TimeTicks) (s : Recorder) :
    (s.noted time).firstTime = some (s.firstTime.getD time) := by
  show s.firstTime.or (some time) = _
  cases s.firstTime <;> rfl

/-- **What a call of `UpdateVideo` does with a frame**: it is encoded at the position of its time,
or it is dropped because the position after the last one is still more than one ahead. The cases are
those of `schedule`, and the two that cannot occur with a scaler are closed first. -/
theorem updateVideo_taken (toInt : ℚ → Int) (scale : Scaler → Picture → Picture) (c : Codec)
    {s : Recorder} (h : s.Accepts) (frame : VideoFrame) (time : TimeTicks) :
    Taken c frame time s (s.updateVideo toInt scale c frame time true).1 := by
  obtain ⟨hhave, hready, hfirst, hstart⟩ := schedule_start toInt c time (s.noted time)
  rw [noted_firstTime] at hfirst
  obtain ⟨-, hencoded⟩ := schedule_kept toInt c time (s.noted time)
  rcases updateVideo_cases toInt scale c h frame time true with
    ⟨hdropped, heq⟩ | ⟨_, canvas, drawn, hdraw, ⟨hnone, _⟩ | ⟨_, heq⟩⟩
  · rw [heq]
    refine ⟨hhave, hready, hfirst, hstart, Or.inr ?_⟩
    -- only an early frame is dropped
    rcases schedule_cases toInt c time (s.noted time) with
      ⟨_, hs⟩ | ⟨hnull, ⟨_, hs⟩ | ⟨hearly, hs⟩ | ⟨_, _, hs⟩⟩
    · rw [hs] at hdropped
      cases hdropped
    · rw [hs] at hdropped
      cases hdropped
    · rw [hs]
      refine ⟨hnull, rfl, rfl, ?_⟩
      have hearly : ((s.pts + 1 : Int) : ℚ) - c.timeBase.position (time - s.videoStart) > 1 :=
        hearly
      push_cast at hearly
      linarith
    · rw [hs] at hdropped
      cases hdropped
  · -- a scaler is at hand
    have hdrawn := Canvas.draw_ne_noScaler scale c frame
      ((s.noted time).schedule toInt c time).1.canvas
    rw [hdraw, hnone] at hdrawn
    exact absurd rfl hdrawn
  · rw [heq]
    refine ⟨hhave, hready, hfirst, hstart, Or.inl ?_⟩
    refine ⟨⟨frame.size, frame.format, time, drawn,
      ((s.noted time).schedule toInt c time).1.pts, canvas.data⟩, ?_, rfl, rfl, rfl, rfl⟩
    show _ ++ [_] = _
    rw [hencoded]
    rfl

end Recorder

end Video

/-! ## How far the recorder is along the reel -/

/-- What is encoded of a shot: its picture's size and format, and its time on the watch. -/
structure Takes (base : Int) (shot : Shot) (e : Video.Encoded) : Prop where
  size : e.src = shot.frame.size
  format : e.srcFormat = shot.frame.format
  time : e.time = base + shot.time

/-- The encoder is given some of the shots, in their order, and each shot is within one position of
a frame that was handed over. -/
structure Encodes (c : Codec) (base : Int) (v : Video.Recorder) (shots : List Shot) (now : Int) :
    Prop where
  ready : Video.Recorder.Ready c v
  started : v.videoStart.isNull = shots.isEmpty
  first : v.firstTime = shots.head?.map fun shot => base + shot.time
  inTime : ∀ shot ∈ shots, 0 ≤ shot.time ∧ shot.time ≤ now
  shown : ∃ taken, taken.Sublist shots ∧ List.Forall₂ (Takes base) taken v.encoded
  last : shots ≠ [] →
    ∃ e ∈ v.encoded, e.pts = v.pts ∧ e.time ≤ base + now
  covered : ∀ first, v.firstTime = some first → ∀ shot ∈ shots, ∃ e ∈ v.encoded,
    |(e.pts : ℚ) - c.timeBase.position (base + shot.time - first)| ≤ 1

namespace Encodes

variable {c : Codec} {base now : Int} {v t : Video.Recorder} {shots : List Shot}

/-- While nothing is shot the watch may go on. The clauses about the reel are bounds by what the
watch shows, and these only become weaker. -/
theorem later (h : Encodes c base v shots now) {now' : Int} (hle : now ≤ now') :
    Encodes c base v shots now' where
  ready := h.ready
  started := h.started
  first := h.first
  inTime := fun shot hshot => ⟨(h.inTime shot hshot).1, (h.inTime shot hshot).2.trans hle⟩
  shown := h.shown
  last := by
    intro hne
    obtain ⟨e, he, hpts, htime⟩ := h.last hne
    exact ⟨e, he, hpts, htime.trans (Int.add_le_add_left hle base)⟩
  covered := h.covered

/-- The first capture time is that of the first shot, and it is on record once there is one. -/
theorem first_of_started (h : Encodes c base v shots now) (hstart : v.videoStart.isNull = false) :
    shots ≠ [] ∧ v.firstTime = some v.videoStart := by
  rw [h.started] at hstart
  refine ⟨by simpa using hstart, ?_⟩
  rw [← h.started] at hstart
  exact (h.ready.started hstart).1

/-- A frame that comes while the watch shows `now'` meets the condition of the encoder. -/
theorem stepTimed (h : Encodes c base v shots now) {now' time : Int} (hle : now ≤ now')
    (helapsed : now' ≤ time - base)
    (hfits : FitsInt (truncate (c.timeBase.position (time - base) + 1 / 2)))
    (frame : VideoFrame) (scalerOk : Bool) :
    v.StepTimed c (.updateVideo frame (base + now') scalerOk) := by
  intro _
  constructor
  · intro hnull
    rw [h.started, List.isEmpty_iff] at hnull
    rw [h.first, hnull]
    rfl
  · intro hstart
    -- the video started with the first shot, and not before the first tick
    obtain ⟨-, hfirst⟩ := h.first_of_started hstart
    rw [h.first] at hfirst
    obtain ⟨shot, hhead, hshot⟩ := Option.map_eq_some_iff.mp hfirst
    obtain ⟨hnonneg, hshown⟩ := h.inTime shot (List.mem_of_mem_head? hhead)
    rw [← hshot]
    have hstarted : c.timeBase.position 0 ≤
        c.timeBase.position (base + now' - (base + shot.time)) := c.timeBase.position_le (by omega)
    rw [position_zero] at hstarted
    exact fitsInt_of_le hstarted (c.timeBase.position_le (by omega)) hfits

/-- The frame that was handed over last stands for a frame that is dropped. -/
theorem covered_dropped (h : Encodes c base v shots now) {time : Int}
    (hnow : base + now ≤ time) (hstart : v.videoStart.isNull = false)
    (hearly : c.timeBase.position (time - v.videoStart) < v.pts) :
    ∃ e ∈ v.encoded, |(e.pts : ℚ) - c.timeBase.position (time - v.videoStart)| ≤ 1 := by
  obtain ⟨hne, hfirst⟩ := h.first_of_started hstart
  obtain ⟨e, he, hpts, htime⟩ := h.last hne
  refine ⟨e, he, ?_⟩
  have hnear : |(e.pts : ℚ) - c.timeBase.position (e.time - v.videoStart)| ≤ 1 :=
    h.ready.timed.near e he _ hfirst
  have hmono : c.timeBase.position (e.time - v.videoStart) ≤
      c.timeBase.position (time - v.videoStart) :=
    c.timeBase.position_le (Int.sub_le_sub_right (htime.trans hnow) v.videoStart)
  rw [← hpts] at hearly
  rw [abs_le] at hnear ⊢
  constructor <;> linarith [hnear.1, hnear.2]

/-- **A shot is taken.** The frame is put at the end of the reel. If the encoder takes it, it is
also the last of those that are encoded, and its position is in time; if the encoder drops it, the
frame encoded before covers it. -/
theorem shoot (h : Encodes c base v shots now) {frame : VideoFrame} {now' : Int}
    (hbase : 0 < base) (hnow : 0 ≤ now) (hle : now ≤ now')
    (ht : Video.Recorder.Taken c frame (base + now') v t) (hready : Video.Recorder.Ready c t) :
    Encodes c base t (shots ++ [⟨frame, now'⟩]) now' := by
  have hnull : TimeTicks.isNull (base + now') = false := by
    show (base + now' == 0) = false
    rw [beq_eq_false_iff_ne]
    omega
  have hfirst : t.firstTime =
      (shots ++ [⟨frame, now'⟩] : List Shot).head?.map fun shot => base + shot.time := by
    rw [ht.firstTime, h.first]
    cases shots <;> rfl
  refine ⟨hready, ?_, hfirst, ?_, ?_, ?_, ?_⟩
  · rw [ht.videoStart]
    have hempty : (shots ++ [⟨frame, now'⟩] : List Shot).isEmpty = false := by simp
    rw [hempty]
    split
    · exact hnull
    next hstart => simpa using hstart
  · intro shot hshot
    rcases List.mem_append.mp hshot with hold | hnew
    · exact ⟨(h.inTime shot hold).1, (h.inTime shot hold).2.trans hle⟩
    · rw [List.mem_singleton.mp hnew]
      exact ⟨hnow.trans hle, le_refl now'⟩
  · obtain ⟨taken, hsub, htaken⟩ := h.shown
    -- the frame was encoded, or dropped as too early
    rcases ht.encoded with ⟨e, he, hsize, hformat, htime, _⟩ | ⟨_, he, _⟩
    · rw [he]
      exact ⟨taken ++ [⟨frame, now'⟩], hsub.append (List.Sublist.refl _),
        List.rel_append htaken (.cons ⟨hsize, hformat, htime⟩ .nil)⟩
    · rw [he]
      exact ⟨taken, hsub.trans (List.sublist_append_left ..), htaken⟩
  · intro _
    rcases ht.encoded with ⟨e, he, _, _, htime, hpts⟩ | ⟨hstart, he, hpts, _⟩
    · exact ⟨e, by rw [he]; exact List.mem_append_right _ (List.mem_singleton.mpr rfl), hpts,
        htime.le⟩
    · obtain ⟨e, hmem, hlast, htime⟩ := h.last (h.first_of_started hstart).1
      exact ⟨e, by rwa [he], hlast.trans hpts.symm,
        htime.trans (Int.add_le_add_left hle base)⟩
  · intro first hf shot hshot
    -- what was encoded stays
    have hkept : ∀ e ∈ v.encoded, e ∈ t.encoded := by
      intro e hmem
      rcases ht.encoded with ⟨_, he, _⟩ | ⟨_, he, _⟩
      · rw [he]
        exact List.mem_append_left _ hmem
      · rwa [he]
    rcases List.mem_append.mp hshot with hold | hnew
    · -- an earlier shot: the first capture time was on record
      have hsame : v.firstTime = some first := by
        rw [ht.firstTime] at hf
        cases hv : v.firstTime with
        | some start =>
          rw [hv] at hf
          exact hf
        | none =>
          rw [h.first] at hv
          cases shots with
          | nil => cases hold
          | cons => cases hv
      obtain ⟨e, hmem, hnear⟩ := h.covered first hsame shot hold
      exact ⟨e, hkept e hmem, hnear⟩
    · rw [List.mem_singleton.mp hnew]
      show ∃ e ∈ t.encoded, |(e.pts : ℚ) - c.timeBase.position (base + now' - first)| ≤ 1
      rcases ht.encoded with ⟨e, he, _, _, htime, _⟩ | ⟨hstart, _, _, hearly⟩
      · have hmem : e ∈ t.encoded := by
          rw [he]
          exact List.mem_append_right _ (List.mem_singleton.mpr rfl)
        have hnear := hready.timed.near e hmem first hf
        rw [Video.Near, htime] at hnear
        exact ⟨e, hmem, hnear⟩
      · obtain ⟨e, hmem, hnear⟩ := h.covered_dropped (by omega) hstart hearly
        have hstarted := (h.first_of_started hstart).2
        rw [ht.firstTime, hstarted] at hf
        rw [← Option.some.inj hf]
        exact ⟨e, hkept e hmem, hnear⟩

end Encodes

end NodeWebkit.MediaRecorder
