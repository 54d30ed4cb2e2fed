import NodeWebkit.Lib.Run
import NodeWebkit.MediaRecorder.Reel

/-!
# The playing time of a paused recording

The sink and its reel run side by side: pauses stop the watches, and what is encoded is on the reel.
The sink is the code, with its two `MediaPause`s and its encoder; the reel says what a recording is
meant to be.

## The invariant

* **`Agrees`** — sink and reel are in the same mode, and the two halves of the encoder know the same
  about the start of the video;
* **`Hears`** — the resampler is given the buses of the reel;
* **`Follows`** — the invariant: the halves agree, the watch of the video shows the time that is
  handed on, and both halves are as far along the reel as they should be;
* **`Ahead`** — the capture times to come. `Follows` says nothing about the future, but the position
  of the next frame has to fit an `int`, so the two go through a run together.

## The result

* **`Plays`** — what a recording owes to its reel;
* **`Timely`** — the condition on the capture times, and `Sink.StepOk` that on the steps.

`playing_time` is the statement about runs.
-/

namespace NodeWebkit.MediaRecorder

open Stopwatch (Watch)
open Video (Codec VideoFrame Picture Scaler)
open Sink (Op)

/-! ## The invariant -/

variable {fmt : Audio.SampleFormat} {params : Audio.AudioParameters}

/-- The resampler is given the buses of the reel, every sample once and in its place. -/
structure Hears (resample : Audio.Resampler fmt params) (a : Audio.Recorder fmt params)
    (buses : List Audio.AudioBus) : Prop where
  heard : a.heard =
    buses.flatMap fun bus => Audio.samplesOf params.floatPlanar bus.channel bus.frames
  shape : ∃ nbSamples, Audio.Recorder.Shape nbSamples a
  inv : Audio.Recorder.Inv resample a

/-- Only the stream and what was heard matter to the audio half, so a step that changes the flags or
the start time of the video keeps what it has been given. -/
theorem Hears.congr {resample : Audio.Resampler fmt params} {a t : Audio.Recorder fmt params}
    {buses : List Audio.AudioBus} (h : Hears resample a buses) (hst : t.audioSt = a.audioSt)
    (hheard : t.heard = a.heard) : Hears resample t buses := by
  obtain ⟨nbSamples, hnb, hsize, hline⟩ := h.shape
  refine ⟨hheard.trans h.heard, ⟨nbSamples, ?_, ?_, ?_⟩, ⟨?_, ?_, ?_, ?_⟩⟩ <;> rw [hst]
  · exact hnb
  · exact hsize
  · exact hline
  · exact h.inv.conserved
  · exact h.inv.room
  · rw [hheard]
    exact h.inv.input
  · exact h.inv.inBounds

/-- The sink and the reel are in the same mode, and the two halves of the encoder agree on when the
video started. -/
structure Agrees (s : Sink fmt params) (r : Reel) : Prop where
  videoHave : s.video.haveVideo = !r.audioOnly
  audioHave : s.audio.haveVideo = !r.audioOnly
  audioOnly : s.audio.audioOnly = r.audioOnly
  videoReady : s.video.fileReady = r.ready
  audioReady : s.audio.fileReady = r.ready
  videoStart : s.audio.videoStart = s.video.videoStart
  videoRunning : r.videoWatch.running = !s.videoPause.pause_.isPause
  audioRunning : r.audioWatch.running = !s.audioPause.pause_.isPause

/-- **The invariant.** -/
structure Follows (c : Codec) (resample : Audio.Resampler fmt params) (base : Int)
    (s : Sink fmt params) (r : Reel) : Prop where
  agrees : Agrees s r
  shows : r.audioOnly = false → Shows base s.videoPause r.videoWatch
  within : Watch.Within base r.videoWatch
  encodes : Encodes c base s.video r.shots r.videoWatch.value
  hears : Hears resample s.audio r.buses

/-- The capture times to come: they do not go back, the first of all of them is `base`, and the
positions after it fit an `int`. -/
structure Ahead (c : Codec) (base : Int) (w : Watch Int) (times : List Int) : Prop where
  ordered : times.Pairwise (· ≤ ·)
  after : ∀ last, w.last = some last → ∀ time ∈ times, last ≤ time
  first : w.last = none → ∀ time ∈ times.head?, time = base
  fits : ∀ time ∈ times, FitsInt (truncate (c.timeBase.position (time - base) + 1 / 2))

/-- **The first of the times to come has come.** The watch has seen it, the later ones come after
it, and the clause about the first time of all has nothing left to say. -/
theorem Ahead.tick {c : Codec} {base time : Int} {w : Watch Int} {times : List Int}
    (h : Ahead c base w (time :: times)) : Ahead c base (w.tick time) times where
  ordered := (List.pairwise_cons.mp h.ordered).2
  after := by
    intro last hlast
    cases hlast
    exact (List.pairwise_cons.mp h.ordered).1
  first := by
    intro hnone
    cases hnone
  fits := fun later hlater => h.fits later (List.mem_cons_of_mem _ hlater)

/-- The next frame does not come before the last one that the watch has seen. -/
theorem Ahead.not_back {c : Codec} {base time : Int} {w : Watch Int} {times : List Int}
    (h : Ahead c base w (time :: times)) : ∀ last, w.last = some last → last ≤ time :=
  fun last hlast => h.after last hlast time (List.mem_cons_self ..)

/-- The first frame of the video comes at `base`, from where the watch is read. -/
theorem Ahead.at_base {c : Codec} {base time : Int} {w : Watch Int} {times : List Int}
    (h : Ahead c base w (time :: times)) : w.last = none → time = base :=
  fun hnone => h.first hnone time rfl

namespace Sink

variable {toInt : ℚ → Int} {scale : Scaler → Picture → Picture} {c : Codec}
  {resample : Audio.Resampler fmt params} {s t : Sink fmt params} {r : Reel} {base : Int}

/-- The condition on a step: with video, the assertions of its pause hold; a scaler can be had; a
bus that is handed on has the announced shape and a multiple of 32 frames, no FFmpeg call fails on
it, and the begun frame is continued with the size of a sample. -/
def StepOk (s : Sink fmt params) : Op → Prop
  | .pause => s.video.haveVideo = true → s.videoPause.pause_ = .active
  | .resume => s.video.haveVideo = true → s.videoPause.pause_ = .paused
  | .initFile => True
  | .onVideoFrame _ _ scalerOk => scalerOk = true
  | .onData bus time delay calls => s.audioPause.pause_.isPause = false →
    (Audio.Recorder.Op.updateAudio bus time delay calls).Announced params ∧
      s.audio.StepOk (.updateAudio bus time delay calls)

/-- **`pause()`** leaves its mark in both pauses and stops both watches. Nothing is encoded, so what
the reel and the encoder share stays as it is; the mark needs a track that is active. -/
theorem follows_doPause (h : Follows c resample base s r)
    (hok : s.video.haveVideo = true → s.videoPause.pause_ = .active) :
    Follows c resample base s.doPause (r.setRunning false) where
  agrees := { h.agrees with
    videoRunning := rfl
    audioRunning := rfl }
  shows := by
    intro hvideo
    refine (h.shows hvideo).doPause (hok ?_)
    rw [h.agrees.videoHave]
    exact congrArg not hvideo
  within := ⟨h.within.nonneg, h.within.elapsed, h.within.first⟩
  encodes := h.encodes
  hears := h.hears

/-- **`resume()`**, the same with the watches started again. The time until the next frame is still
part of the pause, as the watch counts only from a frame on. -/
theorem follows_doResume (h : Follows c resample base s r)
    (hok : s.video.haveVideo = true → s.videoPause.pause_ = .paused) :
    Follows c resample base s.doResume (r.setRunning true) where
  agrees := { h.agrees with
    videoRunning := rfl
    audioRunning := rfl }
  shows := by
    intro hvideo
    refine (h.shows hvideo).doResume (hok ?_)
    rw [h.agrees.videoHave]
    exact congrArg not hvideo
  within := ⟨h.within.nonneg, h.within.elapsed, h.within.first⟩
  encodes := h.encodes
  hears := h.hears

/-- **The file is ready**, for both halves of the encoder and for the reel. From here on frames are
shot; what came before belongs to no recording. -/
theorem follows_initFile (h : Follows c resample base s r)
    (hstep : s.step toInt scale c resample .initFile = some t) :
    Follows c resample base t { r with ready := true } := by
  cases hstep
  exact
    { agrees := { h.agrees with
        videoReady := rfl
        audioReady := rfl }
      shows := h.shows
      within := h.within
      encodes := { h.encodes with
        ready := ⟨⟨h.encodes.ready.timed.ordered, h.encodes.ready.timed.near⟩,
          h.encodes.ready.last, h.encodes.ready.first, h.encodes.ready.started⟩ }
      hears := h.hears.congr rfl rfl }

/-- What the audio sees of `UpdateVideo`: the first frame that the encoder may take starts the
video, and the audio waits for that with its own first bus. -/
theorem audio_updateVideo (a : Audio.Recorder fmt params) (time : TimeTicks) :
    a.step toInt resample (.updateVideo time) = some { a with
      videoStart :=
        if a.haveVideo && a.fileReady && a.videoStart.isNull then time else a.videoStart } := by
  show (if _ then some _ else some a) = _
  split <;> rfl

theorem videoStart_agrees (h : Agrees s r) (haccepts : s.video.Accepts) (time : TimeTicks) :
    (if s.audio.haveVideo && s.audio.fileReady && s.audio.videoStart.isNull then time
      else s.audio.videoStart) =
    if s.video.videoStart.isNull then time else s.video.videoStart := by
  rw [h.audioHave, ← h.videoHave, haccepts.1, h.audioReady, ← h.videoReady, haccepts.2,
    h.videoStart]
  rfl

/-- A frame that comes latches the pause and ticks the watch, whatever becomes of it. -/
theorem follows_tick (h : Follows c resample base s r) {time : Int} {times : List Int}
    (hahead : Ahead c base r.videoWatch (time :: times)) (frame : VideoFrame) :
    Agrees { s with videoPause := s.videoPause.latch time } (r.shoot frame time) ∧
      (r.audioOnly = false → Shows base (s.videoPause.latch time) (r.videoWatch.tick time)) ∧
      Watch.Within base (r.videoWatch.tick time) ∧
      r.videoWatch.value ≤ (r.videoWatch.tick time).value := by
  refine ⟨{ h.agrees with videoRunning := ?_ }, ?_, ?_, ?_⟩
  · show r.videoWatch.running = !(s.videoPause.latch time).pause_.isPause
    rw [(Track.latch_state _ time).1]
    exact h.agrees.videoRunning
  · exact fun hvideo => (h.shows hvideo).tick h.within hahead.at_base
  · exact h.within.tick hahead.at_base hahead.not_back
  · exact Watch.value_le_tick hahead.not_back

/-- A frame that is no shot, inside a pause or before the file is ready. The pause latches its mark
and the watch ticks, and neither the encoder nor the reel gets the frame. -/
theorem follows_noShot (h : Follows c resample base s r) {time : Int} {times : List Int}
    (hahead : Ahead c base r.videoWatch (time :: times)) {frame : VideoFrame}
    (hshots : (r.shoot frame time).shots = r.shots) :
    Follows c resample base { s with videoPause := s.videoPause.latch time }
      (r.shoot frame time) := by
  obtain ⟨hagrees, hshows, hwithin, hle⟩ := follows_tick h hahead frame
  refine ⟨hagrees, hshows, hwithin, ?_, h.hears⟩
  rw [hshots]
  exact h.encodes.later hle

/-- A frame that the encoder takes is a shot: what is handed on is what the watch shows. -/
theorem follows_shot (htoInt : Truncates toInt) (h : Follows c resample base s r)
    (hbase : 0 < base) (haccepts : s.video.Accepts) {frame : VideoFrame} {time : Int}
    {times : List Int} (hahead : Ahead c base r.videoWatch (time :: times))
    (hrunning : r.videoWatch.running = true)
    (hstep : ({ s with videoPause := s.videoPause.latch time } : Sink fmt params).updateVideo toInt
      scale c resample frame (time - (s.videoPause.latch time).deltaTime) true = some t) :
    Follows c resample base t (r.shoot frame time) := by
  obtain ⟨hagrees, hshows, hwithin, hle⟩ := follows_tick h hahead frame
  have hvideo : r.audioOnly = false := by
    have hhave := h.agrees.videoHave
    rw [haccepts.1] at hhave
    simpa using hhave.symm
  -- what the sink hands on is what the watch shows
  have hready : r.ready = true := h.agrees.videoReady.symm.trans haccepts.2
  -- the watch runs, the file is ready and there is a video track: the frame is a shot
  have hshots : (r.shoot frame time).shots =
      r.shots ++ [⟨frame, (r.videoWatch.tick time).value⟩] := by
    show (if (r.videoWatch.running && r.ready && !r.audioOnly) = true then _ else _) = _
    rw [hrunning, hready, hvideo]
    rfl
  have hread : time - (s.videoPause.latch time).deltaTime =
      base + (r.videoWatch.tick time).value := (hshows hvideo).read rfl hrunning
  have htaken := Video.Recorder.updateVideo_taken toInt scale c haccepts frame
    (base + (r.videoWatch.tick time).value)
  have htimed := h.encodes.stepTimed hle (hwithin.elapsed time rfl)
    (hahead.fits time (List.mem_cons_self ..)) frame true
  have hreadied : Video.Recorder.Ready c (s.video.step toInt scale c
      (.updateVideo frame (base + (r.videoWatch.tick time).value) true)) :=
    h.encodes.ready.step htoInt htimed
  have hencodes := h.encodes.shoot hbase h.within.nonneg hle htaken hreadied
  -- the audio half takes its start from the same frame
  have hstart := videoStart_agrees h.agrees haccepts (base + (r.videoWatch.tick time).value)
  rw [hread, updateVideo, audio_updateVideo] at hstep
  cases hstep
  exact
    { agrees := { hagrees with
        videoHave := htaken.haveVideo.trans h.agrees.videoHave
        videoReady := htaken.fileReady.trans h.agrees.videoReady
        videoStart := hstart.trans htaken.videoStart.symm }
      shows := hshows
      within := hwithin
      encodes := by
        rw [hshots]
        exact hencodes
      hears := h.hears.congr rfl rfl }

/-- A frame that the encoder is not ready for is ignored by both halves. -/
theorem updateVideo_ignored (toInt : ℚ → Int) (scale : Scaler → Picture → Picture) (c : Codec)
    (resample : Audio.Resampler fmt params) (h : Agrees s r) (haccepts : ¬ s.video.Accepts)
    (frame : VideoFrame) (time : TimeTicks) :
    s.updateVideo toInt scale c resample frame time true = some s ∧
      (r.ready && !r.audioOnly) = false := by
  have hready : (s.video.haveVideo && s.video.fileReady) = false := by
    unfold Video.Recorder.Accepts at haccepts
    revert haccepts
    cases s.video.haveVideo <;> cases s.video.fileReady <;> decide
  constructor
  · have hsame : (s.audio.haveVideo && s.audio.fileReady && s.audio.videoStart.isNull) = false := by
      rw [h.audioHave, ← h.videoHave, h.audioReady, ← h.videoReady, hready]
      rfl
    rw [updateVideo, audio_updateVideo, Video.Recorder.updateVideo_of_not_accepts haccepts, hsame]
    rfl
  · rw [← h.videoHave, ← h.videoReady, Bool.and_comm]
    exact hready

/-- **A frame of the video.** Whether it is a shot is told by the same three bits on both sides: the
watch runs where the pause is not paused, and the encoder accepts the frame where the file is ready
and there is a video track. -/
theorem follows_onVideoFrame (htoInt : Truncates toInt) (h : Follows c resample base s r)
    (hbase : 0 < base) {frame : VideoFrame} {time : Int} {times : List Int}
    (hahead : Ahead c base r.videoWatch (time :: times))
    (hstep : s.onVideoFrame toInt scale c resample frame time true = some t) :
    Follows c resample base t (r.shoot frame time) := by
  rw [onVideoFrame, MediaPause.isPaused_eq] at hstep
  dsimp only at hstep
  have hshots : (r.shoot frame time).shots =
      if (r.videoWatch.running && (r.ready && !r.audioOnly)) = true then
        r.shots ++ [⟨frame, (r.videoWatch.tick time).value⟩] else r.shots := by
    rw [← Bool.and_assoc]
    rfl
  rw [h.agrees.videoRunning] at hshots
  -- inside a pause neither side takes the frame
  cases hpaused : s.videoPause.pause_.isPause with
  | true =>
    rw [hpaused, if_pos rfl] at hstep
    rw [hpaused] at hshots
    cases hstep
    exact follows_noShot h hahead hshots
  | false =>
    rw [hpaused, if_neg Bool.false_ne_true] at hstep
    by_cases haccepts : s.video.Accepts
    · have hrunning : r.videoWatch.running = true := by
        rw [h.agrees.videoRunning, hpaused]
        rfl
      exact follows_shot htoInt h hbase haccepts hahead hrunning hstep
    · obtain ⟨hignored, hready⟩ := updateVideo_ignored toInt scale c resample
        (follows_tick h hahead frame).1 haccepts frame (time - (s.videoPause.latch time).deltaTime)
      rw [hignored] at hstep
      have hready : (r.ready && !r.audioOnly) = false := hready
      rw [hready, Bool.and_false] at hshots
      cases hstep
      exact follows_noShot h hahead hshots

/-- What `UpdateAudio` leaves alone, and what it hears. The flags and the start of the video are
read by later calls of either half, so it matters that an audio bus changes none of them. -/
theorem updateAudio_kept {a a' : Audio.Recorder fmt params} {bus : Audio.AudioBus}
    {time : TimeTicks} {delay : Nat} {calls : List Audio.Answers} (haccepts : a.Accepts)
    (h : a.updateAudio toInt resample bus time delay calls = some a') :
    a'.haveVideo = a.haveVideo ∧ a'.audioOnly = a.audioOnly ∧ a'.fileReady = a.fileReady ∧
      a'.videoStart = a.videoStart ∧
      a'.heard = a.heard ++ Audio.samplesOf params.floatPlanar bus.channel bus.frames := by
  obtain ⟨pts, outTolerance, ost, -, rfl, -⟩ := Audio.Recorder.updateAudio_cases haccepts h
  have hstarted : (a.started time).haveVideo = a.haveVideo ∧
      (a.started time).audioOnly = a.audioOnly ∧ (a.started time).fileReady = a.fileReady ∧
      (a.started time).videoStart = a.videoStart := by
    unfold Audio.Recorder.started
    split <;> exact ⟨rfl, rfl, rfl, rfl⟩
  obtain ⟨hhave, honly, hready, hstart⟩ := hstarted
  exact ⟨hhave, honly, hready, hstart, rfl⟩

/-- The audio half takes a bus exactly when the sound of the reel has started. -/
theorem accepts_iff (h : Follows c resample base s r) :
    s.audio.Accepts ↔ (r.ready && (r.audioOnly || !r.shots.isEmpty)) = true := by
  unfold Audio.Recorder.Accepts
  rw [h.agrees.audioReady, h.agrees.audioOnly, h.agrees.videoStart, h.encodes.started]
  simp

/-- **A bus of the audio.** As for a frame of the video there are those inside a pause, those that
come too early, and those that the reel has. For the last ones the condition asks that FFmpeg fails
in no call, and the samples that go into the resampler are then those of the bus. -/
theorem follows_onData (h : Follows c resample base s r) {bus : Audio.AudioBus} {time : Int}
    {delay : Nat} {calls : List Audio.Answers} (hok : s.StepOk (.onData bus time delay calls))
    (hstep : s.onData toInt resample bus time delay calls = some t) :
    Follows c resample base t (r.hear bus time) := by
  have hpause : (r.audioWatch.tick time).running =
      !(s.audioPause.latch time).pause_.isPause := by
    rw [(Track.latch_state _ time).1]
    exact h.agrees.audioRunning
  have hshots : (r.hear bus time).shots = r.shots := rfl
  have hbuses : (r.hear bus time).buses =
      if (r.audioWatch.running && (r.ready && (r.audioOnly || !r.shots.isEmpty))) = true then
        r.buses ++ [bus]
      else r.buses := by
    rw [← Bool.and_assoc]
    rfl
  rw [onData, MediaPause.isPaused_eq] at hstep
  dsimp only at hstep
  -- inside a pause neither side takes the bus
  cases hpaused : s.audioPause.pause_.isPause with
  | true =>
    rw [hpaused, if_pos rfl] at hstep
    rw [h.agrees.audioRunning, hpaused] at hbuses
    cases hstep
    exact
      { agrees := { h.agrees with audioRunning := hpause }
        shows := h.shows
        within := h.within
        encodes := h.encodes
        hears := by
          rw [hbuses]
          exact h.hears }
  | false =>
    rw [hpaused, if_neg Bool.false_ne_true] at hstep
    obtain ⟨a, hupdate, rfl⟩ := Option.map_eq_some_iff.mp hstep
    have haccepts := accepts_iff h
    rw [h.agrees.audioRunning, hpaused, Bool.not_false, Bool.true_and] at hbuses
    by_cases hready : s.audio.Accepts
    case neg =>
      -- the bus is ignored, and not on the reel
      rw [if_neg fun hyes => hready (haccepts.mpr hyes)] at hbuses
      rw [Audio.Recorder.eq_of_not_accepts hready hupdate]
      exact
        { agrees := { h.agrees with audioRunning := hpause }
          shows := h.shows
          within := h.within
          encodes := h.encodes
          hears := by
            rw [hbuses]
            exact h.hears }
    case pos =>
      rw [if_pos (haccepts.mp hready)] at hbuses
      -- the condition does not depend on the time
      obtain ⟨hannounced, hplaced⟩ : (Audio.Recorder.Op.updateAudio bus
          (time - (s.audioPause.latch time).deltaTime) delay calls).Announced params ∧
          s.audio.StepOk (.updateAudio bus
            (time - (s.audioPause.latch time).deltaTime) delay calls) := hok hpaused
      obtain ⟨hhave, honly, hfile, hstart, hheard⟩ := updateAudio_kept hready hupdate
      obtain ⟨nbSamples, hshape⟩ := h.hears.shape
      have hupdated : s.audio.step toInt resample
          (.updateAudio bus (time - (s.audioPause.latch time).deltaTime) delay calls) = some a :=
        hupdate
      exact
        { agrees :=
            { h.agrees with
              audioHave := hhave.trans h.agrees.audioHave
              audioOnly := honly.trans h.agrees.audioOnly
              audioReady := hfile.trans h.agrees.audioReady
              videoStart := hstart.trans h.agrees.videoStart
              audioRunning := hpause }
          shows := h.shows
          within := h.within
          encodes := h.encodes
          hears :=
            { heard := by
                rw [hbuses, List.flatMap_append, ← h.hears.heard, List.flatMap_singleton]
                exact hheard
              shape := ⟨nbSamples, hshape.step hupdated⟩
              inv := Audio.Recorder.Inv.step hshape h.hears.inv hannounced hplaced hupdated } }

/-- **What a step keeps.** One case for each operation; a frame of the video takes the first of the
times to come, and every other operation leaves them all to come. -/
theorem follows_step (htoInt : Truncates toInt) (h : Follows c resample base s r)
    (hbase : 0 < base) {op : Op} {ops : List Op}
    (hahead : Ahead c base r.videoWatch (videoTimes (op :: ops))) (hok : s.StepOk op)
    (hstep : s.step toInt scale c resample op = some t) :
    Follows c resample base t (r.step op) ∧
      Ahead c base (r.step op).videoWatch (videoTimes ops) := by
  cases op with
  | pause =>
    cases hstep
    exact ⟨follows_doPause h hok, hahead.ordered, hahead.after, hahead.first, hahead.fits⟩
  | resume =>
    cases hstep
    exact ⟨follows_doResume h hok, hahead.ordered, hahead.after, hahead.first, hahead.fits⟩
  | initFile => exact ⟨follows_initFile h hstep, hahead⟩
  | onVideoFrame frame time scalerOk =>
    have hscaler : scalerOk = true := hok
    rw [hscaler] at hstep
    exact ⟨follows_onVideoFrame htoInt h hbase hahead hstep, hahead.tick⟩
  | onData bus time delay calls => exact ⟨follows_onData h hok hstep, hahead⟩

/-- What a run keeps. The induction is on the run and takes the reel along, whose state after the
operations is a fold over them. -/
theorem follows_run (htoInt : Truncates toInt) (hbase : 0 < base) {ops : List Op}
    (hrun : Lts.Run (Lts.Guarded StepOk (Lts.ofPartial (step toInt scale c resample))) s ops t)
    (h : Follows c resample base s r) (hahead : Ahead c base r.videoWatch (videoTimes ops)) :
    Follows c resample base t (ops.foldl Reel.step r) := by
  induction hrun generalizing r with
  | nil s => exact h
  | cons head _ ih =>
    obtain ⟨hnext, hlater⟩ := follows_step htoInt h hbase hahead head.1 head.2
    exact ih hnext hlater

/-- **The start.** Nothing is shot and nothing is heard, the watches are fresh and the pauses
active. The watch of the video will show its times from `base`. -/
theorem follows_init (c : Codec) (resample : Audio.Resampler fmt params) (base : Int)
    {nbSamples : Nat} (hnb : 0 < nbSamples) (sampleRate : Nat) (audioOnly : Bool) (forceSync : Int)
    (data : Picture) :
    Follows c resample base (init fmt params nbSamples sampleRate audioOnly forceSync data)
      { audioOnly := audioOnly } where
  agrees := ⟨rfl, rfl, rfl, rfl, rfl, rfl, rfl, rfl⟩
  shows := fun _ => .init base
  within := .fresh base
  encodes :=
    { ready := ⟨⟨List.Pairwise.nil, fun _ he => (List.not_mem_nil he).elim⟩,
        fun _ he => (List.not_mem_nil he).elim, fun _ => rfl, fun hnull => Bool.noConfusion hnull⟩
      started := rfl
      first := rfl
      inTime := fun _ hshot => (List.not_mem_nil hshot).elim
      shown := ⟨[], List.Sublist.refl _, .nil⟩
      last := fun hne => absurd rfl hne
      covered := fun _ _ _ hshot => (List.not_mem_nil hshot).elim }
  hears :=
    { heard := rfl
      shape := ⟨nbSamples, .initAudio nbSamples sampleRate (!audioOnly) audioOnly forceSync⟩
      inv := .initAudio hnb sampleRate (!audioOnly) audioOnly forceSync }

end Sink

/-! ## A whole recording -/

/-- The frame is within one of the position that a time has. -/
def NearTime (c : Codec) (time : Int) (e : Video.Encoded) : Prop :=
  |(e.pts : ℚ) - c.timeBase.position time| ≤ 1

/-- What a recording owes to its reel. -/
structure Plays (c : Codec) (resample : Audio.Resampler fmt params) (s : Sink fmt params)
    (r : Reel) : Prop where
  /-- The frames are in order. -/
  ordered : s.video.encoded.Pairwise fun e e' => e.pts < e'.pts
  /-- They are shots, in their order, each at its playing time. -/
  shown : ∃ shots, shots.Sublist r.shots ∧
    List.Forall₂ (fun shot e => e.src = shot.frame.size ∧ e.srcFormat = shot.frame.format ∧
      NearTime c (shot.time - r.start) e) shots s.video.encoded
  /-- There is a frame at the playing time of every shot. -/
  covered : ∀ shot ∈ r.shots, ∃ e ∈ s.video.encoded, NearTime c (shot.time - r.start) e
  /-- The resampler was given the buses of the reel and nothing else. -/
  heard : s.audio.audioSt.fed.flatten =
    r.buses.flatMap fun bus => Audio.samplesOf params.floatPlanar bus.channel bus.frames
  faithful : s.audio.Faithful resample

/-- **The invariant at the end of a run is the result.** What is left is to read the positions from
the first shot: the encoder counts from its start time, the reel from `Reel.start`, and the two
differ by `base`. -/
theorem Follows.plays {c : Codec} {resample : Audio.Resampler fmt params} {base : Int}
    {s : Sink fmt params} {r : Reel} (h : Follows c resample base s r) : Plays c resample s r := by
  have hstart : ∀ first, s.video.firstTime = some first → first = base + r.start := by
    intro first hfirst
    rw [h.encodes.first] at hfirst
    obtain ⟨shot, hhead, rfl⟩ := Option.map_eq_some_iff.mp hfirst
    rw [Reel.start, hhead]
    rfl
  -- with a shot on the reel the encoder has its first time
  have hsome : ∀ shot ∈ r.shots, s.video.firstTime = some (base + r.start) := by
    intro shot hshot
    cases hfirst : s.video.firstTime with
    | some first => rw [hstart first hfirst]
    | none =>
      rw [h.encodes.first, Option.map_eq_none_iff, List.head?_eq_none_iff] at hfirst
      rw [hfirst] at hshot
      cases hshot
  have hmoved : ∀ time, base + time - (base + r.start) = time - r.start := by
    intro time
    omega
  refine ⟨h.encodes.ready.timed.ordered, ?_, ?_, h.hears.inv.input.trans h.hears.heard,
    h.hears.inv.faithful⟩
  · obtain ⟨shots, hsub, htaken⟩ := h.encodes.shown
    refine ⟨shots, hsub, ?_⟩
    have hnear : ∀ e ∈ s.video.encoded, NearTime c (e.time - (base + r.start)) e := by
      intro e he
      cases hfirst : s.video.firstTime with
      | none =>
        rw [h.encodes.ready.first hfirst] at he
        cases he
      | some first =>
        rw [← hstart first hfirst]
        exact h.encodes.ready.timed.near e he first hfirst
    have hflip : List.Forall₂ (fun e shot => Takes base shot e) s.video.encoded shots :=
      htaken.flip
    have hboth := ((List.forall₂_and_left _ _).mpr ⟨hnear, hflip⟩).flip
    refine hboth.imp ?_
    intro shot e hshot
    obtain ⟨hposition, htakes⟩ := hshot
    refine ⟨htakes.size, htakes.format, ?_⟩
    rwa [htakes.time, hmoved] at hposition
  · intro shot hshot
    obtain ⟨e, he, hnear⟩ := h.encodes.covered _ (hsome shot hshot) shot hshot
    rw [hmoved] at hnear
    exact ⟨e, he, hnear⟩

/-- The capture times of a recording: none is the null time or before it, they do not go back, and
the positions after the first one fit an `int`. -/
structure Timely (c : Codec) (times : List Int) : Prop where
  positive : ∀ time ∈ times, 0 < time
  ordered : times.Pairwise (· ≤ ·)
  fits : ∀ first ∈ times.head?, ∀ time ∈ times,
    FitsInt (truncate (c.timeBase.position (time - first) + 1 / 2))

/-- **A recording plays without its pauses.** For every sequence of frames, buses and commands,
every source, scaler and resampler: where the capture times of the video are timely and every step
meets `Sink.StepOk`, the frames handed over are strictly later one by one, each of them is a shot
and within one of its playing time, which does not count the pauses; there is such a frame for every
shot; and the resampler is given the samples of the buses outside the pauses, once and in order.
Shots and buses are those that come once `InitFile` has made a file, and with video the buses count
from the first shot on. Under `StepOk` the assertions of the pauses hold, a scaler can be had, and a
bus that is handed on has the announced shape, a multiple of 32 frames, an encoder that fails in
none of its calls, and a begun frame that goes on with the size of a sample. -/
theorem playing_time {toInt : ℚ → Int} (htoInt : Truncates toInt)
    (scale : Scaler → Picture → Picture) (c : Codec) (resample : Audio.Resampler fmt params)
    {nbSamples : Nat} (hnb : 0 < nbSamples) (sampleRate : Nat) (audioOnly : Bool) (forceSync : Int)
    (data : Picture) (ops : List Op) (t : Sink fmt params) (htimes : Timely c (videoTimes ops))
    (hrun : Lts.Run
      (Lts.Guarded Sink.StepOk (Lts.ofPartial (Sink.step toInt scale c resample)))
      (Sink.init fmt params nbSamples sampleRate audioOnly forceSync data) ops t) :
    Plays c resample t (Reel.run audioOnly ops) := by
  -- the watch of the video starts with the first frame, recorded or not
  obtain ⟨base, hbase, hahead⟩ : ∃ base, 0 < base ∧ Ahead c base .fresh (videoTimes ops) := by
    cases htimesEq : videoTimes ops with
    | nil => exact ⟨1, by decide, List.Pairwise.nil, by simp, by simp, by simp⟩
    | cons first times =>
      rw [htimesEq] at htimes
      refine ⟨first, htimes.positive first (List.mem_cons_self ..), htimes.ordered, ?_, ?_,
        htimes.fits first rfl⟩
      · intro last hlast
        cases hlast
      · intro _ time htime
        exact (Option.some.inj htime).symm
  have hfollows := Sink.follows_run htoInt hbase hrun
    (Sink.follows_init c resample base hnb sampleRate audioOnly forceSync data) hahead
  exact hfollows.plays

/-- Three frames of the video, half a second of it paused. The first and the last of the buses come
outside the pause and fill a frame, the second one comes inside it. -/
def onePause : List Op :=
  [.initFile, .onVideoFrame Video.Recorder.greyFrame 1000000 true,
    .onData (Audio.Recorder.silence 32) 1000000 0 [{ rounds := [{ converted := some 32 }] }],
    .pause, .onVideoFrame Video.Recorder.greyFrame 1100000 true,
    .onData (Audio.Recorder.silence 32) 1100000 0 [], .resume,
    .onVideoFrame Video.Recorder.greyFrame 1600000 true,
    .onData (Audio.Recorder.silence 32) 1600667 0
      [{ rounds := [{ converted := some 32, gotPacket := some true }] }]]

/-- The frame after the pause is at a tenth of a second, and the resampler was given two buses. -/
theorem playing_time_onePause :
    ∃ t : Sink (Audio.Recorder.mono 32).floatPlanar (Audio.Recorder.mono 32),
      Plays Video.Recorder.thirtyFps (Audio.Recorder.copying 32) t (Reel.run false onePause) ∧
        (Reel.run false onePause).shots.map Shot.time = [0, 100000] ∧
        t.video.encoded.map Video.Encoded.pts = [0, 3] ∧
        (Reel.run false onePause).buses.length = 2 ∧ t.audio.audioSt.fed.flatten.length = 64 := by
  -- a bus that is handed on is announced, and continues the begun frame
  have hbus : ∀ {s : Sink (Audio.Recorder.mono 32).floatPlanar (Audio.Recorder.mono 32)}
      {time : Int} {rounds : List Audio.Round}, Audio.Continues s.audio.audioSt none →
      (∀ round ∈ rounds, round.Succeeds) →
      s.StepOk (.onData (Audio.Recorder.silence 32) time 0 [⟨some none, rounds⟩]) := by
    intro s time rounds hplace hrounds _
    refine ⟨⟨rfl, rfl, fun answers hmem => ?_⟩,
      fun _ => ⟨rfl, fun answers hanswers copy hcopy => ?_⟩⟩
    · rw [List.mem_singleton.mp hmem]
      exact ⟨rfl, hrounds⟩
    · cases hanswers
      cases hcopy
      exact hplace
  have hconverted : ∀ round ∈ [({ converted := some 32 } : Audio.Round)], round.Succeeds := by
    simp [Audio.Round.Succeeds]
  have hencoded : ∀ round ∈ [({ converted := some 32, gotPacket := some true } : Audio.Round)],
      round.Succeeds := by
    simp [Audio.Round.Succeeds]
  have hrun : Lts.Run
      (Lts.Guarded Sink.StepOk (Lts.ofPartial (Sink.step truncate (fun _ picture => picture)
        Video.Recorder.thirtyFps (Audio.Recorder.copying 32))))
      (Sink.init (Audio.Recorder.mono 32).floatPlanar (Audio.Recorder.mono 32) 64 48000 false 1
        (fun _ _ _ => 0)) onePause _ :=
    .cons ⟨trivial, rfl⟩ (.cons ⟨rfl, rfl⟩ (.cons ⟨hbus (.inl rfl) hconverted, rfl⟩
      (.cons ⟨fun _ => rfl, rfl⟩ (.cons ⟨rfl, rfl⟩ (.cons ⟨fun h => Bool.noConfusion h, rfl⟩
        (.cons ⟨fun _ => rfl, rfl⟩ (.cons ⟨rfl, rfl⟩
          (.cons ⟨hbus (.inr rfl) hencoded, rfl⟩ (.nil _)))))))))
  refine ⟨_, playing_time (fun _ _ => rfl) _ _ _ (by decide) 48000 false 1 _ onePause _ ?_ hrun,
    by decide +kernel, by decide +kernel, by decide +kernel, by decide +kernel⟩
  exact ⟨by decide, by decide, by decide +kernel⟩

end NodeWebkit.MediaRecorder
