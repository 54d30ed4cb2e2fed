import NodeWebkit.MediaRecorder.AudioSamples

/-!
# Audio frames do not overlap — the times of the frames

`write_audio_frame` moves the time of the frame on by `nb_samples` with each full frame;
`UpdateAudio` sets it from the capture time at the start of the audio and, with `forceAudioSync`,
at the end of a countdown. With `forceAudioSync` 1 only a frame that is behind is to be set.

* **`Timed`** — the frames handed over are in order, and the time of the frame is not behind them;
* **`keeps_timed`** — the loops keep it, whatever FFmpeg answers;
* **`StepOk`** — the condition: the audio does not start anew, and the difference that decides
  about an adjustment is not wrapped.

`pts_ordered` is the statement about runs.
-/

namespace NodeWebkit.MediaRecorder.Audio

variable {fmt : SampleFormat} {params : AudioParameters}

/-- Between the calls there is room in the frame, and whenever it was handed over it was full. -/
structure Roomy (ost : OutputStream fmt params) : Prop where
  room : ost.frameSample < ost.frame.nbSamples
  asserted : ost.asserted = true

/-- Each frame is `nb_samples` later than the one before it. -/
def Ordered (ost : OutputStream fmt params) : Prop :=
  ost.encoded.Pairwise fun e e' => e.pts + (ost.frame.nbSamples : Int) ≤ e'.pts

instance (ost : OutputStream fmt params) : Decidable (Ordered ost) := by
  unfold Ordered; infer_instance

structure Timed (ost : OutputStream fmt params) : Prop where
  ordered : Ordered ost
  last : ∀ e ∈ ost.encoded, e.pts ≤ ost.frame.pts

/-- A frame that is full is exactly full: a conversion is given room for no more than what is
missing. -/
theorem frameSample_swrConvert_full {resample : Resampler fmt params}
    {ost : OutputStream fmt params} (h : ost.frameSample < ost.frame.nbSamples)
    {srcNumSamples n : Nat}
    (hfull : ost.frame.nbSamples ≤ (ost.swrConvert resample srcNumSamples n).frameSample) :
    (ost.swrConvert resample srcNumSamples n).frameSample = ost.frame.nbSamples := by
  simp only [OutputStream.swrConvert, List.length_take] at hfull ⊢
  omega

/-- **The begun frame has room**, so the assertion in front of the encoder holds: a full frame has
its number of samples when it is handed over, and the next one is begun empty. -/
theorem keeps_roomy (resample : Resampler fmt params) :
    OutputStream.Keeps resample Roomy where
  writable ost copy h := by
    cases copy <;> exact ⟨h.room, h.asserted⟩
  short ost srcNumSamples n h hlt := ⟨hlt, h.asserted⟩
  full ost srcNumSamples n h hfull := by
    have heq := frameSample_swrConvert_full h.room hfull
    have hpos : 0 < ost.frame.nbSamples := Nat.lt_of_le_of_lt (Nat.zero_le _) h.room
    refine ⟨hpos, ?_⟩
    show (ost.asserted && (ost.swrConvert resample srcNumSamples n).frameSample ==
      ost.frame.nbSamples) = true
    rw [h.asserted, heq]
    simp

/-- Handing the frame over puts it behind the earlier ones, and its time moves on by its length. -/
theorem Timed.encode {ost : OutputStream fmt params} (h : Timed ost) : Timed ost.encode := by
  refine ⟨?_, ?_⟩
  · refine List.pairwise_append.mpr ⟨h.ordered, List.pairwise_singleton .., ?_⟩
    intro e he e' he'
    rw [List.mem_singleton.mp he']
    have hlast := h.last e he
    show e.pts + ost.frame.nbSamples ≤ ost.frame.pts + ost.frame.nbSamples
    omega
  · intro e he
    show e.pts ≤ ost.frame.pts + ost.frame.nbSamples
    rcases List.mem_append.mp he with hold | hnew
    · have hlast := h.last e hold
      omega
    · rw [List.mem_singleton.mp hnew]

/-- The loops keep the frames in order. Only a frame that is handed over changes its time. -/
theorem keeps_timed (resample : Resampler fmt params) :
    OutputStream.Keeps resample Timed where
  writable ost copy h := by
    cases copy <;> exact ⟨h.ordered, h.last⟩
  short ost srcNumSamples n h _ := ⟨h.ordered, h.last⟩
  full ost srcNumSamples n h _ := Timed.encode ⟨h.ordered, h.last⟩

/-- A frame that is not set back stays behind none: the frames that were handed over end before it.
-/
theorem Timed.setPts {ost : OutputStream fmt params} (h : Timed ost) {pts : Int}
    (hpts : ost.frame.pts ≤ pts) : Timed (ost.setPts pts) :=
  ⟨h.ordered, fun e he => (h.last e he).trans hpts⟩

/-- Before the first frame is handed over any time will do, as there is none to overlap with. -/
theorem Timed.setPts_first {ost : OutputStream fmt params} (h : ost.encoded = []) (pts : Int) :
    Timed (ost.setPts pts) := by
  have hnone : (ost.setPts pts).encoded = [] := h
  refine ⟨?_, ?_⟩
  · rw [Ordered, hnone]
    exact List.Pairwise.nil
  · intro e he
    rw [hnone] at he
    cases he

namespace Recorder

variable {toInt : ℚ → Int} {resample : Resampler fmt params} {s t : Recorder fmt params}

/-- The frame is ahead of its expected time, by so much that the difference does not fit an `int`
and shows it behind. -/
def Wraps (toInt : ℚ → Int) (time : TimeTicks) (delay : Nat) (s : Recorder fmt params) : Prop :=
  s.ptsDiff toInt time delay < 0 ∧
    (s.tolerance delay : Int) ≤ narrow (s.ptsDiff toInt time delay)

/-- The condition on a call between two frames: the start time is null only before the first frame
was handed over, and the difference is not wrapped when the countdown ends. -/
def StepTimed (toInt : ℚ → Int) (s : Recorder fmt params) : Op → Prop
  | .updateAudio _ time delay _ => s.Accepts → s.audioSt.frameSample = 0 →
    (s.audioStart.isNull = true → s.audioSt.encoded = []) ∧
      (s.audioStart.isNull = false → s.outTolerance = 1 → ¬ s.Wraps toInt time delay)
  | _ => True

/-- Only a frame that is behind is adjusted, unless the difference is wrapped. The difference is
taken as an `int` of 32 bits; with `forceAudioSync` 0 there is no adjustment at all. -/
theorem Adjusts.behind {time : TimeTicks} {delay : Nat}
    (hforce : s.forceAudioSync = 0 ∨ s.forceAudioSync = 1) (h : s.Adjusts toInt time delay)
    (hwraps : ¬ s.Wraps toInt time delay) :
    s.audioSt.frame.pts ≤ s.expectedPts toInt time := by
  obtain ⟨hsync, -, hout, hallowed⟩ := h
  have hnarrow : 0 ≤ narrow (s.ptsDiff toInt time delay) := by
    rcases hallowed with hother | hpos
    · rcases hforce with hzero | hone
      · exact absurd hzero hsync
      · exact absurd hone hother
    · exact hpos
  have hle : (s.tolerance delay : Int) ≤ narrow (s.ptsDiff toInt time delay) := by omega
  -- out of tolerance and shown behind: the frame is behind
  have hdiff : 0 ≤ s.ptsDiff toInt time delay := by
    by_contra hneg
    exact hwraps ⟨by omega, hle⟩
  unfold ptsDiff at hdiff
  omega

/-- Every step keeps room in the begun frame, without a condition. -/
theorem Roomy.step (h : Roomy s.audioSt) {op : Op} (hstep : s.step toInt resample op = some t) :
    Roomy t.audioSt := by
  cases op with
  | initFile =>
    cases hstep
    exact h
  | updateVideo time =>
    simp only [Recorder.step] at hstep
    split at hstep <;> cases hstep <;> exact h
  | updateAudio bus time delay calls =>
    by_cases haccepts : s.Accepts
    · obtain ⟨pts, outTolerance, ost, hloop, rfl, -⟩ := updateAudio_cases haccepts hstep
      exact (keeps_roomy resample).updateLoop hloop ⟨h.room, h.asserted⟩
    · rw [eq_of_not_accepts haccepts hstep]
      exact h

/-- `forceAudioSync` is set once, by `InitAudio`, and no step changes it. -/
theorem forceAudioSync_step {op : Op} (hstep : s.step toInt resample op = some t) :
    t.forceAudioSync = s.forceAudioSync := by
  cases op with
  | initFile =>
    cases hstep
    rfl
  | updateVideo time =>
    simp only [Recorder.step] at hstep
    split at hstep <;> cases hstep <;> rfl
  | updateAudio bus time delay calls =>
    by_cases haccepts : s.Accepts
    · obtain ⟨pts, outTolerance, ost, hloop, rfl, -⟩ := updateAudio_cases haccepts hstep
      show (s.started time).forceAudioSync = s.forceAudioSync
      unfold started
      split <;> rfl
    · rw [eq_of_not_accepts haccepts hstep]

/-- **A step that meets the condition keeps the frames in order.** The time of a begun frame stays;
that of an empty one is set only before the first frame, or forwards. -/
theorem Timed.step (hforce : s.forceAudioSync = 0 ∨ s.forceAudioSync = 1)
    (h : Timed s.audioSt) {op : Op} (hok : s.StepTimed toInt op)
    (hstep : s.step toInt resample op = some t) :
    Timed t.audioSt := by
  cases op with
  | initFile =>
    cases hstep
    exact h
  | updateVideo time =>
    simp only [Recorder.step] at hstep
    split at hstep <;> cases hstep <;> exact h
  | updateAudio bus time delay calls =>
    by_cases haccepts : s.Accepts
    case neg =>
      rw [eq_of_not_accepts haccepts hstep]
      exact h
    obtain ⟨pts, outTolerance, ost, hloop, rfl, hpts⟩ := updateAudio_cases haccepts hstep
    -- the frame is not set back before the loop
    have hset : Timed (s.audioSt.setPts pts) := by
      rcases hpts with hkept | ⟨hempty, hexpected, hwhy⟩
      · exact h.setPts hkept.ge
      obtain ⟨hfirst, hwraps⟩ := hok haccepts hempty
      by_cases hnull : s.audioStart.isNull = true
      · exact Timed.setPts_first (hfirst hnull) pts
      · have hadjust : s.Adjusts toInt time delay := hwhy.resolve_left hnull
        have hnot := hwraps (by simpa using hnull) hadjust.2.1
        have hstarted : s.started time = s := if_neg hnull
        rw [hstarted] at hexpected
        have hbehind := Adjusts.behind hforce hadjust hnot
        exact h.setPts (hexpected ▸ hbehind)
    exact (keeps_timed resample).updateLoop hloop ⟨hset.ordered, hset.last⟩

/-- **Audio frames do not overlap.** With `forceAudioSync` 0 or 1, whatever the capture times, the
resampler and the encoder: in every run there is room in the frame between the calls and the
assertion about full frames holds, and in every run whose steps meet the condition each frame handed
over is at least `nb_samples` later than the one before it. -/
theorem pts_ordered (toInt : ℚ → Int) (resample : Resampler fmt params) {nbSamples : Nat}
    (hnb : 0 < nbSamples) (sampleRate : Nat) (haveVideo audioOnly : Bool) {forceSync : Int}
    (hforce : forceSync = 0 ∨ forceSync = 1) (ops : List Op) (t : Recorder fmt params) :
    (Lts.Run (Lts.ofPartial (step toInt resample))
        (initAudio fmt params nbSamples sampleRate haveVideo audioOnly forceSync) ops t →
      t.audioSt.frameSample < t.audioSt.frame.nbSamples ∧ t.audioSt.asserted = true) ∧
    (Lts.Run (Lts.Guarded (StepTimed toInt) (Lts.ofPartial (step toInt resample)))
        (initAudio fmt params nbSamples sampleRate haveVideo audioOnly forceSync) ops t →
      Ordered t.audioSt) := by
  constructor
  · intro hrun
    have hroomy := hrun.invariant (I := fun s => Roomy s.audioSt)
      (fun _ _ _ hs hst => Roomy.step hs hst) ⟨hnb, rfl⟩
    exact ⟨hroomy.room, hroomy.asserted⟩
  · intro hrun
    have hstart : Timed
        (initAudio fmt params nbSamples sampleRate haveVideo audioOnly forceSync).audioSt :=
      ⟨List.Pairwise.nil, fun _ he => by cases he⟩
    -- the sync mode never changes, so each step may use what was asked of it
    have htimed := hrun.invariant
      (I := fun s => s.forceAudioSync = forceSync ∧ Timed s.audioSt)
      (fun s _ _ hs hst => ⟨(forceAudioSync_step hst.2).trans hs.1,
        Timed.step (by rw [hs.1]; exact hforce) hs.2 hst.1 hst.2⟩)
      ⟨rfl, hstart⟩
    exact htimed.2.ordered

/-- A bus of 64 frames that fills a frame of 64, for which the encoder has a packet. -/
def fullFrame (time : TimeTicks) : Op :=
  .updateAudio (silence 64) time 0
    [{ rounds := [{ converted := some 64, gotPacket := some true }] }]

instance (s : Recorder fmt params) : (op : Op) → Decidable (s.StepTimed toInt op)
  | .updateAudio _ time delay _ => inferInstanceAs (Decidable ((_ ∧ _) → _ → _ ∧
      (_ → _ → ¬ (s.ptsDiff toInt time delay < 0 ∧
        (s.tolerance delay : Int) ≤ narrow (s.ptsDiff toInt time delay)))))
  | .initFile => inferInstanceAs (Decidable True)
  | .updateVideo _ => inferInstanceAs (Decidable True)

/-- The capture falls a tenth of a second behind after the second frame: the countdown ends with the
fourth frame behind, which is set to where it belongs. -/
def captureLate : List Op :=
  [.initFile, fullFrame 100000000000, fullFrame 100000002667, fullFrame 100000104000,
    fullFrame 100000105333, fullFrame 100000106667]

/-- A run with an adjustment: the capture is late by more than the tolerance for long enough, and
the frames after it are set forwards. Five frames are handed over. -/
theorem pts_ordered_captureLate :
    ∃ t : Recorder (mono 64).floatPlanar (mono 64),
      (t.audioSt.frameSample < t.audioSt.frame.nbSamples ∧ t.audioSt.asserted = true) ∧
        Ordered t.audioSt ∧ t.audioSt.encoded.map (·.pts) = [64, 128, 192, 5120, 5184] := by
  have hpts : (Lts.exec (StepTimed truncate) (step truncate (copying 64)) captureLate
      (initAudio (mono 64).floatPlanar (mono 64) 64 48000 false true 1)).map
        (fun s => s.audioSt.encoded.map (·.pts)) = some [64, 128, 192, 5120, 5184] := by
    decide +kernel
  obtain ⟨t, hexec, hpts⟩ := Option.map_eq_some_iff.mp hpts
  have hrun := Lts.Run.of_exec hexec
  have hboth := pts_ordered truncate (copying 64) (by decide : 0 < 64) 48000 false true
    (Or.inr rfl : (1 : Int) = 0 ∨ (1 : Int) = 1) captureLate t
  exact ⟨t, hboth.1 hrun.unguard, hboth.2 hrun, hpts⟩

/-- The first capture time is the null time. -/
def nullStart : List Op := [.initFile, fullFrame 0, fullFrame 1333]

/-- The last capture time is twelve hours and a half before the others. -/
def clockBack : List Op :=
  [.initFile, fullFrame 100000000000, fullFrame 100000002667, fullFrame 100000004000,
    fullFrame 55260758333]

/-- Whether the frames are in order that a mono recorder at 48 kHz has handed over. -/
def orderedAfter (ops : List Op) : Option Bool :=
  (Lts.exec (fun _ _ => True) (step truncate (copying 64)) ops
    (initAudio (mono 64).floatPlanar (mono 64) 64 48000 false true 1)).map
    fun s => decide (Ordered s.audioSt)

theorem not_ordered_of_orderedAfter {ops : List Op} (h : orderedAfter ops = some false) :
    ∃ t, Lts.Run (Lts.ofPartial (step truncate (copying 64)))
        (initAudio (mono 64).floatPlanar (mono 64) 64 48000 false true 1) ops t ∧
      ¬ Ordered t.audioSt := by
  obtain ⟨t, hexec, hordered⟩ := Option.map_eq_some_iff.mp h
  exact ⟨t, (Lts.Run.of_exec hexec).unguard, of_decide_eq_false hordered⟩

/-- The null start time is taken again, and a difference that does not fit an `int` sets the frame
back: the frames are at 64 and 64, and at 64, 128, 192 and -2147483535. -/
theorem frames_overlap :
    (∃ t, Lts.Run (Lts.ofPartial (step truncate (copying 64)))
        (initAudio (mono 64).floatPlanar (mono 64) 64 48000 false true 1) nullStart t ∧
      ¬ Ordered t.audioSt) ∧
    ∃ t, Lts.Run (Lts.ofPartial (step truncate (copying 64)))
        (initAudio (mono 64).floatPlanar (mono 64) 64 48000 false true 1) clockBack t ∧
      ¬ Ordered t.audioSt :=
  ⟨not_ordered_of_orderedAfter (by decide +kernel),
    not_ordered_of_orderedAfter (by decide +kernel)⟩

end Recorder

end NodeWebkit.MediaRecorder.Audio
