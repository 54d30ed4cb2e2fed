import NodeWebkit.MediaRecorder.FrameClock

/-!
# Audio on its way to the encoder — PutData, write_audio_frame, UpdateAudio

`UpdateAudio` copies an audio bus into `tmp_frame` and calls `write_audio_frame` until that asks for
no further call. Each call lets the resampler fill `frame`, from where the last call left off, and
hands the frame to the encoder when it is full.

Planes are memories of bytes, so that the offset a sample is written at is part of the model. What
FFmpeg answers is given with each call:

* **`Round`** — one round of the loop of `write_audio_frame`;
* **`Answers`** — one call of it;
* the resampler is a queue that each `swr_convert` first adds to, given the inputs of all calls so
  far, and then takes from.

Where the answers end before the code does, the result is `none`.
-/

namespace NodeWebkit.MediaRecorder.Audio

/-! ## Frames -/

/-- `AV_NUM_DATA_POINTERS`. -/
def numDataPointers : Nat := 8

/-- How a sample format lays out a frame: packed formats have one plane, planar ones a plane per
channel, and a sample takes `unit` bytes of each plane. A frame is only allocated for a channel
layout, and the default layouts end at eight channels. -/
structure SampleFormat where
  planes : Nat
  unit : Nat
  planes_le : planes ≤ numDataPointers
  unit_pos : 0 < unit

/-- The bytes of one sample in each plane. -/
abbrev Sample (fmt : SampleFormat) := Fin fmt.planes → Fin fmt.unit → UInt8

/-- What `OnSetFormat` announces: the channels of a bus and its frames, `frames_per_buffer`. -/
structure AudioParameters where
  channels : Nat
  frameSize : Nat
  channels_pos : 0 < channels
  channels_le : channels ≤ numDataPointers

/-- `AV_SAMPLE_FMT_FLTP`, the format of `tmp_frame`: a plane of `float`s per channel. -/
def AudioParameters.floatPlanar (params : AudioParameters) : SampleFormat where
  planes := params.channels
  unit := 4
  planes_le := params.channels_le
  unit_pos := by decide

/-- The samples on an `AudioBus`: a memory per channel that is allocated for `frames` floats. -/
structure AudioBus where
  channels : Nat
  frames : Nat
  channel : Nat → Nat → UInt8

structure AVFrame where
  nbSamples : Nat
  lineSize : Nat
  data : Nat → Nat → UInt8 := fun _ _ => 0
  /-- `AV_NOPTS_VALUE` at first. -/
  pts : Int := -2 ^ 63

/-- `nb_samples` rounded up to a multiple of 32, as `av_frame_get_buffer(frame, 0)` does. -/
def align32 (n : Nat) : Nat := (n + 31) / 32 * 32

/-- A frame without samples gets no buffer. -/
def allocAudioFrame (fmt : SampleFormat) (nbSamples : Nat) : AVFrame where
  nbSamples := nbSamples
  lineSize := if nbSamples = 0 then 0 else fmt.unit * align32 nbSamples

/-- `memcpy` of `size` bytes to the offset `off`. -/
def memcpy (dst : Nat → UInt8) (off : Nat) (src : Nat → UInt8) (size : Nat) : Nat → UInt8 :=
  fun b => if off ≤ b ∧ b < off + size then src (b - off) else dst b

/-- Byte `k` of a sample in plane `p`. -/
def byte {fmt : SampleFormat} (sample : Sample fmt) (p k : Nat) : UInt8 :=
  if h : p < fmt.planes ∧ k < fmt.unit then sample ⟨p, h.1⟩ ⟨k, h.2⟩ else 0

/-- Samples laid out one after the other in plane `p`. -/
def planeBytes {fmt : SampleFormat} (samples : List (Sample fmt)) (p b : Nat) : UInt8 :=
  match samples[b / fmt.unit]? with
  | some sample => byte sample p (b % fmt.unit)
  | none => 0

/-- Sample `i` of planes that are read as the format lays them out. -/
def sampleAt (fmt : SampleFormat) (data : Nat → Nat → UInt8) (i : Nat) : Sample fmt :=
  fun p k => data p (i * fmt.unit + k)

/-- The first `n` samples. -/
def samplesOf (fmt : SampleFormat) (data : Nat → Nat → UInt8) (n : Nat) : List (Sample fmt) :=
  (List.range n).map (sampleAt fmt data)

/-! ## write_audio_frame -/

/-- What FFmpeg answers in one round of the loop: how many samples `swr_convert` hands out, if that
many are there and fit, or `none` where it fails; whether the encoder got a packet ready, or `none`
where it fails; the `swr_get_delay` after it. -/
structure Round where
  converted : Option Nat
  gotPacket : Option Bool := some false
  delay : Nat := 0

/-- What it answers in one call: `av_frame_make_writable` fails, finds the frame writable, or copies
it into the buffer that is given. -/
structure Answers where
  writable : Option (Option AVFrame) := some none
  rounds : List Round

/-- A frame that was handed to the encoder. -/
structure Encoded (fmt : SampleFormat) where
  pts : Int
  samples : List (Sample fmt)

/-- The audio stream with its resampler. -/
structure OutputStream (fmt : SampleFormat) (params : AudioParameters) where
  frame : AVFrame
  frameSample : Nat := 0
  tmpFrame : AVFrame
  /-- The inputs of the `swr_convert` calls so far. -/
  fed : List (List (Sample params.floatPlanar)) := []
  /-- What the resampler has ready. -/
  swr : List (Sample fmt) := []
  /-- `frame_sample` and the byte offset of each `swr_convert`. -/
  writes : List (Nat × Nat) := []
  /-- The sample indices that `PutData` read, with the number of frames on the bus. -/
  reads : List (Nat × Nat) := []
  /-- The frames handed to the encoder. -/
  encoded : List (Encoded fmt) := []
  /-- `av_assert0(frame_sample == nb_samples)` has held so far. -/
  asserted : Bool := true

/-- A resampler: the samples it makes on a call of `swr_convert`, given the inputs of all calls up
to this one. -/
abbrev Resampler (fmt : SampleFormat) (params : AudioParameters) :=
  List (List (Sample params.floatPlanar)) → List (Sample fmt)

variable {fmt : SampleFormat} {params : AudioParameters}

namespace OutputStream

/-- `open_audio`. -/
def openAudio (fmt : SampleFormat) (params : AudioParameters) (nbSamples : Nat) :
    OutputStream fmt params where
  frame := allocAudioFrame fmt nbSamples
  tmpFrame := allocAudioFrame params.floatPlanar params.frameSize

/-- `PutData(tmp_frame, frameIdx, audio_bus, audioBusIdx, size)`. -/
def putData (ost : OutputStream fmt params) (frameIdx : Nat) (bus : AudioBus)
    (audioBusIdx size : Nat) : OutputStream fmt params :=
  { ost with
    tmpFrame := { ost.tmpFrame with
      data := fun i =>
        if i < min numDataPointers bus.channels then
          memcpy (ost.tmpFrame.data i) frameIdx
            (fun b => bus.channel i (audioBusIdx / 4 * 4 + b)) size
        else ost.tmpFrame.data i }
    reads := ost.reads ++ (List.range (min numDataPointers bus.channels)).flatMap fun _ =>
      (List.range ((size + 3) / 4)).map fun k => (audioBusIdx / 4 + k, bus.frames) }

/-- A copy takes the samples along, whatever else is in the buffer. -/
def makeWritable (ost : OutputStream fmt params) (copy : Option AVFrame) :
    OutputStream fmt params :=
  match copy with
  | none => ost
  | some fresh =>
    { ost with
      frame := { ost.frame with
        lineSize := fresh.lineSize
        data := fun p => memcpy (fresh.data p) 0 (ost.frame.data p)
          (ost.frame.nbSamples * fmt.unit) } }

/-- The offset of the sample that comes next, as the loop over `dest` computes it. -/
def destOffset (ost : OutputStream fmt params) : Nat :=
  ost.frameSample * (ost.frame.lineSize / ost.frame.nbSamples)

/-- The input is added to what the resampler has and up to `n` samples are converted, as many as
there are and as the frame has room for. -/
def swrConvert (resample : Resampler fmt params)
    (srcNumSamples n : Nat) (ost : OutputStream fmt params) : OutputStream fmt params :=
  let fed := ost.fed ++ [samplesOf params.floatPlanar ost.tmpFrame.data srcNumSamples]
  let swr := ost.swr ++ resample fed
  let out := swr.take (min n (ost.frame.nbSamples - ost.frameSample))
  { ost with
    frame := { ost.frame with
      data := fun p =>
        if p < numDataPointers then
          memcpy (ost.frame.data p) ost.destOffset (planeBytes out p) (out.length * fmt.unit)
        else ost.frame.data p }
    frameSample := ost.frameSample + out.length
    fed := fed
    swr := swr.drop out.length
    writes := ost.writes ++ [(ost.frameSample, ost.destOffset)] }

/-- A full frame gets its time and goes to the encoder. -/
def encode (ost : OutputStream fmt params) : OutputStream fmt params :=
  let pts := ost.frame.pts + ost.frame.nbSamples
  { ost with
    frame := { ost.frame with pts := pts }
    frameSample := 0
    encoded := ost.encoded ++ [⟨pts, samplesOf fmt ost.frame.data ost.frame.nbSamples⟩]
    asserted := ost.asserted && ost.frameSample == ost.frame.nbSamples }

/-- The loop of `write_audio_frame`: its result and the stream. -/
def writeRounds (resample : Resampler fmt params) :
    List Round → Nat → OutputStream fmt params → Option (Int × OutputStream fmt params)
  | [], _, _ => none
  | round :: rounds, srcNumSamples, ost =>
    match round.converted with
    | none => some (-1, ost)
    | some n =>
      let ost := ost.swrConvert resample srcNumSamples n
      if ost.frameSample < ost.frame.nbSamples then some (-2, ost)
      else
        let ost := ost.encode
        match round.gotPacket with
        | none => some (-1, ost)
        | some gotPacket =>
          if round.delay > ost.frame.nbSamples * 2 && !gotPacket then
            writeRounds resample rounds 0 ost
          else if gotPacket then
            some (if round.delay > ost.frame.nbSamples * 2 then 1 else 0, ost)
          else some (-1, ost)

def writeAudioFrame (resample : Resampler fmt params) (answers : Answers) (srcNumSamples : Nat)
    (ost : OutputStream fmt params) : Option (Int × OutputStream fmt params) :=
  match answers.writable with
  | none => some (-1, ost)
  | some copy => writeRounds resample answers.rounds srcNumSamples (ost.makeWritable copy)

/-- The loop of `UpdateAudio`: the input goes to the first call only. -/
def updateLoop (resample : Resampler fmt params) :
    List Answers → Nat → OutputStream fmt params → Option (OutputStream fmt params)
  | [], _, _ => none
  | answers :: calls, srcNumSamples, ost =>
    match ost.writeAudioFrame resample answers srcNumSamples with
    | none => none
    | some (res, ost) => if res > 0 then updateLoop resample calls 0 ost else some ost

end OutputStream

/-! ## What the loops keep

`Keeps I` lists what a round does to the stream in the three places where it changes it: the frame
is made writable, it is filled in part, it is filled and handed over. A property that each of these
keeps is kept by the loops, whatever FFmpeg answers; the later modules instantiate it. -/

namespace OutputStream

variable {resample : Resampler fmt params} {ost : OutputStream fmt params}

/-- **The loop rule.** What `av_frame_make_writable`, a `swr_convert` that leaves room in the frame
and one that fills it for the encoder each keep. -/
structure Keeps (resample : Resampler fmt params) (I : OutputStream fmt params → Prop) : Prop where
  writable : ∀ ost copy, I ost → I (ost.makeWritable copy)
  short : ∀ ost srcNumSamples n, I ost →
    (ost.swrConvert resample srcNumSamples n).frameSample < ost.frame.nbSamples →
    I (ost.swrConvert resample srcNumSamples n)
  full : ∀ ost srcNumSamples n, I ost →
    ost.frame.nbSamples ≤ (ost.swrConvert resample srcNumSamples n).frameSample →
    I (ost.swrConvert resample srcNumSamples n).encode

/-- The loop of `write_audio_frame`. Induction on the rounds; a round that fails or that does not
fill the frame is the last one. -/
theorem Keeps.writeRounds {I : OutputStream fmt params → Prop} (hI : Keeps resample I)
    {rounds : List Round} {srcNumSamples : Nat} {res : Int} {ost' : OutputStream fmt params}
    (h : ost.writeRounds resample rounds srcNumSamples = some (res, ost')) (hs : I ost) :
    I ost' := by
  induction rounds generalizing ost srcNumSamples with
  | nil => cases h
  | cons round rounds ih =>
    rw [OutputStream.writeRounds] at h
    split at h
    · cases h
      exact hs
    next n _ =>
      have hshort := hI.short ost srcNumSamples n hs
      have hfull := hI.full ost srcNumSamples n hs
      dsimp only at h
      split at h
      case isTrue hlt =>
        cases h
        exact hshort hlt
      case isFalse hlt =>
        have hencoded := hfull (Nat.le_of_not_lt hlt)
        -- failed, another round, a packet, no packet
        split at h
        · cases h
          exact hencoded
        · split at h
          · exact ih h hencoded
          · split at h <;> cases h <;> exact hencoded

/-- A whole call of it. Where the frame cannot be made writable nothing happens. -/
theorem Keeps.writeAudioFrame {I : OutputStream fmt params → Prop} (hI : Keeps resample I)
    {answers : Answers} {srcNumSamples : Nat} {res : Int} {ost' : OutputStream fmt params}
    (h : ost.writeAudioFrame resample answers srcNumSamples = some (res, ost')) (hs : I ost) :
    I ost' := by
  rw [OutputStream.writeAudioFrame] at h
  split at h
  · cases h
    exact hs
  · exact hI.writeRounds h (hI.writable _ _ hs)

/-- The loop of `UpdateAudio` over the calls, until one asks for no further one. -/
theorem Keeps.updateLoop {I : OutputStream fmt params → Prop} (hI : Keeps resample I)
    {calls : List Answers} {srcNumSamples : Nat} {ost' : OutputStream fmt params}
    (h : ost.updateLoop resample calls srcNumSamples = some ost') (hs : I ost) : I ost' := by
  induction calls generalizing ost srcNumSamples with
  | nil => cases h
  | cons answers calls ih =>
    rw [OutputStream.updateLoop] at h
    split at h
    · cases h
    next res ost₁ hcall =>
      have hfirst := hI.writeAudioFrame hcall hs
      split at h
      · exact ih h hfirst
      · cases h
        exact hfirst

/-- What the loops leave alone, and the log they only add to. -/
structure Kept (ost ost' : OutputStream fmt params) : Prop where
  nb : ost'.frame.nbSamples = ost.frame.nbSamples
  tmp : ost'.tmpFrame = ost.tmpFrame
  reads : ost'.reads = ost.reads
  writes : ost.writes <+: ost'.writes

theorem Kept.refl (ost : OutputStream fmt params) : Kept ost ost :=
  ⟨rfl, rfl, rfl, List.prefix_rfl⟩

theorem Kept.trans {ost₁ ost₂ ost₃ : OutputStream fmt params} (h : Kept ost₁ ost₂)
    (h' : Kept ost₂ ost₃) : Kept ost₁ ost₃ :=
  ⟨h'.nb.trans h.nb, h'.tmp.trans h.tmp, h'.reads.trans h.reads, h.writes.trans h'.writes⟩

/-- Making the frame writable may move it to a copy; its number of samples and the input stay. -/
theorem kept_makeWritable (ost : OutputStream fmt params) (copy : Option AVFrame) :
    Kept ost (ost.makeWritable copy) := by
  cases copy <;> exact ⟨rfl, rfl, rfl, List.prefix_rfl⟩

/-- A conversion adds to the record of what was written where, at the end. -/
theorem kept_swrConvert (ost : OutputStream fmt params) (srcNumSamples n : Nat) :
    Kept ost (ost.swrConvert resample srcNumSamples n) :=
  ⟨rfl, rfl, rfl, List.prefix_append ..⟩

theorem kept_encode (ost : OutputStream fmt params) : Kept ost ost.encode :=
  ⟨rfl, rfl, rfl, List.prefix_rfl⟩

theorem keeps_kept (resample : Resampler fmt params) (ost : OutputStream fmt params) :
    Keeps resample (Kept ost) where
  writable ost' copy h := h.trans (kept_makeWritable ost' copy)
  short ost' _ _ h _ := h.trans (kept_swrConvert ost' _ _)
  full ost' _ _ h _ := (h.trans (kept_swrConvert ost' _ _)).trans (kept_encode _)

end OutputStream

/-! ## UpdateAudio -/

def OutputStream.setPts (ost : OutputStream fmt params) (pts : Int) : OutputStream fmt params :=
  { ost with frame := { ost.frame with pts := pts } }

/-- What `UpdateAudio` reads and writes of the recorder once the audio stream is open. -/
structure Recorder (fmt : SampleFormat) (params : AudioParameters) where
  haveVideo : Bool
  audioOnly : Bool
  fileReady : Bool := false
  videoStart : TimeTicks := 0
  audioStart : TimeTicks := 0
  forceAudioSync : Int
  outTolerance : Int := -1
  sampleRate : Nat
  audioSt : OutputStream fmt params
  /-- The samples on the buses of the calls that did not return at once. -/
  heard : List (Sample params.floatPlanar) := []

namespace Recorder

def setPts (self : Recorder fmt params) (pts : Int) : Recorder fmt params :=
  { self with audioSt := self.audioSt.setPts pts }

/-- Where the next sample is expected: the time base of the stream is one sample. -/
def expectedPts (toInt : ℚ → Int) (self : Recorder fmt params) (time : TimeTicks) : Int :=
  TimeBase.expectedPts ⟨1, self.sampleRate⟩ toInt (time - self.audioStart)

/-- `expectedPts - dstFrame->pts - delay`, before it is kept in an `int`. -/
def ptsDiff (toInt : ℚ → Int) (self : Recorder fmt params) (time : TimeTicks) (delay : Nat) : Int :=
  self.expectedPts toInt time - self.audioSt.frame.pts - delay

def tolerance (self : Recorder fmt params) (delay : Nat) : Nat :=
  (1 + delay / self.audioSt.frame.nbSamples) * self.audioSt.frame.nbSamples

/-- The part of `UpdateAudio` between two frames. -/
def syncPts (toInt : ℚ → Int) (isAudioStart : Bool) (time : TimeTicks) (delay : Nat)
    (self : Recorder fmt params) : Recorder fmt params :=
  let expectedPts := self.expectedPts toInt time
  let ptsDiff := narrow (self.ptsDiff toInt time delay)
  if isAudioStart then self.setPts expectedPts
  else if self.tolerance delay ≤ ptsDiff.natAbs then
    if self.forceAudioSync ≠ 0 then
      if self.outTolerance < 0 then
        { self with outTolerance := ptsDiff.natAbs / self.audioSt.frame.nbSamples + 1 }
      else
        let self := { self with outTolerance := self.outTolerance - 1 }
        if self.outTolerance = 0 then
          let adjustAllowed := !(self.forceAudioSync == 1 && ptsDiff < 0)
          if adjustAllowed then self.setPts expectedPts else self
        else self
    else self
  else { self with outTolerance := -1 }

/-- `UpdateAudio` does not return at once. -/
def Accepts (self : Recorder fmt params) : Prop :=
  self.fileReady = true ∧ (self.audioOnly = true ∨ self.videoStart.isNull = false)

instance (self : Recorder fmt params) : Decidable self.Accepts := by
  unfold Accepts; infer_instance

/-- The start time is taken while it is null. -/
def started (time : TimeTicks) (self : Recorder fmt params) : Recorder fmt params :=
  if self.audioStart.isNull then
    { self with audioStart := if self.audioOnly then time else self.videoStart }
  else self

/-- `UpdateAudio` up to `PutData`. -/
def synced (toInt : ℚ → Int) (time : TimeTicks) (delay : Nat) (self : Recorder fmt params) :
    Recorder fmt params :=
  let isAudioStart := self.audioStart.isNull
  let self := self.started time
  if self.audioSt.frameSample = 0 then self.syncPts toInt isAudioStart time delay else self

/-- `delay` is what `swr_get_delay` answers before the first `write_audio_frame`. -/
def updateAudio (toInt : ℚ → Int) (resample : Resampler fmt params) (bus : AudioBus)
    (time : TimeTicks) (delay : Nat) (calls : List Answers) (self : Recorder fmt params) :
    Option (Recorder fmt params) :=
  if self.Accepts then
    let self := self.synced toInt time delay
    let ost := self.audioSt.putData 0 bus 0 self.audioSt.tmpFrame.lineSize
    (ost.updateLoop resample calls ost.tmpFrame.nbSamples).map fun ost =>
      { self with
        audioSt := ost
        heard := self.heard ++ samplesOf params.floatPlanar bus.channel bus.frames }
  else some self

inductive Op where
  /-- `InitFile`. -/
  | initFile
  /-- `UpdateVideo`, of which the audio only sees the time of the first frame. -/
  | updateVideo (time : TimeTicks)
  | updateAudio (bus : AudioBus) (time : TimeTicks) (delay : Nat) (calls : List Answers)

def step (toInt : ℚ → Int) (resample : Resampler fmt params) (self : Recorder fmt params) :
    Op → Option (Recorder fmt params)
  | .initFile => some { self with fileReady := true }
  | .updateVideo time =>
    if self.haveVideo && self.fileReady && self.videoStart.isNull then
      some { self with videoStart := time }
    else some self
  | .updateAudio bus time delay calls => self.updateAudio toInt resample bus time delay calls

/-- The recorder after `InitAudio`. -/
def initAudio (fmt : SampleFormat) (params : AudioParameters) (nbSamples sampleRate : Nat)
    (haveVideo audioOnly : Bool) (forceSync : Int) : Recorder fmt params where
  haveVideo := haveVideo
  audioOnly := audioOnly
  forceAudioSync := forceSync
  sampleRate := sampleRate
  audioSt := .openAudio fmt params nbSamples

/-! What `UpdateAudio` does before `PutData`: the time of the frame stays, or is set to the expected
one at the start of the audio or when the countdown ends. -/

/-- The countdown ends with the next `--outTolerance`, the frame is out of tolerance and may be
adjusted. -/
def Adjusts (toInt : ℚ → Int) (time : TimeTicks) (delay : Nat) (self : Recorder fmt params) :
    Prop :=
  self.forceAudioSync ≠ 0 ∧ self.outTolerance = 1 ∧
    self.tolerance delay ≤ (narrow (self.ptsDiff toInt time delay)).natAbs ∧
    (self.forceAudioSync ≠ 1 ∨ 0 ≤ narrow (self.ptsDiff toInt time delay))

/-- **What `UpdateAudio` does about the time**: the time of the frame stays, or it is set to the
expected one at the start of the audio or where an adjustment is due. The countdown changes in any
case. -/
theorem syncPts_cases (toInt : ℚ → Int) (isAudioStart : Bool) (time : TimeTicks) (delay : Nat)
    (s : Recorder fmt params) :
    ∃ pts outTolerance,
      s.syncPts toInt isAudioStart time delay = { s.setPts pts with outTolerance := outTolerance } ∧
      (pts = s.audioSt.frame.pts ∨
        pts = s.expectedPts toInt time ∧ (isAudioStart = true ∨ s.Adjusts toInt time delay)) := by
  unfold syncPts
  dsimp only
  split
  -- the first frame takes the expected time
  case isTrue hstart =>
    exact ⟨s.expectedPts toInt time, s.outTolerance, rfl, Or.inr ⟨rfl, Or.inl hstart⟩⟩
  split
  case isFalse => exact ⟨s.audioSt.frame.pts, -1, rfl, Or.inl rfl⟩
  case isTrue hout =>
    split
    case isFalse => exact ⟨s.audioSt.frame.pts, s.outTolerance, rfl, Or.inl rfl⟩
    case isTrue hforce =>
      split
      · exact ⟨s.audioSt.frame.pts, _, rfl, Or.inl rfl⟩
      · split
        case isFalse => exact ⟨s.audioSt.frame.pts, s.outTolerance - 1, rfl, Or.inl rfl⟩
        case isTrue hend =>
          split
          case isFalse => exact ⟨s.audioSt.frame.pts, s.outTolerance - 1, rfl, Or.inl rfl⟩
          -- out of tolerance for long enough, in the direction that is allowed
          case isTrue hallowed =>
            refine ⟨s.expectedPts toInt time, s.outTolerance - 1, rfl, Or.inr ⟨rfl, Or.inr ?_⟩⟩
            refine ⟨hforce, by omega, hout, ?_⟩
            simpa using hallowed

/-- Where the recorder is after the start of a call. The time is looked at only where no frame is
begun, and the audio starts with the first call. -/
theorem synced_cases (toInt : ℚ → Int) (time : TimeTicks) (delay : Nat)
    (s : Recorder fmt params) :
    ∃ pts outTolerance, s.synced toInt time delay =
        { (s.started time).setPts pts with outTolerance := outTolerance } ∧
      (pts = s.audioSt.frame.pts ∨
        s.audioSt.frameSample = 0 ∧ pts = (s.started time).expectedPts toInt time ∧
          (s.audioStart.isNull = true ∨ s.Adjusts toInt time delay)) := by
  unfold synced
  dsimp only
  have hsame : (s.started time).audioSt = s.audioSt := by
    unfold started
    split <;> rfl
  split
  case isFalse =>
    exact ⟨s.audioSt.frame.pts, (s.started time).outTolerance, by rw [← hsame]; rfl, Or.inl rfl⟩
  case isTrue hempty =>
    rw [hsame] at hempty
    obtain ⟨pts, outTolerance, heq, hpts⟩ :=
      syncPts_cases toInt s.audioStart.isNull time delay (s.started time)
    refine ⟨pts, outTolerance, heq, ?_⟩
    rcases hpts with hkept | ⟨hset, hstart | hadjust⟩
    · rw [hsame] at hkept
      exact Or.inl hkept
    · exact Or.inr ⟨hempty, hset, Or.inl hstart⟩
    · -- an adjustment is due: at the first call, which counts as a start, or at a later one
      by_cases hnull : s.audioStart.isNull = true
      · exact Or.inr ⟨hempty, hset, Or.inl hnull⟩
      · have hstarted : s.started time = s := if_neg hnull
        rw [hstarted] at hadjust hset
        refine Or.inr ⟨hempty, ?_, Or.inr hadjust⟩
        rw [hstarted]
        exact hset

/-- **What a call of `UpdateAudio` does** unless it returns at once: the bus is copied and the loop
runs, from a frame whose time has been set or has stayed. -/
theorem updateAudio_cases {toInt : ℚ → Int} {resample : Resampler fmt params} {bus : AudioBus}
    {time : TimeTicks} {delay : Nat} {calls : List Answers} {s t : Recorder fmt params}
    (haccepts : s.Accepts) (h : s.updateAudio toInt resample bus time delay calls = some t) :
    ∃ pts outTolerance ost,
      ((s.audioSt.setPts pts).putData 0 bus 0 s.audioSt.tmpFrame.lineSize).updateLoop
        resample calls s.audioSt.tmpFrame.nbSamples = some ost ∧
      t = { s.started time with
        outTolerance := outTolerance
        audioSt := ost
        heard := s.heard ++ samplesOf params.floatPlanar bus.channel bus.frames } ∧
      (pts = s.audioSt.frame.pts ∨
        s.audioSt.frameSample = 0 ∧ pts = (s.started time).expectedPts toInt time ∧
          (s.audioStart.isNull = true ∨ s.Adjusts toInt time delay)) := by
  obtain ⟨pts, outTolerance, heq, hpts⟩ := synced_cases toInt time delay s
  have hsame : (s.started time).audioSt = s.audioSt ∧ (s.started time).heard = s.heard := by
    unfold started
    split <;> exact ⟨rfl, rfl⟩
  rw [updateAudio, if_pos haccepts] at h
  simp only [heq, setPts, hsame] at h
  obtain ⟨ost, hloop, ht⟩ := Option.map_eq_some_iff.mp h
  exact ⟨pts, outTolerance, ost, hloop, ht.symm, hpts⟩

/-- A call that returns at once changes nothing: no file, a bus of another shape, or a pause. -/
theorem eq_of_not_accepts {toInt : ℚ → Int} {resample : Resampler fmt params} {bus : AudioBus}
    {time : TimeTicks} {delay : Nat} {calls : List Answers} {s t : Recorder fmt params}
    (haccepts : ¬ s.Accepts) (h : s.updateAudio toInt resample bus time delay calls = some t) :
    t = s := by
  rw [updateAudio, if_neg haccepts] at h
  exact (Option.some.inj h).symm

end Recorder

end NodeWebkit.MediaRecorder.Audio
