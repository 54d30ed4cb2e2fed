import NodeWebkit.Lib.Run
import NodeWebkit.MediaRecorder.AudioFrame

/-!
# No audio sample is lost — frames are filled sample by sample

The frames handed to the encoder are the resampler's output cut into pieces of `nb_samples`, as long
as each `swr_convert` writes where the last sample ended. The code derives that place from the line
size of the frame, which is padded.

* **`samplesOf_write`** — samples written after the first `m` are read back after them;
* **`Conserved`** — what the resampler has made is what the encoder got, the begun frame and what
  the resampler still has, in this order;
* **`Wrote`** — what a call of `write_audio_frame` in which nothing fails does;
* **`samples_iff`** — the condition, for every run.

## Two directions

That the condition is enough is the induction along a run: `Shape` is what every step keeps, `Inv`
what the steps under the condition keep, and `Inv.faithful` reads the claim off it. That it is
necessary needs the recorder to remember: `writes` and `reads` log each place that was written and
each index that was read, they only grow (`Kept`), and a step that misses the condition leaves an
entry in them that a faithful recorder does not have (`Recorded.stepOk`).
-/

namespace NodeWebkit.MediaRecorder.Audio

variable {fmt : SampleFormat} {params : AudioParameters}

/-! ## Memory

A frame is bytes, by plane and offset. `samplesOf` reads samples off the start of the planes; what
is written behind the samples that are there is read back after them. -/

@[simp] theorem samplesOf_length (data : Nat → Nat → UInt8) (n : Nat) :
    (samplesOf fmt data n).length = n := by
  simp [samplesOf]

@[simp] theorem samplesOf_zero (data : Nat → Nat → UInt8) : samplesOf fmt data 0 = [] := rfl

/-- Planes with the same bytes in the first `n` samples have the same first `n` samples. -/
theorem samplesOf_congr {data data' : Nat → Nat → UInt8} {n : Nat}
    (h : ∀ p, p < fmt.planes → ∀ b, b < n * fmt.unit → data p b = data' p b) :
    samplesOf fmt data n = samplesOf fmt data' n := by
  apply List.map_congr_left
  intro i hi
  have hin : i + 1 ≤ n := List.mem_range.mp hi
  have hend : i * fmt.unit + fmt.unit ≤ n * fmt.unit := by
    have hmul := Nat.mul_le_mul_right fmt.unit hin
    rwa [Nat.succ_mul] at hmul
  funext p k
  have hk := k.isLt
  exact h p p.isLt _ (by omega)

/-- A byte of samples that are laid out one after the other: sample `i` has its bytes from `i *
unit` on. -/
theorem planeBytes_at (samples : List (Sample fmt)) {i : Nat} (hi : i < samples.length)
    (p : Fin fmt.planes) (k : Fin fmt.unit) :
    planeBytes samples p (i * fmt.unit + k) = samples[i] p k := by
  have hdiv : (i * fmt.unit + k) / fmt.unit = i := by
    rw [Nat.mul_comm, Nat.mul_add_div fmt.unit_pos, Nat.div_eq_of_lt k.isLt, Nat.add_zero]
  have hmod : (i * fmt.unit + k) % fmt.unit = k := by
    rw [Nat.mul_comm, Nat.mul_add_mod, Nat.mod_eq_of_lt k.isLt]
  unfold planeBytes
  rw [hdiv, hmod, List.getElem?_eq_getElem hi]
  show byte samples[i] p k = _
  rw [byte, dif_pos ⟨p.isLt, k.isLt⟩]

/-- **Samples written after the first `m` are read back after them.** The bytes before are
untouched, and the planes that FFmpeg has pointers for are all that a format has. -/
theorem samplesOf_write (data : Nat → Nat → UInt8) (m : Nat) (out : List (Sample fmt)) :
    samplesOf fmt
        (fun p =>
          if p < numDataPointers then
            memcpy (data p) (m * fmt.unit) (planeBytes out p) (out.length * fmt.unit)
          else data p)
        (m + out.length) =
      samplesOf fmt data m ++ out := by
  apply List.ext_getElem
  · simp
  intro i hi _
  rw [samplesOf_length] at hi
  have hlt (p : Fin fmt.planes) : (p : Nat) < numDataPointers :=
    Nat.lt_of_lt_of_le p.isLt fmt.planes_le
  rw [List.getElem_append]
  split
  case isTrue him =>
    -- a sample before the place that is written
    rw [samplesOf_length] at him
    simp only [samplesOf, List.getElem_map, List.getElem_range]
    funext p k
    have hend : i * fmt.unit + fmt.unit ≤ m * fmt.unit := by
      have hmul := Nat.mul_le_mul_right fmt.unit him
      rwa [Nat.succ_mul] at hmul
    have hk := k.isLt
    simp only [sampleAt, hlt p, if_true, memcpy]
    rw [if_neg (by omega)]
  case isFalse him =>
    rw [samplesOf_length] at him
    have him : m ≤ i := by omega
    simp only [samplesOf, List.getElem_map, List.getElem_range, List.length_map,
      List.length_range]
    funext p k
    have hk := k.isLt
    have hin : i - m < out.length := by omega
    have hsub : i * fmt.unit + k - m * fmt.unit = (i - m) * fmt.unit + k := by
      have hle := Nat.mul_le_mul_right fmt.unit him
      rw [Nat.sub_mul]
      omega
    have hend : (i - m) * fmt.unit + fmt.unit ≤ out.length * fmt.unit := by
      have hmul := Nat.mul_le_mul_right fmt.unit hin
      rwa [Nat.succ_mul] at hmul
    have hle := Nat.mul_le_mul_right fmt.unit him
    simp only [sampleAt, hlt p, if_true, memcpy]
    rw [if_pos (by omega), hsub, planeBytes_at out hin p k]

/-- A copy has the samples of the frame, as many as the copy was made for. -/
theorem samplesOf_copy (data fresh : Nat → Nat → UInt8) {m n : Nat} (h : m ≤ n) :
    samplesOf fmt (fun p => memcpy (fresh p) 0 (data p) (n * fmt.unit)) m =
      samplesOf fmt data m := by
  apply samplesOf_congr
  intro p _ b hb
  have hle := Nat.mul_le_mul_right fmt.unit h
  show (if _ then _ else _) = _
  rw [if_pos (by omega), Nat.sub_zero]

/-! ## The resampler as a queue

`streamOf` is all the resampler has ever made. What it takes in is added to the queue, what it gives
out is taken from the front, and `Conserved` says where the rest is. -/

/-- The resampled input: what a resampler makes of the inputs of all calls. -/
def streamOf (resample : Resampler fmt params) (fed : List (List (Sample params.floatPlanar))) :
    List (Sample fmt) :=
  (List.range fed.length).flatMap fun k => resample (fed.take (k + 1))

/-- One more input adds what the resampler makes of it behind everything it has made before. -/
theorem streamOf_append (resample : Resampler fmt params)
    (fed : List (List (Sample params.floatPlanar))) (input : List (Sample params.floatPlanar)) :
    streamOf resample (fed ++ [input]) = streamOf resample fed ++ resample (fed ++ [input]) := by
  have hbefore : ∀ k ∈ List.range fed.length,
      resample ((fed ++ [input]).take (k + 1)) = resample (fed.take (k + 1)) := by
    intro k hk
    have hlt := List.mem_range.mp hk
    rw [List.take_append_of_le_length (by omega)]
  have hall : (fed ++ [input]).take (fed.length + 1) = fed ++ [input] :=
    List.take_of_length_le (by simp)
  unfold streamOf
  rw [List.length_append, List.length_singleton, List.range_succ, List.flatMap_append,
    List.flatMap_congr hbefore, List.flatMap_singleton, hall]

/-- What the resampler has made is what the encoder got, the begun frame and what the resampler
still has; and no `swr_convert` has written at another place than after the last sample. -/
structure Conserved (resample : Resampler fmt params) (ost : OutputStream fmt params) : Prop where
  full : ∀ e ∈ ost.encoded, e.samples.length = ost.frame.nbSamples
  stream : streamOf resample ost.fed =
    ost.encoded.flatMap Encoded.samples ++ samplesOf fmt ost.frame.data ost.frameSample ++ ost.swr
  placed : ∀ w ∈ ost.writes, w.2 = w.1 * fmt.unit

variable {resample : Resampler fmt params} {ost : OutputStream fmt params}

/-- A frame that is made writable has its samples, in the same buffer or in a copy. -/
theorem Conserved.makeWritable (h : Conserved resample ost)
    (hroom : ost.frameSample < ost.frame.nbSamples) (copy : Option AVFrame) :
    Conserved resample (ost.makeWritable copy) := by
  cases copy with
  | none => exact h
  | some fresh =>
    refine ⟨h.full, ?_, h.placed⟩
    simp only [OutputStream.makeWritable]
    rw [samplesOf_copy ost.frame.data fresh.data hroom.le, h.stream]

theorem OutputStream.frameSample_swrConvert_le (ost : OutputStream fmt params)
    (resample : Resampler fmt params) (hroom : ost.frameSample < ost.frame.nbSamples)
    (srcNumSamples n : Nat) :
    (ost.swrConvert resample srcNumSamples n).frameSample ≤ ost.frame.nbSamples := by
  simp only [OutputStream.swrConvert, List.length_take]
  omega

/-- **A conversion moves samples from the queue to the frame**, behind those it has, as long as the
place it writes to is the one behind them. -/
theorem Conserved.swrConvert (h : Conserved resample ost)
    (hplace : ost.destOffset = ost.frameSample * fmt.unit) (srcNumSamples n : Nat) :
    Conserved resample (ost.swrConvert resample srcNumSamples n) := by
  refine ⟨h.full, ?_, ?_⟩
  · simp only [OutputStream.swrConvert, hplace]
    rw [streamOf_append, h.stream, samplesOf_write]
    -- what is taken from the queue and what stays make up the queue
    set input := samplesOf params.floatPlanar ost.tmpFrame.data srcNumSamples
    set swr := ost.swr ++ resample (ost.fed ++ [input]) with hswr
    set room := min n (ost.frame.nbSamples - ost.frameSample)
    have hqueue : swr.take room ++ swr.drop (swr.take room).length = swr := by
      rw [List.length_take]
      rcases Nat.le_total room swr.length with hle | hle
      · rw [Nat.min_eq_left hle, List.take_append_drop]
      · rw [Nat.min_eq_right hle, List.take_of_length_le hle, List.drop_length, List.append_nil]
    rw [List.append_assoc, ← hswr, List.append_assoc, List.append_assoc, List.append_assoc,
      hqueue]
  · intro w hw
    rcases List.mem_append.mp hw with hold | hnew
    · exact h.placed w hold
    · rw [List.mem_singleton.mp hnew]
      exact hplace

/-- A full frame goes to the encoder, and an empty one is begun. -/
theorem Conserved.encode (h : Conserved resample ost)
    (hfull : ost.frameSample = ost.frame.nbSamples) : Conserved resample ost.encode := by
  refine ⟨?_, ?_, h.placed⟩
  · intro e he
    rcases List.mem_append.mp he with hold | hnew
    · exact h.full e hold
    · rw [List.mem_singleton.mp hnew]
      exact samplesOf_length _ _
  · simp only [OutputStream.encode]
    rw [h.stream, hfull, List.flatMap_append, List.flatMap_singleton, samplesOf_zero,
      List.append_nil]

/-! ## A call of write_audio_frame in which nothing fails -/

def Round.Succeeds (round : Round) : Prop :=
  round.converted.isSome = true ∧ round.gotPacket.isSome = true

def Answers.Succeed (answers : Answers) : Prop :=
  answers.writable.isSome = true ∧ ∀ round ∈ answers.rounds, round.Succeeds

/-- The stream after calls that were given the input once. -/
structure Wrote (resample : Resampler fmt params) (ost : OutputStream fmt params)
    (srcNumSamples : Nat) (ost' : OutputStream fmt params) : Prop where
  conserved : Conserved resample ost'
  room : ost'.frameSample < ost'.frame.nbSamples
  kept : ost.Kept ost'
  fed : ost'.fed.flatten =
    ost.fed.flatten ++ samplesOf params.floatPlanar ost.tmpFrame.data srcNumSamples

/-- A call without input after one that was given it: together they have taken the input once. -/
theorem Wrote.trans {ost₁ ost₂ ost₃ : OutputStream fmt params} {srcNumSamples : Nat}
    (h : Wrote resample ost₁ srcNumSamples ost₂) (h' : Wrote resample ost₂ 0 ost₃) :
    Wrote resample ost₁ srcNumSamples ost₃ where
  conserved := h'.conserved
  room := h'.room
  kept := h.kept.trans h'.kept
  fed := by rw [h'.fed, h.fed, samplesOf_zero, List.append_nil]

theorem OutputStream.flatten_fed_swrConvert (resample : Resampler fmt params)
    (ost : OutputStream fmt params) (srcNumSamples n : Nat) :
    (ost.swrConvert resample srcNumSamples n).fed.flatten =
      ost.fed.flatten ++ samplesOf params.floatPlanar ost.tmpFrame.data srcNumSamples := by
  simp only [OutputStream.swrConvert]
  rw [List.flatten_append, List.flatten_singleton]

/-- A round that fills the frame and hands it over does what a call is to do, up to the rounds that
come after it. -/
theorem Wrote.of_encode (hc : Conserved resample ost)
    (hplace : ost.destOffset = ost.frameSample * fmt.unit)
    (hroom : ost.frameSample < ost.frame.nbSamples) {srcNumSamples n : Nat}
    (hfull : ¬ (ost.swrConvert resample srcNumSamples n).frameSample < ost.frame.nbSamples) :
    Wrote resample ost srcNumSamples (ost.swrConvert resample srcNumSamples n).encode where
  conserved := by
    have hle := ost.frameSample_swrConvert_le resample hroom srcNumSamples n
    exact (hc.swrConvert hplace srcNumSamples n).encode
      (Nat.le_antisymm hle (Nat.le_of_not_lt hfull))
  room := by
    show 0 < ost.frame.nbSamples
    omega
  kept := (ost.kept_swrConvert srcNumSamples n).trans (OutputStream.kept_encode _)
  fed := ost.flatten_fed_swrConvert resample srcNumSamples n

/-- **The rounds of a call in which nothing fails.** The first one has the input, the others drain
the resampler. Where the call asks for another one it has left no begun frame behind. -/
theorem writeRounds_wrote {rounds : List Round} (hok : ∀ round ∈ rounds, round.Succeeds)
    {srcNumSamples : Nat} {res : Int} {ost' : OutputStream fmt params}
    (hc : Conserved resample ost) (hplace : ost.destOffset = ost.frameSample * fmt.unit)
    (hroom : ost.frameSample < ost.frame.nbSamples)
    (h : ost.writeRounds resample rounds srcNumSamples = some (res, ost')) :
    Wrote resample ost srcNumSamples ost' ∧ (res > 0 → ost'.frameSample = 0) := by
  induction rounds generalizing ost srcNumSamples with
  | nil => cases h
  | cons round rounds ih =>
    obtain ⟨hconverted, hpacket⟩ := hok round (List.mem_cons_self ..)
    obtain ⟨n, hn⟩ := Option.isSome_iff_exists.mp hconverted
    obtain ⟨gotPacket, hgot⟩ := Option.isSome_iff_exists.mp hpacket
    have hrest : ∀ round ∈ rounds, round.Succeeds := fun r hr =>
      hok r (List.mem_cons_of_mem _ hr)
    simp only [OutputStream.writeRounds, hn, hgot] at h
    split at h
    case isTrue hshort =>
      -- the frame is not full yet
      cases h
      refine ⟨⟨hc.swrConvert hplace _ _, hshort, ost.kept_swrConvert srcNumSamples n, ?_⟩, ?_⟩
      · exact ost.flatten_fed_swrConvert resample srcNumSamples n
      · exact fun hpos => absurd hpos (by decide)
    case isFalse hfull =>
      have hwrote := Wrote.of_encode hc hplace hroom hfull
      split at h
      · -- another round: the frame is empty, so the next sample is the first
        have hnext := ih hrest hwrote.conserved
          (by simp [OutputStream.destOffset, OutputStream.encode]) hwrote.room h
        exact ⟨hwrote.trans hnext.1, hnext.2⟩
      · split at h <;> cases h <;> exact ⟨hwrote, fun _ => rfl⟩

/-- Where the next `swr_convert` writes is where the last sample ended: the frame is empty, or the
line size gives the size of a sample. -/
def Continues (ost : OutputStream fmt params) (copy : Option AVFrame) : Prop :=
  ost.frameSample = 0 ∨
    (ost.makeWritable copy).frame.lineSize / ost.frame.nbSamples = fmt.unit

/-- The place that is derived from the line size is the one behind the last sample, if the line size
is exact or the frame is empty. -/
theorem Continues.destOffset {copy : Option AVFrame} (h : Continues ost copy) :
    (ost.makeWritable copy).destOffset = (ost.makeWritable copy).frameSample * fmt.unit := by
  have hsame : (ost.makeWritable copy).frameSample = ost.frameSample ∧
      (ost.makeWritable copy).frame.nbSamples = ost.frame.nbSamples := by
    cases copy <;> exact ⟨rfl, rfl⟩
  unfold OutputStream.destOffset
  rw [hsame.1, hsame.2]
  rcases h with hempty | hunit
  · rw [hempty, Nat.zero_mul, Nat.zero_mul]
  · rw [hunit]

/-- A whole call: the frame is made writable, which changes none of its samples, and the rounds run.
-/
theorem writeAudioFrame_wrote {answers : Answers} (hok : answers.Succeed) {srcNumSamples : Nat}
    {res : Int} {ost' : OutputStream fmt params} (hc : Conserved resample ost)
    (hroom : ost.frameSample < ost.frame.nbSamples)
    (hplace : ∀ copy, answers.writable = some copy → Continues ost copy)
    (h : ost.writeAudioFrame resample answers srcNumSamples = some (res, ost')) :
    Wrote resample ost srcNumSamples ost' ∧ (res > 0 → ost'.frameSample = 0) := by
  obtain ⟨copy, hcopy⟩ := Option.isSome_iff_exists.mp hok.1
  simp only [OutputStream.writeAudioFrame, hcopy] at h
  have hc' := hc.makeWritable hroom copy
  have hoff := (hplace copy hcopy).destOffset
  have hkept := ost.kept_makeWritable copy
  have hsample : (ost.makeWritable copy).frameSample = ost.frameSample := by cases copy <;> rfl
  have hfed : (ost.makeWritable copy).fed = ost.fed := by cases copy <;> rfl
  have hroom' : (ost.makeWritable copy).frameSample < (ost.makeWritable copy).frame.nbSamples := by
    rw [hsample, hkept.nb]
    exact hroom
  obtain ⟨hwrote, hempty⟩ := writeRounds_wrote hok.2 hc' hoff hroom' h
  refine ⟨⟨hwrote.conserved, hwrote.room, hkept.trans hwrote.kept, ?_⟩, hempty⟩
  rw [hwrote.fed, hfed, hkept.tmp]

/-- Every further call finds the frame empty, so that only the first one has to continue it. -/
theorem updateLoop_wrote {calls : List Answers} (hok : ∀ answers ∈ calls, answers.Succeed)
    {srcNumSamples : Nat} {ost' : OutputStream fmt params} (hc : Conserved resample ost)
    (hroom : ost.frameSample < ost.frame.nbSamples)
    (hplace : ∀ answers ∈ calls.head?, ∀ copy, answers.writable = some copy → Continues ost copy)
    (h : ost.updateLoop resample calls srcNumSamples = some ost') :
    Wrote resample ost srcNumSamples ost' := by
  induction calls generalizing ost srcNumSamples with
  | nil => cases h
  | cons answers calls ih =>
    rw [OutputStream.updateLoop] at h
    split at h
    · cases h
    next res ost₁ hcall =>
      have hanswers := hok answers (List.mem_cons_self ..)
      have hfirst := writeAudioFrame_wrote hanswers hc hroom (hplace answers rfl) hcall
      split at h
      -- more samples are to come: the frame that is open is continued
      case isTrue hpos =>
        have hrest := ih (fun a ha => hok a (List.mem_cons_of_mem _ ha)) hfirst.1.conserved
          hfirst.1.room (fun _ _ _ _ => Or.inl (hfirst.2 hpos)) h
        exact hfirst.1.trans hrest
      case isFalse _ =>
        cases h
        exact hfirst.1

/-! ## UpdateAudio -/

/-- A line is not padded exactly if its length is a multiple of 32. -/
theorem align32_eq_iff {n : Nat} : align32 n = n ↔ n % 32 = 0 := by
  unfold align32
  omega

theorem le_align32 (n : Nat) : n ≤ align32 n := by
  unfold align32
  omega

namespace OutputStream

/-- The line size of the frame that takes the bus, in bytes: four for each of the padded samples. -/
theorem lineSize_openAudio (fmt : SampleFormat) (params : AudioParameters) (nbSamples : Nat) :
    (openAudio fmt params nbSamples).tmpFrame.lineSize = 4 * align32 params.frameSize := by
  by_cases hzero : params.frameSize = 0
  · simp [openAudio, allocAudioFrame, hzero, align32]
  · simp [openAudio, allocAudioFrame, hzero, AudioParameters.floatPlanar]

/-- What is copied from a bus of the announced shape is the bus, channel by channel. -/
theorem samplesOf_putData (ost : OutputStream fmt params) {bus : AudioBus}
    (hchannels : bus.channels = params.channels) {n size : Nat} (hsize : n * 4 ≤ size) :
    samplesOf params.floatPlanar (ost.putData 0 bus 0 size).tmpFrame.data n =
      samplesOf params.floatPlanar bus.channel n := by
  apply samplesOf_congr
  intro i hi b hb
  have hchannel : i < min numDataPointers bus.channels := by
    have hle := params.channels_le
    have hi : i < params.channels := hi
    omega
  have hb : b < n * 4 := hb
  simp only [putData, hchannel, if_true, memcpy]
  rw [if_pos (by omega)]
  simp

/-- `PutData` stays on the bus exactly when the line size is not padded: it copies a line, not as
many samples as the bus has. -/
theorem reads_putData_iff (ost : OutputStream fmt params) {bus : AudioBus}
    (hchannels : bus.channels = params.channels) (hframes : bus.frames = params.frameSize) :
    (∀ r ∈ (ost.putData 0 bus 0 (4 * align32 params.frameSize)).reads, r.1 < r.2) ↔
      (∀ r ∈ ost.reads, r.1 < r.2) ∧ params.frameSize % 32 = 0 := by
  have hsize : (4 * align32 params.frameSize + 3) / 4 = align32 params.frameSize := by omega
  have hsome : 0 < min numDataPointers bus.channels := by
    have hpos := params.channels_pos
    have height : 0 < numDataPointers := by decide
    omega
  have hle := le_align32 params.frameSize
  constructor
  · intro h
    refine ⟨fun r hr => h r (List.mem_append_left _ hr), align32_eq_iff.mp ?_⟩
    -- the first index behind the bus is read from the first channel
    by_contra hne
    have hread : (params.frameSize, bus.frames) ∈
        (ost.putData 0 bus 0 (4 * align32 params.frameSize)).reads := by
      apply List.mem_append_right
      refine List.mem_flatMap.mpr ⟨0, List.mem_range.mpr hsome, ?_⟩
      refine List.mem_map.mpr ⟨params.frameSize, List.mem_range.mpr ?_, ?_⟩
      · omega
      · simp
    have hlt : params.frameSize < bus.frames := h _ hread
    omega
  · intro ⟨hold, hzero⟩ r hr
    have heq := align32_eq_iff.mpr hzero
    rcases List.mem_append.mp hr with hr | hr
    · exact hold r hr
    · obtain ⟨_, _, hr⟩ := List.mem_flatMap.mp hr
      obtain ⟨k, hk, hr⟩ := List.mem_map.mp hr
      have hk := List.mem_range.mp hk
      rw [← hr]
      show 0 / 4 + k < bus.frames
      omega

/-- The first `swr_convert` of the loop is on record, with the place it was to write to and the one
it has written to. -/
theorem first_writeRounds {resample : Resampler fmt params} {ost ost' : OutputStream fmt params}
    {rounds : List Round} (hok : ∀ round ∈ rounds, round.Succeeds) {srcNumSamples : Nat}
    {res : Int} (h : ost.writeRounds resample rounds srcNumSamples = some (res, ost')) :
    (ost.frameSample, ost.destOffset) ∈ ost'.writes := by
  cases rounds with
  | nil => cases h
  | cons round rounds =>
    obtain ⟨hconverted, hpacket⟩ := hok round (List.mem_cons_self ..)
    obtain ⟨n, hn⟩ := Option.isSome_iff_exists.mp hconverted
    obtain ⟨gotPacket, hgot⟩ := Option.isSome_iff_exists.mp hpacket
    have hwritten : (ost.frameSample, ost.destOffset) ∈
        (ost.swrConvert resample srcNumSamples n).writes :=
      List.mem_append_right _ (List.mem_singleton.mpr rfl)
    -- whatever comes after it, the record only grows
    simp only [writeRounds, hn, hgot] at h
    split at h
    · cases h
      exact hwritten
    · split at h
      · have hkept := (keeps_kept resample _).writeRounds h (Kept.refl _)
        exact hkept.writes.subset hwritten
      · split at h <;> cases h <;> exact hwritten

/-- The same for the first call of the loop of `UpdateAudio`. -/
theorem first_updateLoop {resample : Resampler fmt params} {ost ost' : OutputStream fmt params}
    {answers : Answers} {calls : List Answers} (hok : answers.Succeed) {srcNumSamples : Nat}
    {copy : Option AVFrame} (hcopy : answers.writable = some copy)
    (h : ost.updateLoop resample (answers :: calls) srcNumSamples = some ost') :
    (ost.frameSample, (ost.makeWritable copy).destOffset) ∈ ost'.writes := by
  have hsample : (ost.makeWritable copy).frameSample = ost.frameSample := by cases copy <;> rfl
  rw [updateLoop] at h
  split at h
  · cases h
  next res ost₁ hcall =>
    simp only [writeAudioFrame, hcopy] at hcall
    have hfirst := first_writeRounds hok.2 hcall
    rw [hsample] at hfirst
    split at h
    · have hkept := (keeps_kept resample _).updateLoop h (Kept.refl _)
      exact hkept.writes.subset hfirst
    · cases h
      exact hfirst

end OutputStream

namespace Recorder

variable {toInt : ℚ → Int} {resample : Resampler fmt params} {s t : Recorder fmt params}

/-- Every sample is heard, resampled and handed over once and in its place. -/
structure Faithful (resample : Resampler fmt params) (s : Recorder fmt params) : Prop where
  /-- The resampler is given the buses, one after the other. -/
  input : s.audioSt.fed.flatten = s.heard
  /-- The frames are the resampled input, cut at a multiple of `nb_samples`. -/
  frames : s.audioSt.encoded.flatMap Encoded.samples =
    (streamOf resample s.audioSt.fed).take
      (s.audioSt.frame.nbSamples * s.audioSt.encoded.length)
  /-- The rest is in the begun frame and in the resampler. -/
  rest : streamOf resample s.audioSt.fed =
    s.audioSt.encoded.flatMap Encoded.samples ++
      samplesOf fmt s.audioSt.frame.data s.audioSt.frameSample ++ s.audioSt.swr
  /-- Each `swr_convert` wrote at the byte after the last sample of the frame. -/
  placed : ∀ w ∈ s.audioSt.writes, w.2 = w.1 * fmt.unit
  /-- `PutData` stayed on the bus. -/
  inBounds : ∀ r ∈ s.audioSt.reads, r.1 < r.2

/-- A bus has the announced shape, and no FFmpeg call fails. -/
def Op.Announced (params : AudioParameters) : Op → Prop
  | .updateAudio bus _ _ calls =>
    bus.channels = params.channels ∧ bus.frames = params.frameSize ∧
      ∀ answers ∈ calls, answers.Succeed
  | _ => True

/-- The condition on a step: the frames of a bus are a multiple of 32, and the frame is empty or its
line size gives the size of a sample. -/
def StepOk (s : Recorder fmt params) : Op → Prop
  | .updateAudio _ _ _ calls => s.Accepts →
    params.frameSize % 32 = 0 ∧
      ∀ answers ∈ calls.head?, ∀ copy, answers.writable = some copy → Continues s.audioSt copy
  | _ => True

/-- What no step changes. -/
structure Shape (nbSamples : Nat) (s : Recorder fmt params) : Prop where
  nb : s.audioSt.frame.nbSamples = nbSamples
  frameSize : s.audioSt.tmpFrame.nbSamples = params.frameSize
  lineSize : s.audioSt.tmpFrame.lineSize = 4 * align32 params.frameSize

/-- What every step keeps under the condition. -/
structure Inv (resample : Resampler fmt params) (s : Recorder fmt params) : Prop where
  conserved : Conserved resample s.audioSt
  room : s.audioSt.frameSample < s.audioSt.frame.nbSamples
  input : s.audioSt.fed.flatten = s.heard
  inBounds : ∀ r ∈ s.audioSt.reads, r.1 < r.2

theorem Shape.initAudio (nbSamples sampleRate : Nat) (haveVideo audioOnly : Bool)
    (forceSync : Int) :
    Shape nbSamples
      (initAudio fmt params nbSamples sampleRate haveVideo audioOnly forceSync) where
  nb := rfl
  frameSize := rfl
  lineSize := OutputStream.lineSize_openAudio fmt params nbSamples

/-- A stream that was just made has read nothing, begun nothing and handed over nothing. -/
theorem Inv.initAudio {nbSamples : Nat} (hnb : 0 < nbSamples) (sampleRate : Nat)
    (haveVideo audioOnly : Bool) (forceSync : Int) :
    Inv resample (initAudio fmt params nbSamples sampleRate haveVideo audioOnly forceSync) where
  conserved := by
    refine ⟨?_, rfl, ?_⟩ <;> intro _ h <;> cases h
  room := hnb
  input := rfl
  inBounds := by
    intro _ h
    cases h

/-- The frames of a conserved stream are the resampled input, cut: the first `nb_samples` are the
first frame, and so on. -/
theorem Conserved.frames {ost : OutputStream fmt params} (h : Conserved resample ost) :
    ost.encoded.flatMap Encoded.samples =
      (streamOf resample ost.fed).take (ost.frame.nbSamples * ost.encoded.length) := by
  have hlen : (ost.encoded.flatMap Encoded.samples).length =
      ost.frame.nbSamples * ost.encoded.length := by
    have hfull := h.full
    generalize ost.encoded = encoded at hfull
    induction encoded with
    | nil => rfl
    | cons e encoded ih =>
      rw [List.flatMap_cons, List.length_append, hfull e (List.mem_cons_self ..),
        ih fun e he => hfull e (List.mem_cons_of_mem _ he), List.length_cons]
      ring
  rw [h.stream, List.append_assoc, ← hlen, List.take_left']
  rfl

/-- What the claim asks for, read off the invariant. -/
theorem Inv.faithful (h : Inv resample s) : s.Faithful resample where
  input := h.input
  frames := Conserved.frames h.conserved
  rest := h.conserved.stream
  placed := h.conserved.placed
  inBounds := h.inBounds

/-- No step changes the sizes. -/
theorem Shape.step {nbSamples : Nat} (h : Shape nbSamples s) {op : Op}
    (hstep : s.step toInt resample op = some t) : Shape nbSamples t := by
  cases op with
  | initFile =>
    cases hstep
    exact ⟨h.nb, h.frameSize, h.lineSize⟩
  | updateVideo time =>
    simp only [Recorder.step] at hstep
    split at hstep <;> cases hstep <;> exact ⟨h.nb, h.frameSize, h.lineSize⟩
  | updateAudio bus time delay calls =>
    by_cases haccepts : s.Accepts
    · obtain ⟨pts, outTolerance, ost, hloop, rfl, -⟩ := updateAudio_cases haccepts hstep
      have hkept := (OutputStream.keeps_kept resample _).updateLoop hloop (.refl _)
      have htmp : ost.tmpFrame.nbSamples = s.audioSt.tmpFrame.nbSamples ∧
          ost.tmpFrame.lineSize = s.audioSt.tmpFrame.lineSize := by
        rw [hkept.tmp]
        exact ⟨rfl, rfl⟩
      exact ⟨hkept.nb.trans h.nb, htmp.1.trans h.frameSize, htmp.2.trans h.lineSize⟩
    · rw [eq_of_not_accepts haccepts hstep]
      exact h

/-- **A step that meets the condition loses nothing.** The bus is copied within its bounds and all
of it is fed to the resampler; what comes out is filled in behind what is there. -/
theorem Inv.step {nbSamples : Nat} (hshape : Shape nbSamples s) (h : Inv resample s) {op : Op}
    (hop : op.Announced params) (hok : s.StepOk op)
    (hstep : s.step toInt resample op = some t) : Inv resample t := by
  cases op with
  | initFile =>
    cases hstep
    exact ⟨h.conserved, h.room, h.input, h.inBounds⟩
  | updateVideo time =>
    simp only [Recorder.step] at hstep
    split at hstep <;> cases hstep <;> exact ⟨h.conserved, h.room, h.input, h.inBounds⟩
  | updateAudio bus time delay calls =>
    by_cases haccepts : s.Accepts
    case neg =>
      rw [eq_of_not_accepts haccepts hstep]
      exact h
    obtain ⟨hchannels, hframes, hsucceed⟩ := hop
    obtain ⟨hsize, hplace⟩ := hok haccepts
    obtain ⟨pts, outTolerance, ost, hloop, rfl, -⟩ := updateAudio_cases haccepts hstep
    rw [hshape.lineSize, hshape.frameSize] at hloop
    -- the bus is copied, and read within its bounds
    have hle := le_align32 params.frameSize
    have hcopied := OutputStream.samplesOf_putData (s.audioSt.setPts pts) hchannels
      (show params.frameSize * 4 ≤ 4 * align32 params.frameSize by omega)
    have hreads := (OutputStream.reads_putData_iff (s.audioSt.setPts pts) hchannels hframes).mpr
      ⟨h.inBounds, hsize⟩
    set ost₀ := (s.audioSt.setPts pts).putData 0 bus 0 (4 * align32 params.frameSize)
    have hc : Conserved resample ost₀ := ⟨h.conserved.full, h.conserved.stream, h.conserved.placed⟩
    have hplace₀ : ∀ answers ∈ calls.head?, ∀ copy, answers.writable = some copy →
        Continues ost₀ copy := by
      intro answers hhead copy hcopy
      have hcontinues := hplace answers hhead copy hcopy
      cases copy <;> exact hcontinues
    have hwrote := updateLoop_wrote hsucceed hc h.room hplace₀ hloop
    refine ⟨hwrote.conserved, hwrote.room, ?_, ?_⟩
    · show ost.fed.flatten = s.heard ++ samplesOf params.floatPlanar bus.channel bus.frames
      rw [hwrote.fed, hcopied, hframes, ← h.input]
      rfl
    · show ∀ r ∈ ost.reads, r.1 < r.2
      rw [hwrote.kept.reads]
      exact hreads

/-- What the record of the writes and reads must show. -/
structure Recorded (s : Recorder fmt params) : Prop where
  placed : ∀ w ∈ s.audioSt.writes, w.2 = w.1 * fmt.unit
  inBounds : ∀ r ∈ s.audioSt.reads, r.1 < r.2

/-- A step after which the record is as it must be meets the condition and found the record so. -/
theorem Recorded.stepOk {nbSamples : Nat} (hshape : Shape nbSamples s) {op : Op}
    (hop : op.Announced params) (hstep : s.step toInt resample op = some t)
    (h : Recorded t) : s.StepOk op ∧ Recorded s := by
  cases op with
  | initFile =>
    cases hstep
    exact ⟨trivial, h.placed, h.inBounds⟩
  | updateVideo time =>
    simp only [Recorder.step] at hstep
    split at hstep <;> cases hstep <;> exact ⟨trivial, h.placed, h.inBounds⟩
  | updateAudio bus time delay calls =>
    by_cases haccepts : s.Accepts
    case neg =>
      rw [eq_of_not_accepts haccepts hstep] at h
      exact ⟨fun hyes => absurd hyes haccepts, h⟩
    obtain ⟨hchannels, hframes, hsucceed⟩ := hop
    obtain ⟨pts, outTolerance, ost, hloop, rfl, -⟩ := updateAudio_cases haccepts hstep
    rw [hshape.lineSize, hshape.frameSize] at hloop
    have hkept := (OutputStream.keeps_kept resample _).updateLoop hloop (.refl _)
    have hplaced : ∀ w ∈ ost.writes, w.2 = w.1 * fmt.unit := h.placed
    have hreads : ∀ r ∈ ost.reads, r.1 < r.2 := h.inBounds
    rw [hkept.reads] at hreads
    have hreads' := (OutputStream.reads_putData_iff (s.audioSt.setPts pts) hchannels hframes).mp
      hreads
    refine ⟨fun _ => ⟨hreads'.2, ?_⟩, fun w hw => hplaced w (hkept.writes.subset hw), hreads'.1⟩
    intro answers hhead copy hcopy
    obtain ⟨calls, rfl⟩ : ∃ rest, calls = answers :: rest :=
      ⟨calls.tail, (List.cons_head?_tail hhead).symm⟩
    have hfirst := OutputStream.first_updateLoop (hsucceed answers (List.mem_cons_self ..)) hcopy
      hloop
    have hoffset := hplaced _ hfirst
    -- the offset of a frame that is not empty gives the size of a sample
    by_cases hempty : s.audioSt.frameSample = 0
    · exact Or.inl hempty
    · right
      have hpos : 0 < s.audioSt.frameSample := by omega
      have hmul : s.audioSt.frameSample *
          ((s.audioSt.makeWritable copy).frame.lineSize / s.audioSt.frame.nbSamples) =
          s.audioSt.frameSample * fmt.unit := by
        cases copy <;> exact hoffset
      exact Nat.eq_of_mul_eq_mul_left hpos hmul

/-- **Samples are neither lost, duplicated nor misplaced exactly under the condition.** For every
resampler, every sample format and every sequence of calls with buses of the announced shape in
which no FFmpeg call fails: the recorder is faithful if and only if at every step the frames of a
bus are a multiple of 32 and a begun frame is continued with the size of a sample. -/
theorem samples_iff (toInt : ℚ → Int) (resample : Resampler fmt params) {nbSamples : Nat}
    (hnb : 0 < nbSamples) (sampleRate : Nat) (haveVideo audioOnly : Bool) (forceSync : Int)
    {ops : List Op} (hops : ∀ op ∈ ops, op.Announced params) {t : Recorder fmt params}
    (hrun : Lts.Run (Lts.ofPartial (step toInt resample))
      (initAudio fmt params nbSamples sampleRate haveVideo audioOnly forceSync) ops t) :
    t.Faithful resample ↔
      Lts.Run (Lts.Guarded StepOk (Lts.ofPartial (step toInt resample)))
        (initAudio fmt params nbSamples sampleRate haveVideo audioOnly forceSync) ops t := by
  have hshape : Shape nbSamples
      (initAudio fmt params nbSamples sampleRate haveVideo audioOnly forceSync) :=
    .initAudio nbSamples sampleRate haveVideo audioOnly forceSync
  have hlabels := hrun.guardLabels hops
  constructor
  · intro h
    -- what a faithful recorder has on record at the end was so at every step
    have hrec : Recorded t := ⟨h.placed, h.inBounds⟩
    have hguarded : Lts.Run (Lts.Guarded StepOk _) _ ops t :=
      (hlabels.guarded_of_last (I := Shape nbSamples) (fun s op t hs hst => hs.step hst.2)
        (fun s op t hs hst ht => Recorded.stepOk hs hst.1 hst.2 ht) hshape hrec).1
    exact hguarded.mono fun _ _ _ hst => ⟨hst.1, hst.2.2⟩
  · intro hguarded
    have hinit : Inv resample
        (initAudio fmt params nbSamples sampleRate haveVideo audioOnly forceSync) :=
      .initAudio hnb sampleRate haveVideo audioOnly forceSync
    have hboth := (hguarded.guardLabels hops).invariant
      (I := fun s => Shape nbSamples s ∧ Inv resample s)
      (fun s op t hs hst =>
        ⟨hs.1.step hst.2.2, Inv.step hs.1 hs.2 hst.1 hst.2.1 hst.2.2⟩) ⟨hshape, hinit⟩
    exact Inv.faithful hboth.2

/-- A mono stream of floats. -/
def mono (frameSize : Nat) : AudioParameters where
  channels := 1
  frameSize := frameSize
  channels_pos := by decide
  channels_le := by decide

/-- No change of rate or format: a call makes the samples it is given. -/
def copying (frameSize : Nat) : Resampler (mono frameSize).floatPlanar (mono frameSize) :=
  fun fed => fed.getLastD []

def silence (frameSize : Nat) : AudioBus := ⟨1, frameSize, fun _ _ => 0⟩

/-- Two buses of 32 frames that fill a frame of 64. -/
def twoBuses : List Op :=
  [.initFile, .updateAudio (silence 32) 1000000 0 [{ rounds := [{ converted := some 32 }] }],
    .updateAudio (silence 32) 1000667 0
      [{ rounds := [{ converted := some 32, gotPacket := some true }] }]]

/-- Two buses of 32 samples fill one frame of 64, the second one behind the first. -/
theorem samples_iff_twoBuses :
    ∃ t : Recorder (mono 32).floatPlanar (mono 32),
      t.Faithful (copying 32) ∧ t.audioSt.encoded.length = 1 := by
  have hops : ∀ op ∈ twoBuses, op.Announced (mono 32) := by
    simp [twoBuses, Op.Announced, silence, mono, Answers.Succeed, Round.Succeeds]
  have hfirst : ∀ {s : Recorder (mono 32).floatPlanar (mono 32)} {bus time delay rounds},
      Continues s.audioSt none → s.StepOk (.updateAudio bus time delay [⟨some none, rounds⟩]) := by
    intro s bus time delay rounds hplace _
    refine ⟨rfl, ?_⟩
    intro answers hanswers copy hcopy
    cases hanswers
    cases hcopy
    exact hplace
  have hrun : Lts.Run (Lts.Guarded StepOk (Lts.ofPartial (step truncate (copying 32))))
      (initAudio (mono 32).floatPlanar (mono 32) 64 48000 false true 1) twoBuses _ :=
    .cons ⟨trivial, rfl⟩ (.cons ⟨hfirst (.inl rfl), rfl⟩
      (.cons ⟨hfirst (.inr rfl), rfl⟩ (.nil _)))
  exact ⟨_, (samples_iff truncate (copying 32) (by decide) 48000 false true 1 hops
    hrun.unguard).mpr hrun, rfl⟩

/-- A bus of 441 frames, ten milliseconds at 44.1 kHz; the resampler holds them back. -/
def tenMilliseconds : List Op :=
  [.initFile,
    .updateAudio (silence 441) 1000000 0 [{ rounds := [{ converted := some 0 }] }]]

/-- `PutData` reads behind the 441 frames of ten milliseconds at 44100 Hz, as 441 is padded to 448.
-/
theorem tenMilliseconds_not_faithful :
    (∀ op ∈ tenMilliseconds, op.Announced (mono 441)) ∧
      ∃ t : Recorder (mono 441).floatPlanar (mono 441),
        Lts.Run (Lts.ofPartial (step truncate (copying 441)))
          (initAudio (mono 441).floatPlanar (mono 441) 1024 44100 false true 1)
          tenMilliseconds t ∧
        ¬ t.Faithful (copying 441) := by
  refine ⟨?_, ?_⟩
  · simp [tenMilliseconds, Op.Announced, silence, mono, Answers.Succeed, Round.Succeeds]
  · refine ⟨_, .cons rfl (.cons rfl (.nil _)), ?_⟩
    intro h
    have hsize := ((OutputStream.reads_putData_iff
      (OutputStream.openAudio (mono 441).floatPlanar (mono 441) 1024) rfl rfl).mp h.inBounds).2
    exact absurd hsize (by decide)

end Recorder

end NodeWebkit.MediaRecorder.Audio
