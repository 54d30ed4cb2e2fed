import NodeWebkit.Lib.Loop
import NodeWebkit.MediaRecorder.AudioPts

/-!
# Stop flushes the encoders — three loops

`Stop` asks the video encoder for packets until it has none, drains the resampler through
`write_audio_frame` until that has no full frame left, and asks the audio encoder for packets. What
FFmpeg answers is given for every iteration, without an end.

* **`flushVideo`**, **`flushAudio`**, **`flushEncoder`** — the bodies of the three loops;
* **`drained_writeRounds`** — a call without input leaves less in the resampler, has no full frame,
  or fails at once;
* **`FailsAtOnce`** — the answers that leave the audio loop where it was.

`flush_ends_iff` says when `Stop` gets past the loops.
-/

namespace NodeWebkit.MediaRecorder.Audio

variable {fmt : SampleFormat} {params : AudioParameters}

/-! ## The source -/

/-- What an encoder answers a call with a null frame: whether it fails, and what is in `got_packet`
then. An error leaves anything there. -/
structure FlushAnswer where
  ok : Bool
  gotPacket : Bool

/-- A packet comes out while the encoder holds one. -/
def FlushAnswer.holding (answer : FlushAnswer) (packets : Nat) : FlushAnswer :=
  { answer with gotPacket := answer.gotPacket && (!answer.ok || 0 < packets) }

/-- The packets the encoder holds after the answer. -/
def FlushAnswer.left (answer : FlushAnswer) (packets : Nat) : Nat :=
  if answer.ok && answer.gotPacket then packets - 1 else packets

/-- `write_video_frame`; `got_packet` is not read after an error. -/
def writeVideoFrame (rawPicture frame : Bool) (answer : FlushAnswer) : Int :=
  if rawPicture then (if frame then 0 else 1)
  else if answer.ok then (if answer.gotPacket then 0 else 1)
  else -1

/-- What FFmpeg answers in each iteration of the three loops. -/
structure FlushAnswers where
  video : Nat → FlushAnswer
  writable : Nat → Option (Option AVFrame)
  rounds : Nat → Nat → Round
  encoder : Nat → FlushAnswer

/-- The answers to call `k` of `write_audio_frame` up to round `m`. -/
def FlushAnswers.call (answers : FlushAnswers) (m k : Nat) : Answers where
  writable := answers.writable k
  rounds := (List.range m).map (answers.rounds k)

/-- The loop over `write_video_frame`, which is entered if the codec has `CODEC_CAP_DELAY`; its
state is the number of packets in the encoder. -/
def flushVideo (rawPicture : Bool) (answers : FlushAnswers) (k packets : Nat) : Option Nat :=
  let answer := (answers.video k).holding packets
  let res := writeVideoFrame rawPicture false answer
  if res = 0 then some (answer.left packets) else none

/-- The loop over `write_audio_frame`. The state is `none` where a call has not returned after `m`
rounds. -/
def flushAudio (resample : Resampler fmt params) (answers : FlushAnswers) (m k : Nat) :
    Option (OutputStream fmt params) → Option (Option (OutputStream fmt params))
  | none => some none
  | some ost =>
    match ost.writeAudioFrame resample (answers.call m k) 0 with
    | none => some none
    | some (res, ost) => if res > -2 then some (some ost) else none

/-- The loop over `avcodec_encode_audio2`, which leaves `got_packet` in `res`. -/
def flushEncoder (answers : FlushAnswers) (k packets : Nat) : Option Nat :=
  let answer := (answers.encoder k).holding packets
  if answer.gotPacket then some (answer.left packets) else none

/-- What `Stop` flushes. -/
structure Flush (fmt : SampleFormat) (params : AudioParameters) where
  haveVideo : Bool
  rawPicture : Bool
  /-- The codecs have `CODEC_CAP_DELAY`. -/
  videoDelay : Bool
  audioDelay : Bool
  haveAudio : Bool
  /-- What the encoders hold when they are flushed. -/
  videoPackets : Nat
  audioPackets : Nat
  audioSt : OutputStream fmt params

/-- Every loop that is entered is over after finitely many iterations. -/
structure Flush.Ends (resample : Resampler fmt params) (answers : FlushAnswers) (m : Nat)
    (s : Flush fmt params) : Prop where
  video : s.haveVideo = true → s.videoDelay = true →
    Loop.Ends (flushVideo s.rawPicture answers) s.videoPackets
  audio : s.haveAudio = true → Loop.Ends (flushAudio resample answers m) (some s.audioSt)
  encoder : s.haveAudio = true → s.audioDelay = true →
    Loop.Ends (flushEncoder answers) s.audioPackets

/-! ## The encoders

Neither loop looks at what it was answered before. An answer counts by whether a packet comes out
and whether the call fails; a packet that comes out makes less of what the encoder still holds. -/

/-- A packet that comes out is one less in the encoder. -/
theorem FlushAnswer.left_lt {answer : FlushAnswer} {packets : Nat}
    (hok : answer.ok = true) (hgot : (answer.holding packets).gotPacket = true) :
    (answer.holding packets).left packets < packets := by
  have hpos : 0 < packets := by
    simp only [holding, hok, Bool.not_true, Bool.false_or, Bool.and_eq_true,
      decide_eq_true_eq] at hgot
    exact hgot.2
  have hboth : ((answer.holding packets).ok && (answer.holding packets).gotPacket) = true := by
    rw [hgot]
    show (answer.ok && true) = true
    rw [hok, Bool.true_and]
  rw [left, if_pos hboth]
  omega

theorem FlushAnswer.left_le (answer : FlushAnswer) (packets : Nat) :
    answer.left packets ≤ packets := by
  unfold left
  split <;> omega

/-- **The video loop ends**, however it is answered: it goes on only after a packet, and the encoder
holds a finite number of these. -/
theorem flushVideo_ends (rawPicture : Bool) (answers : FlushAnswers) (packets : Nat) :
    Loop.Ends (flushVideo rawPicture answers) packets := by
  refine Loop.ends_of_lt (I := fun _ => True) (m := id) (fun _ _ _ _ _ => trivial) ?_ trivial
  intro k packets left _ h
  simp only [flushVideo] at h
  split at h
  case isFalse => cases h
  case isTrue hres =>
    cases h
    -- the result is zero after a packet only
    unfold writeVideoFrame at hres
    split at hres
    · simp at hres
    · split at hres
      case isFalse => cases hres
      case isTrue hok =>
        split at hres
        case isFalse => cases hres
        case isTrue hgot => exact FlushAnswer.left_lt hok hgot

/-- An error that leaves `got_packet` set. -/
def ErrsWithPacket (answers : FlushAnswers) (k : Nat) : Prop :=
  (answers.encoder k).ok = false ∧ (answers.encoder k).gotPacket = true

/-- **The loop of the audio encoder ends unless it fails for good.** It looks at the packet only, so
a call that fails and sets the flag keeps it going. -/
theorem flushEncoder_ends_iff (answers : FlushAnswers) (packets : Nat) :
    Loop.Ends (flushEncoder answers) packets ↔
      ¬ Loop.FailsForGood (flushEncoder answers) (ErrsWithPacket answers) packets := by
  refine Loop.ends_iff (I := fun _ => True) (m := id) (ErrsWithPacket answers)
    (fun _ _ _ _ _ => trivial) ?_ ?_ ?_ trivial
  · intro k packets left _ h
    simp only [flushEncoder] at h
    split at h <;> cases h
    exact FlushAnswer.left_le _ _
  · intro k packets left _ hfails h
    simp only [flushEncoder] at h
    split at h
    case isFalse => cases h
    case isTrue hgot =>
      cases h
      -- the loop goes on, so the flag was set; and the call has not failed
      have hset : (answers.encoder k).gotPacket = true := by
        simp only [FlushAnswer.holding, Bool.and_eq_true] at hgot
        exact hgot.1
      have hok : (answers.encoder k).ok = true := by
        by_contra hno
        exact hfails ⟨by simpa using hno, hset⟩
      exact FlushAnswer.left_lt hok hgot
  · intro k packets _ hfails
    obtain ⟨hok, hgot⟩ := hfails
    simp [flushEncoder, FlushAnswer.holding, hok, hgot]

/-! ## The resampler

A call of `write_audio_frame` without input takes samples from the resampler and puts them into a
frame. Together they are counted in `content`, of which a frame that is handed over takes a part. -/

/-- A resampler that holds finitely many samples: what it has ready is all that is left, a call
without input makes nothing. -/
def Finite (resample : Resampler fmt params) : Prop := ∀ fed, resample (fed ++ [[]]) = []

variable {resample : Resampler fmt params} {ost : OutputStream fmt params}

/-- A call without input hands out what is taken from the queue: samples move to the frame and none
are made. -/
theorem length_swr_swrConvert (hfinite : Finite resample) (ost : OutputStream fmt params)
    (n : Nat) :
    (ost.swrConvert resample 0 n).swr.length + (ost.swrConvert resample 0 n).frameSample =
      ost.swr.length + ost.frameSample := by
  have hmade : resample (ost.fed ++ [samplesOf params.floatPlanar ost.tmpFrame.data 0]) = [] :=
    hfinite ost.fed
  simp only [OutputStream.swrConvert, hmade, List.append_nil, List.length_take, List.length_drop]
  omega

/-- The first round of the loop fails in `swr_convert`. -/
def ConvertFails : List Round → Prop
  | [] => False
  | round :: _ => round.converted = none

/-- **What a call without input leaves in the resampler.** It has no full frame, or fails before
anything is converted, or there is less. -/
theorem drained_writeRounds (hfinite : Finite resample) {rounds : List Round} {res : Int}
    {ost' : OutputStream fmt params} (hroom : ost.frameSample < ost.frame.nbSamples)
    (h : ost.writeRounds resample rounds 0 = some (res, ost')) :
    ost'.swr.length ≤ ost.swr.length ∧
      (res > -2 → ¬ ConvertFails rounds → ost'.swr.length < ost.swr.length) ∧
      (ConvertFails rounds → res = -1) := by
  induction rounds generalizing ost with
  | nil => cases h
  | cons round rounds ih =>
    rw [OutputStream.writeRounds] at h
    split at h
    case h_1 hnone =>
      cases h
      exact ⟨Nat.le_refl _, fun _ hno => absurd hnone hno, fun _ => rfl⟩
    case h_2 n hn =>
      have hsum := length_swr_swrConvert hfinite ost n
      have hgrows : ost.frameSample ≤ (ost.swrConvert resample 0 n).frameSample :=
        Nat.le_add_right ..
      have hconverts : ¬ ConvertFails (round :: rounds) := fun hnone => by
        rw [ConvertFails, hn] at hnone
        cases hnone
      dsimp only at h
      split at h
      case isTrue hshort =>
        cases h
        exact ⟨by omega, fun hres => absurd hres (by decide), fun hno => absurd hno hconverts⟩
      case isFalse hfull =>
        -- a full frame took at least one sample
        have hless : (ost.swrConvert resample 0 n).swr.length < ost.swr.length := by
          have hnb : (ost.swrConvert resample 0 n).frame.nbSamples = ost.frame.nbSamples := rfl
          omega
        split at h
        · cases h
          exact ⟨hless.le, fun _ _ => hless, fun hno => absurd hno hconverts⟩
        · split at h
          · have hempty : (ost.swrConvert resample 0 n).encode.frameSample <
                (ost.swrConvert resample 0 n).encode.frame.nbSamples :=
              Nat.lt_of_le_of_lt (Nat.zero_le _) hroom
            have hrest := (ih hempty h).1
            have hlater : ost'.swr.length < ost.swr.length := Nat.lt_of_le_of_lt hrest hless
            exact ⟨hlater.le, fun _ _ => hlater, fun hno => absurd hno hconverts⟩
          · split at h <;> cases h <;>
              exact ⟨hless.le, fun _ _ => hless, fun hno => absurd hno hconverts⟩

/-- More rounds than there are samples are enough for a call to return: each further round has
handed over a frame that was not empty. -/
theorem writeRounds_isSome (hfinite : Finite resample) {rounds : List Round}
    (hroom : ost.frameSample < ost.frame.nbSamples) (hlong : ost.swr.length < rounds.length) :
    (ost.writeRounds resample rounds 0).isSome = true := by
  induction rounds generalizing ost with
  | nil => cases hlong
  | cons round rounds ih =>
    rw [OutputStream.writeRounds]
    split
    case h_1 => rfl
    case h_2 n _ =>
      dsimp only
      split
      case isTrue => rfl
      case isFalse hfull =>
        have hsum := length_swr_swrConvert hfinite ost n
        have hnb : (ost.swrConvert resample 0 n).frame.nbSamples = ost.frame.nbSamples := rfl
        -- each round takes samples out of the resampler, and there are more rounds than samples
        have hfewer : (ost.swrConvert resample 0 n).encode.swr.length < rounds.length := by
          have hsame : (ost.swrConvert resample 0 n).encode.swr =
            (ost.swrConvert resample 0 n).swr := rfl
          rw [List.length_cons] at hlong
          rw [hsame]
          omega
        have hempty : (ost.swrConvert resample 0 n).encode.frameSample <
            (ost.swrConvert resample 0 n).encode.frame.nbSamples :=
          Nat.lt_of_le_of_lt (Nat.zero_le _) hroom
        split
        · rfl
        · split
          · exact ih hempty hfewer
          · split <;> rfl

/-- Frames without samples are always full, so a call hands one over after the other and asks for
more. -/
theorem writeRounds_of_no_samples {rounds : List Round} {srcNumSamples : Nat} {res : Int}
    {ost' : OutputStream fmt params} (hnb : ost.frame.nbSamples = 0)
    (h : ost.writeRounds resample rounds srcNumSamples = some (res, ost')) : res > -2 := by
  induction rounds generalizing ost srcNumSamples with
  | nil => cases h
  | cons round rounds ih =>
    rw [OutputStream.writeRounds] at h
    split at h
    · cases h
      decide
    · dsimp only at h
      split at h
      case isTrue hshort =>
        -- no sample count is below zero
        have hlt := Nat.lt_of_lt_of_eq hshort hnb
        exact absurd hlt (Nat.not_lt_zero _)
      case isFalse n _ _ =>
        have hnb' : (ost.swrConvert resample srcNumSamples n).encode.frame.nbSamples = 0 := hnb
        split at h
        · cases h
          decide
        · split at h
          · exact ih hnb' h
          · split at h
            · cases h
              split <;> decide
            · cases h
              decide

/-! ## The loop over write_audio_frame

The loop calls until the result is -2 or less. A failure is -1, so a call that fails at once is made
again, on the same state. -/

/-- The call fails before anything is converted. -/
def FailsAtOnce (answers : FlushAnswers) (k : Nat) : Prop :=
  answers.writable k = none ∨ (answers.rounds k 0).converted = none

/-- A stream whose calls return within `m` rounds. -/
def Returns (m : Nat) (o : Option (OutputStream fmt params)) : Prop :=
  ∃ ost, o = some ost ∧ Roomy ost ∧ ost.swr.length < m

/-- What is in the resampler. -/
def content : Option (OutputStream fmt params) → Nat
  | none => 0
  | some ost => ost.swr.length

/-- Whether the first conversion of a call fails is said by its first answer. -/
theorem convertFails_call (answers : FlushAnswers) {m : Nat} (k : Nat) (hm : 0 < m) :
    ConvertFails (answers.call m k).rounds ↔ (answers.rounds k 0).converted = none := by
  obtain ⟨m, rfl⟩ := Nat.exists_eq_succ_of_ne_zero hm.ne'
  simp [FlushAnswers.call, List.range_succ_eq_map, ConvertFails]

/-- One call of the loop, as it returns: the queue is not longer, it is shorter if the loop goes on
without a failure, and a call that fails at once returns -1. -/
theorem drained_writeAudioFrame (hfinite : Finite resample) (answers : FlushAnswers) {m : Nat}
    (k : Nat) (hroomy : Roomy ost) (hm : ost.swr.length < m) :
    ∃ res ost', ost.writeAudioFrame resample (answers.call m k) 0 = some (res, ost') ∧
      Roomy ost' ∧ ost'.swr.length ≤ ost.swr.length ∧
      (res > -2 → ¬ FailsAtOnce answers k → ost'.swr.length < ost.swr.length) ∧
      (FailsAtOnce answers k → res = -1) := by
  have hcalls := convertFails_call answers k (Nat.zero_lt_of_lt hm)
  rw [OutputStream.writeAudioFrame, show (answers.call m k).writable = answers.writable k from rfl]
  cases hwritable : answers.writable k with
  | none =>
    refine ⟨-1, ost, rfl, hroomy, Nat.le_refl _, ?_, fun _ => rfl⟩
    exact fun _ hno => absurd (Or.inl hwritable) hno
  | some copy =>
    have hcopy := (keeps_roomy resample).writable ost copy hroomy
    have hswr : (ost.makeWritable copy).swr = ost.swr := by cases copy <;> rfl
    have hlong : (ost.makeWritable copy).swr.length < (answers.call m k).rounds.length := by
      rw [hswr]
      simpa [FlushAnswers.call] using hm
    -- the frame was made writable, and the answers suffice for the call to return
    have hreturns := writeRounds_isSome hfinite hcopy.room hlong
    obtain ⟨⟨res, ost'⟩, hres⟩ := Option.isSome_iff_exists.mp hreturns
    obtain ⟨hle, hlt, hfails⟩ := drained_writeRounds hfinite hcopy.room hres
    rw [hswr] at hle hlt
    refine ⟨res, ost', hres, (keeps_roomy resample).writeRounds hres hcopy, hle, ?_, ?_⟩
    · intro hmore hno
      exact hlt hmore fun hconvert => hno (Or.inr (hcalls.mp hconvert))
    · intro hfail
      have hconvert := hfail.resolve_left (by rw [hwritable]; exact Option.some_ne_none copy)
      exact hfails (hcalls.mpr hconvert)

/-- One iteration of the loop: what is left gets less unless the call fails at once, and a call that
does keeps the loop going. -/
theorem flushAudio_cases (hfinite : Finite resample) (answers : FlushAnswers) {m : Nat} (k : Nat)
    {o : Option (OutputStream fmt params)} (ho : Returns m o) :
    (∀ o', flushAudio resample answers m k o = some o' → Returns m o' ∧
      content o' ≤ content o ∧ (¬ FailsAtOnce answers k → content o' < content o)) ∧
    (FailsAtOnce answers k → (flushAudio resample answers m k o).isSome = true) := by
  obtain ⟨ost, rfl, hroomy, hm⟩ := ho
  obtain ⟨res, ost', hres, hroomy', hle, hlt, hfails⟩ :=
    drained_writeAudioFrame hfinite answers k hroomy hm
  constructor
  · intro o' h
    simp only [flushAudio, hres] at h
    split at h
    case isFalse => cases h
    case isTrue hmore =>
      cases h
      exact ⟨⟨ost', rfl, hroomy', Nat.lt_of_le_of_lt hle hm⟩, hle, hlt hmore⟩
  · intro hfail
    simp only [flushAudio, hres, hfails hfail]
    rfl

/-- **The audio loop ends unless it fails for good**: from some iteration on each call fails at
once. It is the library's rule for loops, with the samples that are left as its measure. -/
theorem flushAudio_ends_iff (hfinite : Finite resample) (answers : FlushAnswers) {m : Nat}
    (hroomy : Roomy ost) (hm : ost.swr.length < m) :
    Loop.Ends (flushAudio resample answers m) (some ost) ↔
      ¬ Loop.FailsForGood (flushAudio resample answers m) (FailsAtOnce answers) (some ost) := by
  have hcases := fun k o (ho : Returns m o) => flushAudio_cases hfinite answers k ho
  exact Loop.ends_iff (FailsAtOnce answers)
    (fun k o o' ho h => ((hcases k o ho).1 o' h).1)
    (fun k o o' ho h => ((hcases k o ho).1 o' h).2.1)
    (fun k o o' ho hno h => ((hcases k o ho).1 o' h).2.2 hno)
    (fun k o ho => (hcases k o ho).2) ⟨ost, rfl, hroomy, hm⟩

/-- Without samples in a frame the loop does not end, however FFmpeg answers: no call returns -2. -/
theorem flushAudio_not_ends (resample : Resampler fmt params) (answers : FlushAnswers) (m : Nat)
    (hnb : ost.frame.nbSamples = 0) : ¬ Loop.Ends (flushAudio resample answers m) (some ost) := by
  -- whatever a call answers, it is not the result that ends the loop
  have hcall : ∀ k ost res ost', ost.frame.nbSamples = 0 →
      OutputStream.writeAudioFrame resample (answers.call m k) 0 ost = some (res, ost') →
      res > -2 ∧ ost'.frame.nbSamples = 0 := by
    intro k ost res ost' hnb h
    have hkept := (OutputStream.keeps_kept resample ost).writeAudioFrame h (.refl ost)
    refine ⟨?_, hkept.nb.trans hnb⟩
    rw [OutputStream.writeAudioFrame] at h
    split at h
    · cases h
      decide
    next copy _ =>
      exact writeRounds_of_no_samples ((ost.kept_makeWritable copy).nb.trans hnb) h
  -- the invariant of the loop: the frame has room for no sample
  let NoSamples : Option (OutputStream fmt params) → Prop :=
    fun o => ∀ ost, o = some ost → ost.frame.nbSamples = 0
  have hstart : NoSamples (some ost) := by
    intro ost' h
    cases h
    exact hnb
  have hforever : Loop.FailsForGood (flushAudio resample answers m) (fun _ => True) (some ost) :=
    ⟨0, rfl, fun _ _ => trivial⟩
  refine hforever.not_ends (I := NoSamples) ?_ ?_ hstart
  · intro k o o' ho h
    cases o with
    | none =>
      cases h
      exact ho
    | some ost =>
      simp only [flushAudio] at h
      split at h
      · cases h
        intro _ hnone
        cases hnone
      next res ost' hres =>
        split at h <;> cases h
        intro _ hsome
        cases hsome
        exact (hcall k ost res ost' (ho ost rfl) hres).2
  · intro k o ho _
    cases o with
    | none => rfl
    | some ost =>
      simp only [flushAudio]
      split
      · rfl
      next res ost' hres =>
        rw [if_pos (hcall k ost res ost' (ho ost rfl) hres).1]
        rfl

/-! ## Stop -/

namespace Recorder

/-- **Stop gets past the loops exactly if none fails for good.** In every state that the recorder
can be in, whatever the encoders and the resampler answer, as long as they hold finitely many
packets and samples: the loops end if and only if, where there is audio, a frame has samples, the
calls of `write_audio_frame` do not fail at once from some iteration of the loop on, and neither
does the encoder while it leaves `got_packet` set. -/
theorem flush_ends_iff (toInt : ℚ → Int) {resample : Resampler fmt params}
    (hfinite : Finite resample) (nbSamples sampleRate : Nat) (haveVideo audioOnly : Bool)
    (forceSync : Int) {ops : List Op} {t : Recorder fmt params}
    (hrun : Lts.Run (Lts.ofPartial (step toInt resample))
      (initAudio fmt params nbSamples sampleRate haveVideo audioOnly forceSync) ops t)
    (answers : FlushAnswers) {m : Nat} (hm : t.audioSt.swr.length < m) (s : Flush fmt params) :
    Flush.Ends resample answers m { s with audioSt := t.audioSt } ↔
      (s.haveAudio = true →
        (0 < nbSamples ∧
          ¬ Loop.FailsForGood (flushAudio resample answers m) (FailsAtOnce answers)
            (some t.audioSt)) ∧
        (s.audioDelay = true →
          ¬ Loop.FailsForGood (flushEncoder answers) (ErrsWithPacket answers) s.audioPackets)) := by
  have hshape := hrun.invariant (I := Shape nbSamples) (fun _ _ _ hs hst => hs.step hst)
    (.initAudio nbSamples sampleRate haveVideo audioOnly forceSync)
  have haudio : Loop.Ends (flushAudio resample answers m) (some t.audioSt) ↔
      0 < nbSamples ∧
        ¬ Loop.FailsForGood (flushAudio resample answers m) (FailsAtOnce answers)
          (some t.audioSt) := by
    -- a codec without a frame size is opened with frames of no samples
    rcases Nat.eq_zero_or_pos nbSamples with hzero | hpos
    · have hnever := flushAudio_not_ends resample answers m (hshape.nb.trans hzero)
      constructor
      · exact fun hends => absurd hends hnever
      · intro hpos
        omega
    · have hroomy := hrun.invariant (I := fun s => Roomy s.audioSt)
        (fun _ _ _ hs hst => Roomy.step hs hst) ⟨hpos, rfl⟩
      rw [flushAudio_ends_iff hfinite answers hroomy hm]
      exact ⟨fun h => ⟨hpos, h⟩, fun h => h.2⟩
  constructor
  · intro h hyes
    refine ⟨haudio.mp (h.audio hyes), fun hdelay => ?_⟩
    exact (flushEncoder_ends_iff answers s.audioPackets).mp (h.encoder hyes hdelay)
  · intro h
    refine ⟨fun _ _ => flushVideo_ends s.rawPicture answers s.videoPackets, ?_, ?_⟩
    · exact fun hyes => haudio.mpr (h hyes).1
    · intro hyes hdelay
      exact (flushEncoder_ends_iff answers s.audioPackets).mpr ((h hyes).2 hdelay)

/-- A recorder at 48 kHz with audio only, before the first bus. -/
def idle : Recorder (mono 64).floatPlanar (mono 64) :=
  initAudio (mono 64).floatPlanar (mono 64) 64 48000 false true 1

/-- Both streams are flushed, and both encoders may hold packets back. -/
def bothFlushed : Flush (mono 64).floatPlanar (mono 64) where
  haveVideo := true
  rawPicture := false
  videoDelay := true
  audioDelay := true
  haveAudio := true
  videoPackets := 2
  audioPackets := 3
  audioSt := idle.audioSt

/-- Nothing fails. -/
def wellAnswered : FlushAnswers where
  video _ := ⟨true, true⟩
  writable _ := some none
  rounds _ _ := { converted := some 64 }
  encoder _ := ⟨true, true⟩

/-- One bus of 64 samples, of which `swr_convert` hands out 40. -/
def oneBus : List Op :=
  [.initFile, .updateAudio (silence 64) 1000000 0 [{ rounds := [{ converted := some 40 }] }]]

/-- A frame of 64 is begun with 40 samples and 24 are queued, and the loops end. -/
theorem flush_ends_iff_wellAnswered :
    ∃ t : Recorder (mono 64).floatPlanar (mono 64),
      Lts.Run (Lts.ofPartial (step truncate (copying 64))) idle oneBus t ∧
      t.audioSt.frameSample = 40 ∧ t.audioSt.swr.length = 24 ∧
      Flush.Ends (copying 64) wellAnswered 25 { bothFlushed with audioSt := t.audioSt } := by
  have hrun : Lts.Run (Lts.ofPartial (step truncate (copying 64))) idle oneBus _ :=
    .cons rfl (.cons rfl (.nil _))
  have hfinite : Finite (copying 64) := by
    intro fed
    show (fed ++ [[]]).getLastD [] = []
    simp
  refine ⟨_, hrun, rfl, rfl, ?_⟩
  refine (flush_ends_iff truncate hfinite 64 48000 false true 1 hrun wellAnswered
    (by decide) bothFlushed).mpr fun _ => ⟨⟨by decide, ?_⟩, fun _ => ?_⟩
  · intro ⟨k, _, hall⟩
    rcases hall k (Nat.le_refl k) with hwritable | hconverted
    · cases hwritable
    · cases hconverted
  · intro ⟨k, _, hall⟩
    cases (hall k (Nat.le_refl k)).1

/-- There is no memory for a writable copy of the frame. -/
def noMemory : FlushAnswers := { wellAnswered with writable := fun _ => none }

/-- `write_audio_frame` returns -1 each time, and `Stop` calls it again: there is no memory to make
the frame writable. -/
theorem noMemory_not_ends :
    Finite (fun _ => [] : Resampler (mono 64).floatPlanar (mono 64)) ∧
      ∀ m, ¬ Flush.Ends (fun _ => []) noMemory m bothFlushed := by
  refine ⟨fun _ => rfl, ?_⟩
  intro m h
  have hends := h.audio rfl
  have hgood : Loop.FailsForGood (flushAudio (fun _ => []) noMemory m) (FailsAtOnce noMemory)
      (some bothFlushed.audioSt) := ⟨0, rfl, fun _ _ => Or.inl rfl⟩
  refine hgood.not_ends (I := fun o => o = some bothFlushed.audioSt) ?_ ?_ rfl hends
  · intro k o o' ho hnext
    rw [ho] at hnext
    exact (Option.some.inj hnext).symm
  · intro k o ho _
    rw [ho]
    rfl

end Recorder

end NodeWebkit.MediaRecorder.Audio
