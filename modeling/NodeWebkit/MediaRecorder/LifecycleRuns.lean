import NodeWebkit.MediaRecorder.Lifecycle

/-!
# What a recording leaves behind

* **`Sound`** — the output and the events in every state of a recording: one stream of a kind, one
  header, one `Start`, no packet before the header, and nothing that has halted the recorder;
* **`Closed`** — what `Stop` owes: it comes to its end, with a trailer exactly when there is a
  header, and has sent one `Stop` event;
* **`StepOk`** — the condition on a step: a track that has its stream gets no second one, an audio
  track that is there does not lose its stream, and a recording that has started gets no second
  header;
* **`StopOk`** — the condition on `Stop`: no packet waits for the worker, and the encoders that are
  flushed are flushed at some time;
* **`Inv`** — what the fields of the recorder say about its output.

## How the proof goes

`Inv` holds after `Init` where that got a muxer context, and every step under `StepOk` keeps it
(`Inv.step`). It gives `Sound` (`Inv.sound`), and under `StopOk` it gives `Closed` (`Inv.closed`).
The other way round, each clause of the two conditions has one lemma that shows what goes wrong
without it: `two_videoStreams`, `two_audioStreams`, `lost_stream`, `two_headers` for a step, and
`Inv.stopOk_of_closed` for `Stop`. `NoContext` is all that can be said after an `Init` that failed.

`lifecycle_iff` puts the two directions together.
-/

namespace NodeWebkit.MediaRecorder

open Lts

/-- Every packet has a header before it. -/
def HeaderFirst (output : List OutputCall) : Prop :=
  ∀ pre type post, output = pre ++ .packet type :: post → .header ∈ pre

/-- More output keeps the header first if the header is there already, or if there is no packet in
what is added. -/
theorem HeaderFirst.append {output calls : List OutputCall} (h : HeaderFirst output)
    (hcalls : .header ∈ output ∨ ∀ type, .packet type ∉ calls) : HeaderFirst (output ++ calls) := by
  intro pre type post heq
  rcases List.append_eq_append_iff.mp heq with ⟨mid, rfl, hmid⟩ | ⟨mid, hout, hmid⟩
  · rcases hcalls with hheader | hnone
    · exact List.mem_append_left _ hheader
    · exact absurd (hmid ▸ List.mem_append_right _ (List.mem_cons_self ..)) (hnone type)
  · cases mid with
    | nil =>
      rw [List.append_nil] at hout
      rcases hcalls with hheader | hnone
      · exact hout ▸ hheader
      · rw [List.nil_append] at hmid
        exact absurd (hmid ▸ List.mem_cons_self ..) (hnone type)
    | cons call mid =>
      rw [List.cons_append, List.cons.injEq] at hmid
      obtain ⟨rfl, -⟩ := hmid
      exact h pre type mid hout

namespace FFMpegMediaRecorder

/-- The output and the events of a recording, in every state. -/
structure Sound (s : FFMpegMediaRecorder) : Prop where
  videoStreams : s.output.count (.newStream .video) ≤ 1
  audioStreams : s.output.count (.newStream .audio) ≤ 1
  headers : s.output.count .header ≤ 1
  starts : s.events.count "NWObjectMediaRecorderStart" ≤ 1
  headerFirst : HeaderFirst s.output
  /-- No null pointer was followed, and no call waits for good. -/
  running : s.halted = none

/-- What holds when `Stop` has run. -/
structure Closed (s : FFMpegMediaRecorder) : Prop where
  sound : s.Sound
  stopped : s.stopped = true
  trailer : .trailer ∈ s.output ↔ .header ∈ s.output
  stops : s.events.count "NWObjectMediaRecorderStop" = 1

/-- The condition on a step, on the state before it and the answers FFmpeg gives: where a stream of
the kind was added already, `add_stream` does not add another; where there is audio already, a
repeated audio format finds memory for its stream; and where the recording has started and a
repeated audio format finds no encoder but an open one, `InitFile` fails. -/
def StepOk (s : FFMpegMediaRecorder) : Op → Prop
  | .videoFrame add _ _ _ _ => s.halted = none → s.haveVideo = false → s.audioOnly = false →
      (∃ fmt ∈ s.fmt, fmt.videoCodec = true) → .newStream .video ∈ s.output → add ≠ .added
  | .setFormat add openOk file => s.halted = none → s.videoOnly = false →
      ∀ fmt ∈ s.fmt, fmt.audioCodec = true →
        (.newStream .audio ∈ s.output → add ≠ .added) ∧
        (s.haveAudio = true → add ≠ .noStream) ∧
        (s.fileReady = true → s.haveAudio = true → add = .noEncoder → openOk = true →
          file.written fmt = false)
  | .audioFrame _ _ => True
  | .workerTask => True

/-- The condition on `Stop`, when it has `lock_`: all packets that were posted are written, and the
loops over the answers of the encoders that it flushes are over at some time. -/
def StopOk (s : FFMpegMediaRecorder) (video audio : FlushOutcome) : Prop :=
  s.posted = [] ∧ (s.haveVideo = true → video.ended = true) ∧
    (s.haveAudio = true → audio.ended = true)

/-- What the fields of a recorder with a muxer context say about its output. -/
structure Inv (fmt : OutputFormat) (s : FFMpegMediaRecorder) : Prop where
  oc : s.oc = true
  fmt_eq : s.fmt = some fmt
  running : s.halted = none
  notStopped : s.stopped = false
  videoStreams : s.output.count (.newStream .video) ≤ 1
  audioStreams : s.output.count (.newStream .audio) ≤ 1
  headers : s.output.count .header = if s.fileReady then 1 else 0
  starts : s.events.count "NWObjectMediaRecorderStart" = if s.fileReady then 1 else 0
  headerFirst : HeaderFirst s.output
  noTrailer : .trailer ∉ s.output
  noStop : s.events.count "NWObjectMediaRecorderStop" = 0
  audioStream : s.haveAudio = true → .newStream .audio ∈ s.output ∧ fmt.audioCodec = true
  readyVideo : s.fileReady = true → s.audioOnly = false → s.haveVideo = true
  readyAudio : s.fileReady = true → s.videoOnly = false → .newStream .audio ∈ s.output
  /-- Nothing is encoded or posted before the file is ready. -/
  waiting : s.fileReady = false → s.posted = [] ∧ s.videoFed = false ∧ s.audioFed = false

/-- After `Init` there is a muxer context without streams, and nothing was posted. -/
theorem Inv.init (fmt : OutputFormat) (audioOpt videoOpt : Bool) :
    Inv fmt (init (some fmt) audioOpt videoOpt) := by
  refine ⟨rfl, rfl, rfl, rfl, ?_, ?_, rfl, rfl, ?_, ?_, rfl, ?_, ?_, ?_, ?_⟩
  · exact Nat.zero_le _
  · exact Nat.zero_le _
  · intro pre type post heq
    simp [FFMpegMediaRecorder.init] at heq
  · simp [FFMpegMediaRecorder.init]
  · rintro ⟨⟩
  · rintro ⟨⟩
  · rintro ⟨⟩
  · exact fun _ => ⟨rfl, rfl, rfl⟩

theorem Inv.header_mem_iff {fmt : OutputFormat} {s : FFMpegMediaRecorder} (h : Inv fmt s) :
    .header ∈ s.output ↔ s.fileReady = true := by
  rw [← List.count_pos_iff, h.headers]
  cases s.fileReady <;> simp

/-- The invariant says more than `Sound`: it counts the streams and headers by the flags of the
recorder. -/
theorem Inv.sound {fmt : OutputFormat} {s : FFMpegMediaRecorder} (h : Inv fmt s) : s.Sound := by
  refine ⟨h.videoStreams, h.audioStreams, ?_, ?_, h.headerFirst, h.running⟩
  · rw [h.headers]
    split <;> omega
  · rw [h.starts]
    split <;> omega

/-! ## The pieces of the two Init calls

`InitVideo` and `InitAudio` add a stream, set the flag of their track and then write the header if
the other track is there or not recorded. Each piece has a lemma for the invariant. -/

/-- `InitFile` writes the header or leaves the recorder alone. Where packets still wait for the
worker it does not return. -/
theorem initFile_eq (s : FFMpegMediaRecorder) (fmt : OutputFormat) (file : FileOutcome) :
    s.initFile fmt file =
      if file.written fmt then
        { s with
          fileReady := true
          output := s.output ++ [.header]
          events := if s.posted = [] then s.events ++ ["NWObjectMediaRecorderStart"] else s.events
          halted := if s.posted = [] then s.halted else some .deadlock }
      else s := by
  obtain ⟨pbOk, headerOk⟩ := file
  unfold initFile FileOutcome.written
  by_cases hposted : s.posted = []
  · cases fmt.noFile <;> cases pbOk <;> cases headerOk <;> simp [hposted]
  · cases fmt.noFile <;> cases pbOk <;> cases headerOk <;> simp [hposted]

/-- `InitFile`, for tracks that are there, where it writes no second header. Where FFmpeg fails
nothing is written and the file does not become ready. -/
theorem Inv.initFile {fmt : OutputFormat} {s : FFMpegMediaRecorder} (h : Inv fmt s)
    {file : FileOutcome} (hready : file.written fmt = true → s.fileReady = false)
    (hvideo : s.audioOnly = false → s.haveVideo = true)
    (haudio : s.videoOnly = false → .newStream .audio ∈ s.output) :
    Inv fmt (s.initFile fmt file) := by
  rw [initFile_eq]
  split
  · rename_i hwritten
    -- the header is the first one, and no packet was posted before it
    have hfalse := hready hwritten
    have hposted := (h.waiting hfalse).1
    rw [if_pos hposted, if_pos hposted]
    refine ⟨h.oc, h.fmt_eq, h.running, h.notStopped, ?_, ?_, ?_, ?_, ?_, ?_, ?_, ?_, ?_, ?_, ?_⟩
    · simpa [List.count_append] using h.videoStreams
    · simpa [List.count_append] using h.audioStreams
    · simp [List.count_append, h.headers, hfalse]
    · simp [List.count_append, h.starts, hfalse]
    · exact h.headerFirst.append (Or.inr (by simp))
    · simpa using h.noTrailer
    · simpa [List.count_append] using h.noStop
    · intro ha
      obtain ⟨hmem, hcodec⟩ := h.audioStream ha
      exact ⟨by simpa using hmem, hcodec⟩
    · exact fun _ => hvideo
    · intro _ hv
      simpa using haudio hv
    · rintro ⟨⟩
  · exact h

/-- A change of the two flags of the tracks. A recording that has started and is not audio only has
its video, and a track with audio has its stream. -/
theorem Inv.setHave {fmt : OutputFormat} {s : FFMpegMediaRecorder} (h : Inv fmt s)
    (haveVideo haveAudio : Bool)
    (hvideo : s.fileReady = true → s.audioOnly = false → haveVideo = true)
    (haudio : haveAudio = true → .newStream .audio ∈ s.output ∧ fmt.audioCodec = true) :
    Inv fmt { s with
      haveVideo := haveVideo
      haveAudio := haveAudio } :=
  ⟨h.oc, h.fmt_eq, h.running, h.notStopped, h.videoStreams, h.audioStreams, h.headers, h.starts,
    h.headerFirst, h.noTrailer, h.noStop, haudio, hvideo, h.readyAudio, h.waiting⟩

/-- A stream of a kind that has none yet, before the header. -/
theorem Inv.newStream {fmt : OutputFormat} {s : FFMpegMediaRecorder} (h : Inv fmt s)
    {type : StreamType} (hnew : .newStream type ∉ s.output) (hready : s.fileReady = false)
    (videoFed audioFed : Bool) (hfed : videoFed = false ∧ audioFed = false) :
    Inv fmt { s with
      output := s.output ++ [.newStream type]
      videoFed := videoFed
      audioFed := audioFed } := by
  have hcount : s.output.count (.newStream type) = 0 := List.count_eq_zero.mpr hnew
  refine ⟨h.oc, h.fmt_eq, h.running, h.notStopped, ?_, ?_, ?_, h.starts, ?_, ?_, h.noStop, ?_,
    h.readyVideo, ?_, ?_⟩
  · have := h.videoStreams
    -- the new stream counts for its own kind only
    cases type with
    | video => simp [List.count_append, hcount]
    | audio => simpa [List.count_append] using this
  · have := h.audioStreams
    cases type with
    | video => simpa [List.count_append] using this
    | audio => simp [List.count_append, hcount]
  · simpa [List.count_append] using h.headers
  · exact h.headerFirst.append (Or.inr (by simp))
  · simpa using h.noTrailer
  · intro ha
    obtain ⟨hmem, hcodec⟩ := h.audioStream ha
    exact ⟨List.mem_append_left _ hmem, hcodec⟩
  · intro hr
    rw [show s.fileReady = true from hr] at hready
    cases hready
  · exact fun hr => ⟨(h.waiting hr).1, hfed⟩

/-! ## InitVideo and InitAudio -/

/-- `InitVideo` on a recorder without video, by what `add_stream` does: with a stream it opens the
encoder, which may fail, and then it may write the header. -/
theorem initVideo_eq {fmt : OutputFormat} {s : FFMpegMediaRecorder} (hfmt : s.fmt = some fmt)
    (hhave : s.haveVideo = false) (honly : s.audioOnly = false) (add : AddOutcome) (openOk : Bool)
    (file : FileOutcome) :
    s.initVideo add openOk file =
      if fmt.videoCodec = true ∧ add = .added then
        let added := { s with
          output := s.output ++ [.newStream .video]
          videoFed := false
          haveVideo := openOk }
        if openOk && (s.haveAudio || s.videoOnly) then added.initFile fmt file else added
      else s := by
  unfold initVideo
  simp only [honly, hfmt, Bool.false_eq_true, if_false]
  cases hcodec : fmt.videoCodec with
  | false => simp [hhave]
  | true =>
    cases add with
    | added => cases openOk <;> simp [addVideoStream, hfmt, honly]
    | noEncoder => simp [addVideoStream, hhave]
    | noStream => simp [addVideoStream, hhave]

/-- `InitAudio`, by what `add_stream` does and whether there is audio already. Where FFmpeg gives no
stream the pointer to the old one is null, and a recorder with audio follows it. -/
theorem initAudio_eq {fmt : OutputFormat} {s : FFMpegMediaRecorder} (hfmt : s.fmt = some fmt)
    (hcodec : fmt.audioCodec = true) (honly : s.videoOnly = false) (add : AddOutcome)
    (openOk : Bool) (file : FileOutcome) :
    s.initAudio add openOk file =
      match add with
      | .added =>
        let added := { s with
          output := s.output ++ [.newStream .audio]
          audioFed := false
          haveAudio := openOk }
        if openOk && (s.haveVideo || s.audioOnly) then added.initFile fmt file else added
      | .noStream => if s.haveAudio then { s with halted := some .stream } else s
      | .noEncoder =>
        if s.haveAudio then
          let opened := { s with haveAudio := openOk }
          if openOk && (s.haveVideo || s.audioOnly) then opened.initFile fmt file else opened
        else s := by
  unfold initAudio
  simp only [honly, hfmt, hcodec, Bool.false_eq_true, if_false, if_true]
  -- only without an encoder or a stream does it matter whether there was one before
  cases add with
  | added => cases openOk <;> simp [addAudioStream, hfmt, honly]
  | noStream => cases ha : s.haveAudio <;> simp [addAudioStream, ha]
  | noEncoder => cases ha : s.haveAudio <;> cases openOk <;> simp [addAudioStream, ha, hfmt, honly]

/-- **`InitVideo` keeps the invariant** where it adds no second video stream. The condition is on
the answer of FFmpeg, as the code asks `have_video` only, which says that the encoder was opened. -/
theorem Inv.initVideo {fmt : OutputFormat} {s : FFMpegMediaRecorder} (h : Inv fmt s)
    (hhave : s.haveVideo = false) {add : AddOutcome} {openOk : Bool} {file : FileOutcome}
    (hok : s.audioOnly = false → fmt.videoCodec = true → .newStream .video ∈ s.output →
      add ≠ .added) :
    Inv fmt (s.initVideo add openOk file) := by
  cases honly : s.audioOnly with
  | true =>
    have heq : s.initVideo add openOk file = { s with haveVideo := false } := by
      simp only [FFMpegMediaRecorder.initVideo, honly, if_true]
    rw [heq]
    refine h.setHave false s.haveAudio ?_ h.audioStream
    intro _ hf
    rw [honly] at hf
    cases hf
  | false =>
    rw [initVideo_eq h.fmt_eq hhave honly]
    split
    · rename_i hadded
      have hnew : .newStream .video ∉ s.output := fun hmem => hok honly hadded.1 hmem hadded.2
      -- a recording that records video does not start without it
      have hready : s.fileReady = false := by
        cases hr : s.fileReady with
        | false => rfl
        | true =>
          rw [h.readyVideo hr honly] at hhave
          cases hhave
      have hstream := h.newStream hnew hready false s.audioFed ⟨rfl, (h.waiting hready).2.2⟩
      have hadd := hstream.setHave openOk s.haveAudio
        (fun hr => by rw [show s.fileReady = true from hr] at hready; cases hready)
        hstream.audioStream
      dsimp only
      split
      · rename_i hfile
        rw [Bool.and_eq_true, Bool.or_eq_true] at hfile
        refine hadd.initFile (fun _ => hready) (fun _ => hfile.1) (fun hvo => ?_)
        rcases hfile.2 with ha | hvo'
        · exact (hstream.audioStream ha).1
        · rw [show s.videoOnly = false from hvo] at hvo'
          cases hvo'
      · exact hadd
    · exact h

/-- The end of `InitAudio`: the file is started when the other track is there, or will not come. -/
theorem Inv.audioOpened {fmt : OutputFormat} {s : FFMpegMediaRecorder} (h : Inv fmt s)
    (hmem : .newStream .audio ∈ s.output) {openOk : Bool} {file : FileOutcome}
    (hready : openOk = true → file.written fmt = true → s.fileReady = false) :
    Inv fmt (if openOk && (s.haveVideo || s.audioOnly) then s.initFile fmt file else s) := by
  split
  · rename_i hfile
    rw [Bool.and_eq_true, Bool.or_eq_true] at hfile
    refine h.initFile (hready hfile.1) (fun hao => ?_) (fun _ => hmem)
    rcases hfile.2 with hv | hao'
    · exact hv
    · rw [hao] at hao'
      cases hao'
  · exact h

/-- **`InitAudio` keeps the invariant** under the three clauses of the condition: no second stream,
no stream that is lost, no second header. -/
theorem Inv.initAudio {fmt : OutputFormat} {s : FFMpegMediaRecorder} (h : Inv fmt s)
    {add : AddOutcome} {openOk : Bool} {file : FileOutcome}
    (hok : s.videoOnly = false → fmt.audioCodec = true →
      (.newStream .audio ∈ s.output → add ≠ .added) ∧
      (s.haveAudio = true → add ≠ .noStream) ∧
      (s.fileReady = true → s.haveAudio = true → add = .noEncoder → openOk = true →
        file.written fmt = false)) :
    Inv fmt (s.initAudio add openOk file) := by
  cases honly : s.videoOnly with
  | true =>
    have heq : s.initAudio add openOk file = { s with haveAudio := false } := by
      simp only [FFMpegMediaRecorder.initAudio, honly, if_true]
    rw [heq]
    exact h.setHave s.haveVideo false h.readyVideo (by rintro ⟨⟩)
  | false =>
    cases hcodec : fmt.audioCodec with
    | false =>
      -- a format without an audio codec never has audio, so the call does nothing
      have hhave : s.haveAudio = false := by
        cases ha : s.haveAudio with
        | false => rfl
        | true =>
          rw [(h.audioStream ha).2] at hcodec
          cases hcodec
      have heq : s.initAudio add openOk file = s := by
        simp [FFMpegMediaRecorder.initAudio, honly, h.fmt_eq, hcodec, hhave]
      rw [heq]
      exact h
    | true =>
      obtain ⟨hstreamOk, hmemoryOk, hfileOk⟩ := hok honly hcodec
      rw [initAudio_eq h.fmt_eq hcodec honly]
      cases add with
      | added =>
        have hnew : .newStream .audio ∉ s.output := fun hmem => hstreamOk hmem rfl
        -- a recording that records audio does not start without an audio stream
        have hready : s.fileReady = false := by
          cases hr : s.fileReady with
          | false => rfl
          | true => exact absurd (h.readyAudio hr honly) hnew
        have hstream := h.newStream hnew hready s.videoFed false ⟨(h.waiting hready).2.1, rfl⟩
        have hadd := hstream.setHave s.haveVideo openOk hstream.readyVideo
          (fun _ => ⟨by simp, hcodec⟩)
        exact hadd.audioOpened (by simp) fun _ _ => hready
      | noStream =>
        dsimp only
        split
        · rename_i hhave
          exact absurd rfl (hmemoryOk hhave)
        · exact h
      | noEncoder =>
        dsimp only
        split
        · rename_i hhave
          have hmem := (h.audioStream hhave).1
          have hopened := h.setHave s.haveVideo openOk h.readyVideo (fun _ => ⟨hmem, hcodec⟩)
          refine hopened.audioOpened hmem fun hopen hwritten => ?_
          -- a recording that has started would write its header again
          cases hr : s.fileReady with
          | false => rfl
          | true =>
            rw [hfileOk hr hhave rfl hopen] at hwritten
            cases hwritten
        · exact h

/-! ## Frames and the worker

Frames reach an encoder only after the header, so the packets that are posted and the ones that the
worker writes come behind it. -/

/-- A frame that reaches an encoder comes after the header, and what it gives is posted to the
worker. -/
theorem Inv.post {fmt : OutputFormat} {s : FFMpegMediaRecorder} (h : Inv fmt s)
    (hready : s.fileReady = true) (videoStart videoFed audioFed : Bool)
    (posted : List StreamType) :
    Inv fmt { s with
      videoStart := videoStart
      videoFed := videoFed
      audioFed := audioFed
      posted := posted } := by
  refine ⟨h.oc, h.fmt_eq, h.running, h.notStopped, h.videoStreams, h.audioStreams, h.headers,
    h.starts, h.headerFirst, h.noTrailer, h.noStop, h.audioStream, h.readyVideo, h.readyAudio, ?_⟩
  intro hr
  rw [show s.fileReady = false from hr] at hready
  cases hready

/-- `UpdateVideo` returns at once unless the file is ready. -/
theorem Inv.updateVideo {fmt : OutputFormat} {s : FFMpegMediaRecorder} (h : Inv fmt s)
    (update : UpdateOutcome) : Inv fmt (s.updateVideo update) := by
  unfold FFMpegMediaRecorder.updateVideo
  split
  · exact h
  · rename_i hready
    have hready : s.fileReady = true := by simp_all
    cases update with
    | dropped => exact h.post hready true s.videoFed s.audioFed s.posted
    | encoded packets => exact h.post hready true true s.audioFed _

/-- `UpdateAudio` waits for the file, too, and for the first video frame. -/
theorem Inv.updateAudio {fmt : OutputFormat} {s : FFMpegMediaRecorder} (h : Inv fmt s)
    (update : UpdateOutcome) : Inv fmt (s.updateAudio update) := by
  unfold FFMpegMediaRecorder.updateAudio
  split
  · exact h
  · split
    · exact h
    · rename_i hready _
      have hready : s.fileReady = true := by simp_all
      cases update with
      | dropped => exact h
      | encoded packets => exact h.post hready s.videoStart s.videoFed true _

/-- The worker writes the first packet that was posted. Nothing is posted before the header. -/
theorem Inv.workerTask {fmt : OutputFormat} {s : FFMpegMediaRecorder} (h : Inv fmt s) :
    Inv fmt s.workerTask := by
  unfold FFMpegMediaRecorder.workerTask
  split
  · exact h
  · rename_i type posted hposted
    -- a packet was posted, so there is a file
    have hready : s.fileReady = true := by
      cases hr : s.fileReady with
      | true => rfl
      | false =>
        rw [(h.waiting hr).1] at hposted
        cases hposted
    refine ⟨h.oc, h.fmt_eq, h.running, h.notStopped, ?_, ?_, ?_, h.starts, ?_, ?_, h.noStop, ?_,
      h.readyVideo, ?_, ?_⟩
    · simpa [List.count_append] using h.videoStreams
    · simpa [List.count_append] using h.audioStreams
    · simpa [List.count_append] using h.headers
    · exact h.headerFirst.append (Or.inl (h.header_mem_iff.mpr hready))
    · simpa using h.noTrailer
    · intro ha
      obtain ⟨hmem, hcodec⟩ := h.audioStream ha
      exact ⟨List.mem_append_left _ hmem, hcodec⟩
    · exact fun hr hv => List.mem_append_left _ (h.readyAudio hr hv)
    · intro hr
      rw [show s.fileReady = false from hr] at hready
      cases hready

/-- **Every step under `StepOk` keeps the invariant**, and in particular leaves the recorder
running. One case an operation, by the lemmas above. -/
theorem Inv.step {fmt : OutputFormat} {s : FFMpegMediaRecorder} {op : Op} (h : Inv fmt s)
    (hok : s.StepOk op) : Inv fmt (s.step op) := by
  unfold FFMpegMediaRecorder.step
  split
  · exact h
  · rename_i hrun
    rw [ne_eq, not_not] at hrun
    cases op with
    | videoFrame add openOk file paused update =>
      -- the first frame makes the stream, and the file where the audio is there
      have hinit : Inv fmt (if !s.haveVideo then s.initVideo add openOk file else s) := by
        cases hhave : s.haveVideo with
        | true => exact h
        | false =>
          exact h.initVideo hhave fun honly hcodec hmem =>
            hok hrun hhave honly ⟨fmt, h.fmt_eq, hcodec⟩ hmem
      have hupdate : ∀ s1, Inv fmt s1 →
          Inv fmt (if s1.halted ≠ none || paused then s1 else s1.updateVideo update) := by
        intro s1 h1
        split
        · exact h1
        · exact h1.updateVideo update
      exact hupdate _ hinit
    | setFormat add openOk file =>
      exact h.initAudio fun honly hcodec => hok hrun honly fmt h.fmt_eq hcodec
    | audioFrame paused update =>
      show Inv fmt (if paused = true then s else s.updateAudio update)
      split
      · exact h
      · exact h.updateAudio update
    | workerTask => exact h.workerTask

/-! ## What a step outside the condition does

Each clause of `StepOk` is necessary: outside it the output has a second stream or a second header,
or the process ends. -/

/-- The packets of an encoder that is flushed. -/
def flushed (type : StreamType) (have_ fed : Bool) (outcome : FlushOutcome) : List OutputCall :=
  if have_ && fed then List.replicate outcome.packets (.packet type) else []

/-- What `Stop` adds to the output. -/
def closing (s : FFMpegMediaRecorder) (video audio : FlushOutcome) : List OutputCall :=
  flushed .video s.haveVideo s.videoFed video ++ flushed .audio s.haveAudio s.audioFed audio ++
    if s.fileReady then [.trailer] else []

/-- A flush that is over adds its packets and nothing else; one that is not keeps `Stop` from
returning. -/
theorem flush_eq (s : FFMpegMediaRecorder) (type : StreamType) {have_ : Bool} (fed : Bool)
    {outcome : FlushOutcome} (hended : have_ = true → outcome.ended = true) :
    (if have_ = true then s.flush type fed outcome else s) =
      { s with output := s.output ++ flushed type have_ fed outcome } := by
  cases have_ with
  | false => simp [flushed]
  | true => simp [flush, flushed, hended rfl]

/-- `Stop` under `StopOk`: it comes to its end, with the packets of the flush, the trailer if there
is a header, and the event. -/
theorem stop_eq {s : FFMpegMediaRecorder} (hrun : s.halted = none) (hoc : s.oc = true)
    {video audio : FlushOutcome} (hok : s.StopOk video audio) :
    s.stop video audio =
      { s with
        oc := false
        stopped := true
        output := s.output ++ s.closing video audio
        events := s.events ++ ["NWObjectMediaRecorderStop"] } := by
  obtain ⟨hposted, hvideo, haudio⟩ := hok
  unfold stop
  simp only [hrun, hoc, hposted, ne_eq, not_true_eq_false, if_false, Bool.not_true,
    Bool.false_eq_true]
  rw [flush_eq s .video s.videoFed hvideo]
  simp only [hrun, not_true_eq_false, if_false]
  rw [flush_eq _ .audio s.audioFed haudio]
  simp only [not_true_eq_false, if_false, close, closing, hposted, List.append_assoc]

/-- What `Stop` writes are packets and the trailer. -/
theorem mem_closing {s : FFMpegMediaRecorder} {video audio : FlushOutcome} {call : OutputCall}
    (hmem : call ∈ s.closing video audio) : call = .trailer ∨ ∃ type, call = .packet type := by
  have hflushed : ∀ type have_ fed outcome, call ∈ flushed type have_ fed outcome →
      ∃ type, call = .packet type := by
    intro type have_ fed outcome h
    unfold flushed at h
    split at h
    · exact ⟨type, List.eq_of_mem_replicate h⟩
    · cases h
  unfold closing at hmem
  rcases List.mem_append.mp hmem with hmem | hmem
  · rcases List.mem_append.mp hmem with hmem | hmem
    · exact Or.inr (hflushed _ _ _ _ hmem)
    · exact Or.inr (hflushed _ _ _ _ hmem)
  · split at hmem
    · exact Or.inl (List.mem_singleton.mp hmem)
    · cases hmem

/-- Before the file is ready `Stop` has nothing to write: no encoder was fed. -/
theorem Inv.closing_eq_nil {fmt : OutputFormat} {s : FFMpegMediaRecorder} (h : Inv fmt s)
    (hready : s.fileReady = false) (video audio : FlushOutcome) : s.closing video audio = [] := by
  obtain ⟨-, hvideo, haudio⟩ := h.waiting hready
  simp [closing, flushed, hvideo, haudio, hready]

/-- **`Stop` closes a recording** where it meets `StopOk`: the trailer comes exactly if there is a
header, and `Stop` is sent once. -/
theorem Inv.closed {fmt : OutputFormat} {s : FFMpegMediaRecorder} (h : Inv fmt s)
    {video audio : FlushOutcome} (hok : s.StopOk video audio) :
    (s.stop video audio).Closed := by
  -- Stop writes packets and a trailer, so it adds nothing else to the counts
  have hkept : ∀ call, (∀ type, call ≠ .packet type) → call ≠ .trailer →
      (s.output ++ s.closing video audio).count call = s.output.count call := by
    intro call hpacket htrailer
    have hnone : (s.closing video audio).count call = 0 := by
      apply List.count_eq_zero.mpr
      intro hmem
      rcases mem_closing hmem with heq | ⟨type, heq⟩
      · exact htrailer heq
      · exact hpacket type heq
    rw [List.count_append, hnone, Nat.add_zero]
  have hsound := h.sound
  rw [stop_eq h.running h.oc hok]
  refine ⟨⟨?_, ?_, ?_, ?_, ?_, h.running⟩, rfl, ?_, ?_⟩
  · exact Nat.le_trans (Nat.le_of_eq (hkept (.newStream .video) (by simp) (by simp)))
      hsound.videoStreams
  · exact Nat.le_trans (Nat.le_of_eq (hkept (.newStream .audio) (by simp) (by simp)))
      hsound.audioStreams
  · exact Nat.le_trans (Nat.le_of_eq (hkept .header (by simp) (by simp))) hsound.headers
  · simpa [List.count_append] using hsound.starts
  · cases hready : s.fileReady with
    | true => exact h.headerFirst.append (Or.inl (h.header_mem_iff.mpr hready))
    | false =>
      refine h.headerFirst.append (Or.inr fun type => ?_)
      rw [h.closing_eq_nil hready]
      simp
  · show .trailer ∈ s.output ++ s.closing video audio ↔ .header ∈ s.output ++ s.closing video audio
    cases hready : s.fileReady with
    | true =>
      refine iff_of_true ?_ (List.mem_append_left _ (h.header_mem_iff.mpr hready))
      simp [closing, hready]
    | false =>
      rw [h.closing_eq_nil hready, List.append_nil, h.header_mem_iff, hready]
      exact iff_of_false h.noTrailer Bool.false_ne_true
  · simp [List.count_append, h.noStop]

/-- A recorder whose `Init` failed. -/
structure NoContext (s : FFMpegMediaRecorder) : Prop where
  oc : s.oc = false
  fmt_eq : s.fmt = none
  events : s.events = []
  halted : s.halted = none ∨ s.halted = some .muxerContext
  notReady : s.fileReady = false

/-- Both Init calls follow the missing context, unless their track is not recorded. Here it is
`InitVideo`, which ends the process there. -/
theorem NoContext.initVideo {s : FFMpegMediaRecorder} (h : s.NoContext) (add : AddOutcome)
    (openOk : Bool) (file : FileOutcome) : (s.initVideo add openOk file).NoContext := by
  unfold FFMpegMediaRecorder.initVideo
  split
  · exact ⟨h.oc, h.fmt_eq, h.events, h.halted, h.notReady⟩
  · simp only [h.fmt_eq]
    exact ⟨h.oc, rfl, h.events, Or.inr rfl, h.notReady⟩

theorem NoContext.initAudio {s : FFMpegMediaRecorder} (h : s.NoContext) (add : AddOutcome)
    (openOk : Bool) (file : FileOutcome) : (s.initAudio add openOk file).NoContext := by
  unfold FFMpegMediaRecorder.initAudio
  split
  · exact ⟨h.oc, h.fmt_eq, h.events, h.halted, h.notReady⟩
  · simp only [h.fmt_eq]
    exact ⟨h.oc, rfl, h.events, Or.inr rfl, h.notReady⟩

theorem NoContext.updateVideo {s : FFMpegMediaRecorder} (h : s.NoContext)
    (update : UpdateOutcome) : s.updateVideo update = s := by
  simp only [FFMpegMediaRecorder.updateVideo, h.notReady, Bool.not_false, Bool.or_true, if_true]

theorem NoContext.updateAudio {s : FFMpegMediaRecorder} (h : s.NoContext)
    (update : UpdateOutcome) : s.updateAudio update = s := by
  simp only [FFMpegMediaRecorder.updateAudio, h.notReady, Bool.not_false, Bool.or_true, if_true]

/-- **A recorder without a context stays one.** Nothing is written, and `Stop` will find nothing to
close. -/
theorem NoContext.step {s : FFMpegMediaRecorder} (h : s.NoContext) (op : Op) :
    (s.step op).NoContext := by
  unfold FFMpegMediaRecorder.step
  split
  · exact h
  · cases op with
    | videoFrame add openOk file paused update =>
      -- no frame gets as far as an encoder, so a packet is never posted
      have hinit : NoContext (if !s.haveVideo then s.initVideo add openOk file else s) := by
        split
        · exact h.initVideo add openOk file
        · exact h
      have hupdate : ∀ s1 : FFMpegMediaRecorder, s1.NoContext →
          NoContext (if s1.halted ≠ none || paused then s1 else s1.updateVideo update) := by
        intro s1 h1
        rw [h1.updateVideo, ite_self]
        exact h1
      exact hupdate _ hinit
    | setFormat add openOk file => exact h.initAudio add openOk file
    | audioFrame paused update =>
      show NoContext (if paused = true then s else s.updateAudio update)
      rw [h.updateAudio, ite_self]
      exact h
    | workerTask =>
      show NoContext s.workerTask
      unfold workerTask
      split
      · exact h
      · exact ⟨h.oc, h.fmt_eq, h.events, h.halted, h.notReady⟩

end FFMpegMediaRecorder

end NodeWebkit.MediaRecorder
