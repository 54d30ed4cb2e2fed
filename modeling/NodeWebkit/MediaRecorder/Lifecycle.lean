import Mathlib.Data.List.Count
import NodeWebkit.Lib.Run

/-!
# FFMpegMediaRecorder from Init to Stop

The muxer gets its streams from `InitVideo` and `InitAudio`, whichever comes last writes the
header and starts the worker thread, and `Stop` writes the trailer. `OnVideoFrame` calls
`InitVideo` on every frame while there is no video, `OnSetFormat` calls `InitAudio` whenever the
audio format is set.

## The model

* **`FFMpegMediaRecorder`** — the fields of the recorder that the calls look at, the tasks its
  worker still has (`posted`), and what it has done so far: its calls of the muxer (`output`) and
  the events it has sent to the page (`events`);
* **`AddOutcome`**, **`FileOutcome`**, **`UpdateOutcome`**, **`FlushOutcome`** — what FFmpeg
  answers, given with each operation;
* **`Op`**, **`step`** — the calls between `Init` and `Stop` and the tasks of the worker, which come
  in any order, each of them one step;
* **`stop`** — `Stop`, once and last.

## How a recorder comes to an end

A pointer that is null where the code follows it ends the process. `InitFile` and `Stop` join the
worker thread while they have `lock_`, which its tasks take, and `Stop` flushes the encoders in
loops that go on as long as they are answered so: a worker that still has a task, or a flush that is
never over, keeps such a call from returning for good. In all these cases the recorder is `halted`,
and no other call is followed from there on.
-/

namespace NodeWebkit.MediaRecorder

/-- The two kinds of streams. -/
inductive StreamType where
  | video | audio
  deriving DecidableEq

/-- What is done to the output: `avformat_new_stream`, `avformat_write_header`, a packet handed to
`av_interleaved_write_frame`, `av_write_trailer`. -/
inductive OutputCall where
  | newStream (type : StreamType)
  | header
  | packet (type : StreamType)
  | trailer
  deriving DecidableEq

/-- `AVOutputFormat`: whether it has a video and an audio codec, and `AVFMT_NOFILE`. -/
structure OutputFormat where
  videoCodec : Bool
  audioCodec : Bool
  noFile : Bool
  deriving DecidableEq

/-- How a recorder comes to an end before `Stop` has returned: a null pointer was followed, which is
the output format of a muxer context that was never allocated or the stream of a track; a call that
has `lock_` joins a worker that waits for it; or `Stop` stays in a loop over the answers of an
encoder. -/
inductive Halt where
  | muxerContext
  | stream
  | deadlock
  | flushing
  deriving DecidableEq

/-- What `add_stream` does: no encoder for the codec, no memory for the stream (which leaves a null
stream behind), or a new stream. -/
inductive AddOutcome where
  | noEncoder
  | noStream
  | added
  deriving DecidableEq

/-- What `InitFile` is answered by `avio_alloc_context` and `avformat_write_header`. -/
structure FileOutcome where
  pbOk : Bool
  headerOk : Bool
  deriving DecidableEq

/-- `InitFile` with these answers writes the header. -/
def FileOutcome.written (file : FileOutcome) (fmt : OutputFormat) : Bool :=
  (fmt.noFile || file.pbOk) && file.headerOk

/-- What becomes of a frame in `UpdateVideo` or `UpdateAudio`: it is dropped before the encoder, or
the encoder gets it and gives some packets. -/
inductive UpdateOutcome where
  | dropped
  | encoded (packets : Nat)
  deriving DecidableEq

/-- What flushing the encoder of a track comes to: the packets it gives, and whether the loops over
its answers are over then. -/
structure FlushOutcome where
  packets : Nat
  ended : Bool
  deriving DecidableEq

structure FFMpegMediaRecorder where
  /-- `oc` is not null. -/
  oc : Bool := false
  fmt : Option OutputFormat := none
  haveVideo : Bool := false
  haveAudio : Bool := false
  audioOnly : Bool := false
  videoOnly : Bool := false
  fileReady : Bool := false
  videoStart : Bool := false
  /-- The packets posted to `worker_thread_` and not written yet. -/
  posted : List StreamType := []
  /-- The encoder of the track has been given a frame. -/
  videoFed : Bool := false
  audioFed : Bool := false
  output : List OutputCall := []
  events : List String := []
  halted : Option Halt := none
  stopped : Bool := false
  deriving DecidableEq

namespace FFMpegMediaRecorder

/-- `Init`: `context` is the muxer context that could be allocated for the mime type. The option
string of a track is null where the track is. -/
def init (context : Option OutputFormat) (audioOpt videoOpt : Bool) : FFMpegMediaRecorder :=
  match context with
  | none => {}
  | some fmt =>
    { oc := true
      fmt := some fmt
      audioOnly := audioOpt && !videoOpt
      videoOnly := videoOpt && !audioOpt }

/-- `InitFile`: the output context, the header, and a new worker thread. Nothing keeps it from
running again on a recorder that has a file, which writes a second header. -/
def initFile (self : FFMpegMediaRecorder) (fmt : OutputFormat) (file : FileOutcome) :
    FFMpegMediaRecorder :=
  if !fmt.noFile && !file.pbOk then self
  else if !file.headerOk then self
  else
    let ready : FFMpegMediaRecorder :=
      { self with
        fileReady := true
        output := self.output ++ [.header] }
    -- the worker thread is replaced: one that runs is joined first, and its tasks need `lock_`
    if ready.posted ≠ [] then { ready with halted := some .deadlock }
    else { ready with events := ready.events ++ ["NWObjectMediaRecorderStart"] }

/-- `add_stream` for the video. -/
def addVideoStream (self : FFMpegMediaRecorder) (add : AddOutcome) : FFMpegMediaRecorder :=
  match add with
  | .added =>
    { self with
      haveVideo := true
      videoFed := false
      output := self.output ++ [.newStream .video] }
  | _ => self

/-- `InitVideo`: the stream, the encoder, and the file where the other track is there or is not
wanted. A recorder without a muxer context follows the null pointer to its format. -/
def initVideo (self : FFMpegMediaRecorder) (add : AddOutcome) (openOk : Bool)
    (file : FileOutcome) : FFMpegMediaRecorder :=
  if self.audioOnly then { self with haveVideo := false }
  else
    match self.fmt with
    | none => { self with halted := some .muxerContext }
    | some fmt =>
      let self := if fmt.videoCodec then self.addVideoStream add else self
      let self := if self.haveVideo then { self with haveVideo := openOk } else self
      if self.haveVideo && (self.haveAudio || self.videoOnly) then self.initFile fmt file else self

/-- `add_stream` for the audio. -/
def addAudioStream (self : FFMpegMediaRecorder) (add : AddOutcome) : FFMpegMediaRecorder :=
  match add with
  | .added =>
    { self with
      haveAudio := true
      audioFed := false
      output := self.output ++ [.newStream .audio] }
  | _ => self

/-- `InitAudio`, the same for the other track. It does not ask whether there is a stream already, so
a second call opens the stream that its own `add_stream` has left behind. -/
def initAudio (self : FFMpegMediaRecorder) (add : AddOutcome) (openOk : Bool)
    (file : FileOutcome) : FFMpegMediaRecorder :=
  if self.videoOnly then { self with haveAudio := false }
  else
    match self.fmt with
    | none => { self with halted := some .muxerContext }
    | some fmt =>
      let added := if fmt.audioCodec then self.addAudioStream add else self
      -- a second call has `have_audio` from the first one and opens whatever stream is there
      if added.haveAudio && fmt.audioCodec && add = .noStream then
        { self with halted := some .stream }
      else
        let self := if added.haveAudio then { added with haveAudio := openOk } else added
        if self.haveAudio && (self.haveVideo || self.audioOnly) then self.initFile fmt file
        else self

/-- `UpdateVideo`, whose first frame with a file lets the audio begin. Its packets are posted to the
worker. -/
def updateVideo (self : FFMpegMediaRecorder) (update : UpdateOutcome) : FFMpegMediaRecorder :=
  if !self.haveVideo || !self.fileReady then self
  else
    let self := { self with videoStart := true }
    match update with
    | .dropped => self
    | .encoded packets =>
      { self with
        videoFed := true
        posted := self.posted ++ List.replicate packets .video }

/-- `UpdateAudio`: with a video track the audio waits for the first frame of the video. -/
def updateAudio (self : FFMpegMediaRecorder) (update : UpdateOutcome) : FFMpegMediaRecorder :=
  if !self.haveAudio || !self.fileReady then self
  else if !self.audioOnly && !self.videoStart then self
  else
    match update with
    | .dropped => self
    | .encoded packets =>
      { self with
        audioFed := true
        posted := self.posted ++ List.replicate packets .audio }

/-- The worker thread runs its next task. -/
def workerTask (self : FFMpegMediaRecorder) : FFMpegMediaRecorder :=
  match self.posted with
  | [] => self
  | type :: posted =>
    { self with
      posted := posted
      output := self.output ++ [.packet type] }

/-- The packets of an encoder that is flushed; one that was given no frame has none. -/
def flush (self : FFMpegMediaRecorder) (type : StreamType) (fed : Bool)
    (outcome : FlushOutcome) : FFMpegMediaRecorder :=
  let packets := if fed then List.replicate outcome.packets (.packet type) else []
  { self with
    output := self.output ++ packets
    halted := if outcome.ended then self.halted else some .flushing }

/-- The end of `Stop`. -/
def close (self : FFMpegMediaRecorder) : FFMpegMediaRecorder :=
  { self with
    oc := false
    stopped := true
    output := self.output ++ if self.fileReady then [.trailer] else []
    events := self.events ++ ["NWObjectMediaRecorderStop"] }

/-- `Stop`, from when it has `lock_`, with what flushing the two encoders comes to. -/
def stop (self : FFMpegMediaRecorder) (video audio : FlushOutcome) : FFMpegMediaRecorder :=
  if self.halted ≠ none then self
  else if !self.oc then { self with stopped := true }
  -- `worker_thread_.reset()` joins the worker, whose next task waits for `lock_`
  else if self.posted ≠ [] then { self with halted := some .deadlock }
  else
    let self := if self.haveVideo then self.flush .video self.videoFed video else self
    if self.halted ≠ none then self
    else
      let self := if self.haveAudio then self.flush .audio self.audioFed audio else self
      if self.halted ≠ none then self else self.close

/-- What happens to the recorder between `Init` and `Stop`. -/
inductive Op where
  /-- `OnVideoFrame`; `paused` is what `videoPause_` says. -/
  | videoFrame (add : AddOutcome) (openOk : Bool) (file : FileOutcome) (paused : Bool)
    (update : UpdateOutcome)
  /-- `OnSetFormat`. -/
  | setFormat (add : AddOutcome) (openOk : Bool) (file : FileOutcome)
  /-- `OnData`. -/
  | audioFrame (paused : Bool) (update : UpdateOutcome)
  | workerTask
  deriving DecidableEq

/-- `OnVideoFrame`, which makes the video track on the first frame that finds none, also where the
sink is paused. -/
def onVideoFrame (self : FFMpegMediaRecorder) (add : AddOutcome) (openOk : Bool)
    (file : FileOutcome) (paused : Bool) (update : UpdateOutcome) : FFMpegMediaRecorder :=
  let self := if !self.haveVideo then self.initVideo add openOk file else self
  if self.halted ≠ none || paused then self else self.updateVideo update

/-- One call of the recorder or one task of its worker. A recorder that is halted does nothing any
more. -/
def step (self : FFMpegMediaRecorder) (op : Op) : FFMpegMediaRecorder :=
  if self.halted ≠ none then self
  else
    match op with
    | .videoFrame add openOk file paused update => self.onVideoFrame add openOk file paused update
    | .setFormat add openOk file => self.initAudio add openOk file
    | .audioFrame paused update => if paused then self else self.updateAudio update
    | .workerTask => self.workerTask

end FFMpegMediaRecorder

end NodeWebkit.MediaRecorder
