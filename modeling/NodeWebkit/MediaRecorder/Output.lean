import NodeWebkit.Lib.BufferedWrites
import NodeWebkit.MediaRecorder.Script
import NodeWebkit.MediaRecorder.Stop

/-!
# What a recorder sends to its page

The muxer of an `FFMpegMediaRecorder` writes to an `AVIOContext`, whose buffer goes in chunks to
`writeCB`, and each chunk is an event. The header is written by `InitFile` on a capture thread, the
packets by the worker thread in the tasks posted to it, and what the encoders still hold and the
trailer by `Stop`.

## The model

* **`Muxer`** — what FFmpeg writes at each call;
* **`Recorder`** — the recorder of one sink, with its calls of the muxer and its events. Before
  `Stop` its worker thread takes a task, the lock, and makes its call, one after the other; from
  `Stop` on the two threads are those of `Stopping`, which begins wherever the worker is;
* **`Recorder.FileOk`**, **`Recorder.RequestOk`**, **`Recorder.StopOk`** — the conditions:
  `InitFile` runs once, because a second run replaces `oc->pb` and what is in the buffer of the
  first one is lost, or waits for good for a worker thread that has tasks left; `requestData` waits
  for the worker thread, because without one it flushes a muxer that has no header; and an encoder
  that was given no frame, because there is no file, holds nothing.

## The invariant

* **`Recorder.Written`** — the chunks and the buffer are the bytes the muxer has written;
* **`Recorder.Ordered`** — the calls are those of the tasks in the order in which they were posted,
  as far as the worker has come, and behind them what `Stop` has written.

Every step but `Stop`'s last one only appends data events, and the last one sends the Stop event and
nothing else (`Advance`). `Ok.complete` is what a recorder has done once it is closed.
-/

namespace NodeWebkit.MediaRecorder

open BufferedWrites

variable {Packet : Type}

/-! ## The muxer -/

/-- What a muxer does with its `AVIOContext`. -/
structure Muxer (Packet : Type) where
  /-- `avformat_write_header`, which may fail after it has written something. -/
  header : Bool → List (Op UInt8)
  /-- A call, after the calls before it. -/
  call : List (MuxerCall Packet) → MuxerCall Packet → List (Op UInt8)
  /-- `av_write_trailer` flushes the `AVIOContext` at its end. -/
  flush_trailer : ∀ calls, ∃ ops, call calls .trailer = ops ++ [.flush]

namespace Muxer

/-- The bytes that are written by calls after others. -/
def output (muxer : Muxer Packet) : List (MuxerCall Packet) → List (MuxerCall Packet) → List UInt8
  | _, [] => []
  | before, call :: calls =>
    (muxer.call before call).flatMap Op.data ++ muxer.output (before ++ [call]) calls

/-- One call more writes its own bytes behind those of the calls before it. -/
theorem output_concat (muxer : Muxer Packet) (before calls : List (MuxerCall Packet))
    (call : MuxerCall Packet) :
    muxer.output before (calls ++ [call]) =
      muxer.output before calls ++ (muxer.call (before ++ calls) call).flatMap Op.data := by
  induction calls generalizing before with
  | nil =>
    show (muxer.call before call).flatMap Op.data ++ [] = [] ++ _
    rw [List.append_nil, List.append_nil, List.nil_append]
  | cons c calls ih =>
    show _ ++ muxer.output (before ++ [c]) (calls ++ [call]) = _
    rw [ih, List.append_assoc before, ← List.append_assoc]
    rfl

end Muxer

/-! ## The recorder -/

/-- `Stop` has come to its end. -/
def StopPc.done : StopPc → Bool
  | .returned result => result
  | _ => false

/-- The tasks of a worker thread that are not done. -/
def Worker.tasks (worker : Worker Packet) : List (Task Packet) :=
  (worker.current.map Prod.fst).toList ++ worker.queue

/-- A step of the worker thread before `Stop`, with the call of the muxer in it. Nobody else takes
`lock_` then: `RequestData` runs outside the worker only where there is none. -/
def Worker.step (worker : Worker Packet) : Option (Worker Packet × List (MuxerCall Packet)) :=
  match worker.current with
  | none =>
    match worker.queue with
    | task :: queue => some ({ current := some (task, false), queue := queue }, [])
    | [] => none
  | some (task, false) => some ({ worker with current := some (task, true) }, [])
  | some (task, true) => some ({ worker with current := none }, [task.call])

/-- The recorder of a sink. -/
structure Recorder (Packet : Type) where
  /-- `oc` is not null. -/
  oc : Bool
  fileReady : Bool := false
  /-- `worker_thread_`. -/
  worker : Option (Worker Packet) := none
  /-- What the calls of `avformat_write_header` have returned. -/
  headers : List Bool := []
  /-- The tasks that were posted to the worker thread. -/
  posted : List (Task Packet) := []
  /-- The calls of the muxer after the header. -/
  calls : List (MuxerCall Packet) := []
  /-- The buffer of the `AVIOContext`. -/
  buffer : List UInt8 := []
  /-- What `event_cb_` was run with. -/
  events : List (EventName × List UInt8) := []
  /-- The recorder as `Stop` found it, and how far `Stop` is. -/
  stop : Option (Recording Packet × Stopping Packet) := none
  /-- `InitFile` has `lock_` and waits for good for the worker thread that it replaces. -/
  deadlocked : Bool := false

namespace Recorder

/-- The tasks that are not done. -/
def tasks (self : Recorder Packet) : List (Task Packet) := self.worker.elim [] Worker.tasks

/-- `Stop` has not been called, and no thread has `lock_` for good. -/
def running (self : Recorder Packet) : Bool := self.stop.isNone && !self.deadlocked

/-- The worker thread has `lock_`. -/
def locked (self : Recorder Packet) : Bool :=
  self.worker.any fun worker => worker.current.any Prod.snd

variable (pb : Writer UInt8) (muxer : Muxer Packet)

/-- The muxer writes to `oc->pb`, and `writeCB` is called with the chunks. -/
def io (self : Recorder Packet) (ops : List (Op UInt8)) : Recorder Packet :=
  let (chunks, buffer) := pb.run self.buffer ops
  { self with
    buffer := buffer
    events := self.events ++ chunks.map fun data => (.data, data) }

def muxerCall (self : Recorder Packet) (call : MuxerCall Packet) : Recorder Packet :=
  { self.io pb (muxer.call self.calls call) with calls := self.calls ++ [call] }

def muxerCalls (self : Recorder Packet) (calls : List (MuxerCall Packet)) : Recorder Packet :=
  calls.foldl (muxerCall pb muxer) self

/-- `avformat_write_header`, to an `oc->pb` that has just been made. -/
def writeHeader (self : Recorder Packet) (headerOk : Bool) : Recorder Packet :=
  let self := { self with buffer := [] }
  { self.io pb (muxer.header headerOk) with headers := self.headers ++ [headerOk] }

def sendStart (self : Recorder Packet) : Recorder Packet :=
  { self with events := self.events ++ [(.start, [])] }

/-- A new worker thread takes the place of the old one, whose destructor lets it run its tasks and
joins it; the tasks need `lock_`, which `InitFile` has. -/
def startWorker (self : Recorder Packet) : Recorder Packet :=
  if self.tasks.isEmpty then
    sendStart { self with
      fileReady := true
      worker := some {} }
  else
    { self with
      fileReady := true
      deadlocked := true }

/-- `InitFile`, called by `InitVideo` or `InitAudio`, which take `lock_` first. -/
def initFile (self : Recorder Packet) (headerOk : Bool) : Option (Recorder Packet) :=
  if self.oc && self.running && !self.locked then
    let self := self.writeHeader pb muxer headerOk
    some (if headerOk then self.startWorker else self)
  else none

/-- A task is posted to the worker thread. -/
def postTask (self : Recorder Packet) (worker : Worker Packet) (task : Task Packet) :
    Recorder Packet :=
  { self with
    posted := self.posted ++ [task]
    worker := some { worker with queue := worker.queue ++ [task] } }

/-- `UpdateVideo` or `UpdateAudio` has a packet of the encoder; without a worker thread it is
written at once. -/
def packet (self : Recorder Packet) (pkt : Packet) : Option (Recorder Packet) :=
  if self.fileReady && self.running then
    match self.worker with
    | some worker => some (self.postTask worker (.writeFrame pkt))
    | none => some (self.muxerCall pb muxer (.writeFrame pkt))
  else none

/-- `RequestData(true)`; without a worker thread it is `RequestData(false)`, which crashes where
`oc` is null. -/
def requestData (self : Recorder Packet) : Option (Recorder Packet) :=
  if self.running then
    match self.worker with
    | some worker => some (self.postTask worker .requestData)
    | none => if self.oc then some (self.muxerCall pb muxer .flush) else none
  else none

/-- The worker thread takes a step, before `Stop`. -/
def workerStep (self : Recorder Packet) : Option (Recorder Packet) :=
  if self.running then
    self.worker.bind fun worker =>
      worker.step.map fun (worker, calls) =>
        { self.muxerCalls pb muxer calls with worker := some worker }
  else none

/-- The recorder as `Stop` finds it; `encoders` says which streams there are, and what the encoders
answer. -/
def recording (self : Recorder Packet) (encoders : Recording Packet) : Recording Packet :=
  { encoders with
    oc := self.oc
    fileReady := self.fileReady
    workerThread := self.worker }

/-- The destructor calls `Stop`. -/
def beginStop (self : Recorder Packet) (encoders : Recording Packet) : Option (Recorder Packet) :=
  if self.running then
    let r := self.recording encoders
    some { self with stop := some (r, Stopping.called r) }
  else none

/-- A thread takes a step while `Stop` runs. -/
def stopStep (self : Recorder Packet) (thread : Thread) : Option (Recorder Packet) :=
  self.stop.bind fun (r, s) =>
    (s.step r thread).map fun t =>
      let self := self.muxerCalls pb muxer (t.muxer.drop s.muxer.length)
      { self with
        stop := some (r, t)
        events := self.events ++ (t.events.drop s.events.length).map fun _ => (.stop, []) }

/-! ## The conditions -/

/-- `InitFile` has not run before. -/
def FileOk (self : Recorder Packet) : Prop := self.headers = []

/-- There is a worker thread for the task. -/
def RequestOk (self : Recorder Packet) : Prop := self.worker.isSome = true

/-- An encoder that was given no frame has no packet. -/
def StopOk (self : Recorder Packet) (encoders : Recording Packet) : Prop :=
  self.fileReady = false → ∀ answer ∈ encoders.loops, answer 0 = none

instance (self : Recorder Packet) : Decidable self.FileOk :=
  inferInstanceAs (Decidable (self.headers = []))

instance (self : Recorder Packet) : Decidable self.RequestOk :=
  inferInstanceAs (Decidable (self.worker.isSome = true))

instance (self : Recorder Packet) (encoders : Recording Packet) :
    Decidable (self.StopOk encoders) :=
  inferInstanceAs (Decidable
    (self.fileReady = false → ∀ answer ∈ encoders.loops, answer 0 = none))

/-! ## What the page gets to see -/

/-- What `ondataavailable` is called with for an event: a blob, `null`, or not at all. -/
def offer : EventName × List UInt8 → Option (Option (List UInt8))
  | (.data, data) => some (some data)
  | (.stop, _) => some none
  | _ => none

def offers (self : Recorder Packet) : List (Option (List UInt8)) := self.events.filterMap offer

/-- The chunks that `writeCB` was called with. -/
def chunks (self : Recorder Packet) : List (List UInt8) := self.offers.filterMap id

/-- `Stop` has sent its event. -/
def closed (self : Recorder Packet) : Bool := self.stop.any fun (_, s) => s.stop.done

/-- The bytes that the muxer has written. -/
def output (self : Recorder Packet) : List UInt8 :=
  (self.headers.flatMap fun ok => (muxer.header ok).flatMap Op.data) ++ muxer.output [] self.calls

/-- The calls of the muxer at the end of a recording: every task that was posted, what the loops of
`Stop` have given, and the trailer where there is a file. -/
def Complete (self : Recorder Packet) : Prop :=
  ∃ r s pkts, self.stop = some (r, s) ∧ Loop.GivenAll r.loops pkts ∧
    self.calls = self.posted.map Task.call ++ pkts.map .writeFrame ++
      if self.fileReady then [.trailer] else []

/-! ## One call of the muxer -/

variable {pb muxer}

/-- What the events, the buffer and the calls say about the bytes. -/
structure Written (muxer : Muxer Packet) (recorder : Recorder Packet) : Prop where
  bytes : recorder.chunks.flatten ++ recorder.buffer = recorder.output muxer
  offers : recorder.offers = recorder.chunks.map some ++ if recorder.closed then [none] else []
  trailer : ∀ calls, recorder.calls = calls ++ [.trailer] → recorder.buffer = []

/-- A chunk is offered as it is: `ondataavailable` gets its bytes, one call for each event. This is
what links the events of a recorder to the chunks that `writeCB` was called with. -/
theorem offers_data (chunks : List (List UInt8)) :
    (chunks.map fun data => (EventName.data, data)).filterMap offer = chunks.map some := by
  rw [List.filterMap_map]
  show chunks.filterMap (fun data => some (some data)) = chunks.map some
  rw [← List.filterMap_eq_map]
  rfl

variable {self self' : Recorder Packet}

/-- What is written to `oc->pb` is offered to the page chunk by chunk, behind what was offered. -/
theorem offers_io (ops : List (Op UInt8)) :
    (self.io pb ops).offers = self.offers ++ (pb.run self.buffer ops).1.map some := by
  show (self.events ++ (pb.run self.buffer ops).1.map fun data => (EventName.data, data)).filterMap
    offer = _
  rw [List.filterMap_append, offers_data]
  rfl

/-- What the muxer writes reaches the page as far as `writeCB` was called: the chunks are those that
the buffer gives away, one after the other. -/
theorem chunks_io (ops : List (Op UInt8)) :
    (self.io pb ops).chunks = self.chunks ++ (pb.run self.buffer ops).1 := by
  show (self.io pb ops).offers.filterMap id = _
  rw [offers_io, List.filterMap_append, List.filterMap_map]
  exact congrArg (self.chunks ++ ·) List.filterMap_some

/-- The bytes of some writes come behind those before: a buffer may keep bytes back and give them
away later, but it neither loses one nor changes their order. -/
theorem bytes_io (ops : List (Op UInt8)) :
    (self.io pb ops).chunks.flatten ++ (self.io pb ops).buffer =
      self.chunks.flatten ++ self.buffer ++ ops.flatMap Op.data := by
  rw [chunks_io, List.flatten_append, List.append_assoc]
  show _ ++ (_ ++ (pb.run self.buffer ops).2) = _
  rw [pb.flatten_run, List.append_assoc]

/-- Until `Stop` has sent its event, every offer to the page is a chunk of the file. The null that a
page gets at the end belongs to the Stop event alone. -/
theorem Written.open_offers (h : self.Written muxer) (hopen : self.closed = false) :
    self.offers = self.chunks.map some := by
  have hoffers := h.offers
  rw [hopen] at hoffers
  exact hoffers.trans (List.append_nil _)

/-- Writes before the Stop event are offered as data only, which is the shape that
`Written.muxerCall` needs of each call. -/
theorem io_offers (h : self.Written muxer) (hopen : self.closed = false) (ops : List (Op UInt8)) :
    (self.io pb ops).offers = (self.io pb ops).chunks.map some := by
  rw [offers_io, chunks_io, h.open_offers hopen, List.map_append]

/-- **A call of the muxer** of an open recorder: its bytes are added to those before, and a trailer
leaves nothing in the buffer. -/
theorem Written.muxerCall (pb : Writer UInt8) (h : self.Written muxer) (hopen : self.closed = false)
    (call : MuxerCall Packet) : (self.muxerCall pb muxer call).Written muxer := by
  refine ⟨?_, ?_, ?_⟩
  · refine (bytes_io (muxer.call self.calls call)).trans ?_
    show _ = _ ++ muxer.output [] (self.calls ++ [call])
    rw [h.bytes, Muxer.output_concat, ← List.append_assoc]
    rfl
  · show (self.io pb _).offers =
      (self.io pb _).chunks.map some ++ if self.closed then [none] else []
    rw [hopen, io_offers h hopen]
    exact (List.append_nil _).symm
  · intro calls hcalls
    obtain ⟨rfl, hcall⟩ := List.append_inj' (show self.calls ++ [call] = _ from hcalls) rfl
    rw [List.singleton_inj] at hcall
    subst hcall
    obtain ⟨ops, hops⟩ := muxer.flush_trailer self.calls
    show (pb.run self.buffer (muxer.call self.calls .trailer)).2 = []
    rw [hops]
    exact pb.run_flush self.buffer ops

/-- Any number of calls of the muxer keep what the page has and the buffer together with what is
written. The induction is on the calls, one call being `Written.muxerCall`. -/
theorem Written.muxerCalls (pb : Writer UInt8) (h : self.Written muxer)
    (hopen : self.closed = false) (calls : List (MuxerCall Packet)) :
    (self.muxerCalls pb muxer calls).Written muxer := by
  induction calls generalizing self with
  | nil => exact h
  | cons call calls ih => exact ih (h.muxerCall pb hopen call) hopen

/-- Calls of the muxer send data, and change nothing but the calls, the buffer and the events. -/
theorem muxerCalls_frame (pb : Writer UInt8) (muxer : Muxer Packet) (self : Recorder Packet)
    (calls : List (MuxerCall Packet)) :
    ∃ (buffer : List UInt8) (chunks : List (List UInt8)),
      self.muxerCalls pb muxer calls = { self with
        calls := self.calls ++ calls
        buffer := buffer
        events := self.events ++ chunks.map fun data => (.data, data) } := by
  induction calls generalizing self with
  | nil => exact ⟨self.buffer, [], by simp [Recorder.muxerCalls]⟩
  | cons call calls ih =>
    obtain ⟨buffer, chunks, heq⟩ := ih (self.muxerCall pb muxer call)
    refine ⟨buffer, (pb.run self.buffer (muxer.call self.calls call)).1 ++ chunks, heq.trans ?_⟩
    simp [Recorder.muxerCall, io]

end Recorder

/-! ## Steps of `Stop`

What a step of one of the two threads adds to the calls of the muxer and to the events. The threads
only append, so the recorder can be told the difference. -/

namespace Stopping

variable {r : Recording Packet} {s t : Stopping Packet}

/-- A step of the worker while `Stop` runs calls the muxer, or does nothing that is seen. It never
sends an event. -/
theorem workerStep_output (hst : s.workerStep = some t) :
    (∃ calls, t.muxer = s.muxer ++ calls) ∧ t.events = s.events := by
  -- where nothing is written
  have hnone : ∃ calls, s.muxer = s.muxer ++ calls := ⟨[], (List.append_nil _).symm⟩
  cases workerStepped_of_step hst with
  | take => exact ⟨hnone, rfl⟩
  | finish => exact ⟨hnone, rfl⟩
  | lock => exact ⟨hnone, rfl⟩
  | run task => exact ⟨⟨[task.call], rfl⟩, rfl⟩

/-- The stopping thread: it appends calls, or sends its event as its last step. -/
theorem stopStep_output (hst : s.stopStep r = some t) :
    s.stop.done = false ∧ ∃ calls, t.muxer = s.muxer ++ calls ∧
      (t.events = s.events ∧ t.stop.done = false ∨
        calls = [] ∧ t.events = s.events ++ ["NWObjectMediaRecorderStop"] ∧
          t.stop.done = true) := by
  -- where nothing is written
  have hnone : s.muxer = s.muxer ++ [] := (List.append_nil _).symm
  cases stopStepped_of_step hst with
  | enter hpc => exact ⟨by rw [hpc]; rfl, [], hnone, Or.inl ⟨rfl, rfl⟩⟩
  | turnAway hpc => exact ⟨by rw [hpc]; rfl, [], hnone, Or.inl ⟨rfl, rfl⟩⟩
  | lock hpc => exact ⟨by rw [hpc]; rfl, [], hnone, Or.inl ⟨rfl, rfl⟩⟩
  | lockAlone hpc => exact ⟨by rw [hpc]; rfl, [], hnone, Or.inl ⟨rfl, rfl⟩⟩
  | stopWorker hpc => exact ⟨by rw [hpc]; rfl, [], hnone, Or.inl ⟨rfl, rfl⟩⟩
  | join hpc => exact ⟨by rw [hpc]; rfl, [], hnone, Or.inl ⟨rfl, rfl⟩⟩
  | iteration hpc => exact ⟨by rw [hpc]; rfl, _, rfl, Or.inl ⟨rfl, rfl⟩⟩
  | nextLoop hpc => exact ⟨by rw [hpc]; rfl, [], hnone, Or.inl ⟨rfl, rfl⟩⟩
  | flushed hpc => exact ⟨by rw [hpc]; rfl, [], hnone, Or.inl ⟨rfl, rfl⟩⟩
  | writeTrailer hpc =>
    -- a trailer only where there is a file
    exact ⟨by rw [hpc]; rfl, trailer r, rfl, Or.inl ⟨rfl, rfl⟩⟩
  | close hpc => exact ⟨by rw [hpc]; rfl, [], hnone, Or.inr ⟨rfl, rfl, rfl⟩⟩

/-- What a step of either thread adds to the calls and to the events, of which there is one, at the
end. -/
theorem step_output {thread : Thread} (h : Inv r s) (hst : s.step r thread = some t) :
    s.stop.done = false ∧ ∃ calls, t.muxer = s.muxer ++ calls ∧
      (t.events = s.events ∧ t.stop.done = false ∨
        calls = [] ∧ t.events = s.events ++ ["NWObjectMediaRecorderStop"] ∧
          t.stop.done = true) := by
  cases thread with
  | stopper => exact stopStep_output hst
  | worker =>
    obtain ⟨⟨calls, hcalls⟩, hevents⟩ := workerStep_output hst
    -- a worker that has not finished has not been joined
    have hopen : s.stop.done = false := by
      have hbefore := (h.not_joined hst).2
      cases hpc : s.stop with
      | returned result =>
        rw [hpc] at hbefore
        exact hbefore
      | _ => rfl
    refine ⟨hopen, calls, hcalls, Or.inl ⟨hevents, ?_⟩⟩
    rw [(workerStep_stop hst).2]
    exact hopen

end Stopping

namespace Recorder

variable {pb : Writer UInt8} {muxer : Muxer Packet} {self self' : Recorder Packet}

/-! ## The order of the calls -/

/-- Where the calls of the muxer stand: before `Stop` they and the tasks that wait are the tasks
that were posted; during `Stop` they are those before it and its own. -/
structure Ordered (recorder : Recorder Packet) : Prop where
  ready : recorder.worker.isSome = recorder.fileReady
  headers : recorder.headers = [] → recorder.fileReady = false
  noFile : recorder.fileReady = false → recorder.posted = []
  before : recorder.stop = none →
    recorder.calls ++ recorder.tasks.map Task.call = recorder.posted.map Task.call
  during : ∀ r s, recorder.stop = some (r, s) →
    Stopping.Inv r s ∧ r.fileReady = recorder.fileReady ∧
      (recorder.fileReady = false → ∀ answer ∈ r.loops, answer 0 = none) ∧
      ∃ past, recorder.calls = past ++ s.muxer ∧
        past ++ r.tasks.map Task.call = recorder.posted.map Task.call

structure Ok (muxer : Muxer Packet) (recorder : Recorder Packet) : Prop extends
    Written muxer recorder, Ordered recorder

/-- A recorder whose `Stop` is under way is closed when `Stop` has sent its event. -/
theorem closed_of_some {r : Recording Packet} {s : Stopping Packet}
    (hstop : self.stop = some (r, s)) : self.closed = s.stop.done := by
  unfold closed
  rw [hstop, Option.any_some]

theorem closed_of_none (hstop : self.stop = none) : self.closed = false := by
  unfold closed
  rw [hstop]
  rfl

theorem stop_of_running (hrunning : self.running = true) : self.stop = none :=
  Option.isNone_iff_eq_none.mp (Bool.and_eq_true_iff.mp hrunning).1

/-- Without a file there is no worker thread, so no task waits and none was done. -/
theorem Ordered.calls_nil (h : self.Ordered) (hstop : self.stop = none)
    (hfile : self.fileReady = false) : self.tasks = [] ∧ self.calls = [] := by
  have hcalls := h.before hstop
  rw [h.noFile hfile] at hcalls
  obtain ⟨hnil, htasks⟩ := List.append_eq_nil_iff.mp hcalls
  exact ⟨List.map_eq_nil_iff.mp htasks, hnil⟩

/-- A recorder is made by `start`, before anything is written: there are no calls, no tasks and no
events, and each clause of the invariant is about nothing. -/
theorem Ok.new (oc : Bool) : Ok muxer ({ oc := oc } : Recorder Packet) where
  bytes := rfl
  offers := rfl
  trailer _ _ := rfl
  ready := rfl
  headers _ := rfl
  noFile _ := rfl
  before _ := rfl
  during _ _ hstop := by cases hstop

/-- A step of a recorder that is not closed. Where it is closed by the step, it sends the Stop event
and nothing else. -/
structure Advance (muxer : Muxer Packet) (recorder recorder' : Recorder Packet)
    (sent : List (EventName × List UInt8)) : Prop where
  ok : recorder'.Ok muxer
  before : recorder.closed = false
  events : recorder'.events = recorder.events ++ sent
  sent : recorder'.closed = false ∧ (∀ event ∈ sent, event.1 ≠ .stop) ∨
    recorder'.closed = true ∧ sent = [(.stop, [])]

theorem ne_stop_of_data {chunks : List (List UInt8)} {event : EventName × List UInt8}
    (hmem : event ∈ chunks.map fun data => (EventName.data, data)) : event.1 ≠ .stop := by
  obtain ⟨data, -, rfl⟩ := List.mem_map.mp hmem
  show EventName.data ≠ .stop
  decide

/-! ## Steps before `Stop` -/

/-- Where nothing but tasks and the worker thread changes, the bytes are as before. -/
theorem Written.of_eq (h : self.Written muxer) (hheaders : self'.headers = self.headers)
    (hcalls : self'.calls = self.calls) (hbuffer : self'.buffer = self.buffer)
    (hevents : self'.events = self.events) (hstop : self'.closed = self.closed) :
    self'.Written muxer := by
  have hoffers : self'.offers = self.offers := congrArg (List.filterMap offer) hevents
  have hchunks : self'.chunks = self.chunks := congrArg (List.filterMap id) hoffers
  refine ⟨?_, ?_, ?_⟩
  · unfold output
    rw [hchunks, hbuffer, hheaders, hcalls]
    exact h.bytes
  · rw [hoffers, hchunks, hstop]
    exact h.offers
  · rw [hcalls, hbuffer]
    exact h.trailer

/-- **The header.** `FileOk` says that it is the first one, and then nothing is written and the
buffer that `oc->pb` had is empty, so the new one takes its place without a loss. Where the header
fails, what was written of it counts as written. -/
theorem Ok.writeHeader (pb : Writer UInt8) (h : self.Ok muxer) (hfirst : self.FileOk)
    (hstop : self.stop = none) (headerOk : Bool) :
    (self.writeHeader pb muxer headerOk).Written muxer := by
  have hfirst : self.headers = [] := hfirst
  obtain ⟨-, hcalls⟩ := h.calls_nil hstop (h.headers hfirst)
  have hbytes : self.chunks.flatten ++ self.buffer = [] := by
    rw [h.bytes, output, hfirst, hcalls]
    rfl
  obtain ⟨hchunks, hbuffer⟩ := List.append_eq_nil_iff.mp hbytes
  have hopen := closed_of_none hstop
  -- with nothing in it the old buffer is as good as the new one
  have hsame : ({ self with buffer := [] } : Recorder Packet) = self := by
    rw [← hbuffer]
  refine ⟨?_, ?_, fun calls htrailer => ?_⟩
  · refine (bytes_io (muxer.header headerOk)).trans ?_
    show self.chunks.flatten ++ [] ++ _ =
      ((self.headers ++ [headerOk]).flatMap fun ok => (muxer.header ok).flatMap Op.data) ++
        muxer.output [] self.calls
    rw [hchunks, hfirst, hcalls]
    simp [Muxer.output]
  · show (Recorder.io pb { self with buffer := [] } _).offers =
      (Recorder.io pb { self with buffer := [] } _).chunks.map some ++
        if self.closed then [none] else []
    rw [hopen, hsame, io_offers h.toWritten hopen]
    exact (List.append_nil _).symm
  · have hnil : self.calls = calls ++ [.trailer] := htrailer
    rw [hcalls] at hnil
    exact absurd hnil.symm (List.append_ne_nil_of_right_ne_nil _ (List.cons_ne_nil _ _))

/-- The Start event carries no data. It is sent when the header is written, after the chunks of the
header, and stands between chunks without being one. -/
theorem Written.sendStart (h : self.Written muxer) : self.sendStart.Written muxer := by
  have hoffers : self.sendStart.offers = self.offers := by
    show (self.events ++ [(EventName.start, [])]).filterMap offer = _
    rw [List.filterMap_append]
    exact List.append_nil _
  have hchunks : self.sendStart.chunks = self.chunks := congrArg (List.filterMap id) hoffers
  refine ⟨?_, ?_, h.trailer⟩
  · rw [hchunks]
    exact h.bytes
  · rw [hoffers, hchunks]
    exact h.offers

/-- **`InitFile`**, where it runs for the first time: the header is written, and where that goes
well there is a worker thread with nothing to do. -/
theorem Ok.initFile (h : self.Ok muxer) (hfirst : self.FileOk) {headerOk : Bool}
    (hstep : self.initFile pb muxer headerOk = some self') :
    self.stop = none ∧ self'.stop = none ∧ ∃ sent, Advance muxer self self' sent := by
  obtain ⟨hcond, hself'⟩ := Option.ite_none_right_eq_some.mp hstep
  have hstop := stop_of_running (Bool.and_eq_true_iff.mp (Bool.and_eq_true_iff.mp hcond).1).2
  have hopen := closed_of_none hstop
  -- nothing was written or posted before the first header
  have hfile := h.headers hfirst
  obtain ⟨htasks, hcalls⟩ := h.calls_nil hstop hfile
  have hposted := h.noFile hfile
  have hwritten := h.writeHeader pb hfirst hstop headerOk
  cases headerOk with
  | false =>
    cases hself'
    refine ⟨hstop, hstop, _, ⟨hwritten, ?_⟩, hopen, rfl,
      Or.inl ⟨hopen, fun _ => ne_stop_of_data⟩⟩
    exact ⟨h.ready, fun _ => hfile, fun _ => hposted, fun _ => h.before hstop,
      fun r s hsome => absurd (hstop.symm.trans hsome) nofun⟩
  | true =>
    -- the worker that is replaced has no tasks
    have hnone : (self.writeHeader pb muxer true).tasks.isEmpty = true := by
      show self.tasks.isEmpty = true
      rw [htasks]
      rfl
    have hself' : some (self.writeHeader pb muxer true).startWorker = some self' := hself'
    rw [startWorker, if_pos hnone] at hself'
    cases hself'
    have hworker : Recorder.Written muxer { self.writeHeader pb muxer true with
        fileReady := true
        worker := some {} } := hwritten.of_eq rfl rfl rfl rfl rfl
    refine ⟨hstop, hstop, _, ⟨hworker.sendStart, ?_⟩, hopen, List.append_assoc ..,
      Or.inl ⟨hopen, ?_⟩⟩
    · refine ⟨rfl, fun hnil => ?_, nofun, fun _ => ?_, fun r s hsome => ?_⟩
      · exact absurd hnil (List.append_ne_nil_of_right_ne_nil _ (List.cons_ne_nil _ _))
      · show self.calls ++ [] = self.posted.map Task.call
        rw [hcalls, hposted]
        rfl
      · exact absurd (hstop.symm.trans hsome) nofun
    · intro event hmem
      rcases List.mem_append.mp hmem with hmem | hmem
      · exact ne_stop_of_data hmem
      · rw [List.mem_singleton.mp hmem]
        show EventName.start ≠ .stop
        decide

/-- A task that is posted waits behind the others, so the calls that are still to come are those
that were to come and then its own. -/
theorem Ok.postTask (h : self.Ok muxer) (hstop : self.stop = none) {worker : Worker Packet}
    (hworker : self.worker = some worker) (task : Task Packet) :
    Advance muxer self (self.postTask worker task) [] := by
  have hopen := closed_of_none hstop
  have hready : self.fileReady = true := by
    rw [← h.ready, hworker]
    rfl
  refine ⟨⟨h.toWritten.of_eq rfl rfl rfl rfl rfl, ?_⟩, hopen, (List.append_nil _).symm,
    Or.inl ⟨hopen, List.forall_mem_nil _⟩⟩
  refine ⟨hready.symm, h.headers, fun hfile => ?_, fun _ => ?_, fun r s hsome => ?_⟩
  · -- a task is posted only where there is a file
    exact absurd (hready.symm.trans hfile) nofun
  · -- one more task at the end of the queue, one more at the end of what was posted
    have hbefore := h.before hstop
    unfold tasks at hbefore ⊢
    rw [hworker] at hbefore
    have htasks : Worker.tasks { worker with queue := worker.queue ++ [task] } =
        worker.tasks ++ [task] := by
      simp [Worker.tasks]
    show self.calls ++ (Worker.tasks _).map Task.call = (self.posted ++ [task]).map Task.call
    rw [htasks, List.map_append, List.map_append, ← hbefore, List.append_assoc]
    rfl
  · exact absurd (hstop.symm.trans hsome) nofun

/-- **A packet.** An encoder that gives a packet has a file, and with the file came a worker thread,
so the packet is posted and waits behind the tasks that are there. -/
theorem Ok.packet (h : self.Ok muxer) {pkt : Packet}
    (hstep : self.packet pb muxer pkt = some self') :
    self.stop = none ∧ self'.stop = none ∧ Advance muxer self self' [] := by
  obtain ⟨hcond, hself'⟩ := Option.ite_none_right_eq_some.mp hstep
  obtain ⟨hfile, hstop⟩ := Bool.and_eq_true_iff.mp hcond
  have hstop := stop_of_running hstop
  split at hself'
  · rename_i worker hworker
    cases hself'
    exact ⟨hstop, hstop, h.postTask hstop hworker _⟩
  · -- with a file there is a worker thread
    rename_i hnone
    have hready := h.ready
    rw [hnone, hfile] at hready
    cases hready

/-- **`requestData`.** With a worker thread it posts a task like any other. Without one the source
flushes the muxer at once, which `RequestOk` leaves out. -/
theorem Ok.requestData (h : self.Ok muxer) (hok : self.RequestOk)
    (hstep : self.requestData pb muxer = some self') :
    self.stop = none ∧ self'.stop = none ∧ Advance muxer self self' [] := by
  obtain ⟨hcond, hself'⟩ := Option.ite_none_right_eq_some.mp hstep
  have hstop := stop_of_running hcond
  split at hself'
  · rename_i worker hworker
    cases hself'
    exact ⟨hstop, hstop, h.postTask hstop hworker _⟩
  · rename_i hnone
    have hsome : self.worker.isSome = true := hok
    rw [hnone] at hsome
    cases hsome

/-- A step of the worker thread makes the call of the task it is done with. -/
theorem Worker.step_tasks {worker worker' : Worker Packet} {calls : List (MuxerCall Packet)}
    (hstep : worker.step = some (worker', calls)) :
    calls ++ worker'.tasks.map Task.call = worker.tasks.map Task.call := by
  obtain ⟨current, queue⟩ := worker
  match current, queue, hstep with
  | none, task :: queue, hstep =>
    cases hstep
    rfl
  | some (task, false), queue, hstep =>
    cases hstep
    rfl
  | some (task, true), queue, hstep =>
    cases hstep
    rfl

/-- **A step of the worker thread** before `Stop`. It takes a task, takes the lock or makes the call
of the task it has, and only the last of these is seen by the muxer. The calls made and the calls of
the tasks it still has stay what was posted (`Worker.step_tasks`). -/
theorem Ok.workerStep (h : self.Ok muxer) (hstep : self.workerStep pb muxer = some self') :
    self.stop = none ∧ self'.stop = none ∧ ∃ sent, Advance muxer self self' sent := by
  obtain ⟨hcond, hself'⟩ := Option.ite_none_right_eq_some.mp hstep
  have hstop := stop_of_running hcond
  have hopen := closed_of_none hstop
  obtain ⟨worker, hworker, hmap⟩ := Option.bind_eq_some_iff.mp hself'
  obtain ⟨⟨worker', calls⟩, hwstep, rfl⟩ := Option.map_eq_some_iff.mp hmap
  obtain ⟨buffer, chunks, hframe⟩ := muxerCalls_frame pb muxer self calls
  have hwritten := h.toWritten.muxerCalls pb hopen calls
  have htasks := Worker.step_tasks hwstep
  dsimp only
  rw [hframe] at hwritten ⊢
  refine ⟨hstop, hstop, _, ⟨hwritten.of_eq rfl rfl rfl rfl rfl, ?_⟩, hopen, rfl,
    Or.inl ⟨hopen, fun _ => ne_stop_of_data⟩⟩
  refine ⟨?_, h.headers, h.noFile, fun _ => ?_, fun r s hsome => ?_⟩
  · rw [← h.ready, hworker]
    rfl
  · -- a call that is made leaves the calls that are to come
    have hbefore := h.before hstop
    unfold tasks at hbefore
    rw [hworker] at hbefore
    show self.calls ++ calls ++ worker'.tasks.map Task.call = self.posted.map Task.call
    rw [List.append_assoc, htasks]
    exact hbefore
  · exact absurd (hstop.symm.trans hsome) nofun

/-! ## `Stop` -/

/-- What `Stop` finds is what waits, wherever the worker is: in its queue, or at the lock with a
task it has already taken. -/
theorem Ok.beginStop (h : self.Ok muxer) {encoders : Recording Packet}
    (hok : self.StopOk encoders) (hstep : self.beginStop encoders = some self') :
    Advance muxer self self' [] := by
  obtain ⟨hcond, hself'⟩ := Option.ite_none_right_eq_some.mp hstep
  have hstop := stop_of_running hcond
  have hopen := closed_of_none hstop
  cases hself'
  refine ⟨⟨h.toWritten.of_eq rfl rfl rfl rfl hopen.symm, ?_⟩, hopen, (List.append_nil _).symm,
    Or.inl ⟨rfl, List.forall_mem_nil _⟩⟩
  refine ⟨h.ready, h.headers, h.noFile, nofun, fun r s hsome => ?_⟩
  cases hsome
  exact ⟨Stopping.Inv.called _, rfl, hok, self.calls, (List.append_nil _).symm, h.before hstop⟩

/-- What is written stays the same; the Stop event is sent where the recorder is closed. -/
theorem Written.stopStep (h : self.Written muxer) (hopen : self.closed = false)
    (hheaders : self'.headers = self.headers) (hcalls : self'.calls = self.calls)
    (hbuffer : self'.buffer = self.buffer)
    (hevents : self'.events = self.events ++ if self'.closed then [(.stop, [])] else []) :
    self'.Written muxer := by
  have hoffers : self'.offers = self.offers ++ if self'.closed then [none] else [] := by
    unfold Recorder.offers
    rw [hevents, List.filterMap_append]
    split <;> rfl
  have hchunks : self'.chunks = self.chunks := by
    unfold chunks
    rw [hoffers, List.filterMap_append]
    split <;> exact List.append_nil _
  refine ⟨?_, ?_, ?_⟩
  · unfold output
    rw [hchunks, hbuffer, hheaders, hcalls]
    exact h.bytes
  · rw [hoffers, hchunks, h.open_offers hopen]
  · rw [hcalls, hbuffer]
    exact h.trailer

/-- **A thread takes a step while `Stop` runs.** The calls it adds are read off the two threads
(`step_output`), and the event of the last step is the Stop event, after which the recorder is
closed and no thread has a step. -/
theorem Ok.stopStep (h : self.Ok muxer) {thread : Thread}
    (hstep : self.stopStep pb muxer thread = some self') :
    self.stop ≠ none ∧ ∃ sent, Advance muxer self self' sent := by
  obtain ⟨⟨r, s⟩, hstop, hself'⟩ := Option.bind_eq_some_iff.mp hstep
  obtain ⟨t, hst, heq⟩ := Option.map_eq_some_iff.mp hself'
  obtain ⟨hinv, hready, hsilent, past, hpast, hposted⟩ := h.during r s hstop
  obtain ⟨hrunning, calls, hmuxer, hcase⟩ := Stopping.step_output hinv hst
  have hopen : self.closed = false := (closed_of_some hstop).trans hrunning
  have hdrop : t.muxer.drop s.muxer.length = calls := by rw [hmuxer, List.drop_left]
  obtain ⟨buffer, chunks, hframe⟩ := muxerCalls_frame pb muxer self calls
  have hwritten := h.toWritten.muxerCalls pb hopen calls
  dsimp only at heq
  rw [hdrop] at heq
  rw [hframe] at hwritten heq
  -- the calls before `Stop` are the same, and those of `Stop` are more
  have hordered : ∀ events, Ordered { self with
      calls := self.calls ++ calls
      buffer := buffer
      events := events
      stop := some (r, t) } := by
    intro events
    refine ⟨h.ready, h.headers, h.noFile, nofun, fun r' s' hsome => ?_⟩
    cases hsome
    refine ⟨hinv.step hst, hready, hsilent, past, ?_, hposted⟩
    show self.calls ++ calls = past ++ t.muxer
    rw [hpast, hmuxer, List.append_assoc]
  refine ⟨by rw [hstop]; nofun, ?_⟩
  rcases hcase with ⟨hsame, hrunning'⟩ | ⟨hnil, hsent, hdone⟩
  · -- the calls of the step send data
    rw [hsame, List.drop_length, List.map_nil, List.append_nil] at heq
    have hclosed : self'.closed = false := heq ▸ hrunning'
    subst heq
    exact ⟨_, ⟨hwritten.of_eq rfl rfl rfl rfl (hrunning'.trans hopen.symm), hordered _⟩, hopen, rfl,
      Or.inl ⟨hclosed, fun _ => ne_stop_of_data⟩⟩
  · -- the Stop event is all that is sent
    subst hnil
    have hsame : self.muxerCalls pb muxer [] = self := rfl
    rw [hsame] at hframe
    rw [hsent, List.drop_left, ← hframe] at heq
    have hclosed : self'.closed = true := heq ▸ hdone
    subst heq
    refine ⟨_, ⟨h.toWritten.stopStep hopen rfl rfl rfl ?_, ?_⟩, hopen, rfl, Or.inr ⟨hclosed, rfl⟩⟩
    · rw [hclosed]
      rfl
    · have hall := hordered (self.events ++ [(EventName.stop, [])])
      have hbuffer : buffer = self.buffer := (congrArg Recorder.buffer hframe).symm
      rw [List.append_nil, hbuffer] at hall
      exact hall

/-! ## What a recorder has done -/

/-- **A closed recorder has called the muxer to the end**, and where there is a file the last call
has emptied the buffer. -/
theorem Ok.complete (h : self.Ok muxer) (hclosed : self.closed = true) :
    self.Complete ∧ (self.fileReady = true → self.buffer = []) := by
  cases hstop : self.stop with
  | none =>
    rw [closed_of_none hstop] at hclosed
    cases hclosed
  | some stop =>
    obtain ⟨r, s⟩ := stop
    obtain ⟨hinv, hready, -, past, hpast, hposted⟩ := h.during r s hstop
    rw [closed_of_some hstop] at hclosed
    -- closed means that `Stop` has returned and had a recorder to close
    have hpc : s.stop = .returned true := by
      cases hpc : s.stop with
      | returned result =>
        rw [hpc] at hclosed
        exact congrArg _ hclosed
      | _ =>
        rw [hpc] at hclosed
        cases hclosed
    obtain ⟨own, hmuxer, hwrote⟩ := hinv.seen_all (by rw [hpc]; rfl)
    rw [hpc] at hwrote
    obtain ⟨pkts, hall, rfl⟩ := hwrote
    -- the trailer is the last call of all, behind the packets of the encoders
    have hcalls : self.calls = self.posted.map Task.call ++ pkts.map .writeFrame ++
        if self.fileReady then [.trailer] else [] := by
      rw [hpast, hmuxer, ← List.append_assoc, ← List.append_assoc, hposted, Stopping.trailer,
        hready, List.append_assoc]
    refine ⟨⟨r, s, pkts, hstop, hall, hcalls⟩, fun hfile => ?_⟩
    rw [if_pos hfile] at hcalls
    exact h.trailer _ hcalls

end Recorder

end NodeWebkit.MediaRecorder
