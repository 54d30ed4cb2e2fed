import NodeWebkit.Lib.Loop
import NodeWebkit.Lib.Run

/-!
# FFMpegMediaRecorder::Stop — the stopping thread and the worker

`Stop` takes `lock_`, stops the worker thread, flushes the encoders and writes the trailer. The
tasks the capture threads have posted, `WriteFrame` and `RequestData`, take the same lock, which
is not recursive. `base::Thread::Stop` lets the worker run all its pending tasks and joins it.

## The model

It starts when `Stop` is called. The worker thread may be between two tasks then, or have taken one
from its queue: it waits at the lock for it, or has the lock and is about to write. From there on
the two threads take steps in any order, and the `AVFormatContext` is the list of calls made on it.

The three loops with which `Stop` flushes the encoders go on for as long as FFmpeg answers so. What
it answers in each iteration is given without an end (`Encoders`), so a loop may run for good.

## The results

* **`Inv`** — the tasks the muxer has seen, the one the worker is at and those in the queue are the
  tasks that were there when `Stop` was called, in their order; what `Stop` itself has written comes
  behind them, the trailer last;
* **`stop_deadlock`** — a task that has not got the lock when `Stop` takes it meets the join;
* **`Inv.loops_end`** — `Stop` returns from a flush whose loops end, and from no other one;
* **`Quiet.progress`** — with no such task, and with loops that end, some thread always gets on;
* **`stop_iff`** — `Stop` is safe exactly in these cases, or where it has nothing to do.
-/

namespace NodeWebkit.MediaRecorder

open Lts

variable {Packet : Type}

/-- A task posted to the worker thread. -/
inductive Task (Packet : Type) where
  | writeFrame (pkt : Packet)
  | requestData
  deriving DecidableEq

/-- A call on the `AVFormatContext`: `av_interleaved_write_frame`, `av_write_frame` without a
packet, and `av_write_trailer`. -/
inductive MuxerCall (Packet : Type) where
  | writeFrame (pkt : Packet)
  | flush
  | trailer
  deriving DecidableEq

def Task.call : Task Packet → MuxerCall Packet
  | .writeFrame pkt => .writeFrame pkt
  | .requestData => .flush

/-- What `write_audio_frame` answers where it is given no samples: a packet (0 or 1), no packet or
an error (-1), or that no full frame is left (-2). -/
inductive AudioAnswer (Packet : Type) where
  | packet (pkt : Packet)
  | noPacket
  | notFull
  deriving DecidableEq

/-- What the encoders answer in each iteration of the loops of `Stop`. -/
structure Encoders (Packet : Type) where
  /-- `write_video_frame` without a frame; `none` where its result is not 0. -/
  video : Nat → Option Packet
  /-- `write_audio_frame` without samples. -/
  buffered : Nat → AudioAnswer Packet
  /-- `avcodec_encode_audio2` without a frame; `none` where it leaves 0 in `res`. -/
  audio : Nat → Option Packet

namespace Encoders

/-- `while (res == 0)`: each packet is written, anything else ends the loop. -/
def flushVideo (encoders : Encoders Packet) (k : Nat) : Option (List Packet) :=
  (encoders.video k).map fun pkt => [pkt]

/-- `do … while (res > -2)`: an iteration without a packet writes nothing and is followed by the
next one all the same. -/
def flushBuffered (encoders : Encoders Packet) (k : Nat) : Option (List Packet) :=
  match encoders.buffered k with
  | .packet pkt => some [pkt]
  | .noPacket => some []
  | .notFull => none

/-- `while (res > 0)` -/
def flushAudio (encoders : Encoders Packet) (k : Nat) : Option (List Packet) :=
  (encoders.audio k).map fun pkt => [pkt]

end Encoders

/-- The worker thread when `Stop` is called. -/
structure Worker (Packet : Type) where
  /-- The task that it has taken from its queue and is not done with, and whether it has got
  `lock_` for it. -/
  current : Option (Task Packet × Bool) := none
  queue : List (Task Packet) := []

/-- The recorder at the moment `Stop` is called. -/
structure Recording (Packet : Type) where
  /-- `oc` is not null. -/
  oc : Bool
  fileReady : Bool
  /-- `worker_thread_`, which is null until the file is ready. -/
  workerThread : Option (Worker Packet)
  haveVideo : Bool
  haveAudio : Bool
  /-- `CODEC_CAP_DELAY` of the video and of the audio encoder. -/
  videoDelay : Bool
  audioDelay : Bool
  encoders : Encoders Packet

namespace Recording

/-- All tasks that are not done when `Stop` is called, in the order in which they were posted. -/
def tasks (r : Recording Packet) : List (Task Packet) :=
  r.workerThread.elim [] fun worker => (worker.current.map Prod.fst).toList ++ worker.queue

/-- The loops that `Stop` runs one after the other. -/
def loops (r : Recording Packet) : List (Nat → Option (List Packet)) :=
  (if r.haveVideo && r.videoDelay then [r.encoders.flushVideo] else []) ++
    if r.haveAudio then
      r.encoders.flushBuffered :: if r.audioDelay then [r.encoders.flushAudio] else []
    else []

end Recording

inductive Thread where
  | stopper
  | worker
  deriving DecidableEq

/-- Where the stopping thread is in `Stop`. -/
inductive StopPc where
  | entered
  | locking
  | stopWorker
  | joining
  /-- Before iteration `k` of the loop with number `loop`; behind the last loop it leaves the
  flushing. -/
  | flushing (loop k : Nat)
  | writeTrailer
  | closing
  | returned (result : Bool)
  deriving DecidableEq

/-- Where the worker is: between tasks, at the lock of a task, inside its critical section, or at
its end. -/
inductive WorkerPc (Packet : Type) where
  | idle
  | locking (task : Task Packet)
  | locked (task : Task Packet)
  | finished
  deriving DecidableEq

/-- Where the worker thread is when `Stop` is called. -/
def Worker.pc (worker : Worker Packet) : WorkerPc Packet :=
  match worker.current with
  | none => .idle
  | some (task, false) => .locking task
  | some (task, true) => .locked task

structure Stopping (Packet : Type) where
  oc : Bool
  lock : Option Thread
  quit : Bool
  queue : List (Task Packet)
  worker : WorkerPc Packet
  stop : StopPc
  muxer : List (MuxerCall Packet)
  events : List String
  deriving DecidableEq

namespace Stopping

/-- The thread that has `lock_`, by where the worker is. -/
def holder : WorkerPc Packet → Option Thread
  | .locked _ => some .worker
  | _ => none

/-- `Stop` has been called. -/
def called (r : Recording Packet) : Stopping Packet where
  oc := r.oc
  lock := r.workerThread.bind fun worker => holder worker.pc
  quit := false
  queue := r.workerThread.elim [] Worker.queue
  worker := r.workerThread.elim .finished Worker.pc
  stop := .entered
  muxer := []
  events := []

/-- A step of the thread inside `Stop`; `none` where it has to wait or has returned. -/
def stopStep (r : Recording Packet) (s : Stopping Packet) : Option (Stopping Packet) :=
  match s.stop with
  | .entered =>
    if s.oc then some { s with stop := .locking } else some { s with stop := .returned false }
  | .locking =>
    if s.lock = none then
      some { s with
        lock := some .stopper
        stop := if r.workerThread.isSome then .stopWorker else .flushing 0 0 }
    else none
  | .stopWorker =>
    some { s with
      quit := true
      stop := .joining }
  | .joining =>
    match s.worker with
    | .finished => some { s with stop := .flushing 0 0 }
    | _ => none
  | .flushing i k =>
    match r.loops[i]? with
    | some answer =>
      match answer k with
      | some pkts =>
        some { s with
          muxer := s.muxer ++ pkts.map .writeFrame
          stop := .flushing i (k + 1) }
      | none => some { s with stop := .flushing (i + 1) 0 }
    | none => some { s with stop := .writeTrailer }
  | .writeTrailer =>
    some { s with
      muxer := if r.fileReady then s.muxer ++ [.trailer] else s.muxer
      stop := .closing }
  | .closing =>
    some { s with
      oc := false
      events := s.events ++ ["NWObjectMediaRecorderStop"]
      lock := none
      stop := .returned true }
  | .returned _ => none

/-- A step of the worker thread. -/
def workerStep (s : Stopping Packet) : Option (Stopping Packet) :=
  match s.worker with
  | .idle =>
    match s.queue with
    | task :: queue =>
      some { s with
        queue := queue
        worker := .locking task }
    | [] => if s.quit then some { s with worker := .finished } else none
  | .locking task =>
    if s.lock = none then
      some { s with
        lock := some .worker
        worker := .locked task }
    else none
  | .locked task =>
    some { s with
      muxer := s.muxer ++ [task.call]
      lock := none
      worker := .idle }
  | .finished => none

def step (r : Recording Packet) (s : Stopping Packet) : Thread → Option (Stopping Packet)
  | .stopper => s.stopStep r
  | .worker => s.workerStep

def Returned (s : Stopping Packet) : Prop := ∃ result, s.stop = .returned result

/-- `Stop` has not returned and neither thread can take a step. -/
def Deadlocked (r : Recording Packet) (s : Stopping Packet) : Prop :=
  ¬ s.Returned ∧ ∀ thread, s.step r thread = none

/-! ## What a step has done

`StopStepped` and `WorkerStepped` list the steps of the two threads with what each one needs and
what it leaves, so that the invariants take a step apart without unfolding it. -/

def trailer (r : Recording Packet) : List (MuxerCall Packet) :=
  if r.fileReady then [.trailer] else []

/-- The steps of the thread inside `Stop`. -/
inductive StopStepped (r : Recording Packet) (s : Stopping Packet) : Stopping Packet → Prop where
  | enter (hpc : s.stop = .entered) (hoc : s.oc = true) :
    StopStepped r s { s with stop := .locking }
  | turnAway (hpc : s.stop = .entered) (hoc : s.oc = false) :
    StopStepped r s { s with stop := .returned false }
  | lock (hpc : s.stop = .locking) (hlock : s.lock = none)
    (hthread : r.workerThread.isSome = true) :
    StopStepped r s { s with
      lock := some .stopper
      stop := .stopWorker }
  | lockAlone (hpc : s.stop = .locking) (hlock : s.lock = none) (hthread : r.workerThread = none) :
    StopStepped r s { s with
      lock := some .stopper
      stop := .flushing 0 0 }
  | stopWorker (hpc : s.stop = .stopWorker) :
    StopStepped r s { s with
      quit := true
      stop := .joining }
  | join (hpc : s.stop = .joining) (hfin : s.worker = .finished) :
    StopStepped r s { s with stop := .flushing 0 0 }
  | iteration {i k : Nat} {answer : Nat → Option (List Packet)} {pkts : List Packet}
    (hpc : s.stop = .flushing i k) (hloop : r.loops[i]? = some answer)
    (hpkts : answer k = some pkts) :
    StopStepped r s { s with
      muxer := s.muxer ++ pkts.map .writeFrame
      stop := .flushing i (k + 1) }
  | nextLoop {i k : Nat} {answer : Nat → Option (List Packet)} (hpc : s.stop = .flushing i k)
    (hloop : r.loops[i]? = some answer) (hend : answer k = none) :
    StopStepped r s { s with stop := .flushing (i + 1) 0 }
  | flushed {i k : Nat} (hpc : s.stop = .flushing i k) (hloop : r.loops[i]? = none) :
    StopStepped r s { s with stop := .writeTrailer }
  | writeTrailer (hpc : s.stop = .writeTrailer) :
    StopStepped r s { s with
      muxer := s.muxer ++ trailer r
      stop := .closing }
  | close (hpc : s.stop = .closing) :
    StopStepped r s { s with
      oc := false
      events := s.events ++ ["NWObjectMediaRecorderStop"]
      lock := none
      stop := .returned true }

/-- Every step of the thread inside `Stop` is one of the list, with the conditions that the source
tests there. -/
theorem stopStepped_of_step {r : Recording Packet} {s t : Stopping Packet}
    (hst : s.stopStep r = some t) : StopStepped r s t := by
  cases hpc : s.stop with
  | entered =>
    simp only [stopStep, hpc] at hst
    split at hst
    · rename_i hoc
      cases hst
      exact .enter hpc hoc
    · rename_i hnull
      cases hst
      exact .turnAway hpc (Bool.eq_false_iff.mpr hnull)
  | locking =>
    simp only [stopStep, hpc] at hst
    obtain ⟨hlock, heq⟩ := Option.ite_none_right_eq_some.mp hst
    cases heq
    cases hthread : r.workerThread with
    | none => exact .lockAlone hpc hlock hthread
    | some worker => exact .lock hpc hlock (by rw [hthread, Option.isSome_some])
  | stopWorker =>
    simp only [stopStep, hpc] at hst
    cases hst
    exact .stopWorker hpc
  | joining =>
    simp only [stopStep, hpc] at hst
    split at hst
    · rename_i hfin
      cases hst
      exact .join hpc hfin
    · cases hst
  | flushing i k =>
    simp only [stopStep, hpc] at hst
    split at hst
    · rename_i answer hloop
      split at hst
      · rename_i pkts hpkts
        cases hst
        exact .iteration hpc hloop hpkts
      · rename_i hend
        cases hst
        exact .nextLoop hpc hloop hend
    · rename_i hloop
      cases hst
      exact .flushed hpc hloop
  | writeTrailer =>
    simp only [stopStep, hpc] at hst
    cases hst
    have hmuxer : (if r.fileReady then s.muxer ++ [.trailer] else s.muxer) =
        s.muxer ++ trailer r := by
      unfold trailer
      split
      · rfl
      · exact (List.append_nil _).symm
    rw [hmuxer]
    exact .writeTrailer hpc
  | closing =>
    simp only [stopStep, hpc] at hst
    cases hst
    exact .close hpc
  | returned result =>
    simp only [stopStep, hpc] at hst
    cases hst

/-- The steps of the worker thread. -/
inductive WorkerStepped (s : Stopping Packet) : Stopping Packet → Prop where
  | take {task : Task Packet} {queue : List (Task Packet)} (hpc : s.worker = .idle)
    (hqueue : s.queue = task :: queue) :
    WorkerStepped s { s with
      queue := queue
      worker := .locking task }
  | finish (hpc : s.worker = .idle) (hqueue : s.queue = []) (hquit : s.quit = true) :
    WorkerStepped s { s with worker := .finished }
  | lock {task : Task Packet} (hpc : s.worker = .locking task) (hlock : s.lock = none) :
    WorkerStepped s { s with
      lock := some .worker
      worker := .locked task }
  | run (task : Task Packet) (hpc : s.worker = .locked task) :
    WorkerStepped s { s with
      muxer := s.muxer ++ [task.call]
      lock := none
      worker := .idle }

/-- Every step of the worker thread is one of the list. A worker that has finished has none. -/
theorem workerStepped_of_step {s t : Stopping Packet} (hst : s.workerStep = some t) :
    WorkerStepped s t := by
  cases hpc : s.worker with
  | idle =>
    simp only [workerStep, hpc] at hst
    split at hst
    · rename_i task queue hqueue
      cases hst
      exact .take hpc hqueue
    · rename_i hqueue
      obtain ⟨hquit, heq⟩ := Option.ite_none_right_eq_some.mp hst
      cases heq
      exact .finish hpc hqueue hquit
  | locking task =>
    simp only [workerStep, hpc] at hst
    obtain ⟨hlock, heq⟩ := Option.ite_none_right_eq_some.mp hst
    cases heq
    exact .lock hpc hlock
  | locked task =>
    simp only [workerStep, hpc] at hst
    cases hst
    exact .run task hpc
  | finished =>
    simp only [workerStep, hpc] at hst
    cases hst

/-! ## Nothing queued is lost

The calls the muxer has seen are those of the tasks, as far as the worker has come with them, and
behind them what `Stop` itself has written. `Stop` writes nothing before it has joined the worker,
so at that time all tasks have been seen. -/

/-- The call of the task the worker is in. -/
def current : WorkerPc Packet → List (MuxerCall Packet)
  | .locking task => [task.call]
  | .locked task => [task.call]
  | .idle => []
  | .finished => []

/-- The stopping thread is past the join. -/
def joined : StopPc → Bool
  | .flushing _ _ => true
  | .writeTrailer => true
  | .closing => true
  | .returned result => result
  | _ => false

/-- What `Stop` itself has written where it is at a point: nothing before the join, then what the
loops have given so far, and at last the trailer. -/
def Wrote (r : Recording Packet) (calls : List (MuxerCall Packet)) : StopPc → Prop
  | .flushing i k => ∃ pkts, Loop.Given r.loops i k pkts ∧ calls = pkts.map .writeFrame
  | .writeTrailer => ∃ pkts, Loop.GivenAll r.loops pkts ∧ calls = pkts.map .writeFrame
  | .closing => ∃ pkts, Loop.GivenAll r.loops pkts ∧ calls = pkts.map .writeFrame ++ trailer r
  | .returned true =>
    ∃ pkts, Loop.GivenAll r.loops pkts ∧ calls = pkts.map .writeFrame ++ trailer r
  | _ => calls = []

structure Inv (r : Recording Packet) (s : Stopping Packet) : Prop where
  noThread : r.workerThread = none → s.worker = .finished
  drained : s.worker = .finished → s.queue = []
  afterJoin : joined s.stop = true → s.worker = .finished
  /-- `oc` is null only where it was null before, or at the end. -/
  refused : s.oc = r.oc ∧ s.stop ≠ .returned true ∨ s.stop = .returned true
  turnedAway : s.stop = .returned false → r.oc = false
  /-- The tasks have been seen up to the one the worker is at, and then what `Stop` has written. -/
  written : ∃ seen calls, s.muxer = seen ++ calls ∧ Wrote r calls s.stop ∧
    seen ++ (current s.worker ++ s.queue.map Task.call) = r.tasks.map Task.call

/-- **The invariant holds when `Stop` is called.** The muxer has seen nothing, and what there is to
see is the task the worker is at, if it has taken one, and those in its queue. -/
theorem Inv.called (r : Recording Packet) : Inv r (called r) := by
  refine ⟨fun h => ?_, fun h => ?_, nofun, Or.inl ⟨rfl, nofun⟩, nofun, [], [], rfl, rfl, ?_⟩
  · show r.workerThread.elim .finished Worker.pc = _
    rw [h]
    rfl
  · cases hworker : r.workerThread with
    | none => simp [Stopping.called, hworker]
    | some worker =>
      -- a thread that is there has not finished
      simp only [Stopping.called, hworker, Option.elim_some, Worker.pc] at h
      split at h <;> cases h
  · cases hworker : r.workerThread with
    | none => simp [Stopping.called, Recording.tasks, hworker, current]
    | some worker =>
      obtain ⟨task, queue⟩ := worker
      match task with
      | none => simp [Stopping.called, Recording.tasks, hworker, current, Worker.pc]
      | some (task, false) => simp [Stopping.called, Recording.tasks, hworker, current, Worker.pc]
      | some (task, true) => simp [Stopping.called, Recording.tasks, hworker, current, Worker.pc]

/-- Before the join `Stop` has written nothing. This is read off the points of the stopping thread:
its flushes and the trailer all come after the join. -/
theorem Wrote.eq_nil {r : Recording Packet} {calls : List (MuxerCall Packet)} {pc : StopPc}
    (h : Wrote r calls pc) (hpc : joined pc = false) : calls = [] := by
  match pc, h with
  | .entered, h => exact h
  | .locking, h => exact h
  | .stopWorker, h => exact h
  | .joining, h => exact h
  | .returned false, h => exact h

/-- Before the join, having written nothing is what `Wrote` asks for, the converse of
`Wrote.eq_nil`. -/
theorem Wrote.nil {r : Recording Packet} {pc : StopPc} (hpc : joined pc = false) :
    Wrote r [] pc := by
  match pc, hpc with
  | .entered, _ => rfl
  | .locking, _ => rfl
  | .stopWorker, _ => rfl
  | .joining, _ => rfl
  | .returned false, _ => rfl

/-- `oc` is still what it was where `Stop` has not returned: only the last step, which frees the
muxer context, sets it to null. -/
theorem Inv.oc_eq {r : Recording Packet} {s : Stopping Packet} (h : Inv r s)
    (hpc : s.stop ≠ .returned true) : s.oc = r.oc := by
  rcases h.refused with ⟨hoc, -⟩ | hret
  · exact hoc
  · exact absurd hret hpc

/-- A step of the stopping thread up to the join: it writes nothing, and leaves the worker alone. -/
theorem Inv.before {r : Recording Packet} {s t : Stopping Packet} (h : Inv r s)
    (hbefore : joined s.stop = false) (hwrote : Wrote r [] t.stop) (hoc : t.oc = s.oc)
    (hnotYet : t.stop ≠ .returned true) (hrefused : t.stop = .returned false → r.oc = false)
    (hworker : t.worker = s.worker) (hqueue : t.queue = s.queue) (hmuxer : t.muxer = s.muxer)
    (hjoined : joined t.stop = true → s.worker = .finished) : Inv r t := by
  obtain ⟨seen, calls, hseen, hcalls, htasks⟩ := h.written
  have hnil : calls = [] := hcalls.eq_nil hbefore
  subst hnil
  have hsame : s.oc = r.oc := h.oc_eq fun hret => by
    rw [hret] at hbefore
    cases hbefore
  refine ⟨?_, ?_, ?_, Or.inl ⟨hoc.trans hsame, hnotYet⟩, hrefused, seen, [], ?_, hwrote, ?_⟩
  · rw [hworker]
    exact h.noThread
  · rw [hworker, hqueue]
    exact h.drained
  · rw [hworker]
    exact hjoined
  · rw [hmuxer]
    exact hseen
  · rw [hworker, hqueue]
    exact htasks

/-- A step of the stopping thread past the join, which writes some calls. The worker has finished,
so what is written comes behind all tasks and only the part that `Stop` writes grows. -/
theorem Inv.write {r : Recording Packet} {s t : Stopping Packet} (h : Inv r s)
    (hpast : joined s.stop = true) (hworker : t.worker = s.worker) (hqueue : t.queue = s.queue)
    (new : List (MuxerCall Packet)) (hmuxer : t.muxer = s.muxer ++ new)
    (hwrote : ∀ calls, Wrote r calls s.stop → Wrote r (calls ++ new) t.stop)
    (hrefused : t.oc = r.oc ∧ t.stop ≠ .returned true ∨ t.stop = .returned true)
    (hturned : t.stop = .returned false → r.oc = false) : Inv r t := by
  obtain ⟨seen, calls, hseen, hcalls, htasks⟩ := h.written
  refine ⟨?_, ?_, fun _ => hworker.trans (h.afterJoin hpast), hrefused, hturned, seen, calls ++ new, ?_,
    hwrote calls hcalls, ?_⟩
  · rw [hworker]
    exact h.noThread
  · rw [hworker, hqueue]
    exact h.drained
  · rw [hmuxer, hseen, List.append_assoc]
  · rw [hworker, hqueue]
    exact htasks

/-- **A step of the stopping thread keeps the order.** Up to the join it writes nothing, and past
the join the worker writes nothing any more; each point of `Stop` is on one side of the two, and
`Inv.before` and `Inv.write` do the two sides. -/
theorem Inv.stopStep {r : Recording Packet} {s t : Stopping Packet} (h : Inv r s)
    (hst : s.stopStep r = some t) : Inv r t := by
  cases stopStepped_of_step hst with
  | enter hpc => exact h.before (by rw [hpc]; rfl) rfl rfl nofun nofun rfl rfl rfl nofun
  | turnAway hpc hoc =>
    refine h.before (by rw [hpc]; rfl) rfl rfl nofun (fun _ => ?_) rfl rfl rfl nofun
    rw [← h.oc_eq (by rw [hpc]; nofun)]
    exact hoc
  | lock hpc => exact h.before (by rw [hpc]; rfl) rfl rfl nofun nofun rfl rfl rfl nofun
  | lockAlone hpc _ hthread =>
    -- without a worker thread there is nothing to join, and the flush begins
    exact h.before (by rw [hpc]; rfl) ⟨[], .start, rfl⟩ rfl nofun nofun rfl rfl rfl
      fun _ => h.noThread hthread
  | stopWorker hpc => exact h.before (by rw [hpc]; rfl) rfl rfl nofun nofun rfl rfl rfl nofun
  | join hpc hfin =>
    -- the join is over, and the first loop has given nothing
    exact h.before (by rw [hpc]; rfl) ⟨[], .start, rfl⟩ rfl nofun nofun rfl rfl rfl fun _ => hfin
  | iteration hpc hloop hpkts =>
    -- the loop goes on: the packets of this answer are written
    refine h.write (by rw [hpc]; rfl) rfl rfl _ rfl ?_
      (Or.inl ⟨h.oc_eq (by rw [hpc]; nofun), nofun⟩) nofun
    rw [hpc]
    rintro calls ⟨out, hout, rfl⟩
    exact ⟨out ++ _, hout.iteration hloop hpkts, (List.map_append ..).symm⟩
  | nextLoop hpc hloop hend =>
    refine h.write (by rw [hpc]; rfl) rfl rfl [] (List.append_nil _).symm ?_
      (Or.inl ⟨h.oc_eq (by rw [hpc]; nofun), nofun⟩) nofun
    rw [hpc]
    rintro calls ⟨out, hout, rfl⟩
    exact ⟨out, hout.next hloop hend, List.append_nil _⟩
  | flushed hpc hloop =>
    refine h.write (by rw [hpc]; rfl) rfl rfl [] (List.append_nil _).symm ?_
      (Or.inl ⟨h.oc_eq (by rw [hpc]; nofun), nofun⟩) nofun
    rw [hpc]
    rintro calls ⟨out, hout, rfl⟩
    exact ⟨out, hout.all hloop, List.append_nil _⟩
  | writeTrailer hpc =>
    refine h.write (by rw [hpc]; rfl) rfl rfl (trailer r) rfl ?_
      (Or.inl ⟨h.oc_eq (by rw [hpc]; nofun), nofun⟩) nofun
    rw [hpc]
    rintro calls ⟨out, hout, rfl⟩
    exact ⟨out, hout, rfl⟩
  | close hpc =>
    refine h.write (by rw [hpc]; rfl) rfl rfl [] (List.append_nil _).symm ?_ (Or.inr rfl) nofun
    rw [hpc]
    rintro calls ⟨out, hout, rfl⟩
    exact ⟨out, hout, List.append_nil _⟩

/-- The worker leaves the stopping thread and its `oc` alone. The tasks use the muxer context
without asking for it, but they never free it. -/
theorem workerStep_stop {s t : Stopping Packet} (hst : s.workerStep = some t) :
    t.oc = s.oc ∧ t.stop = s.stop := by
  cases workerStepped_of_step hst with
  | take => exact ⟨rfl, rfl⟩
  | finish => exact ⟨rfl, rfl⟩
  | lock => exact ⟨rfl, rfl⟩
  | run => exact ⟨rfl, rfl⟩

/-- A worker that takes a step has not finished, so `Stop` has not passed the join. -/
theorem Inv.not_joined {r : Recording Packet} {s t : Stopping Packet} (h : Inv r s)
    (hst : s.workerStep = some t) : r.workerThread ≠ none ∧ joined s.stop = false := by
  have hrun : s.worker ≠ .finished := by
    intro hfin
    simp only [Stopping.workerStep, hfin] at hst
    cases hst
  exact ⟨fun hnone => hrun (h.noThread hnone),
    Bool.eq_false_iff.mpr fun hj => hrun (h.afterJoin hj)⟩

/-- **A step of the worker keeps the order.** Taking a task moves it from the queue to the place of
the task at hand, getting the lock changes its point only, and running the task moves its call to
what the muxer has seen. None of them changes the calls seen, at hand and queued, in this order. -/
theorem Inv.workerStep {r : Recording Packet} {s t : Stopping Packet} (h : Inv r s)
    (hst : s.workerStep = some t) : Inv r t := by
  obtain ⟨hthread, hbefore⟩ := h.not_joined hst
  obtain ⟨hoc, hstop⟩ := workerStep_stop hst
  obtain ⟨seen, calls, hseen, hcalls, htasks⟩ := h.written
  have hnil := hcalls.eq_nil hbefore
  subst hnil
  rw [List.append_nil] at hseen
  -- the worker takes no step after the join, so the flush has written nothing yet
  have hbefore' : joined t.stop ≠ true := by
    rw [hstop, hbefore]
    nofun
  have hrefused : t.oc = r.oc ∧ t.stop ≠ .returned true ∨ t.stop = .returned true := by
    rw [hoc, hstop]
    exact h.refused
  have hturned : t.stop = .returned false → r.oc = false := by
    rw [hstop]
    exact h.turnedAway
  have hwrote : Wrote r [] t.stop := by
    rw [hstop]
    exact .nil hbefore
  cases workerStepped_of_step hst with
  | take hpc hqueue =>
    rw [hpc, hqueue] at htasks
    exact ⟨fun hn => absurd hn hthread, nofun, fun hj => absurd hj hbefore', hrefused, hturned,
      seen, [], hseen.trans (List.append_nil _).symm, hwrote, htasks⟩
  | finish hpc hqueue =>
    rw [hpc] at htasks
    exact ⟨fun _ => rfl, fun _ => hqueue, fun hj => absurd hj hbefore', hrefused, hturned,
      seen, [], hseen.trans (List.append_nil _).symm, hwrote, htasks⟩
  | lock hpc =>
    rw [hpc] at htasks
    exact ⟨fun hn => absurd hn hthread, nofun, fun hj => absurd hj hbefore', hrefused, hturned,
      seen, [], hseen.trans (List.append_nil _).symm, hwrote, htasks⟩
  | run task hpc =>
    rw [hpc] at htasks
    -- the task that the worker was at is now one that was seen
    refine ⟨fun hn => absurd hn hthread, nofun, fun hj => absurd hj hbefore', hrefused, hturned,
      seen ++ [task.call], [], ?_, hwrote, ?_⟩
    · rw [List.append_nil, ← hseen]
    · simpa [current] using htasks

/-- **Every step keeps the order of the muxer calls**, whichever of the two threads takes it.
Nothing is asked of the schedule or of what FFmpeg answers. -/
theorem Inv.step {r : Recording Packet} {s t : Stopping Packet} {thread : Thread} (h : Inv r s)
    (hst : s.step r thread = some t) : Inv r t := by
  cases thread with
  | stopper => exact h.stopStep hst
  | worker => exact h.workerStep hst

/-- Past the join all tasks have been seen: the worker finishes only with an empty queue and no task
at hand, so nothing of what was posted is left. -/
theorem Inv.seen_all {r : Recording Packet} {s : Stopping Packet} (h : Inv r s)
    (hjoined : joined s.stop = true) :
    ∃ calls, s.muxer = r.tasks.map Task.call ++ calls ∧ Wrote r calls s.stop := by
  obtain ⟨seen, calls, hseen, hcalls, htasks⟩ := h.written
  have hfin := h.afterJoin hjoined
  rw [hfin, h.drained hfin] at htasks
  have hsame : seen = r.tasks.map Task.call := (List.append_nil seen).symm.trans htasks
  exact ⟨calls, hsame ▸ hseen, hcalls⟩

/-- The tasks of the worker write packets and flush the buffer, none of them writes a trailer. -/
theorem trailer_not_mem_tasks (r : Recording Packet) :
    MuxerCall.trailer ∉ r.tasks.map Task.call := by
  intro hmem
  obtain ⟨task, -, htask⟩ := List.mem_map.mp hmem
  cases task <;> cases htask

theorem trailer_not_mem_packets (pkts : List Packet) :
    MuxerCall.trailer ∉ pkts.map MuxerCall.writeFrame := by
  intro hmem
  obtain ⟨pkt, -, hpkt⟩ := List.mem_map.mp hmem
  cases hpkt

/-- A trailer that was written came behind all packets of the loops. Where the point of `Stop` is
before the trailer there is none in its calls, and behind it the loops are over. -/
theorem Wrote.trailer_last {r : Recording Packet} {calls : List (MuxerCall Packet)} {pc : StopPc}
    (h : Wrote r calls pc) (hmem : .trailer ∈ calls) :
    ∃ pkts, Loop.GivenAll r.loops pkts ∧ calls = pkts.map .writeFrame ++ [.trailer] := by
  -- the trailer can only come from the file, the packets are none
  have hfile : ∀ pkts : List Packet, .trailer ∈ pkts.map MuxerCall.writeFrame ++ trailer r →
      trailer r = [.trailer] := by
    intro pkts hin
    unfold trailer at hin ⊢
    split
    · rfl
    · rename_i hno
      rw [if_neg hno, List.append_nil] at hin
      exact absurd hin (trailer_not_mem_packets pkts)
  match pc, h with
  | .flushing _ _, ⟨pkts, _, heq⟩ => exact absurd (heq ▸ hmem) (trailer_not_mem_packets pkts)
  | .writeTrailer, ⟨pkts, _, heq⟩ => exact absurd (heq ▸ hmem) (trailer_not_mem_packets pkts)
  | .closing, ⟨pkts, hall, heq⟩ => exact ⟨pkts, hall, hfile pkts (heq ▸ hmem) ▸ heq⟩
  | .returned true, ⟨pkts, hall, heq⟩ => exact ⟨pkts, hall, hfile pkts (heq ▸ hmem) ▸ heq⟩
  | .returned false, heq => exact absurd (heq ▸ hmem) List.not_mem_nil
  | .entered, heq => exact absurd (heq ▸ hmem) List.not_mem_nil
  | .locking, heq => exact absurd (heq ▸ hmem) List.not_mem_nil
  | .stopWorker, heq => exact absurd (heq ▸ hmem) List.not_mem_nil
  | .joining, heq => exact absurd (heq ▸ hmem) List.not_mem_nil

/-- **The trailer comes last**, behind every task that was there when `Stop` was called and behind
what the loops have given until they were over. -/
theorem Inv.trailer_last {r : Recording Packet} {s : Stopping Packet} (h : Inv r s)
    (hmem : .trailer ∈ s.muxer) :
    ∃ pkts, Loop.GivenAll r.loops pkts ∧
      s.muxer = r.tasks.map Task.call ++ pkts.map .writeFrame ++ [.trailer] := by
  cases hjoined : joined s.stop with
  | true =>
    obtain ⟨calls, hmuxer, hcalls⟩ := h.seen_all hjoined
    rw [hmuxer, List.mem_append] at hmem
    obtain ⟨pkts, hall, rfl⟩ := hcalls.trailer_last
      (hmem.resolve_left (trailer_not_mem_tasks r))
    exact ⟨pkts, hall, by rw [hmuxer, List.append_assoc]⟩
  | false =>
    -- before the join there are calls of tasks only
    obtain ⟨seen, calls, hseen, hcalls, htasks⟩ := h.written
    rw [hseen, hcalls.eq_nil hjoined, List.append_nil] at hmem
    refine absurd ?_ (trailer_not_mem_tasks r)
    rw [← htasks]
    exact List.mem_append_left _ hmem

/-- **`Stop` returns from loops that end.** Where it has returned and had something to do, each loop
that it has entered is over. -/
theorem Inv.loops_end {r : Recording Packet} {s : Stopping Packet} (h : Inv r s)
    (hret : s.Returned) (hoc : r.oc = true) :
    ∀ answer ∈ r.loops, ∃ k, answer k = none := by
  obtain ⟨result, hpc⟩ := hret
  cases result with
  | false =>
    rw [h.turnedAway hpc] at hoc
    cases hoc
  | true =>
    obtain ⟨-, calls, -, hcalls, -⟩ := h.written
    rw [hpc] at hcalls
    obtain ⟨pkts, hall, -⟩ := hcalls
    intro answer hmem
    obtain ⟨i, hi, heq⟩ := List.mem_iff_getElem.mp hmem
    exact Loop.Given.ended hall hi (List.getElem?_eq_some_iff.mpr ⟨hi, heq⟩)

/-! ## Getting on

Where no task can meet the join, the worker is between tasks or about to leave its last one. -/

/-- Without an output context `Stop` returns before it takes the lock. -/
structure Halted (s : Stopping Packet) : Prop where
  oc : s.oc = false
  stop : s.stop = .entered ∨ s.stop = .returned false

/-- A recorder without an output context stays so. `Stop` has at most one step there, the one that
returns, and whatever the worker does is nothing to it. -/
theorem Halted.step {r : Recording Packet} {s t : Stopping Packet} {thread : Thread}
    (h : s.Halted) (hst : s.step r thread = some t) : t.Halted := by
  obtain ⟨hoc, hpc⟩ := h
  cases thread with
  | stopper =>
    rcases hpc with hpc | hpc
    · -- Stop returns where `oc` is null, before it takes the lock
      simp only [Stopping.step, stopStep, hpc, hoc] at hst
      cases hst
      exact ⟨rfl, Or.inr rfl⟩
    · simp only [Stopping.step, stopStep, hpc] at hst
      cases hst
  | worker =>
    obtain ⟨hoc', hpc'⟩ := workerStep_stop hst
    exact ⟨hoc'.trans hoc, by rw [hpc']; exact hpc⟩

/-- With nothing queued the worker never comes to the lock. It may have it when `Stop` is called,
and gives it back before `Stop` takes it. -/
structure Quiet (s : Stopping Packet) : Prop where
  queue : s.queue = []
  oc : s.stop = .entered → s.oc = true
  worker : s.worker = .idle ∨ s.worker = .finished ∨
    (∃ task, s.worker = .locked task) ∧ s.lock = some .worker ∧
      (s.stop = .entered ∨ s.stop = .locking)
  lock : s.stop = .entered ∨ s.stop = .locking → s.lock = none ∨ ∃ task, s.worker = .locked task
  quit : s.stop = .joining → s.quit = true

/-- The steps of a quiet worker: it comes to its end, or leaves its last task. -/
theorem Quiet.workerStep {s t : Stopping Packet} (h : s.Quiet) (hst : s.workerStep = some t) :
    t.Quiet ∧ (s.worker = .idle ∧ t.worker = .finished ∨
      (∃ task, s.worker = .locked task) ∧ t.worker = .idle) := by
  cases workerStepped_of_step hst with
  | take hpc hqueue =>
    rw [h.queue] at hqueue
    cases hqueue
  | finish hpc =>
    refine ⟨⟨h.queue, h.oc, Or.inr (Or.inl rfl), fun hstop => ?_, h.quit⟩, Or.inl ⟨hpc, rfl⟩⟩
    refine (h.lock hstop).imp_right ?_
    rintro ⟨task, htask⟩
    rw [hpc] at htask
    cases htask
  | lock hpc =>
    -- a quiet worker waits for no lock
    rcases h.worker with hw | hw | ⟨⟨task, hw⟩, -⟩
    · rw [hpc] at hw
      cases hw
    · rw [hpc] at hw
      cases hw
    · rw [hpc] at hw
      cases hw
  | run task hpc =>
    exact ⟨⟨h.queue, h.oc, Or.inl rfl, fun _ => Or.inl rfl, h.quit⟩, Or.inr ⟨⟨task, hpc⟩, rfl⟩⟩

/-- Where `Stop` has taken the lock the worker is between tasks or at its end. -/
theorem Quiet.idle {s : Stopping Packet} (h : s.Quiet) (hpc : s.stop ≠ .entered)
    (hlock : s.stop = .locking → s.lock = none) : s.worker = .idle ∨ s.worker = .finished := by
  rcases h.worker with hw | hw | ⟨-, hheld, hentered | hlocking⟩
  · exact Or.inl hw
  · exact Or.inr hw
  · exact absurd hentered hpc
  · rw [hlock hlocking] at hheld
    cases hheld

/-- A step of the stopping thread that has taken the lock. The worker is idle or has finished by
then, so the clauses about the lock have nothing to say. -/
theorem Quiet.past {s t : Stopping Packet} (h : s.Quiet) {pc : StopPc} (hpc : s.stop = pc)
    (hne : pc ≠ .entered) (hlock : pc = .locking → s.lock = none) (hqueue : t.queue = s.queue)
    (hworker : t.worker = s.worker) (hpast : t.stop ≠ .entered ∧ t.stop ≠ .locking)
    (hquit : t.stop = .joining → t.quit = true) : t.Quiet := by
  subst hpc
  refine ⟨hqueue.trans h.queue, fun he => absurd he hpast.1, ?_, ?_, hquit⟩
  · rw [hworker]
    exact (h.idle hne hlock).imp_right Or.inl
  · rintro (he | hl)
    · exact absurd he hpast.1
    · exact absurd hl hpast.2

/-- **Every step keeps the worker out of the way.** `Quiet` says that the worker is idle, has
finished, or has the lock and no further task; in the last case `Stop` waits at the lock, which the
worker gives up with its next step. -/
theorem Quiet.step {r : Recording Packet} {s t : Stopping Packet} {thread : Thread}
    (h : s.Quiet) (hst : s.step r thread = some t) : t.Quiet := by
  cases thread with
  | worker => exact (h.workerStep hst).1
  | stopper =>
    cases stopStepped_of_step hst with
    | enter hpc =>
      -- the lock is still the worker's where it was
      refine ⟨h.queue, nofun, ?_, fun _ => h.lock (Or.inl hpc), nofun⟩
      rcases h.worker with hw | hw | ⟨htask, hheld, -⟩
      · exact Or.inl hw
      · exact Or.inr (Or.inl hw)
      · exact Or.inr (Or.inr ⟨htask, hheld, Or.inr rfl⟩)
    | turnAway hpc hoc =>
      rw [h.oc hpc] at hoc
      cases hoc
    | lock hpc hlock =>
      exact h.past hpc nofun (fun _ => hlock) rfl rfl ⟨nofun, nofun⟩ nofun
    | lockAlone hpc hlock =>
      exact h.past hpc nofun (fun _ => hlock) rfl rfl ⟨nofun, nofun⟩ nofun
    | stopWorker hpc => exact h.past hpc nofun nofun rfl rfl ⟨nofun, nofun⟩ fun _ => rfl
    | join hpc => exact h.past hpc nofun nofun rfl rfl ⟨nofun, nofun⟩ nofun
    | iteration hpc => exact h.past hpc nofun nofun rfl rfl ⟨nofun, nofun⟩ nofun
    | nextLoop hpc => exact h.past hpc nofun nofun rfl rfl ⟨nofun, nofun⟩ nofun
    | flushed hpc => exact h.past hpc nofun nofun rfl rfl ⟨nofun, nofun⟩ nofun
    | writeTrailer hpc => exact h.past hpc nofun nofun rfl rfl ⟨nofun, nofun⟩ nofun
    | close hpc => exact h.past hpc nofun nofun rfl rfl ⟨nofun, nofun⟩ nofun

/-- How many steps of the stopping thread are left, where `ends` says in which iteration each loop
is over at the latest. -/
def stopDistance (ends : List Nat) : StopPc → Nat
  | .entered => Loop.left ends 0 0 + 7
  | .locking => Loop.left ends 0 0 + 6
  | .stopWorker => Loop.left ends 0 0 + 5
  | .joining => Loop.left ends 0 0 + 4
  | .flushing i k => Loop.left ends i k + 3
  | .writeTrailer => 2
  | .closing => 1
  | .returned _ => 0

/-- How many steps of a worker without further tasks are left. -/
def workerDistance : WorkerPc Packet → Nat
  | .finished => 0
  | .idle => 1
  | .locking _ => 3
  | .locked _ => 2

/-- How many steps a quiet recorder is from the return of `Stop`. -/
def distance (ends : List Nat) (s : Stopping Packet) : Nat :=
  stopDistance ends s.stop + workerDistance s.worker

/-- **A step of the stopping thread** leaves the worker where it is and, where the loops end, brings
the return nearer. In a loop that is so because no iteration before has ended it. -/
theorem stopStep_spec {r : Recording Packet} {ends : List Nat} (hends : Loop.EndsAt r.loops ends)
    {s t : Stopping Packet} (h : Inv r s) (hst : s.stopStep r = some t) :
    t.worker = s.worker ∧ stopDistance ends t.stop < stopDistance ends s.stop := by
  have hgiven : ∀ {i k}, s.stop = .flushing i k → ∃ out, Loop.Given r.loops i k out := by
    intro i k hpc
    obtain ⟨_, _, _, hwrote, _⟩ := h.written
    rw [hpc] at hwrote
    obtain ⟨out, hgiven, -⟩ := hwrote
    exact ⟨out, hgiven⟩
  cases stopStepped_of_step hst with
  | enter hpc =>
    rw [hpc]
    exact ⟨rfl, Nat.lt_succ_self _⟩
  | turnAway hpc =>
    rw [hpc]
    exact ⟨rfl, Nat.succ_pos _⟩
  | lock hpc =>
    rw [hpc]
    exact ⟨rfl, Nat.lt_succ_self _⟩
  | lockAlone hpc =>
    rw [hpc]
    refine ⟨rfl, ?_⟩
    show Loop.left ends 0 0 + 3 < Loop.left ends 0 0 + 6
    omega
  | stopWorker hpc =>
    rw [hpc]
    exact ⟨rfl, Nat.lt_succ_self _⟩
  | join hpc =>
    rw [hpc]
    exact ⟨rfl, Nat.lt_succ_self _⟩
  | iteration hpc hloop hpkts =>
    -- the iterations before this one have given something, so there is an end ahead
    obtain ⟨out, hout⟩ := hgiven hpc
    rw [hpc]
    exact ⟨rfl, Nat.add_lt_add_right ((hout.left_lt hends hloop).1 _ hpkts) 3⟩
  | nextLoop hpc hloop hend =>
    obtain ⟨out, hout⟩ := hgiven hpc
    rw [hpc]
    exact ⟨rfl, Nat.add_lt_add_right (hout.left_lt hends hloop).2 3⟩
  | flushed hpc =>
    rw [hpc]
    exact ⟨rfl, Nat.lt_of_lt_of_le (Nat.lt_succ_self 2) (Nat.le_add_left 3 _)⟩
  | writeTrailer hpc =>
    rw [hpc]
    exact ⟨rfl, Nat.lt_succ_self _⟩
  | close hpc =>
    rw [hpc]
    exact ⟨rfl, Nat.lt_succ_self _⟩

/-- The stopping thread waits for nothing but a lock that is taken and a worker that has not
finished. -/
theorem stopStep_enabled (r : Recording Packet) {s : Stopping Packet} (hret : ¬ s.Returned)
    (hlock : s.stop = .locking → s.lock = none)
    (hjoin : s.stop = .joining → s.worker = .finished) : ∃ t, s.stopStep r = some t := by
  cases hpc : s.stop with
  | entered =>
    -- with an output context on to the lock, without one back at once
    cases hoc : s.oc with
    | true => exact ⟨{ s with stop := .locking }, by simp only [stopStep, hpc, hoc, if_true]⟩
    | false =>
      refine ⟨{ s with stop := .returned false }, ?_⟩
      simp only [stopStep, hpc, hoc, Bool.false_eq_true, if_false]
  | locking => exact ⟨_, by simp only [stopStep, hpc, hlock hpc, if_true]; rfl⟩
  | stopWorker => exact ⟨_, by simp only [stopStep, hpc]; rfl⟩
  | joining => exact ⟨_, by simp only [stopStep, hpc, hjoin hpc]; rfl⟩
  | flushing i k =>
    cases hloop : r.loops[i]? with
    | none => exact ⟨_, by simp only [stopStep, hpc, hloop]; rfl⟩
    | some answer =>
      cases hanswer : answer k with
      | none => exact ⟨_, by simp only [stopStep, hpc, hloop, hanswer]; rfl⟩
      | some pkts => exact ⟨_, by simp only [stopStep, hpc, hloop, hanswer]; rfl⟩
  | writeTrailer => exact ⟨_, by simp only [stopStep, hpc]; rfl⟩
  | closing => exact ⟨_, by simp only [stopStep, hpc]; rfl⟩
  | returned result => exact absurd ⟨result, hpc⟩ hret

/-- A worker that the stopping thread waits for has a step: it sees the quit task, or leaves the
critical section of its last task. -/
theorem Quiet.workerStep_enabled {s : Stopping Packet} (h : s.Quiet)
    (hwait : s.stop = .joining ∧ s.worker = .idle ∨ ∃ task, s.worker = .locked task) :
    ∃ t, s.workerStep = some t := by
  rcases hwait with ⟨hpc, hw⟩ | ⟨task, hw⟩
  · exact ⟨_, by simp only [Stopping.workerStep, hw, h.quit hpc, if_true, h.queue]; rfl⟩
  · exact ⟨_, by simp only [Stopping.workerStep, hw]; rfl⟩

/-- **A quiet recorder gets on**: as long as `Stop` has not returned some thread can take a step,
and the step brings it nearer. -/
theorem Quiet.progress {r : Recording Packet} {ends : List Nat}
    (hends : Loop.EndsAt r.loops ends) {s : Stopping Packet} (hinv : Inv r s) (h : s.Quiet)
    (hret : ¬ s.Returned) :
    ∃ thread t, s.step r thread = some t ∧ t.Quiet ∧ t.distance ends < s.distance ends := by
  by_cases hwait : s.stop = .joining ∧ s.worker = .idle ∨ ∃ task, s.worker = .locked task
  · -- Stop waits for the worker, which has a step then
    obtain ⟨t, ht⟩ := h.workerStep_enabled hwait
    obtain ⟨hquiet, hstep⟩ := h.workerStep ht
    refine ⟨.worker, t, ht, hquiet, ?_⟩
    rw [distance, distance, (workerStep_stop ht).2]
    apply Nat.add_lt_add_left
    rcases hstep with ⟨hw, hw'⟩ | ⟨⟨task, hw⟩, hw'⟩
    · rw [hw, hw']
      exact Nat.one_pos
    · rw [hw, hw']
      exact Nat.lt_succ_self 1
  · have hjoin : s.stop = .joining → s.worker = .finished := by
      intro hpc
      have hidle := h.idle (by rw [hpc]; nofun) (by rw [hpc]; nofun)
      exact hidle.resolve_left fun hw => hwait (Or.inl ⟨hpc, hw⟩)
    have hlock : s.stop = .locking → s.lock = none := fun hpc =>
      (h.lock (Or.inr hpc)).resolve_right fun htask => hwait (Or.inr htask)
    obtain ⟨t, ht⟩ := stopStep_enabled r hret hlock hjoin
    obtain ⟨hworker, hlt⟩ := stopStep_spec hends hinv ht
    refine ⟨.stopper, t, ht, h.step (show s.step r .stopper = some t from ht), ?_⟩
    simp only [distance, hworker]
    omega

/-- A recorder without an output context returns from `Stop` at once, and it is the stopping thread
that can take this step, whatever the worker is at. -/
theorem Halted.progress {r : Recording Packet} {s : Stopping Packet} (h : s.Halted)
    (hret : ¬ s.Returned) :
    ∃ thread t, s.step r thread = some t ∧ t.Halted ∧
      stopDistance [] t.stop < stopDistance [] s.stop := by
  rcases h.stop with hpc | hpc
  · have hst : s.step r .stopper = some { s with stop := .returned false } := by
      simp only [Stopping.step, stopStep, hpc, h.oc, Bool.false_eq_true, if_false]
    refine ⟨.stopper, _, hst, h.step hst, ?_⟩
    rw [hpc]
    exact Nat.succ_pos _
  · exact absurd ⟨false, hpc⟩ hret

/-! ## What `Stop` owes -/

/-- In no order of the steps do the two threads block each other, `Stop` can always run to its
end, and once the trailer is written the muxer has seen every task that was there when `Stop` was
called, in their order, then what the loops gave until they were over, then the trailer. -/
structure StopSafe (r : Recording Packet) : Prop where
  noDeadlock : ∀ is s, Run (ofPartial (step r)) (called r) is s → ¬ s.Deadlocked r
  returns : ∀ is s, Run (ofPartial (step r)) (called r) is s →
    ∃ js t, Run (ofPartial (step r)) s js t ∧ t.Returned
  order : ∀ is s, Run (ofPartial (step r)) (called r) is s → .trailer ∈ s.muxer →
    ∃ pkts, Loop.GivenAll r.loops pkts ∧
      s.muxer = r.tasks.map Task.call ++ pkts.map .writeFrame ++ [.trailer]

/-- No task of the worker thread is still to get the lock: none waits in the queue, and the one it
has taken, if any, is past the lock. -/
def NothingPending (r : Recording Packet) : Prop :=
  ∀ worker ∈ r.workerThread, worker.queue = [] ∧ ∀ current ∈ worker.current, current.2 = true

/-- Every loop of `Stop` that is entered gets an answer that ends it. -/
def AnswersEnd (r : Recording Packet) : Prop := ∀ answer ∈ r.loops, ∃ k, answer k = none

theorem inv_of_run (r : Recording Packet) {is : List Thread} {s : Stopping Packet}
    (hrun : Run (ofPartial (step r)) (called r) is s) : Inv r s :=
  hrun.invariant (I := Inv r) (fun _ _ _ h hst => h.step hst) (.called r)

/-- An invariant with progress gives the two liveness parts; the order holds for every queue. -/
theorem StopSafe.of_progress {r : Recording Packet} {I : Stopping Packet → Prop}
    {m : Stopping Packet → Nat} (hcalled : I (called r))
    (hstep : ∀ s thread t, I s → ofPartial (step r) s thread t → I t)
    (hprogress : ∀ s, I s → ¬ s.Returned →
      ∃ thread t, ofPartial (step r) s thread t ∧ I t ∧ m t < m s) : StopSafe r := by
  refine ⟨?_, ?_, fun _ _ hrun hmem => (inv_of_run r hrun).trailer_last hmem⟩
  · rintro is s hrun ⟨hret, hnone⟩
    obtain ⟨thread, t, hst, -, -⟩ := hprogress s (hrun.invariant hstep hcalled) hret
    have hst : s.step r thread = some t := hst
    rw [hnone thread] at hst
    cases hst
  · intro is s hrun
    exact Run.eventually hprogress (hrun.invariant hstep hcalled)

/-! ## The deadlock -/

/-- `Stop` has been called and nobody has the lock, but the worker still needs it. -/
structure Waiting (s : Stopping Packet) : Prop where
  oc : s.oc = true
  stop : s.stop = .entered
  lock : s.lock = none
  worker : (∃ task, s.worker = .locking task) ∨
    s.worker = .idle ∧ ∃ task queue, s.queue = task :: queue

/-- `Stop` takes the lock before the worker does, and then waits for the worker, which comes to the
lock of its task. -/
theorem Waiting.deadlock {r : Recording Packet} (hthread : r.workerThread.isSome = true)
    {s : Stopping Packet} (h : s.Waiting) :
    ∃ is t, Run (ofPartial (step r)) s is t ∧ t.Deadlocked r := by
  -- the three steps of Stop up to the join
  let joining : Stopping Packet := { s with
    lock := some .stopper
    quit := true
    stop := .joining }
  have hentered : s.step r .stopper = some { s with stop := .locking } := by
    simp only [step, stopStep, h.stop, h.oc, if_true]
  have hlocking : step r { s with stop := .locking } .stopper =
      some { s with
        lock := some .stopper
        stop := .stopWorker } := by
    simp only [step, stopStep, h.lock, hthread, if_true]
  have hstopping : ofPartial (step r) { s with
      lock := some .stopper
      stop := .stopWorker } .stopper joining := rfl
  have hblocked : ∀ t : Stopping Packet, t.stop = .joining → t.lock = some .stopper →
      (∃ task, t.worker = .locking task) → t.Deadlocked r := by
    rintro t hpc hheld ⟨task, hw⟩
    refine ⟨?_, fun thread => ?_⟩
    · rintro ⟨result, hres⟩
      rw [hpc] at hres
      cases hres
    · cases thread with
      | stopper => simp only [step, stopStep, hpc, hw]
      | worker => simp only [step, workerStep, hw, hheld, reduceCtorEq, if_false]
  rcases h.worker with htask | ⟨hw, task, queue, hqueue⟩
  · have hrun : Run (ofPartial (step r)) s [.stopper, .stopper, .stopper] joining :=
      .cons hentered (.cons hlocking (.single hstopping))
    exact ⟨_, joining, hrun, hblocked joining rfl rfl htask⟩
  · have htake : step r joining .worker = some { joining with
        queue := queue
        worker := .locking task } := by
      simp only [step, workerStep, joining, hw, hqueue]
    have hrun : Run (ofPartial (step r)) s [.stopper, .stopper, .stopper, .worker] { joining with
        queue := queue
        worker := .locking task } :=
      .cons hentered (.cons hlocking (.cons hstopping (.single htake)))
    exact ⟨_, _, hrun, hblocked _ rfl rfl ⟨task, rfl⟩⟩

/-- **A pending task and the join wait for each other.** If the worker has the lock for another task
when `Stop` is called, it gives it back first. -/
theorem stop_deadlock {r : Recording Packet} (hoc : r.oc = true) (hpending : ¬ NothingPending r) :
    ∃ is s, Run (ofPartial (step r)) (called r) is s ∧ s.Deadlocked r := by
  simp only [NothingPending, not_forall, not_and_or] at hpending
  obtain ⟨worker, hworker, hpending⟩ := hpending
  have hworker : r.workerThread = some worker := hworker
  have hthread : r.workerThread.isSome = true := by rw [hworker, Option.isSome_some]
  have hqueue : (called r).queue = worker.queue := by
    show r.workerThread.elim [] Worker.queue = _
    rw [hworker, Option.elim_some]
  have hpc : (called r).worker = worker.pc := by
    show r.workerThread.elim .finished Worker.pc = _
    rw [hworker, Option.elim_some]
  have hlock : (called r).lock = holder worker.pc := by
    show (r.workerThread.bind fun worker => holder worker.pc) = _
    rw [hworker, Option.bind_some]
  match hcurrent : worker.current with
  | some (task, false) =>
    -- it waits for the lock already
    have hat : worker.pc = .locking task := by rw [Worker.pc, hcurrent]
    refine Waiting.deadlock hthread ⟨hoc, rfl, ?_, Or.inl ⟨task, hpc.trans hat⟩⟩
    rw [hlock, hat]
    rfl
  | none =>
    -- it is idle, and there is a task it will take
    have hat : worker.pc = .idle := by rw [Worker.pc, hcurrent]
    have hne : worker.queue ≠ [] := by
      refine hpending.resolve_right ?_
      rw [hcurrent]
      rintro ⟨_, hnone, -⟩
      cases hnone
    obtain ⟨task, queue, heq⟩ := List.exists_cons_of_ne_nil hne
    refine Waiting.deadlock hthread ⟨hoc, rfl, ?_, Or.inr ⟨hpc.trans hat, task, queue, ?_⟩⟩
    · rw [hlock, hat]
      rfl
    · rw [hqueue, heq]
  | some (task, true) =>
    -- it has the lock, and there is a task behind this one
    have hat : worker.pc = .locked task := by rw [Worker.pc, hcurrent]
    have hne : worker.queue ≠ [] := by
      refine hpending.resolve_right ?_
      rw [hcurrent]
      rintro ⟨_, hsome, hno⟩
      cases hsome
      exact hno rfl
    obtain ⟨task', queue, heq⟩ := List.exists_cons_of_ne_nil hne
    -- the worker ends its task before Stop comes to the lock
    have hleave : step r (called r) .worker = some { called r with
        muxer := [] ++ [task.call]
        lock := none
        worker := .idle } := by
      simp only [step, workerStep, hpc, hat]
      rfl
    obtain ⟨is, s, hrun, hdead⟩ := Waiting.deadlock (r := r) hthread (s := { called r with
        muxer := [] ++ [task.call]
        lock := none
        worker := .idle }) ⟨hoc, rfl, rfl, Or.inr ⟨rfl, task', queue, hqueue.trans heq⟩⟩
    exact ⟨_, s, .cons hleave hrun, hdead⟩

/-- **The start, where nothing is pending.** With an empty queue and no task that waits for the
lock, the worker is between two tasks or about to write with the lock in its hand. -/
theorem Quiet.called {r : Recording Packet} (hoc : r.oc = true) (h : NothingPending r) :
    (called r).Quiet := by
  cases hworker : r.workerThread with
  | none =>
    refine ⟨?_, fun _ => hoc, Or.inr (Or.inl ?_), fun _ => Or.inl ?_, nofun⟩
    · simp [Stopping.called, hworker]
    · simp [Stopping.called, hworker]
    · simp [Stopping.called, hworker]
  | some worker =>
    -- a worker with an empty queue is idle or holds the lock
    obtain ⟨hqueue, hcurrent⟩ := h worker hworker
    have hpc : (Stopping.called r).worker = worker.pc := by simp [Stopping.called, hworker]
    have hlock : (Stopping.called r).lock = holder worker.pc := by simp [Stopping.called, hworker]
    refine ⟨by simp [Stopping.called, hworker, hqueue], fun _ => hoc, ?_, fun _ => ?_, nofun⟩
    · rw [hpc, hlock]
      match hat : worker.current with
      | none => exact Or.inl (by rw [Worker.pc, hat])
      | some (task, true) =>
        have hlocked : worker.pc = .locked task := by rw [Worker.pc, hat]
        exact Or.inr (Or.inr ⟨⟨task, hlocked⟩, by rw [hlocked]; rfl, Or.inl rfl⟩)
      | some (task, false) => cases hcurrent _ hat
    · rw [hpc, hlock]
      match hat : worker.current with
      | none => exact Or.inl (by rw [Worker.pc, hat]; rfl)
      | some (task, true) => exact Or.inr ⟨task, by rw [Worker.pc, hat]⟩
      | some (task, false) => cases hcurrent _ hat

/-- **When Stop is safe.** No deadlock, `Stop` always able to return and every task before the
trailer hold together exactly when the recorder has no output context, or no task is still to get
the lock and every loop that `Stop` enters gets an answer that ends it. -/
theorem stop_iff (r : Recording Packet) :
    StopSafe r ↔ r.oc = false ∨ (NothingPending r ∧ AnswersEnd r) := by
  constructor
  · intro hsafe
    cases hoc : r.oc with
    | false => exact Or.inl rfl
    | true =>
      refine Or.inr ⟨?_, ?_⟩
      · -- a task that is pending can meet the join, which is a deadlock
        by_contra hpending
        obtain ⟨is, s, hrun, hdead⟩ := stop_deadlock hoc hpending
        exact hsafe.noDeadlock is s hrun hdead
      · -- a run in which `Stop` returns went through all loops
        obtain ⟨is, s, hrun, hret⟩ := hsafe.returns [] _ (.nil _)
        exact (inv_of_run r hrun).loops_end hret hoc
  · rintro (hoc | ⟨hpending, hends⟩)
    · exact .of_progress (I := Halted) (m := fun s => stopDistance [] s.stop) ⟨hoc, Or.inl rfl⟩
        (fun _ _ _ h hst => h.step hst) (fun _ h hret => h.progress hret)
    · cases hoc : r.oc with
      | false =>
        exact .of_progress (I := Halted) (m := fun s => stopDistance [] s.stop) ⟨hoc, Or.inl rfl⟩
          (fun _ _ _ h hst => h.step hst) (fun _ h hret => h.progress hret)
      | true =>
        -- the number of answers that each loop takes is the measure
        obtain ⟨ends, hat⟩ := Loop.exists_endsAt hends
        refine .of_progress (I := fun s => Inv r s ∧ s.Quiet) (m := distance ends)
          ⟨.called r, .called hoc hpending⟩ ?_ ?_
        · rintro s thread t ⟨hinv, hquiet⟩ hst
          exact ⟨hinv.step hst, hquiet.step hst⟩
        · rintro s ⟨hinv, hquiet⟩ hret
          obtain ⟨thread, t, hst, hnext, hlt⟩ := hquiet.progress hat hinv hret
          exact ⟨thread, t, hst, ⟨hinv.step hst, hnext⟩, hlt⟩

/-- The video encoder holds one frame back, nothing else is flushed. -/
def oneFrameHeld : Encoders String where
  video k := if k = 0 then some "frame 1" else none
  buffered _ := .notFull
  audio _ := none

/-- A recording that is stopped while the worker still has a video frame to write. -/
def frameQueued : Recording String where
  oc := true
  fileReady := true
  workerThread := some { queue := [.writeFrame "frame 0"] }
  haveVideo := true
  haveAudio := false
  videoDelay := true
  audioDelay := false
  encoders := oneFrameHeld

/-- One packet in the queue of an idle worker is enough. The thread of `Stop` may get the lock
first, and then it joins a worker whose task waits for the lock. -/
theorem frameQueued_not_safe : ¬ StopSafe frameQueued := by
  intro h
  obtain ⟨is, s, hrun, hdead⟩ := stop_deadlock (r := frameQueued) rfl fun hnothing => by
    cases (hnothing _ rfl).1
  exact h.noDeadlock is s hrun hdead

end Stopping

end NodeWebkit.MediaRecorder
