import Mathlib.Data.Finset.Basic
import Mathlib.Data.List.Count
import NodeWebkit.Lib.Run

/-!
# The MediaRecorder objects of a page and the sinks of its renderer

Three tables are keyed by the id of a `MediaRecorder` object: `mediaRecorderEvents.objs` and the
private `state` of the object on the script side, `mrsMap` on the native side. `start` and `stop`
change all of them in one call. The events of a sink come back over the message loop, and their
listeners call handlers of the page, which may call any method of any object again and may throw.

## The model

* **`Page`** — the three tables, the sinks that `stop` has released, the events that wait in the
  message loop, and the listener that is running, with what it still has to do;
* **`Call`** — a method of an object, with what a `start` meets on its way to the native side: an
  option that throws, no URL for the stream, a stream of null, or a sink;
* **`Op`** — a call, a sink that posts an event or has stopped, the next event of the loop, or the
  end of a handler.

A handler is not given as a program: while one is `running`, every call is a step of its own, until
the handler returns or throws.
-/

namespace NodeWebkit.MediaRecorder

/-- `privates(obj).state`. No method ever makes it `"paused"`. -/
inductive RecordingState where
  | inactive | recording
  deriving DecidableEq

/-- `NWObjectMediaRecorderStart` and so on. -/
inductive EventName where
  | start | stop | data | pause | resume
  deriving DecidableEq

structure Event where
  id : Nat
  name : EventName
  deriving DecidableEq

/-- What a call throws. -/
inductive Thrown where
  /-- `InvalidStateError`. -/
  | invalidState
  /-- An option that cannot be converted, or a stream without an object URL. -/
  | typeError
  /-- `"MediaRecorder already started"`. -/
  | alreadyStarted
  /-- `"MediaRecorder, both audio and video are null"`. -/
  | streamsNull
  /-- `"MediaRecorder object id not found"`. -/
  | idNotFound
  deriving DecidableEq

/-- How far `start` gets with its arguments and the streams of the object: an option has no
number, `createObjectURL` (or a string of the options) throws, neither stream is registered, or
there is something to record. -/
inductive StartArgs where
  | optionThrows | urlThrows | streamsNull | stream
  deriving DecidableEq

inductive Call where
  | start (args : StartArgs)
  | stop
  | pause
  | resume
  | requestData
  deriving DecidableEq

/-- The listener that is waiting for a handler of the page. -/
inductive Listener where
  /-- `onstart`, `onpause`, `onresume`, or `ondataavailable` for data. -/
  | handler (id : Nat)
  /-- `ondataavailable` with `data: null`, from the Stop listener. -/
  | stopData (id : Nat)
  /-- `onstop`. -/
  | stopStop (id : Nat)
  deriving DecidableEq

/-- The object whose Stop event this is about. -/
def Listener.stopId : Listener → Option Nat
  | .handler _ => none
  | .stopData id | .stopStop id => some id

structure Page where
  /-- The keys of `mediaRecorderEvents.objs`. -/
  objs : Finset Nat := ∅
  state : Nat → RecordingState := fun _ => .inactive
  mrsMap : Finset Nat := ∅
  /-- The sinks that were released and have not posted their Stop event yet. -/
  stopping : List Nat := []
  queue : List Event := []
  running : Option Listener := none
  /-- The calls that returned, the last one first. -/
  returned : List (Nat × Call) := []

namespace Page

/-- The object whose Stop listener is running. -/
def stopOf (w : Page) : Option Nat :=
  w.running.bind Listener.stopId

def setState (w : Page) (id : Nat) (state : RecordingState) : Page :=
  { w with state := Function.update w.state id state }

/-- `MediaRecorder::Start`. -/
def nativeStart (w : Page) (id : Nat) (args : StartArgs) : Page × Option Thrown :=
  if id ∈ w.mrsMap then (w, some .alreadyStarted)
  else if args = .streamsNull then (w, some .streamsNull)
  else ({ w with mrsMap := insert id w.mrsMap }, none)

/-- `MediaRecorder::Stop`: the sink is released, its destructor stops the recording. -/
def nativeStop (w : Page) (id : Nat) : Page × Option Thrown :=
  if id ∈ w.mrsMap then
    ({ w with
      mrsMap := w.mrsMap.erase id
      stopping := id :: w.stopping }, none)
  else (w, some .idNotFound)

/-- `MediaRecorder::Call`, with the event the sink posts for it. -/
def nativeCall (w : Page) (id : Nat) (posted : Option EventName) : Page × Option Thrown :=
  if id ∈ w.mrsMap then
    ({ w with queue := w.queue ++ posted.toList.map (Event.mk id) }, none)
  else (w, some .idNotFound)

def start (w : Page) (id : Nat) (args : StartArgs) : Page × Option Thrown :=
  if w.state id ≠ .inactive then (w, some .invalidState)
  else if args = .optionThrows then (w, some .typeError)
  else
    -- the object is registered before anything native is asked
    let w := { w with objs := insert id w.objs }
    if args = .urlThrows then (w, some .typeError)
    else
      match w.nativeStart id args with
      | (w, some thrown) => (w, some thrown)
      | (w, none) => (w.setState id .recording, none)

def stop (w : Page) (id : Nat) : Page × Option Thrown :=
  if w.state id = .inactive then (w, some .invalidState) else w.nativeStop id

def pause (w : Page) (id : Nat) : Page × Option Thrown :=
  if w.state id = .inactive then (w, some .invalidState) else w.nativeCall id (some .pause)

def resume (w : Page) (id : Nat) : Page × Option Thrown :=
  if w.state id = .inactive then (w, some .invalidState) else w.nativeCall id (some .resume)

def requestData (w : Page) (id : Nat) : Page × Option Thrown :=
  if w.state id ≠ .recording then (w, some .invalidState) else w.nativeCall id none

def call (w : Page) (id : Nat) : Call → Page × Option Thrown
  | .start args => w.start id args
  | .stop => w.stop id
  | .pause => w.pause id
  | .resume => w.resume id
  | .requestData => w.requestData id

/-- A call that returns is noted; one that throws ends in a handler of the caller, if any. -/
def afterCall (w : Page) (id : Nat) (c : Call) : Page :=
  match w.call id c with
  | (w, none) => { w with returned := (id, c) :: w.returned }
  | (w, some _) => w

/-- The Stop listener ends: `delete mediaRecorderEvents.objs[id]`. -/
def endStop (w : Page) (id : Nat) : Page :=
  { w with
    objs := w.objs.erase id
    running := none }

/-- The Stop listener after `ondataavailable`. -/
def afterStopData (w : Page) (id : Nat) (onstop : Bool) : Page :=
  if onstop then { w with running := some (.stopStop id) } else w.endStop id

/-- The Stop listener. The two flags say whether the object has the handlers. -/
def onStopEvent (w : Page) (id : Nat) (ondataavailable onstop : Bool) : Page :=
  let w := w.setState id .inactive
  if ondataavailable then { w with running := some (.stopData id) }
  else w.afterStopData id onstop

/-- The listener of an event; an event of an id without an object is dropped. -/
def onEvent (w : Page) (event : Event) (handler onstop : Bool) : Page :=
  if event.id ∉ w.objs then w
  else
    match event.name with
    | .stop => w.onStopEvent event.id handler onstop
    | _ => if handler then { w with running := some (.handler event.id) } else w

inductive Op where
  /-- A method call, from the running handler or from other code of the page. -/
  | call (id : Nat) (c : Call)
  /-- A sink posts a Start or a data event. -/
  | sinkEvent (id : Nat) (start : Bool)
  /-- The destructor of a released sink posts the Stop event, its last one. -/
  | sinkStopped (id : Nat)
  /-- The message loop dispatches the first event. `handler` says whether the handler of the event
  is set, `onstop` whether `onstop` is. -/
  | dispatch (handler onstop : Bool)
  | handlerReturns (onstop : Bool)
  | handlerThrows
  deriving DecidableEq

def step (w : Page) : Op → Option Page
  | .call id c => some (w.afterCall id c)
  | .sinkEvent id start =>
    if id ∈ w.mrsMap ∨ id ∈ w.stopping then
      some { w with queue := w.queue ++ [⟨id, if start then .start else .data⟩] }
    else none
  | .sinkStopped id =>
    if id ∈ w.stopping then
      some { w with
        stopping := w.stopping.erase id
        queue := w.queue ++ [⟨id, .stop⟩] }
    else none
  | .dispatch handler onstop =>
    match w.running, w.queue with
    | none, event :: queue => some ({ w with queue := queue }.onEvent event handler onstop)
    | _, _ => none
  | .handlerReturns onstop =>
    match w.running with
    | none => none
    | some (.handler _) => some { w with running := none }
    | some (.stopData id) => some (w.afterStopData id onstop)
    | some (.stopStop id) => some (w.endStop id)
  | .handlerThrows =>
    match w.running with
    | none => none
    | some _ => some { w with running := none }

end Page

def Call.isStartOrStop : Call → Bool
  | .start _ | .stop => true
  | .pause | .resume | .requestData => false

/-- The last call of `start` or `stop` on the object that returned is a start. -/
def StartedNotStopped (returned : List (Nat × Call)) (id : Nat) : Prop :=
  ∃ args, returned.find? (fun r => r.1 = id && r.2.isStartOrStop) = some (id, .start args)

end NodeWebkit.MediaRecorder
