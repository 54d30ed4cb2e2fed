import NodeWebkit.Lib.Run
import NodeWebkit.AutoUpdater.SpawnUpdate
import Mathlib.Logic.Function.Basic

/-!
# The commands of spawnUpdate

`spawnUpdate` with any callers and any callbacks: application code calls it in a turn of the event
loop and in the callbacks, with any arguments, and returns or throws. A command is answered by
calling its callback, and the calls count how often and with what that happens.

* A refusal runs its callback inside the `try` of `spawnUpdate`: what it throws is caught, and the
  callback is called again in the next tick.
* The handlers of a child's event run one after the other, in the order of the calls. What a
  callback throws there ends the event: the handlers after it do not run.
* `spawn` throws, or it returns an object with its streams, whose process may not have started.
* `exit` and `error` are recorded in the child with the output that came before them, `stdout` and
  `stderr` are all it ever wrote.
-/

namespace NodeWebkit.AutoUpdater

open Updater

namespace Commands

/-- The arguments of a callback. -/
structure Result where
  error : Option String
  stdout : Option String
  deriving DecidableEq

/-- The variables of one call of `spawnUpdate`, and what its callback has been called with. -/
structure Call where
  errorEmitted : Bool := false
  stdout : String := ""
  stderr : String := ""
  results : List Result := []
  deriving DecidableEq

/-- An `exit` event, with what the child had written until then. -/
structure Exit where
  code : Option Int
  signal : Option String
  stdout : String
  stderr : String
  deriving DecidableEq

/-- A `ChildProcess` with the calls attached to it, in the order of their handlers. A child that is
not `started` is the object of a `spawn` that failed. -/
structure Child where
  started : Bool := false
  args : List Arg := []
  detached : Bool := false
  calls : List Nat := []
  stdout : String := ""
  stderr : String := ""
  error : Option String := none
  exit : Option Exit := none
  deriving DecidableEq

inductive ChildEvent where
  | exit (code : Option Int) (signal : Option String)
  | error (error : String)
  deriving DecidableEq

/-- An event whose handlers run, with the calls whose handlers are still to run. -/
structure Dispatch where
  child : Nat
  event : ChildEvent
  rest : List Nat
  deriving DecidableEq

end Commands

structure Commands where
  spawnedProcess : Option Nat := none
  spawnedArgs : List Arg := []
  children : Nat → Commands.Child := fun _ => {}
  childCount : Nat := 0
  calls : Nat → Commands.Call := fun _ => {}
  callCount : Nat := 0
  /-- The application code that runs, if any: the refused calls whose callbacks it is inside of, the
  innermost first. -/
  code : Option (List Nat) := none
  dispatch : Option Commands.Dispatch := none
  /-- `process.nextTick`: the calls whose callbacks are called with an error. -/
  nextTick : List (Nat × String) := []

namespace Commands

def modifyCall (self : Commands) (c : Nat) (f : Call → Call) : Commands :=
  { self with calls := Function.update self.calls c (f (self.calls c)) }

def modifyChild (self : Commands) (i : Nat) (f : Child → Child) : Commands :=
  { self with children := Function.update self.children i (f (self.children i)) }

/-- The callback of a call is called: application code runs. -/
def runCallback (self : Commands) (c : Nat) (result : Result) (tries : List Nat) : Commands :=
  { self.modifyCall c fun call => { call with results := call.results ++ [result] } with
    code := some tries }

/-! ## `spawnUpdate` -/

/-- The variables of a new call. -/
def addCall (self : Commands) : Commands :=
  { self with
    calls := Function.update self.calls self.callCount {}
    callCount := self.callCount + 1 }

/-- The handlers of a call are added to a child. -/
def attach (self : Commands) (i c : Nat) : Commands :=
  self.modifyChild i fun child => { child with calls := child.calls ++ [c] }

/-- `spawn` has returned an object. -/
def spawned (self : Commands) (args : List Arg) (detached started : Bool) : Commands :=
  { self with
    spawnedProcess := some self.childCount
    spawnedArgs := args
    children := Function.update self.children self.childCount
      { started := started, args := args, detached := detached }
    childCount := self.childCount + 1 }

def refusal (args : List Arg) : Result :=
  ⟨some ("AutoUpdater process with arguments " ++ argsText args ++ " is already running"), none⟩

/-- `spawnUpdate`, called by the code inside the callbacks of `tries`. -/
def spawnUpdate (self : Commands) (args : List Arg) (detached : Bool) (outcome : SpawnOutcome)
    (tries : List Nat) : Commands :=
  let c := self.callCount
  match self.spawnedProcess with
  | some i =>
    if args = self.spawnedArgs then self.addCall.attach i c
    else self.addCall.runCallback c (refusal args) (c :: tries)
  | none =>
    match outcome with
    | .throws error => { self.addCall with nextTick := self.nextTick ++ [(c, error)] }
    | .failed => (self.addCall.spawned args detached false).attach self.childCount c
    | .running => (self.addCall.spawned args detached true).attach self.childCount c

/-! ## The handlers of a child -/

/-- What an `exit` handler that has not emitted an error calls its callback with. -/
def exitResult (code : Option Int) (signal : Option String) (stdout stderr : String) : Result :=
  if code ≠ some 0 then
    ⟨some ("Command failed: " ++ exitText code signal ++ "\n" ++ stderr), none⟩
  else ⟨none, some stdout⟩

/-- The `exit` handler of a call. -/
def onExit (self : Commands) (c : Nat) (code : Option Int) (signal : Option String) : Commands :=
  let self := { self with
    spawnedProcess := none
    spawnedArgs := [] }
  let call := self.calls c
  if call.errorEmitted then self
  else self.runCallback c (exitResult code signal call.stdout call.stderr) []

/-- The `error` handler of a call. -/
def onError (self : Commands) (c : Nat) (error : String) : Commands :=
  (self.modifyCall c fun call => { call with errorEmitted := true }).runCallback c
    ⟨some error, none⟩ []

/-- What `Squirrel.prototype.download` makes of a result for its own callback. -/
def download {Release : Type} (releases : String → Except Unit (Option Release))
    (result : Result) : Except String (Option Release) :=
  match result.error with
  | some error => .error error
  | none =>
    match releases (result.stdout.getD "") with
    | .error _ => .error ("Invalid result:\n" ++ result.stdout.getD "")
    | .ok update => .ok update

/-! ## The machine -/

inductive Op where
  /-- A new turn of the event loop runs application code. -/
  | turn
  | spawnUpdate (args : List Arg) (detached : Bool) (outcome : SpawnOutcome)
  /-- Application code returns. -/
  | return
  /-- Application code throws. -/
  | throw (error : String)
  /-- The next handler of the event runs, or the event is done. -/
  | handler
  | tick
  | exit (i : Nat) (code : Option Int) (signal : Option String)
  | error (i : Nat) (error : String)
  | stdoutData (i : Nat) (data : String)
  | stderrData (i : Nat) (data : String)
  deriving DecidableEq

/-- No code of the page runs. -/
def Quiet (s : Commands) : Prop := s.code = none ∧ s.dispatch = none

/-- The event loop takes its next event. -/
def Idle (s : Commands) : Prop := s.Quiet ∧ s.nextTick = []

instance (s : Commands) : Decidable s.Quiet := inferInstanceAs (Decidable (_ ∧ _))
instance (s : Commands) : Decidable s.Idle := inferInstanceAs (Decidable (_ ∧ _))

/-- The `data` handlers of a child's calls. -/
def onData (self : Commands) (i : Nat) (f : Call → Call) : Commands :=
  { self with
    calls := fun c => if c ∈ (self.children i).calls then f (self.calls c) else self.calls c }

def step (self : Commands) : Op → Option Commands
  | .turn => if self.Idle then some { self with code := some [] } else none
  | .spawnUpdate args detached outcome =>
    self.code.map (self.spawnUpdate args detached outcome)
  | .return =>
    match self.code with
    | none => none
    | some [] => some { self with code := none }
    | some (_ :: tries) => some { self with code := some tries }
  | .throw error =>
    match self.code with
    | none => none
    | some [] => some { self with code := none, dispatch := none }
    -- caught by the `try` of the refused call, which returns
    | some (c :: tries) =>
      some { self with code := some tries, nextTick := self.nextTick ++ [(c, error)] }
  | .handler =>
    match self.code, self.dispatch with
    | none, some ⟨_, _, []⟩ => some { self with dispatch := none }
    | none, some ⟨i, .exit code signal, c :: rest⟩ =>
      some (onExit { self with dispatch := some ⟨i, .exit code signal, rest⟩ } c code signal)
    | none, some ⟨i, .error error, c :: rest⟩ =>
      some (onError { self with dispatch := some ⟨i, .error error, rest⟩ } c error)
    | _, _ => none
  | .tick =>
    match self.nextTick with
    | [] => none
    | (c, error) :: rest =>
      if self.Quiet then
        some (runCallback { self with nextTick := rest } c ⟨some error, none⟩ [])
      else none
  | .exit i code signal =>
    let child := self.children i
    if self.Idle ∧ i < self.childCount ∧ child.started = true ∧ child.exit = none then
      some { self.modifyChild i fun child =>
          { child with exit := some ⟨code, signal, child.stdout, child.stderr⟩ } with
        dispatch := some ⟨i, .exit code signal, child.calls⟩ }
    else none
  -- the `error` of a failed `spawn` is itself in the tick queue
  | .error i error =>
    if self.Quiet ∧ i < self.childCount then
      some { self.modifyChild i fun child => { child with error := some error } with
        dispatch := some ⟨i, .error error, (self.children i).calls⟩ }
    else none
  | .stdoutData i data =>
    if self.Idle ∧ i < self.childCount ∧ (self.children i).started = true then
      some ((self.modifyChild i fun child => { child with stdout := child.stdout ++ data }).onData i
        fun call => { call with stdout := call.stdout ++ data })
    else none
  | .stderrData i data =>
    if self.Idle ∧ i < self.childCount ∧ (self.children i).started = true then
      some ((self.modifyChild i fun child => { child with stderr := child.stderr ++ data }).onData i
        fun call => { call with stderr := call.stderr ++ data })
    else none

/-! ## What callers rely on -/

/-- The process has exited, or there has never been one and `error` says so. -/
def Child.Ended (child : Child) : Prop :=
  child.exit.isSome ∨ (child.started = false ∧ child.error.isSome)

instance (child : Child) : Decidable child.Ended := inferInstanceAs (Decidable (_ ∨ _))

/-- Commands complete and do not block later ones. -/
structure Safe (s : Commands) : Prop where
  once : ∀ c < s.callCount, (s.calls c).results.length ≤ 1
  /-- When nothing is left to run, a call has its result unless it waits for a child that has not
  ended. -/
  complete : s.Idle → ∀ c < s.callCount, (∀ i, c ∈ (s.children i).calls → (s.children i).Ended) →
    (s.calls c).results.length = 1
  /-- The calls of one child are given the same result. -/
  same : ∀ i, ∀ c ∈ (s.children i).calls, ∀ c' ∈ (s.children i).calls,
    ∀ r ∈ (s.calls c).results, ∀ r' ∈ (s.calls c').results, r = r'
  /-- A result without an error has all that the child wrote. -/
  stdout : ∀ i, ∀ c ∈ (s.children i).calls, ∀ r ∈ (s.calls c).results, r.error = none →
    r.stdout = some (s.children i).stdout
  /-- The update is the same one as well. -/
  update : ∀ (Release : Type) (releases : String → Except Unit (Option Release)) (i : Nat),
    ∀ c ∈ (s.children i).calls, ∀ c' ∈ (s.children i).calls,
    ∀ r ∈ (s.calls c).results, ∀ r' ∈ (s.calls c').results,
      download releases r = download releases r'
  /-- Where application code runs, a call is attached to or refused for a child that has not ended
  only. -/
  next : s.code ≠ none → ∀ i, s.spawnedProcess = some i → ¬ (s.children i).Ended

/-- What the code relies on, of a step and the state before it.

* Nobody throws inside the callback of a refused call, nor while handlers are still to run.
* At an `exit` that follows no `error`, every call has what the child wrote to the stream that its
  result has; at one that follows an `error`, every call has been told of it.
* An `error` comes once and before any `exit`, and if it is that of a failed `spawn` the globals
  have been cleared by another child.
* After a result without an error the child writes nothing to `stdout`. -/
def StepOk (s : Commands) : Op → Prop
  | .throw _ => s.code = some [] ∧ ∀ d ∈ s.dispatch, d.rest = []
  | .exit i code signal =>
    let child := s.children i
    ∀ c ∈ child.calls,
      if child.error = none then
        exitResult code signal (s.calls c).stdout (s.calls c).stderr =
          exitResult code signal child.stdout child.stderr
      else (s.calls c).errorEmitted = true
  | .error i _ =>
    let child := s.children i
    child.error = none ∧ child.exit = none ∧ (child.started = false → s.spawnedProcess ≠ some i)
  | .stdoutData i data =>
    data ≠ "" → ∀ c ∈ (s.children i).calls, ∀ r ∈ (s.calls c).results, r.error ≠ none
  | .turn | .spawnUpdate .. | .return | .handler | .tick | .stderrData .. => True

instance (s : Commands) : (op : Op) → Decidable (s.StepOk op)
  | .throw _ => inferInstanceAs (Decidable (_ ∧ ∀ d ∈ s.dispatch, d.rest = []))
  | .exit i code signal => inferInstanceAs (Decidable (∀ c ∈ (s.children i).calls,
      if (s.children i).error = none then
        exitResult code signal (s.calls c).stdout (s.calls c).stderr =
          exitResult code signal (s.children i).stdout (s.children i).stderr
      else (s.calls c).errorEmitted = true))
  | .error i _ => inferInstanceAs (Decidable ((s.children i).error = none ∧
      (s.children i).exit = none ∧ ((s.children i).started = false → s.spawnedProcess ≠ some i)))
  | .stdoutData i data => inferInstanceAs (Decidable (data ≠ "" → ∀ c ∈ (s.children i).calls,
      ∀ r ∈ (s.calls c).results, r.error ≠ none))
  | .turn | .spawnUpdate .. | .return | .handler | .tick | .stderrData .. => isTrue trivial

/-- The operations that finish what has begun. -/
def Op.Settles : Op → Prop
  | .return | .throw _ | .handler | .tick => True
  | .turn | .spawnUpdate .. | .exit .. | .error .. | .stdoutData .. | .stderrData .. => False

/-- A bound on the operations that finish what has begun. -/
def work (s : Commands) : Nat :=
  (s.code.elim 0 fun tries => 1 + 4 * tries.length) +
    (s.dispatch.elim 0 fun d => 1 + 2 * d.rest.length) + 2 * s.nextTick.length

end Commands

end NodeWebkit.AutoUpdater
