import Mathlib.Data.List.Basic

/-!
# nw.AutoUpdater on Windows — spawnUpdate and its callers

One `Update.exe` at a time is meant to run: `spawnUpdate` keeps the running one in the globals
`spawnedProcess` and `spawnedArgs`, attaches a call with the same arguments to it and refuses one
with others. Every call adds its own handlers to the process it is attached to.

The events the code emits run application code, which may call the updater again, from inside
any handler. The machine therefore has the JavaScript stack as a part of its state: a step runs
the source from one point where application code may run to the next.

* A turn of the event loop pushes `Frame.user`, an emitted event pushes one as well; the API is
  called from there.
* What is left to do after an emitted event is a frame below (`afterChecking`, `afterAvailable`,
  the remaining handlers of a child's event, the `try` of `spawnUpdate`).

`JSON.parse` of the last line of the output, with `releasesToApply.pop()`, is a parameter.
-/

namespace NodeWebkit.AutoUpdater

/-! ## State -/

/-- What `spawnUpdate` calls when its command completes: the empty function of `processStart`,
the function in `download`, or the one `CheckForUpdates` passes to `update`, which holds the
release it was made for. -/
inductive Callback (Release : Type) where
  | processStart
  | download
  | update (release : Release)
  deriving DecidableEq

/-- The variables of one call of `spawnUpdate`, captured by the handlers it adds. -/
structure Call (Release : Type) where
  callback : Callback Release
  errorEmitted : Bool := false
  stdout : String := ""
  stderr : String := ""
  deriving DecidableEq

/-- `failed`: `spawn` returned an object but no process was started. -/
inductive Status where
  | running | failed | exited
  deriving DecidableEq

/-- A string, or `undefined`. -/
abbrev Arg := Option String

/-- A `ChildProcess` with the calls attached to it, in the order of their handlers. -/
structure Child (Release : Type) where
  status : Status
  args : List Arg
  detached : Bool
  calls : List (Call Release)
  deriving DecidableEq

/-- What the application sees. -/
inductive Event (Release : Type) where
  | error (message : String)
  | checkingForUpdate
  | updateNotAvailable
  | updateAvailable
  | updateDownloaded (releaseNotes : Release) (updateURL : Arg)
  deriving DecidableEq

inductive Frame (Release : Type) where
  /-- Application code. -/
  | user
  /-- `CheckForUpdates` after `emit('checking-for-update')`. -/
  | afterChecking
  /-- The callback of `download` after `emit('update-available')`. -/
  | afterAvailable (update : Release)
  /-- The `try` of a `spawnUpdate` that refuses. -/
  | inTry (callback : Callback Release)
  /-- The handlers of `exit` that are still to run, by the number of their call. -/
  | exitHandlers (child : Nat) (code : Option Int) (signal : Option String) (calls : List Nat)
  /-- The handlers of `error` that are still to run. -/
  | errorHandlers (child : Nat) (error : String) (calls : List Nat)
  deriving DecidableEq

structure Updater (Release : Type) where
  spawnedProcess : Option Nat := none
  spawnedArgs : List Arg := []
  /-- Every process object so far, in the order of the calls of `spawn`. -/
  children : List (Child Release) := []
  updateURL : Arg := none
  updateAvailable : Bool := false
  stack : List (Frame Release) := []
  /-- `process.nextTick`: callbacks with the error they are given. -/
  nextTick : List (Callback Release × String) := []
  emitted : List (Event Release) := []
  deriving DecidableEq

namespace Updater

variable {Release : Type}

/-! ## Events and callbacks

An emitted event is one more frame of application code. What the source does after the call of
`emit` has been put below it by the caller. -/

/-- `AutoUpdaterWin.emit`: the listeners run on top of the stack. -/
def emit (self : Updater Release) (event : Event Release) : Updater Release :=
  { self with
    emitted := self.emitted ++ [event]
    stack := .user :: self.stack }

/-- `AutoUpdaterWin.emitError`. -/
def emitError (self : Updater Release) (message : String) : Updater Release :=
  self.emit (.error message)

section Source

-- The parsed output of `--download`: `error` where the `try` throws, `none` for no release.
variable (releases : String → Except Unit (Option Release)) (exeName : String)

/-- A callback is called with an error, or with `null` and the output. -/
def runCallback (self : Updater Release) (callback : Callback Release) (error : Option String)
    (stdout : String) : Updater Release :=
  match callback with
  | .processStart => self
  | .download =>
    match error with
    | some error => self.emitError error
    | none =>
      match releases stdout with
      | .error _ => self.emitError ("Invalid result:\n" ++ stdout)
      | .ok none => self.emit .updateNotAvailable
      | .ok (some update) =>
        { self with
          updateAvailable := true
          stack := .afterAvailable update :: self.stack }.emit .updateAvailable
  | .update release =>
    match error with
    | some error => self.emitError error
    | none => self.emit (.updateDownloaded release self.updateURL)

/-! ## `spawnUpdate` -/

/-- What `spawn` does: throw, return an object whose process could not be started, or start
`Update.exe`. -/
inductive SpawnOutcome where
  | throws (error : String)
  | failed
  | running
  deriving DecidableEq

/-- `'' + args` of an array: `undefined` prints as nothing. -/
def argsText (args : List Arg) : String :=
  ",".intercalate (args.map fun arg => arg.getD "")

/-- The end of `spawnUpdate`: the handlers are added to `spawnedProcess`. -/
def attach (self : Updater Release) (child : Nat) (callback : Callback Release) :
    Updater Release :=
  { self with
    children := self.children.modify child fun c => { c with calls := c.calls ++ [{ callback }] } }

def spawnUpdate (self : Updater Release) (args : List Arg) (detached : Bool)
    (callback : Callback Release) (outcome : SpawnOutcome) : Updater Release :=
  match self.spawnedProcess with
  | some child =>
    if args = self.spawnedArgs then self.attach child callback
    else
      -- the refusal is called inside the `try`
      runCallback releases { self with stack := .inTry callback :: self.stack } callback
        (some ("AutoUpdater process with arguments " ++ argsText args ++ " is already running")) ""
  | none =>
    match outcome with
    | .throws error => { self with nextTick := self.nextTick ++ [(callback, error)] }
    | .failed =>
      { self with
        spawnedProcess := some self.children.length
        spawnedArgs := args
        children := self.children ++ [⟨.failed, args, detached, [{ callback }]⟩] }
    | .running =>
      { self with
        spawnedProcess := some self.children.length
        spawnedArgs := args
        children := self.children ++ [⟨.running, args, detached, [{ callback }]⟩] }

/-- `Squirrel.prototype.processStart`. -/
def processStart (self : Updater Release) (outcome : SpawnOutcome) : Updater Release :=
  self.spawnUpdate releases [some "--processStartAndWait", some exeName] true .processStart outcome

/-- `Squirrel.prototype.download`, with the callback of `CheckForUpdates`. -/
def download (self : Updater Release) (updateURL : Arg) (outcome : SpawnOutcome) :
    Updater Release :=
  self.spawnUpdate releases [some "--download", updateURL] false .download outcome

/-- `Squirrel.prototype.update`, with the callback of `CheckForUpdates`. -/
def update (self : Updater Release) (updateURL : Arg) (release : Release)
    (outcome : SpawnOutcome) : Updater Release :=
  self.spawnUpdate releases [some "--update", updateURL] false (.update release) outcome

/-! ## The handlers of a child

A call adds one handler of each kind to its child, and the handlers share the variables of the call.
Node emits `exit` and `error` by going through the handlers in the order they were added. -/

/-- The variables of one call attached to a child. -/
def call? (self : Updater Release) (child k : Nat) : Option (Call Release) :=
  (self.children[child]?).bind fun c => c.calls[k]?

def modifyCall (self : Updater Release) (child k : Nat) (f : Call Release → Call Release) :
    Updater Release :=
  { self with
    children := self.children.modify child fun c => { c with calls := c.calls.modify k f } }

/-- `(signal != null ? signal : code)` as text. -/
def exitText (code : Option Int) (signal : Option String) : String :=
  match signal with
  | some signal => signal
  | none => match code with
    | some code => toString code
    | none => "null"

/-- The `exit` handler of one call. -/
def onExit (self : Updater Release) (child k : Nat) (code : Option Int)
    (signal : Option String) : Updater Release :=
  let self := { self with
    spawnedProcess := none
    spawnedArgs := [] }
  match self.call? child k with
  | none => self
  | some call =>
    if call.errorEmitted then self
    else if code ≠ some 0 then
      self.runCallback releases call.callback
        (some ("Command failed: " ++ exitText code signal ++ "\n" ++ call.stderr)) ""
    else self.runCallback releases call.callback none call.stdout

/-- The `error` handler of one call. -/
def onError (self : Updater Release) (child k : Nat) (error : String) : Updater Release :=
  match self.call? child k with
  | none => self
  | some call =>
    (self.modifyCall child k fun call => { call with errorEmitted := true }).runCallback releases
      call.callback (some error) ""

/-! ## The API -/

def quitAndInstall (self : Updater Release) (outcome : SpawnOutcome) : Updater Release :=
  if !self.updateAvailable then
    self.emitError "No update available, can't quit and install"
  else self.processStart releases exeName outcome

/-- `supported` is what `fs.accessSync` says about `Update.exe`. -/
def checkForUpdates (self : Updater Release) (supported : Bool) : Updater Release :=
  if self.updateURL.getD "" = "" then self.emitError "Update URL is not set"
  else if !supported then self.emitError "Can not find Squirrel"
  else { self with stack := .afterChecking :: self.stack }.emit .checkingForUpdate

/-! ## The machine -/

/-- An exception leaves the frames above the first one that catches: application code, or the
`try` of `spawnUpdate`, which passes the exception to its callback in the next tick. -/
def unwind (self : Updater Release) (error : String) : List (Frame Release) → Updater Release
  | [] => { self with stack := [] }
  | .user :: below => { self with stack := .user :: below }
  | .inTry callback :: below =>
    { self with
      stack := below
      nextTick := self.nextTick ++ [(callback, error)] }
  | _ :: below => self.unwind error below

/-- Continues after an emitted event or a handler, with the frame already taken off the stack. -/
def resume (self : Updater Release) (outcome : SpawnOutcome) : Frame Release → Updater Release
  | .user => self
  | .afterChecking => self.download releases self.updateURL outcome
  | .afterAvailable release => self.update releases self.updateURL release outcome
  | .inTry _ => self
  | .exitHandlers _ _ _ [] => self
  | .exitHandlers child code signal (k :: rest) =>
    { self with stack := .exitHandlers child code signal rest :: self.stack }.onExit releases
      child k code signal
  | .errorHandlers _ _ [] => self
  | .errorHandlers child error (k :: rest) =>
    { self with stack := .errorHandlers child error rest :: self.stack }.onError releases
      child k error

inductive Op where
  /-- A new turn of the event loop runs application code. -/
  | turn
  | setFeedURL (url : Arg)
  | checkForUpdates (supported : Bool)
  | quitAndInstall (outcome : SpawnOutcome)
  /-- Application code returns. -/
  | return
  /-- Application code throws, or `emit('error')` does because nobody listens. -/
  | throw (error : String)
  /-- The code below runs on, up to its next event. -/
  | resume (outcome : SpawnOutcome)
  | tick
  | exit (child : Nat) (code : Option Int) (signal : Option String)
  | error (child : Nat) (error : String)
  | stdoutData (child : Nat) (data : String)
  | stderrData (child : Nat) (data : String)
  deriving DecidableEq

/-- The event loop takes its next event when the stack and the tick queue are empty. -/
def idle (self : Updater Release) : Bool := self.stack.isEmpty && self.nextTick.isEmpty

/-- Application code is running. -/
def inUser (self : Updater Release) : Bool :=
  match self.stack with
  | .user :: _ => true
  | _ => false

def onData (self : Updater Release) (child : Nat) (f : Call Release → Call Release) :
    Updater Release :=
  { self with
    children := self.children.modify child fun c => { c with calls := c.calls.map f } }

def step (self : Updater Release) : Op → Option (Updater Release)
  | .turn => if self.idle then some { self with stack := [.user] } else none
  | .setFeedURL url => if self.inUser then some { self with updateURL := url } else none
  | .checkForUpdates supported =>
    if self.inUser then some (self.checkForUpdates supported) else none
  | .quitAndInstall outcome =>
    if self.inUser then some (self.quitAndInstall releases exeName outcome) else none
  | .return =>
    match self.stack with
    | .user :: below => some { self with stack := below }
    | _ => none
  | .throw error =>
    match self.stack with
    | .user :: below => some (self.unwind error below)
    | _ => none
  | .resume outcome =>
    match self.stack with
    | [] => none
    | .user :: _ => none
    | frame :: below => some ({ self with stack := below }.resume releases outcome frame)
  | .tick =>
    match self.stack, self.nextTick with
    | [], (callback, error) :: rest =>
      some ({ self with nextTick := rest }.runCallback releases callback (some error) "")
    | _, _ => none
  | .exit child code signal =>
    match self.children[child]? with
    | some c =>
      if self.idle ∧ c.status ≠ .exited then
        some { self with
          children := self.children.set child { c with status := .exited }
          stack := [.exitHandlers child code signal (List.range c.calls.length)] }
      else none
    | none => none
  | .error child error =>
    match self.children[child]? with
    | some c =>
      if self.idle then
        some { self with stack := [.errorHandlers child error (List.range c.calls.length)] }
      else none
    | none => none
  | .stdoutData child data =>
    if self.idle then
      some (self.onData child fun call => { call with stdout := call.stdout ++ data })
    else none
  | .stderrData child data =>
    if self.idle then
      some (self.onData child fun call => { call with stderr := call.stderr ++ data })
    else none

/-! ## What a step has done

`Stepped` lists the steps with what each one needs and what it leaves, so that the invariants of the
later modules take a step apart without unfolding `step`. -/

/-- The steps of the machine, with what they need. -/
inductive Stepped (s : Updater Release) : Op → Updater Release → Prop where
  | turn (hidle : s.idle = true) : Stepped s .turn { s with stack := [.user] }
  | setFeedURL (url : Arg) (huser : s.inUser = true) :
    Stepped s (.setFeedURL url) { s with updateURL := url }
  | checkForUpdates (supported : Bool) (huser : s.inUser = true) :
    Stepped s (.checkForUpdates supported) (s.checkForUpdates supported)
  | quitAndInstall (outcome : SpawnOutcome) (huser : s.inUser = true) :
    Stepped s (.quitAndInstall outcome) (s.quitAndInstall releases exeName outcome)
  | return {below : List (Frame Release)} (hstack : s.stack = .user :: below) :
    Stepped s .return { s with stack := below }
  | throw (error : String) {below : List (Frame Release)} (hstack : s.stack = .user :: below) :
    Stepped s (.throw error) (s.unwind error below)
  | resume (outcome : SpawnOutcome) {frame : Frame Release} {below : List (Frame Release)}
    (hframe : frame ≠ .user) (hstack : s.stack = frame :: below) :
    Stepped s (.resume outcome) ({ s with stack := below }.resume releases outcome frame)
  | tick {callback : Callback Release} {error : String} {rest : List (Callback Release × String)}
    (hstack : s.stack = []) (hnext : s.nextTick = (callback, error) :: rest) :
    Stepped s .tick
      ({ s with nextTick := rest }.runCallback releases callback (some error) "")
  | exit {i : Nat} {child : Child Release} (code : Option Int) (signal : Option String)
    (hchild : s.children[i]? = some child) (hidle : s.idle = true)
    (hexited : child.status ≠ .exited) :
    Stepped s (.exit i code signal)
      { s with
        children := s.children.set i { child with status := .exited }
        stack := [.exitHandlers i code signal (List.range child.calls.length)] }
  | error {i : Nat} {child : Child Release} (error : String)
    (hchild : s.children[i]? = some child) (hidle : s.idle = true) :
    Stepped s (.error i error)
      { s with stack := [.errorHandlers i error (List.range child.calls.length)] }
  | stdoutData (i : Nat) (data : String) (hidle : s.idle = true) :
    Stepped s (.stdoutData i data)
      (s.onData i fun call => { call with stdout := call.stdout ++ data })
  | stderrData (i : Nat) (data : String) (hidle : s.idle = true) :
    Stepped s (.stderrData i data)
      (s.onData i fun call => { call with stderr := call.stderr ++ data })

variable {releases exeName}

/-- **The steps of the machine.** Each operation is possible under the guard the source gives it —
an idle loop, application code on the stack, a child that has not exited — and does what it says. -/
theorem stepped_of_step {s t : Updater Release} {op : Op}
    (h : s.step releases exeName op = some t) : Stepped releases exeName s op t := by
  cases op with
  | turn =>
    obtain ⟨hidle, ht⟩ := Option.ite_none_right_eq_some.mp h
    cases ht
    exact .turn hidle
  | setFeedURL url =>
    obtain ⟨huser, ht⟩ := Option.ite_none_right_eq_some.mp h
    cases ht
    exact .setFeedURL url huser
  | checkForUpdates supported =>
    obtain ⟨huser, ht⟩ := Option.ite_none_right_eq_some.mp h
    cases ht
    exact .checkForUpdates supported huser
  | quitAndInstall outcome =>
    obtain ⟨huser, ht⟩ := Option.ite_none_right_eq_some.mp h
    cases ht
    exact .quitAndInstall outcome huser
  | «return» =>
    rw [step] at h
    split at h
    · rename_i hstack
      cases h
      exact .return hstack
    · cases h
  | throw error =>
    rw [step] at h
    split at h
    · rename_i hstack
      cases h
      exact .throw error hstack
    · cases h
  | resume outcome =>
    rw [step] at h
    split at h
    · cases h
    · cases h
    · rename_i frame below hframe hstack
      cases h
      exact .resume outcome (fun heq => hframe (heq ▸ rfl)) hstack
  | tick =>
    rw [step] at h
    split at h
    · rename_i hstack hnext
      cases h
      exact .tick hstack hnext
    · cases h
  | exit i code signal =>
    rw [step] at h
    split at h
    · rename_i child hchild
      obtain ⟨⟨hidle, hexited⟩, ht⟩ := Option.ite_none_right_eq_some.mp h
      cases ht
      exact .exit code signal hchild hidle hexited
    · cases h
  | error i error =>
    rw [step] at h
    split at h
    · rename_i child hchild
      obtain ⟨hidle, ht⟩ := Option.ite_none_right_eq_some.mp h
      cases ht
      exact .error error hchild hidle
    · cases h
  | stdoutData i data =>
    obtain ⟨hidle, ht⟩ := Option.ite_none_right_eq_some.mp h
    cases ht
    exact .stdoutData i data hidle
  | stderrData i data =>
    obtain ⟨hidle, ht⟩ := Option.ite_none_right_eq_some.mp h
    cases ht
    exact .stderrData i data hidle

end Source

end Updater

end NodeWebkit.AutoUpdater
