import NodeWebkit.AutoUpdater.OneUpdater

/-!
# QuitAndInstall

`QuitAndInstall` has `Update.exe` start the application again once it is gone, and quits. The
command goes through `spawnUpdate`, with an empty function for a callback, and `nw.App.quit` is
called whatever became of it.

* **`Owed`** — the application is quit only where the restart is under way;
* **`StepOk`** — the condition: the command gets a process;
* **`Inv`** — the process of the globals has their arguments and has not exited, or the next thing
  to run is the handler that clears them.

The invariant is about the updater alone and holds in every run. It is what turns the condition,
which looks at the globals, into a process that is alive: `Live` says that the process of the
globals has not exited where application code can run. The application adds the count of quits,
which `quits_step` follows.
-/

namespace NodeWebkit.AutoUpdater

open Lts

namespace Updater

variable {Release : Type}

/-- The arguments of `processStart`. -/
def restartArgs (exeName : String) : List Arg := [some "--processStartAndWait", some exeName]

/-! ## The process of the globals

`SameChildren` is what most of the code does: the globals stay, and of every child the arguments and
the status stay and some call is left. `Live` survives it by `SameChildren.live`; the rest of the
section is one such lemma for each function of the source. -/

/-- The globals have no process, or one that has not exited. -/
def Live (s : Updater Release) : Prop :=
  ∀ c, s.spawnedProcess = some c → ∃ child, s.children[c]? = some child ∧
    child.args = s.spawnedArgs ∧ child.status ≠ .exited ∧ child.calls ≠ []

/-- The next thing to run clears the globals. -/
def Exiting (s : Updater Release) : Prop :=
  ∃ c code signal k rest, s.stack = [.exitHandlers c code signal (k :: rest)]

def Inv (s : Updater Release) : Prop := s.Live ∨ s.Exiting

theorem Inv.init : ({} : Updater Release).Inv := .inl nofun

/-- The same globals, and every process is as before but for the calls that are added to it. -/
structure SameChildren (s t : Updater Release) : Prop where
  process : t.spawnedProcess = s.spawnedProcess
  args : t.spawnedArgs = s.spawnedArgs
  child : ∀ (c : Nat) (child : Child Release), s.children[c]? = some child →
    ∃ child', t.children[c]? = some child' ∧ child'.args = child.args ∧
      child'.status = child.status ∧ (child.calls ≠ [] → child'.calls ≠ [])

theorem SameChildren.of_eq {s t : Updater Release} (hp : t.spawnedProcess = s.spawnedProcess)
    (ha : t.spawnedArgs = s.spawnedArgs) (hc : t.children = s.children) : SameChildren s t := by
  refine ⟨hp, ha, fun c child hchild => ⟨child, ?_, rfl, rfl, id⟩⟩
  rw [hc]
  exact hchild

theorem SameChildren.trans {s t u : Updater Release} (h : SameChildren s t)
    (h' : SameChildren t u) : SameChildren s u := by
  refine ⟨h'.process.trans h.process, h'.args.trans h.args, fun c child hchild => ?_⟩
  obtain ⟨mid, hmid, hargs, hstatus, hcalls⟩ := h.child c child hchild
  obtain ⟨last, hlast, hargs', hstatus', hcalls'⟩ := h'.child c mid hmid
  exact ⟨last, hlast, hargs'.trans hargs, hstatus'.trans hstatus, fun hne => hcalls' (hcalls hne)⟩

/-- The process of the globals is still there, with the same arguments and calls, and has not
exited. -/
theorem SameChildren.live {s t : Updater Release} (h : SameChildren s t) (hs : s.Live) :
    t.Live := by
  intro c hc
  rw [h.process] at hc
  obtain ⟨child, hchild, hargs, hstatus, hcalls⟩ := hs c hc
  obtain ⟨child', hchild', hargs', hstatus', hcalls'⟩ := h.child c child hchild
  rw [h.args]
  refine ⟨child', hchild', hargs'.trans hargs, ?_, hcalls' hcalls⟩
  rw [hstatus']
  exact hstatus

theorem Live.of_eq {s t : Updater Release} (h : s.Live)
    (hp : t.spawnedProcess = s.spawnedProcess) (ha : t.spawnedArgs = s.spawnedArgs)
    (hc : t.children = s.children) : t.Live :=
  (SameChildren.of_eq hp ha hc).live h

/-- What is alive stays alive: the status and the arguments of a child have not changed. -/
theorem SameChildren.alive {s t : Updater Release} (h : SameChildren s t) {c : Nat}
    {args : List Arg} (hc : s.Alive c args) : t.Alive c args := by
  obtain ⟨child, hchild, hrun, hargs⟩ := hc
  obtain ⟨child', hchild', hargs', hstatus', -⟩ := h.child c child hchild
  exact ⟨child', hchild', hstatus'.trans hrun, hargs'.trans hargs⟩

/-- Changes to the calls of a child that leave some. That a child keeps a call is what its `exit` is
followed by: the handler that clears the globals is one of a call. -/
theorem sameChildren_modify (s : Updater Release) (k : Nat)
    {f : List (Call Release) → List (Call Release)} (hf : ∀ calls, calls ≠ [] → f calls ≠ []) :
    SameChildren s { s with
      children := s.children.modify k fun c => { c with calls := f c.calls } } := by
  refine ⟨rfl, rfl, fun c child hchild => ?_⟩
  refine ⟨if k = c then { child with calls := f child.calls } else child, ?_, ?_⟩
  · rw [List.getElem?_modify, hchild]
    rfl
  · split
    · exact ⟨rfl, rfl, hf child.calls⟩
    · exact ⟨rfl, rfl, id⟩

/-- A callback at the end of such code emits an event and changes no child. -/
theorem SameChildren.runCallback {s t : Updater Release} (h : SameChildren s t)
    (releases : String → Except Unit (Option Release)) (callback : Callback Release)
    (error : Option String) (stdout : String) :
    SameChildren s (t.runCallback releases callback error stdout) := by
  obtain ⟨hp, ha, hc⟩ := runCallback_processes releases t callback error stdout
  exact h.trans (.of_eq hp ha hc)

/-- Attaching a call to the process that runs adds it to that child's calls. -/
theorem sameChildren_attach (s : Updater Release) (c : Nat) (callback : Callback Release) :
    SameChildren s (s.attach c callback) := by
  refine sameChildren_modify s c (f := (· ++ [{ callback := callback }])) fun calls _ hnil => ?_
  exact List.cons_ne_nil _ _ (List.append_eq_nil_iff.mp hnil).2

theorem sameChildren_onData (s : Updater Release) (c : Nat) (f : Call Release → Call Release) :
    SameChildren s (s.onData c f) :=
  sameChildren_modify s c fun _ hne hnil => hne (List.map_eq_nil_iff.mp hnil)

/-- An exception changes the stack and the tick queue only. Induction on the frames that it leaves.
-/
theorem sameChildren_unwind (error : String) (s : Updater Release) (below : List (Frame Release)) :
    SameChildren s (s.unwind error below) := by
  induction below with
  | nil => exact .of_eq rfl rfl rfl
  | cons frame below ih =>
    cases frame with
    | user => exact .of_eq rfl rfl rfl
    | inTry callback => exact .of_eq rfl rfl rfl
    | afterChecking => exact ih
    | afterAvailable release => exact ih
    | exitHandlers c code signal calls => exact ih
    | errorHandlers c e calls => exact ih

/-- An `error` handler marks its own call; the child keeps as many calls as it had. -/
theorem SameChildren.onError {s t : Updater Release} (h : SameChildren s t)
    (releases : String → Except Unit (Option Release)) (child k : Nat) (error : String) :
    SameChildren s (t.onError releases child k error) := by
  unfold Updater.onError
  split
  · exact h
  · refine SameChildren.runCallback (h.trans ?_) releases _ _ _
    refine sameChildren_modify t child
      (f := (·.modify k fun call => { call with errorEmitted := true }))
      fun calls hne hnil => hne ?_
    -- `modify` keeps the length, so a list with calls does not become empty
    have hlength := congrArg List.length hnil
    rw [List.length_modify] at hlength
    exact List.length_eq_zero_iff.mp hlength

/-- A new process is the one the globals have, with the call that spawned it; it may have failed to
start, but it has not exited. -/
theorem live_spawned (s : Updater Release) (child : Child Release)
    (hstatus : child.status ≠ .exited)
    (hcalls : child.calls ≠ []) :
    ({ s with
      spawnedProcess := some s.children.length
      spawnedArgs := child.args
      children := s.children ++ [child] } : Updater Release).Live := by
  intro c hc
  cases hc
  exact ⟨child, List.getElem?_concat_length, rfl, hstatus, hcalls⟩

/-- `spawnUpdate` leaves the globals with a process that has not exited, or with the one they had.
Where `spawn` throws they have none. -/
theorem Live.spawnUpdate {s : Updater Release} (h : s.Live)
    (releases : String → Except Unit (Option Release)) (args : List Arg) (detached : Bool)
    (callback : Callback Release) (outcome : SpawnOutcome) :
    (s.spawnUpdate releases args detached callback outcome).Live := by
  unfold Updater.spawnUpdate
  split
  · split
    · exact (sameChildren_attach s _ callback).live h
    · refine SameChildren.live (.runCallback ?_ releases _ _ _) h
      exact .of_eq rfl rfl rfl
  · split
    · exact h.of_eq rfl rfl rfl
    · exact live_spawned s ⟨.failed, args, detached, [{ callback }]⟩ nofun nofun
    · exact live_spawned s ⟨.running, args, detached, [{ callback }]⟩ nofun nofun

/-- Code that runs on. A frame starts a command or runs a handler; an exit handler leaves no process
in the globals, so that what is said of theirs holds at once. -/
theorem Live.resume {s : Updater Release} (h : s.Live)
    (releases : String → Except Unit (Option Release)) (outcome : SpawnOutcome)
    (frame : Frame Release) : (s.resume releases outcome frame).Live := by
  cases frame with
  | user => exact h
  | inTry callback => exact h
  | afterChecking => exact h.spawnUpdate releases _ false .download outcome
  | afterAvailable release => exact h.spawnUpdate releases _ false (.update release) outcome
  | exitHandlers child code signal calls =>
    cases calls with
    | nil => exact h
    | cons k rest =>
      intro c hc
      -- after an exit no process is the spawned one
      have hnone := (onExit_spec releases
        { s with stack := .exitHandlers child code signal rest :: s.stack } child k code signal).1
      rw [Updater.resume, hnone] at hc
      cases hc
  | errorHandlers child error calls =>
    cases calls with
    | nil => exact h
    | cons k rest =>
      refine SameChildren.live (.onError ?_ releases child k error) h
      exact .of_eq rfl rfl rfl

/-- An exit of a child: its handlers are to run, and they clear the globals where these have it. -/
theorem Live.exit {s : Updater Release} (h : s.Live) {i : Nat} {child : Child Release}
    (hi : s.children[i]? = some child) (code : Option Int) (signal : Option String) :
    ({ s with
      children := s.children.set i { child with status := .exited }
      stack := [.exitHandlers i code signal (List.range child.calls.length)] } :
        Updater Release).Inv := by
  by_cases hspawned : s.spawnedProcess = some i
  · obtain ⟨child', hchild', -, -, hcalls⟩ := h i hspawned
    rw [hi] at hchild'
    cases hchild'
    obtain ⟨k, rest, hrange⟩ := List.exists_cons_of_ne_nil
      (fun hnil => hcalls (List.length_eq_zero_iff.mp (List.range_eq_nil.mp hnil)))
    exact .inr ⟨i, code, signal, k, rest, by rw [hrange]⟩
  · refine .inl fun c hc => ?_
    obtain ⟨other, hother, hrest⟩ := h c hc
    have hne : i ≠ c := fun heq => hspawned (heq ▸ hc)
    exact ⟨other, by rw [List.getElem?_set_ne hne]; exact hother, hrest⟩

section Steps

variable {releases : String → Except Unit (Option Release)} {exeName : String}

/-- Where application code runs the handlers have cleared the globals: the only stack at which they
may have a process that has exited is the one with all its exit handlers still to run. -/
theorem Inv.live {s : Updater Release} (h : s.Inv)
    (hstack : ∀ c code signal calls, s.stack ≠ [.exitHandlers c code signal calls]) : s.Live := by
  rcases h with hlive | ⟨c, code, signal, k, rest, hexit⟩
  · exact hlive
  · exact absurd hexit (hstack c code signal (k :: rest))

theorem Inv.live_of_inUser {s : Updater Release} (h : s.Inv) (huser : s.inUser = true) :
    s.Live := by
  refine h.live fun c code signal calls hstack => ?_
  rw [inUser, hstack] at huser
  cases huser

theorem Inv.live_of_nil {s : Updater Release} (h : s.Inv) (hnil : s.stack = []) : s.Live := by
  refine h.live fun c code signal calls hstack => ?_
  rw [hnil] at hstack
  cases hstack

/-- The events of a child come while the page is idle, with nothing on the stack. -/
theorem Inv.live_of_idle {s : Updater Release} (h : s.Inv) (hidle : s.idle = true) : s.Live := by
  rw [idle, Bool.and_eq_true, List.isEmpty_iff] at hidle
  exact h.live_of_nil hidle.1

/-- A step keeps a process in the globals that has not exited, or leaves the clearing of them next
to run. -/
theorem Inv.step {s t : Updater Release} {op : Op} (h : s.Inv)
    (hst : Updater.step releases exeName s op = some t) : t.Inv := by
  cases stepped_of_step hst with
  | turn hidle => exact .inl ((h.live_of_idle hidle).of_eq rfl rfl rfl)
  | setFeedURL url huser => exact .inl ((h.live_of_inUser huser).of_eq rfl rfl rfl)
  | checkForUpdates supported huser =>
    have hlive := h.live_of_inUser huser
    unfold Updater.checkForUpdates
    split
    · exact .inl (hlive.of_eq rfl rfl rfl)
    · split <;> exact .inl (hlive.of_eq rfl rfl rfl)
  | quitAndInstall outcome huser =>
    have hlive := h.live_of_inUser huser
    unfold Updater.quitAndInstall
    split
    · exact .inl (hlive.of_eq rfl rfl rfl)
    · exact .inl (hlive.spawnUpdate releases _ true .processStart outcome)
  | «return» hstack =>
    have hlive := h.live_of_inUser (by rw [inUser, hstack])
    exact .inl (hlive.of_eq rfl rfl rfl)
  | throw error hstack =>
    have hlive := h.live_of_inUser (by rw [inUser, hstack])
    exact .inl ((sameChildren_unwind error s _).live hlive)
  | resume outcome hframe hstack =>
    rcases h with hlive | ⟨c, code, signal, k, rest, hexit⟩
    · refine .inl (Live.resume ?_ releases outcome _)
      exact hlive.of_eq rfl rfl rfl
    · -- the handler that clears the globals runs
      rw [hexit] at hstack
      cases hstack
      refine .inl fun i hi => ?_
      rw [Updater.resume, (onExit_spec releases _ c k code signal).1] at hi
      cases hi
  | tick hstack hnext =>
    refine .inl (SameChildren.live (.runCallback ?_ releases _ _ _) (h.live_of_nil hstack))
    exact .of_eq rfl rfl rfl
  | exit code signal hchild hidle hexited => exact (h.live_of_idle hidle).exit hchild code signal
  | error error hchild hidle => exact .inl ((h.live_of_idle hidle).of_eq rfl rfl rfl)
  | stdoutData i data hidle => exact .inl ((sameChildren_onData s i _).live (h.live_of_idle hidle))
  | stderrData i data hidle => exact .inl ((sameChildren_onData s i _).live (h.live_of_idle hidle))

end Steps

end Updater

/-! ## The application

The machine of the updater with the count of the calls of `nw.App.quit`. Only `quitAndInstall` adds
to it, after the command and whatever became of that. -/

/-- The updater, and how often `nw.App.quit` was called. -/
structure Application (Release : Type) where
  updater : Updater Release := {}
  quits : Nat := 0

namespace Application

open Updater

variable {Release : Type}

section Source

variable (releases : String → Except Unit (Option Release)) (exeName : String)

/-- `AutoUpdaterWin.QuitAndInstall`. -/
def quitAndInstall (self : Application Release) (outcome : SpawnOutcome) : Application Release :=
  if !self.updater.updateAvailable then
    { self with
      updater := self.updater.emitError "No update available, can't quit and install" }
  else
    { updater := self.updater.processStart releases exeName outcome
      quits := self.quits + 1 }

def step (self : Application Release) : Op → Option (Application Release)
  | .quitAndInstall outcome =>
    if self.updater.inUser then some (self.quitAndInstall releases exeName outcome) else none
  | op =>
    (self.updater.step releases exeName op).map fun updater => { self with updater := updater }

end Source

/-! ## What is promised -/

/-- `processStart` is refused, or it does not start a process. -/
def Refuses (exeName : String) (s : Updater Release) (outcome : SpawnOutcome) : Prop :=
  match s.spawnedProcess with
  | some _ => s.spawnedArgs ≠ restartArgs exeName
  | none => outcome ≠ .running

/-- An `error` is emitted, or a callback that will emit one has still to be called. -/
def Reports (s t : Updater Release) : Prop :=
  (∃ message, Event.error message ∈ t.emitted.drop s.emitted.length) ∨
  (∃ e ∈ t.nextTick, e.1 ≠ .processStart) ∨
  ∃ child ∈ t.children, child.status = .failed ∧ ∃ call ∈ child.calls, call.callback ≠ .processStart

/-- What is promised of a step from `s` to `t`. -/
structure Owed (exeName : String) (s : Application Release) (op : Op) (t : Application Release) :
    Prop where
  /-- Where the application is quit the restart command is running. -/
  restarts : s.quits < t.quits → ∃ c, t.updater.Alive c (restartArgs exeName)
  refused : ∀ outcome, op = .quitAndInstall outcome → s.updater.updateAvailable = true →
    Refuses exeName s.updater outcome → t.quits = s.quits ∧ Reports s.updater t.updater

def StepOwed (releases : String → Except Unit (Option Release)) (exeName : String)
    (s : Application Release) (op : Op) : Prop :=
  ∀ t, step releases exeName s op = some t → Owed exeName s op t

/-- When `QuitAndInstall` is called with an update available, the globals have no process and
`spawn` starts one; or they have the restart command, and that was started, or another one runs. -/
def StepOk (exeName : String) (s : Application Release) : Op → Prop
  | .quitAndInstall outcome => s.updater.updateAvailable = true →
    match s.updater.spawnedProcess with
    | none => outcome = .running
    | some c => s.updater.spawnedArgs = restartArgs exeName ∧
      ((∀ child ∈ s.updater.children[c]?, child.status ≠ .failed) ∨
        ∃ d, s.updater.Alive d (restartArgs exeName))
  | _ => True

/-! ## One step

The updater's part of a step is a step of the updater, by which the invariant carries over, and the
count of quits changes with `quitAndInstall` alone. -/

section Steps

variable {releases : String → Except Unit (Option Release)} {exeName : String}
  {s t : Application Release}

/-- The machine of the updater, without the application that is quit: a step of the one is a step of
the other, and one is possible exactly if the other is. -/
theorem updater_step (releases : String → Except Unit (Option Release)) (exeName : String)
    (s : Application Release) (op : Op) :
    (step releases exeName s op).map Application.updater =
      s.updater.step releases exeName op := by
  cases op with
  | quitAndInstall outcome =>
    simp only [step, Updater.step, quitAndInstall, Updater.quitAndInstall]
    split
    · split <;> rfl
    · rfl
  | _ => exact (Option.map_map ..).trans Option.map_id'

theorem inv_step {op : Op} (h : s.updater.Inv) (hst : step releases exeName s op = some t) :
    t.updater.Inv := by
  have hupdater : s.updater.step releases exeName op = some t.updater := by
    rw [← updater_step, hst]
    rfl
  exact h.step hupdater

/-- Nothing but `QuitAndInstall` quits the application in this model, as in the updater's source. -/
theorem quits_step {op : Op} (hst : step releases exeName s op = some t)
    (hop : ∀ outcome, op ≠ .quitAndInstall outcome) : t.quits = s.quits := by
  cases op with
  | quitAndInstall outcome => exact absurd rfl (hop outcome)
  | _ =>
    obtain ⟨updater, -, rfl⟩ := Option.map_eq_some_iff.mp hst
    rfl

theorem owed_of_ne {op : Op} (hst : step releases exeName s op = some t)
    (hop : ∀ outcome, op ≠ .quitAndInstall outcome) : Owed exeName s op t := by
  refine ⟨fun hlt => ?_, fun outcome heq => absurd heq (hop outcome)⟩
  rw [quits_step hst hop] at hlt
  omega

/-- A command that is refused or gets no process is one the condition leaves out. -/
theorem StepOk.not_refuses {outcome : SpawnOutcome}
    (hok : StepOk exeName s (.quitAndInstall outcome))
    (havailable : s.updater.updateAvailable = true) : ¬ Refuses exeName s.updater outcome := by
  have hok := hok havailable
  unfold Refuses
  split at hok
  · rename_i hnone
    rw [hnone]
    exact not_not.mpr hok
  · rename_i c hsome
    rw [hsome]
    exact not_not.mpr hok.1

/-- Another restart command has its handlers added to the one that is there: the arguments of the
globals are the ones it has, so it is neither refused nor started again. -/
theorem processStart_attach {outcome : SpawnOutcome} {c : Nat}
    (hsome : s.updater.spawnedProcess = some c)
    (hargs : s.updater.spawnedArgs = restartArgs exeName) :
    s.updater.processStart releases exeName outcome = s.updater.attach c .processStart := by
  unfold processStart spawnUpdate
  rw [hsome]
  exact if_pos hargs.symm

/-- **With the condition the restart command is running after `processStart`.** Either it was just
started, or the process of the globals is an earlier restart, which by `Live` has not exited and by
the condition has not failed. -/
theorem StepOk.restarts {outcome : SpawnOutcome} (hlive : s.updater.Live)
    (hok : StepOk exeName s (.quitAndInstall outcome))
    (havailable : s.updater.updateAvailable = true) :
    ∃ c, (s.updater.processStart releases exeName outcome).Alive c (restartArgs exeName) := by
  have hok := hok havailable
  split at hok
  · rename_i hnone
    -- no process in the globals: the condition is that the new one starts
    unfold processStart spawnUpdate
    rw [hnone, hok]
    exact ⟨s.updater.children.length, _, List.getElem?_concat_length, rfl, rfl⟩
  · rename_i c hsome
    -- a process with the arguments of the restart, which is alive or next to one that is
    obtain ⟨hargs, hstarted⟩ := hok
    rw [processStart_attach hsome hargs]
    have hsame := sameChildren_attach s.updater c .processStart
    rcases hstarted with hstarted | ⟨d, hd⟩
    · obtain ⟨child, hchild, hchildArgs, hexited, -⟩ := hlive c hsome
      refine ⟨c, hsame.alive ⟨child, hchild, ?_, hchildArgs.trans hargs⟩⟩
      have hfailed := hstarted child hchild
      cases hstatus : child.status with
      | running => rfl
      | failed => exact absurd hstatus hfailed
      | exited => exact absurd hstatus hexited
    · exact ⟨d, hsame.alive hd⟩

/-- **A step is what is promised exactly when it meets `StepOk`.** Only `quitAndInstall` with an
update available has something to show; there the three outcomes of `spawnUpdate` are compared with
the condition one by one. -/
theorem owed_step_iff {op : Op} (h : s.updater.Inv) (hst : step releases exeName s op = some t) :
    Owed exeName s op t ↔ StepOk exeName s op := by
  cases op with
  | quitAndInstall outcome =>
    simp only [step, Option.ite_none_right_eq_some, Option.some.injEq] at hst
    obtain ⟨huser, rfl⟩ := hst
    have hlive := h.live_of_inUser huser
    cases havailable : s.updater.updateAvailable with
    | false =>
      refine iff_of_true ?_ ?_
      · -- without an update the call is an error and the application stays
        have hquits : (quitAndInstall releases exeName s outcome).quits = s.quits := by
          simp [quitAndInstall, havailable]
        refine ⟨fun hlt => by omega, fun _ _ hno => ?_⟩
        rw [havailable] at hno
        cases hno
      · intro hno
        rw [havailable] at hno
        cases hno
    | true =>
      have hquit : quitAndInstall releases exeName s outcome =
          { updater := s.updater.processStart releases exeName outcome
            quits := s.quits + 1 } := by
        simp [quitAndInstall, havailable]
      rw [hquit]
      constructor
      · intro howed _
        -- a refusal leaves the application running, which the quit does not
        have hrefuses : ¬ Refuses exeName s.updater outcome := by
          intro hrefuses
          have hquits := (howed.refused outcome rfl havailable hrefuses).1
          exact absurd hquits (Nat.succ_ne_self _)
        unfold Refuses at hrefuses
        split at hrefuses
        · rename_i c hsome
          rw [hsome]
          have hargs := not_not.mp hrefuses
          refine ⟨hargs, .inr ?_⟩
          obtain ⟨d, hd⟩ := howed.restarts (Nat.lt_succ_self _)
          simp only [processStart_attach hsome hargs] at hd
          -- what runs after the handlers are added ran before
          have hsame : SameProcesses s.updater (s.updater.attach c .processStart) :=
            sameProcesses_modify s.updater c
              (· ++ [({ callback := .processStart } : Call Release)])
          exact ⟨d, hsame.alive d _ hd⟩
        · rename_i hnone
          rw [hnone]
          exact not_not.mp hrefuses
      · intro hok
        refine ⟨fun _ => hok.restarts hlive havailable, fun outcome' heq _ hrefuses => ?_⟩
        cases heq
        exact absurd hrefuses (hok.not_refuses havailable)
  | _ => exact iff_of_true (owed_of_ne hst fun _ => nofun) trivial

end Steps

/-! ## Whole runs -/

/-- **Quit and install.** In a run every step is what is promised exactly when every step meets
`StepOk`. -/
theorem quit_and_install_iff (releases : String → Except Unit (Option Release)) (exeName : String)
    (ops : List Op) (s : Application Release) :
    Run (Guarded (StepOwed releases exeName) (ofPartial (step releases exeName))) {} ops s ↔
      Run (Guarded (StepOk exeName) (ofPartial (step releases exeName))) {} ops s := by
  refine Run.guarded_iff (I := fun s => s.updater.Inv) ?_ ?_ Updater.Inv.init
  · exact fun s op t h _ hst => inv_step h hst
  · intro s op t h hst
    rw [← owed_step_iff h hst]
    constructor
    · exact fun hall => hall t hst
    · intro howed u hu
      cases hst.symm.trans hu
      exact howed

/-- A check finds a release, and the application is told to quit while `--update` runs. -/
def quitEarly : List Op :=
  [.turn, .setFeedURL (some "url"), .checkForUpdates true, .return, .resume .running, .return,
    .exit 0 (some 0) none, .resume .running, .return, .resume .running, .resume .running, .turn]

/-- The restart command is refused, without an error, and the application quits: `--update` still
runs, and the callback that is given the refusal is the empty function. -/
theorem quitEarly_not_owed :
    ¬ ∀ (ops : List Op) (s : Application Unit) (op : Op),
      Run (ofPartial (step (fun _ => .ok (some ())) "app.exe")) {} ops s →
        StepOwed (fun _ => .ok (some ())) "app.exe" s op := by
  intro hall
  obtain ⟨s, hs, huser, havailable, hspawned, hargs⟩ :
      ∃ s : Application Unit,
        exec (fun _ _ => True) (step (fun _ => .ok (some ())) "app.exe") quitEarly {} = some s ∧
        s.updater.inUser = true ∧ s.updater.updateAvailable = true ∧
        s.updater.spawnedProcess = some 1 ∧
        s.updater.spawnedArgs = [some "--update", some "url"] :=
    ⟨_, rfl, rfl, rfl, rfl, rfl⟩
  have howed :=
    hall quitEarly s (.quitAndInstall .running) (Run.of_exec hs).unguard _ (if_pos huser)
  have hrefuses : Refuses "app.exe" s.updater .running := by
    unfold Refuses
    rw [hspawned, hargs]
    exact nofun
  have hquits := (howed.refused .running rfl havailable hrefuses).1
  rw [quitAndInstall, havailable] at hquits
  exact absurd hquits (Nat.succ_ne_self _)

end Application

end NodeWebkit.AutoUpdater
