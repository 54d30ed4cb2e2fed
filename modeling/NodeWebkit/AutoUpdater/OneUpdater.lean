import NodeWebkit.Lib.Run
import NodeWebkit.AutoUpdater.SpawnUpdate

/-!
# At most one updater runs

Two places change what the globals say: `spawnUpdate`, which starts a process only where they say
that none runs, and the `exit` handlers, which clear them whatever they say.

* **`Described`** — the globals describe every process that is alive, hence there is at most one;
* **`SameProcesses`** — what every other piece of the code does to processes and globals;
* **`ExitAlone`** — the condition: an exit handler runs only while no process is alive.

`one_updater` says that a run keeps `Described` exactly when each of its steps meets
`ExitAlone`; the second handler of a process breaks it, because the first one may have started
the next process.

## Where a step can go wrong

Each part of the code that a step can run has a lemma that says it keeps `Described`, whatever the
state: `Described.spawnUpdate` and the API above it, `SameProcesses.runCallback`,
`SameProcesses.onError`, `sameProcesses_unwind`. The exit handler has an equivalence instead
(`onExit_described_iff`), from which `described_step_iff` is the equivalence for a step.
-/

namespace NodeWebkit.AutoUpdater

open Lts

namespace Updater

variable {Release : Type}

/-- The process was started, with these arguments, and has not exited. -/
def Alive (s : Updater Release) (c : Nat) (args : List Arg) : Prop :=
  ∃ child, s.children[c]? = some child ∧ child.status = .running ∧ child.args = args

/-- The globals describe every process that is alive. -/
def Described (s : Updater Release) : Prop :=
  ∀ c args, s.Alive c args → s.spawnedProcess = some c ∧ s.spawnedArgs = args

/-- At most one `Update.exe` is alive, and if one is the globals describe it. -/
def OneUpdater (s : Updater Release) : Prop :=
  (∀ c d args args', s.Alive c args → s.Alive d args' → c = d) ∧ s.Described

/-- There is one child in the globals, so what they describe is one process: the first half of the
property follows from the second. -/
theorem oneUpdater_iff_described {s : Updater Release} : s.OneUpdater ↔ s.Described := by
  refine ⟨fun h => h.2, fun h => ⟨?_, h⟩⟩
  intro c d args args' hc hd
  have hc' := (h c args hc).1
  rw [(h d args' hd).1] at hc'
  exact (Option.some.inj hc').symm

/-- An exit handler is the next thing to run. -/
def exitHandlerNext : List (Frame Release) → Bool
  | .exitHandlers _ _ _ (_ :: _) :: _ => true
  | _ => false

/-- The condition on a step, on the state before it: an exit handler runs only while no process
is alive. -/
def ExitAlone (s : Updater Release) : Op → Prop
  | .resume _ => exitHandlerNext s.stack = true → ∀ c ∈ s.children, c.status ≠ .running
  | _ => True

instance (s : Updater Release) : (op : Op) → Decidable (s.ExitAlone op)
  | .resume _ => inferInstanceAs (Decidable (exitHandlerNext s.stack = true →
      ∀ c ∈ s.children, c.status ≠ .running))
  | .turn | .setFeedURL _ | .checkForUpdates _ | .quitAndInstall _ | .return | .throw _ | .tick
  | .exit _ _ _ | .error _ _ | .stdoutData _ _ | .stderrData _ _ =>
    inferInstanceAs (Decidable True)

/-! ## Code that leaves the processes alone -/

/-- The globals stay, and what is alive afterwards was alive before. -/
structure SameProcesses (s t : Updater Release) : Prop where
  process : t.spawnedProcess = s.spawnedProcess
  args : t.spawnedArgs = s.spawnedArgs
  alive : ∀ c args, t.Alive c args → s.Alive c args

theorem SameProcesses.of_eq {s t : Updater Release} (hp : t.spawnedProcess = s.spawnedProcess)
    (ha : t.spawnedArgs = s.spawnedArgs) (hc : t.children = s.children) : SameProcesses s t := by
  refine ⟨hp, ha, ?_⟩
  rintro c args ⟨child, hchild, hrest⟩
  exact ⟨child, hc ▸ hchild, hrest⟩

/-- **Code that leaves the processes alone keeps the description.** Fewer processes may be alive
than before, and the globals say what they said. -/
theorem SameProcesses.described {s t : Updater Release} (h : SameProcesses s t)
    (hs : s.Described) : t.Described := by
  intro c args hc
  rw [h.process, h.args]
  exact hs c args (h.alive c args hc)

theorem SameProcesses.trans {s t u : Updater Release} (h1 : SameProcesses s t)
    (h2 : SameProcesses t u) : SameProcesses s u :=
  ⟨h2.process.trans h1.process, h2.args.trans h1.args,
    fun c args hc => h1.alive c args (h2.alive c args hc)⟩

/-- Changes to the calls of a child, not to its status or arguments. -/
theorem sameProcesses_modify (s : Updater Release) (k : Nat)
    (f : List (Call Release) → List (Call Release)) :
    SameProcesses s { s with
      children := s.children.modify k fun c => { c with calls := f c.calls } } := by
  refine ⟨rfl, rfl, ?_⟩
  rintro c args ⟨child, hchild, hrun, hargs⟩
  simp only [List.getElem?_modify] at hchild
  obtain ⟨old, hold, heq⟩ := Option.map_eq_some_iff.mp hchild
  refine ⟨old, hold, ?_⟩
  split at heq
  · subst heq
    exact ⟨hrun, hargs⟩
  · subst heq
    exact ⟨hrun, hargs⟩

/-- A callback emits at most one event, which pushes a frame and nothing else; the callback of a
download may also start `--update`, but only in the frame below, when its listeners have returned.
-/
theorem runCallback_processes (releases : String → Except Unit (Option Release))
    (s : Updater Release) (callback : Callback Release) (error : Option String) (stdout : String) :
    let t := s.runCallback releases callback error stdout
    t.spawnedProcess = s.spawnedProcess ∧ t.spawnedArgs = s.spawnedArgs ∧
      t.children = s.children := by
  cases callback with
  | processStart => exact ⟨rfl, rfl, rfl⟩
  | download =>
    cases error with
    | some e => exact ⟨rfl, rfl, rfl⟩
    | none =>
      unfold runCallback
      dsimp only
      split
      · exact ⟨rfl, rfl, rfl⟩
      · exact ⟨rfl, rfl, rfl⟩
      · exact ⟨rfl, rfl, rfl⟩
  | update release =>
    cases error with
    | some e => exact ⟨rfl, rfl, rfl⟩
    | none => exact ⟨rfl, rfl, rfl⟩

theorem SameProcesses.runCallback {s t : Updater Release} (h : SameProcesses s t)
    (releases : String → Except Unit (Option Release)) (callback : Callback Release)
    (error : Option String) (stdout : String) :
    SameProcesses s (t.runCallback releases callback error stdout) := by
  obtain ⟨hp, ha, hc⟩ := runCallback_processes releases t callback error stdout
  exact h.trans (.of_eq hp ha hc)

/-- An exception changes the stack and the tick queue only. Induction on the frames that it leaves.
-/
theorem sameProcesses_unwind (error : String) (s : Updater Release) (below : List (Frame Release)) :
    SameProcesses s (s.unwind error below) := by
  induction below with
  | nil => exact .of_eq rfl rfl rfl
  | cons frame below ih =>
    cases frame with
    | user => exact .of_eq rfl rfl rfl
    | inTry callback => exact .of_eq rfl rfl rfl
    -- no frame but these two catches
    | afterChecking => exact ih
    | afterAvailable release => exact ih
    | exitHandlers c code signal calls => exact ih
    | errorHandlers c e calls => exact ih

/-- An `error` handler marks its call and calls the callback. It does not clear the globals, which
is why it needs no condition. -/
theorem SameProcesses.onError {s t : Updater Release} (h : SameProcesses s t)
    (releases : String → Except Unit (Option Release)) (child k : Nat) (error : String) :
    SameProcesses s (t.onError releases child k error) := by
  unfold Updater.onError
  split
  · exact h
  · refine SameProcesses.runCallback (h.trans ?_) releases _ _ _
    exact sameProcesses_modify t child fun calls =>
      calls.modify k fun call => { call with errorEmitted := true }

/-! ## `spawnUpdate` -/

/-- A call with the arguments of the process that is alive attaches to it, a call with others is
refused; neither starts a process. -/
theorem spawnUpdate_alive (releases : String → Except Unit (Option Release))
    {s : Updater Release} (h : s.Described) {c : Nat} {live : List Arg} (hc : s.Alive c live)
    (args : List Arg) (detached : Bool) (callback : Callback Release) (outcome : SpawnOutcome) :
    s.spawnUpdate releases args detached callback outcome =
      if args = live then s.attach c callback
      else runCallback releases { s with stack := .inTry callback :: s.stack } callback
        (some ("AutoUpdater process with arguments " ++ argsText args ++ " is already running"))
        "" := by
  obtain ⟨hproc, hargs⟩ := h c live hc
  unfold spawnUpdate
  rw [hproc, hargs]

/-- **`spawnUpdate` keeps the description.** With a process in the globals it starts none; without
one nothing is alive, and what it starts is what it writes into the globals. -/
theorem Described.spawnUpdate {s : Updater Release} (h : s.Described)
    (releases : String → Except Unit (Option Release)) (args : List Arg) (detached : Bool)
    (callback : Callback Release) (outcome : SpawnOutcome) :
    (s.spawnUpdate releases args detached callback outcome).Described := by
  unfold Updater.spawnUpdate
  split
  · split
    · exact (sameProcesses_modify s _ (· ++ [{ callback := callback }])).described h
    · refine SameProcesses.described (.runCallback ?_ releases _ _ _) h
      exact .of_eq rfl rfl rfl
  · rename_i hnone
    -- nothing is alive, since the globals would describe it
    have hdead : ∀ c live, ¬ s.Alive c live := by
      intro c live hc
      have := (h c live hc).1
      rw [hnone] at this
      cases this
    -- so what is alive afterwards is the new process
    have hnew : ∀ (status : Status) (c : Nat) (live : List Arg) (child : Child Release),
        (s.children ++ [⟨status, args, detached, [{ callback }]⟩])[c]? = some child →
        child.status = .running → child.args = live →
          c = s.children.length ∧ live = args ∧ status = .running := by
      intro status c live child hchild hrun hlive
      rw [List.getElem?_append] at hchild
      split at hchild
      · exact absurd ⟨child, hchild, hrun, hlive⟩ (hdead c live)
      · rw [List.getElem?_singleton] at hchild
        split at hchild
        · cases hchild
          refine ⟨by omega, hlive.symm, hrun⟩
        · cases hchild
    split
    · exact (SameProcesses.of_eq rfl rfl rfl : SameProcesses s _).described h
    · rintro c live ⟨child, hchild, hrun, hlive⟩
      have := (hnew .failed c live child hchild hrun hlive).2.2
      cases this
    · rintro c live ⟨child, hchild, hrun, hlive⟩
      obtain ⟨rfl, rfl, -⟩ := hnew .running c live child hchild hrun hlive
      exact ⟨rfl, rfl⟩

/-! ## Exit handlers -/

/-- An exit handler clears the globals and leaves the processes as they are: whether its own process
is the one of the globals is not asked. The callback that it calls does not change them back, as
anything it starts comes in a later step. -/
theorem onExit_spec (releases : String → Except Unit (Option Release)) (s : Updater Release)
    (child k : Nat) (code : Option Int) (signal : Option String) :
    (s.onExit releases child k code signal).spawnedProcess = none ∧
      (s.onExit releases child k code signal).children = s.children := by
  -- the process is forgotten before the callback is run
  have hcallback : ∀ callback error stdout,
      let cleared : Updater Release := { s with
        spawnedProcess := none
        spawnedArgs := [] }
      (cleared.runCallback releases callback error stdout).spawnedProcess = none ∧
        (cleared.runCallback releases callback error stdout).children = s.children := by
    intro callback error stdout cleared
    obtain ⟨hp, -, hc⟩ := runCallback_processes releases cleared callback error stdout
    exact ⟨hp, hc⟩
  unfold onExit
  dsimp only
  split
  · exact ⟨rfl, rfl⟩
  · split
    · exact ⟨rfl, rfl⟩
    · split
      · exact hcallback _ _ _
      · exact hcallback _ _ _

/-- Clearing the globals is right exactly when no process is alive. -/
theorem onExit_described_iff (releases : String → Except Unit (Option Release))
    (s : Updater Release) (child k : Nat) (code : Option Int) (signal : Option String) :
    (s.onExit releases child k code signal).Described ↔
      ∀ c ∈ s.children, c.status ≠ .running := by
  obtain ⟨hp, hc⟩ := onExit_spec releases s child k code signal
  constructor
  · intro h c hmem hrun
    -- a live process would have to be described by globals that are null
    obtain ⟨i, hi⟩ := List.mem_iff_getElem?.mp hmem
    have hspawned := (h i c.args ⟨c, hc ▸ hi, hrun, rfl⟩).1
    rw [hp] at hspawned
    cases hspawned
  · rintro hdead i args ⟨c, hi, hrun, -⟩
    rw [hc] at hi
    exact absurd hrun (hdead c (List.mem_of_getElem? hi))

/-! ## One step -/

section Steps

variable {releases : String → Except Unit (Option Release)} {exeName : String}

theorem Described.quitAndInstall {s : Updater Release} (h : s.Described)
    (outcome : SpawnOutcome) : (s.quitAndInstall releases exeName outcome).Described := by
  unfold Updater.quitAndInstall
  split
  · exact (SameProcesses.of_eq rfl rfl rfl : SameProcesses s _).described h
  · exact h.spawnUpdate releases _ true .processStart outcome

/-- `checkForUpdates` only emits; its download is started by the frame it leaves on the stack. -/
theorem Described.checkForUpdates {s : Updater Release} (h : s.Described) (supported : Bool) :
    (s.checkForUpdates supported).Described := by
  unfold Updater.checkForUpdates
  split
  · exact (SameProcesses.of_eq rfl rfl rfl : SameProcesses s _).described h
  · split
    · exact (SameProcesses.of_eq rfl rfl rfl : SameProcesses s _).described h
    · exact (SameProcesses.of_eq rfl rfl rfl : SameProcesses s _).described h

/-- Code below an event runs on: only an exit handler may break what the globals say. -/
theorem described_resume_iff {s : Updater Release} {frame : Frame Release}
    {below : List (Frame Release)} (h : s.Described) (hstack : s.stack = frame :: below)
    (outcome : SpawnOutcome) :
    ({ s with stack := below }.resume releases outcome frame).Described ↔
      (exitHandlerNext (frame :: below) = true → ∀ c ∈ s.children, c.status ≠ .running) := by
  have hbelow : ({ s with stack := below } : Updater Release).Described :=
    (SameProcesses.of_eq rfl rfl rfl : SameProcesses s _).described h
  cases frame with
  | user => exact iff_of_true hbelow (by rintro ⟨⟩)
  | inTry callback => exact iff_of_true hbelow (by rintro ⟨⟩)
  | afterChecking =>
    exact iff_of_true (hbelow.spawnUpdate releases _ false .download outcome)
      (by rintro ⟨⟩)
  | afterAvailable release =>
    exact iff_of_true (hbelow.spawnUpdate releases _ false (.update release) outcome)
      (by rintro ⟨⟩)
  | errorHandlers child error calls =>
    refine iff_of_true ?_ (by rintro ⟨⟩)
    -- an `error` handler leaves the globals alone, an `exit` handler clears them
    cases calls with
    | nil => exact hbelow
    | cons k rest =>
      refine SameProcesses.described (.onError ?_ releases child k error) hbelow
      exact .of_eq rfl rfl rfl
  | exitHandlers child code signal calls =>
    cases calls with
    | nil => exact iff_of_true hbelow (by rintro ⟨⟩)
    | cons k rest =>
      show (Updater.onExit releases _ child k code signal).Described ↔ _
      rw [onExit_described_iff]
      exact ⟨fun hdead _ => hdead, fun hall => hall rfl⟩

/-- Only code that runs on may break what the globals say: a turn, the API, an exception, a tick and
the events of a child start no process past `spawnUpdate` and clear no globals. -/
theorem Described.step {s t : Updater Release} {op : Op} (h : s.Described)
    (hst : Updater.step releases exeName s op = some t) (hop : ∀ outcome, op ≠ .resume outcome) :
    t.Described := by
  have hsame : ∀ {t}, SameProcesses s t → t.Described := fun hs => hs.described h
  cases stepped_of_step hst with
  | turn | setFeedURL | «return» | error => exact hsame (.of_eq rfl rfl rfl)
  | checkForUpdates supported => exact h.checkForUpdates supported
  | quitAndInstall outcome => exact h.quitAndInstall outcome
  | throw error => exact hsame (sameProcesses_unwind error s _)
  | resume outcome => exact absurd rfl (hop outcome)
  | tick =>
    refine hsame (.runCallback ?_ releases _ _ _)
    exact .of_eq rfl rfl rfl
  | exit =>
    -- the process has exited; its handlers run later, as steps of their own
    refine hsame ⟨rfl, rfl, ?_⟩
    rintro i args ⟨ci, hi, hrun, hargs⟩
    rw [List.getElem?_set] at hi
    split at hi
    · split at hi
      · cases hi
        cases hrun
      · cases hi
    · exact ⟨ci, hi, hrun, hargs⟩
  | stdoutData child data | stderrData child data =>
    exact hsame (sameProcesses_modify s child (List.map _))

/-- **A step keeps the globals right exactly when it meets `ExitAlone`.** For `resume` this is the
equivalence for the frame that runs, for every other step both sides hold. -/
theorem described_step_iff {s t : Updater Release} {op : Op} (h : s.Described)
    (hst : step releases exeName s op = some t) : t.Described ↔ s.ExitAlone op := by
  cases op with
  | resume outcome =>
    cases stepped_of_step hst with
    | resume _ hframe hstack =>
      rw [described_resume_iff h hstack outcome, ← hstack]
      exact Iff.rfl
  | _ => exact iff_of_true (h.step hst (fun _ => nofun)) trivial

/-! ## Whole runs -/

theorem described_init : ({} : Updater Release).Described := by
  rintro c args ⟨child, hchild, -⟩
  simp at hchild

/-- **At most one updater runs.** In a run, every state reached has at most one `Update.exe` alive
and globals that describe it, exactly when an exit handler never runs while a process is alive.
In such a run a command with the arguments of the live process attaches to it, and a command with
other arguments is refused. -/
theorem one_updater (ops : List Op) (s : Updater Release) :
    (Run (Guarded (fun s op => ∀ t, step releases exeName s op = some t → t.OneUpdater)
        (ofPartial (step releases exeName))) {} ops s ↔
      Run (Guarded ExitAlone (ofPartial (step releases exeName))) {} ops s) ∧
    (Run (Guarded ExitAlone (ofPartial (step releases exeName))) {} ops s →
      ∀ c live, s.Alive c live → ∀ args detached callback outcome,
        (args = live → s.spawnUpdate releases args detached callback outcome =
          s.attach c callback) ∧
        (args ≠ live → s.spawnUpdate releases args detached callback outcome =
          runCallback releases { s with stack := .inTry callback :: s.stack } callback
            (some ("AutoUpdater process with arguments " ++ argsText args ++
              " is already running")) "")) := by
  -- the step lemma in the form in which a run takes it
  have hkeep : ∀ s op t, Described s → ExitAlone s op →
      ofPartial (step releases exeName) s op t → Described t :=
    fun _ _ _ hs hok hst => (described_step_iff hs hst).mpr hok
  constructor
  · symm
    refine Run.guarded_iff hkeep ?_ described_init
    intro s op t hs hst
    constructor
    · intro hok t' hst'
      exact oneUpdater_iff_described.mpr ((described_step_iff hs hst').mpr hok)
    · intro hall
      exact (described_step_iff hs hst).mp (oneUpdater_iff_described.mp (hall t hst))
  · intro hrun c live hc args detached callback outcome
    have hs : s.Described :=
      hrun.invariant (I := Described) (fun _ _ _ hs hst => hkeep _ _ _ hs hst.1 hst.2)
        described_init
    have heq := spawnUpdate_alive releases hs hc args detached callback outcome
    refine ⟨fun hargs => ?_, fun hargs => ?_⟩
    · rw [heq, if_pos hargs]
    · rw [heq, if_neg hargs]

end Steps

/-! ## Runs of the whole updater

The output of every download lists one release here. -/

/-- One check, up to the start of `--update` by the exit handler of its download. -/
def oneCheck : List Op :=
  [.turn, .setFeedURL (some "url"), .checkForUpdates true, .return, .resume .running, .return,
    .exit 0 (some 0) none, .resume .running, .return, .resume .running, .resume .running]

/-- Two checks share a download, and the exit handlers of both find its release. -/
def twoChecks : List Op :=
  [.turn, .setFeedURL (some "url"), .checkForUpdates true, .return, .resume .running,
    .checkForUpdates true, .return, .resume .running, .return,
    .exit 0 (some 0) none, .resume .running, .return, .resume .running,
    .resume .running, .return, .resume .running]

/-- The check goes through: the download has exited when its handler starts `--update`, and a
further `--update` with the same URL attaches to the process that runs. -/
theorem one_updater_oneCheck :
    ∃ s : Updater Unit, Run (Guarded
        (fun s op => ∀ t, step (fun _ => .ok (some ())) "app.exe" s op = some t → t.OneUpdater)
        (ofPartial (step (fun _ => .ok (some ())) "app.exe"))) {} oneCheck s ∧
      s.Alive 1 [some "--update", some "url"] ∧
      s.spawnUpdate (fun _ => .ok (some ())) [some "--update", some "url"] false (.update ())
        .running = s.attach 1 (.update ()) := by
  obtain ⟨s, hs⟩ : ∃ s : Updater Unit,
      exec ExitAlone (step (fun _ => .ok (some ())) "app.exe") oneCheck {} = some s ∧
        s.Alive 1 [some "--update", some "url"] := ⟨_, rfl, _, rfl, rfl, rfl⟩
  have hrun := Run.of_exec hs.1
  obtain ⟨hiff, hattach⟩ := @one_updater Unit (fun _ => .ok (some ())) "app.exe" oneCheck s
  exact ⟨s, hiff.mpr hrun, hs.2,
    (hattach hrun 1 _ hs.2 [some "--update", some "url"] false (.update ()) .running).1 rfl⟩

/-- Both handlers start `--update`: the second one clears the globals that describe the process
the first one started, so its own call starts another. -/
theorem twoChecks_two_alive :
    ¬ (∀ (ops : List Op) (s : Updater Unit),
      Run (ofPartial (step (fun _ => .ok (some ())) "app.exe")) {} ops s → s.OneUpdater) := by
  intro h
  obtain ⟨s, hs, h1, h2⟩ : ∃ s : Updater Unit,
      exec (fun _ _ => True) (step (fun _ => .ok (some ())) "app.exe") twoChecks {} = some s ∧
        s.Alive 1 [some "--update", some "url"] ∧ s.Alive 2 [some "--update", some "url"] :=
    ⟨_, rfl, ⟨_, rfl, rfl, rfl⟩, ⟨_, rfl, rfl, rfl⟩⟩
  have honly := (h twoChecks s (Run.of_exec hs).unguard).1 1 2 _ _ h1 h2
  cases honly

end Updater

end NodeWebkit.AutoUpdater
