import NodeWebkit.MediaRecorder.Script

/-!
# The tables of the MediaRecorder objects agree

## What is asked

* **`Agree`** — the table of the page, the states of its objects and the native map, after a step of
  the page that leaves no handler running;
* **`Served`** — what a step owes: a `stop` on a recording returns, an event of a recording finds
  its object;
* **`StepOk`** — the condition on a step.

## The invariant

The tables agree only between handlers, and the events of a sink outlive it, so an invariant that
holds after every step has to say where the rest of a recording is. **`Inv`** counts the recordings
of an id that are not over: the sink in `mrsMap`, the released sinks, the Stop events that wait.
There is one exactly while the object is not inactive, so no event waits for an object that is, and
a handler that starts the object again during its Stop event starts the only one.

Each call and each event has a lemma of its own; `Inv.step` puts them together and `script_agrees`
is the statement about runs.
-/

namespace NodeWebkit.MediaRecorder

open Lts

namespace Page

/-- The three tables say the same about every object. -/
structure Agree (w : Page) : Prop where
  objs : ∀ id, id ∈ w.objs ↔ w.state id ≠ .inactive
  mrsMap : ∀ id, id ∈ w.mrsMap ↔ StartedNotStopped w.returned id

/-- A `stop` on a recording does not throw, whether it is the first one or not; the object of a
data or Stop event that is dispatched is found. -/
def Served (w : Page) : Op → Prop
  | .call id .stop => w.state id ≠ .inactive → (w.stop id).2 = none
  | .dispatch _ _ => ∀ event ∈ w.queue.head?, event.name = .data ∨ event.name = .stop →
      event.id ∈ w.objs
  | _ => True

/-- The condition on a step, on the state before it: a `start` that registers the object goes
through (in the handlers of the Stop event of the object it need not), `stop` is called on a
recording only until it is under way, and the Stop listener comes to its end with the object still
inactive and is left by a throw only with the object started again. -/
def StepOk (w : Page) : Op → Prop
  | .call id (.start args) => w.state id = .inactive → args = .urlThrows ∨ args = .streamsNull →
      w.stopOf = some id
  | .call id .stop => w.state id ≠ .inactive → id ∈ w.mrsMap
  | .handlerReturns onstop => ∀ id ∈ w.stopOf,
      w.running = some (.stopData id) ∧ onstop = true ∨ w.state id = .inactive
  | .handlerThrows => ∀ id ∈ w.stopOf, w.state id ≠ .inactive
  | _ => True

instance (w : Page) : DecidablePred w.StepOk
  | .call id (.start args) => inferInstanceAs (Decidable (w.state id = .inactive →
      args = .urlThrows ∨ args = .streamsNull → w.stopOf = some id))
  | .call id .stop => inferInstanceAs (Decidable (w.state id ≠ .inactive → id ∈ w.mrsMap))
  | .handlerReturns onstop => inferInstanceAs (Decidable (∀ id ∈ w.stopOf,
      w.running = some (.stopData id) ∧ onstop = true ∨ w.state id = .inactive))
  | .handlerThrows => inferInstanceAs (Decidable (∀ id ∈ w.stopOf, w.state id ≠ .inactive))
  | .call _ .pause | .call _ .resume | .call _ .requestData => inferInstanceAs (Decidable True)
  | .sinkEvent _ _ | .sinkStopped _ | .dispatch _ _ => inferInstanceAs (Decidable True)

/-- The recordings of an object that are not over. -/
def sessions (w : Page) (id : Nat) : Nat :=
  (if id ∈ w.mrsMap then 1 else 0) + w.stopping.count id + w.queue.count ⟨id, .stop⟩

/-- A Stop event is the last one of its object in the queue. -/
def StopLast (queue : List Event) : Prop :=
  queue.Pairwise fun e e' => e.name = .stop → e'.id ≠ e.id

structure Inv (w : Page) : Prop where
  sessions : ∀ id, w.sessions id = if w.state id = .recording then 1 else 0
  posted : ∀ event ∈ w.queue, w.state event.id = .recording
  stopLast : StopLast w.queue
  objs : ∀ id, id ∈ w.objs ↔ w.state id = .recording ∨ w.stopOf = some id
  mrsMap : ∀ id, id ∈ w.mrsMap ↔ StartedNotStopped w.returned id

theorem Inv.init : Inv {} := by
  refine ⟨fun _ => rfl, ?_, List.Pairwise.nil, fun id => ?_, fun id => ?_⟩
  · intro event hmem
    cases hmem
  · simp [stopOf]
  · simp [StartedNotStopped]

theorem ne_inactive_iff {state : RecordingState} : state ≠ .inactive ↔ state = .recording := by
  cases state <;> decide

/-- **Between two handlers the invariant is the agreement.** No Stop listener is running then, so
the registered objects are those that are not inactive. -/
theorem Inv.agree {w : Page} (h : w.Inv) (hidle : w.running = none) : w.Agree := by
  refine ⟨fun id => ?_, h.mrsMap⟩
  rw [h.objs id, stopOf, hidle, ne_inactive_iff]
  simp

/-- A sink that is there, released or not, belongs to a recording whose Stop event is not posted. -/
theorem Inv.live {w : Page} (h : w.Inv) {id : Nat} (hlive : id ∈ w.mrsMap ∨ id ∈ w.stopping) :
    w.state id = .recording ∧ ⟨id, .stop⟩ ∉ w.queue := by
  have hsessions := h.sessions id
  have hpos : 1 ≤ (if id ∈ w.mrsMap then 1 else 0) + w.stopping.count id := by
    rcases hlive with hmem | hmem
    · rw [if_pos hmem]
      omega
    · have := List.count_pos_iff.mpr hmem
      omega
  have hstate : w.state id = .recording := by
    by_contra hne
    rw [Page.sessions, if_neg hne] at hsessions
    omega
  refine ⟨hstate, fun hmem => ?_⟩
  have := List.count_pos_iff.mpr hmem
  rw [Page.sessions, if_pos hstate] at hsessions
  omega

/-! ## Calls -/

/-- An event of a live sink is posted, its last one or not. No Stop event of the sink waits, so the
new event has nothing behind which it must not stand. -/
theorem StopLast.append {queue : List Event} (h : StopLast queue) {event : Event}
    (hnone : ⟨event.id, .stop⟩ ∉ queue) : StopLast (queue ++ [event]) := by
  apply List.pairwise_append.mpr
  refine ⟨h, List.pairwise_singleton _ _, ?_⟩
  intro e hmem e' hmem' hstop heq
  rw [List.mem_singleton.mp hmem'] at heq
  apply hnone
  rw [heq, ← hstop]
  exact hmem

/-- **A live sink posts an event** that is not its last one. Its object is recording, so the event
finds it, and the count of Stop events stays what it was. -/
theorem Inv.post {w : Page} (h : w.Inv) {id : Nat} (hlive : id ∈ w.mrsMap ∨ id ∈ w.stopping)
    {name : EventName} (hname : name ≠ .stop) :
    Inv { w with queue := w.queue ++ [⟨id, name⟩] } := by
  obtain ⟨hstate, hnone⟩ := h.live hlive
  refine ⟨fun id' => ?_, ?_, h.stopLast.append hnone, h.objs, h.mrsMap⟩
  · -- an event that is no Stop event is not counted
    have hcount :
        (w.queue ++ [Event.mk id name]).count ⟨id', .stop⟩ = w.queue.count ⟨id', .stop⟩ := by
      have hnone : [Event.mk id name].count ⟨id', .stop⟩ = 0 := by
        apply List.count_eq_zero.mpr
        intro hmem
        rw [List.mem_singleton, Event.mk.injEq] at hmem
        exact hname hmem.2.symm
      rw [List.count_append, hnone, Nat.add_zero]
    show _ + (w.queue ++ [Event.mk id name]).count ⟨id', .stop⟩ = _
    rw [hcount]
    exact h.sessions id'
  · intro event hmem
    rcases List.mem_append.mp hmem with hmem | hmem
    · exact h.posted event hmem
    · rw [List.mem_singleton.mp hmem]
      exact hstate

/-- One more call that has returned. Only a `start` or `stop` of the same object decides anew
whether it is started and not stopped; every other call leaves the decision to those before it. -/
theorem startedNotStopped_cons (returned : List (Nat × Call)) (id id' : Nat) (c : Call) :
    StartedNotStopped ((id, c) :: returned) id' ↔
      if id = id' ∧ c.isStartOrStop = true then ∃ args, c = .start args
      else StartedNotStopped returned id' := by
  unfold StartedNotStopped
  rw [List.find?_cons]
  by_cases hid : id = id' ∧ c.isStartOrStop = true
  · obtain ⟨rfl, hc⟩ := hid
    simp [hc]
  · rw [if_neg hid]
    have hfalse : (decide (id = id') && c.isStartOrStop) = false := by
      simpa using hid
    simp only [hfalse]

/-- A call that returns and is neither a start nor a stop is not looked at. -/
theorem Inv.noted {w : Page} (h : w.Inv) (id : Nat) {c : Call} (hc : c.isStartOrStop = false) :
    Inv { w with returned := (id, c) :: w.returned } := by
  refine ⟨h.sessions, h.posted, h.stopLast, h.objs, fun id' => ?_⟩
  show _ ↔ StartedNotStopped ((id, c) :: w.returned) id'
  rw [startedNotStopped_cons, hc]
  simpa using h.mrsMap id'

/-- A `start` that goes through, from `inactive`: there is no recording of the object yet. -/
theorem Inv.started {w : Page} (h : w.Inv) {id : Nat} (hstate : w.state id = .inactive)
    (args : StartArgs) :
    Inv { w with
      objs := insert id w.objs
      mrsMap := insert id w.mrsMap
      state := Function.update w.state id .recording
      returned := (id, .start args) :: w.returned } := by
  -- an inactive object has no sink on its way out and no Stop event in the queue
  have hzero : w.stopping.count id + w.queue.count ⟨id, .stop⟩ = 0 := by
    have hsessions := h.sessions id
    rw [Page.sessions, hstate, if_neg (show ¬RecordingState.inactive = .recording by decide)]
      at hsessions
    omega
  refine ⟨fun id' => ?_, ?_, h.stopLast, fun id' => ?_, fun id' => ?_⟩
  · show (if id' ∈ insert id w.mrsMap then 1 else 0) + w.stopping.count id' +
        w.queue.count ⟨id', .stop⟩ =
      if Function.update w.state id .recording id' = .recording then 1 else 0
    by_cases hid : id' = id
    · subst hid
      rw [if_pos (Finset.mem_insert_self ..), Function.update_self, if_pos rfl]
      omega
    · rw [Function.update_of_ne hid, ← h.sessions id']
      simp only [Page.sessions, Finset.mem_insert, hid, false_or]
  · intro event hmem
    show Function.update w.state id .recording event.id = .recording
    by_cases hid : event.id = id
    · rw [hid, Function.update_self]
    · rw [Function.update_of_ne hid]
      exact h.posted event hmem
  · show id' ∈ insert id w.objs ↔
      Function.update w.state id .recording id' = .recording ∨ _
    by_cases hid : id' = id
    · subst hid
      simp
    · rw [Finset.mem_insert, or_iff_right hid, Function.update_of_ne hid]
      exact h.objs id'
  · show id' ∈ insert id w.mrsMap ↔ StartedNotStopped ((id, .start args) :: w.returned) id'
    rw [startedNotStopped_cons, Finset.mem_insert]
    by_cases hid : id' = id
    · subst hid
      simp [Call.isStartOrStop]
    · rw [if_neg (fun hc => hid hc.1.symm), or_iff_right hid]
      exact h.mrsMap id'

/-- A `stop` that reaches the sink: the recording is still there, on its way out. -/
theorem Inv.stopped {w : Page} (h : w.Inv) {id : Nat} (hmem : id ∈ w.mrsMap) :
    Inv { w with
      mrsMap := w.mrsMap.erase id
      stopping := id :: w.stopping
      returned := (id, .stop) :: w.returned } := by
  refine ⟨fun id' => ?_, h.posted, h.stopLast, h.objs, fun id' => ?_⟩
  · show (if id' ∈ w.mrsMap.erase id then 1 else 0) + (id :: w.stopping).count id' +
      w.queue.count ⟨id', .stop⟩ = _
    rw [← h.sessions id', Page.sessions]
    -- the sink of this object is gone from the map and one more is released
    by_cases hid : id' = id
    · subst hid
      have hnone : id' ∉ w.mrsMap.erase id' := Finset.notMem_erase id' w.mrsMap
      rw [if_pos hmem, if_neg hnone, List.count_cons_self]
      omega
    · rw [List.count_cons_of_ne (Ne.symm hid)]
      simp only [Finset.mem_erase, ne_eq, hid, not_false_eq_true, true_and]
  · show id' ∈ w.mrsMap.erase id ↔ StartedNotStopped ((id, .stop) :: w.returned) id'
    rw [startedNotStopped_cons, Finset.mem_erase]
    by_cases hid : id' = id
    · subst hid
      simp [Call.isStartOrStop]
    · rw [if_neg (fun hc => hid hc.1.symm), and_iff_right hid]
      exact h.mrsMap id'

/-- The calls that only reach the sink of the object: `pause`, `resume` and `requestData` change no
table, and what the sink posts is not its last event. -/
theorem Inv.nativeCall {w : Page} (h : w.Inv) {id : Nat} {posted : Option EventName}
    (hposted : posted ≠ some .stop) : Inv (w.nativeCall id posted).1 := by
  unfold Page.nativeCall
  split
  · rename_i hmem
    cases posted with
    | none =>
      show Inv { w with queue := w.queue ++ [] }
      rw [List.append_nil]
      exact h
    | some name => exact h.post (Or.inl hmem) (fun hname => hposted (congrArg some hname))
  · exact h

/-- `start` of an object that is inactive and has no sink. What it comes to depends on how far its
arguments get, and each of the places where it can throw leaves more of the tables behind. -/
theorem start_eq {w : Page} {id : Nat} (hstate : w.state id = .inactive) (hsink : id ∉ w.mrsMap)
    (args : StartArgs) :
    w.start id args =
      match args with
      | .optionThrows => (w, some .typeError)
      | .urlThrows => ({ w with objs := insert id w.objs }, some .typeError)
      | .streamsNull => ({ w with objs := insert id w.objs }, some .streamsNull)
      | .stream =>
        ({ w with
          objs := insert id w.objs
          mrsMap := insert id w.mrsMap
          state := Function.update w.state id .recording }, none) := by
  cases args <;> simp [Page.start, nativeStart, setState, hstate, hsink]

/-- **`start` keeps the invariant.** On a recording object it throws at once. On an inactive one the
condition rules out the throws that leave the object registered without a sink, unless it is
registered anyway because its Stop event is just being handled. -/
theorem Inv.afterStart {w : Page} (h : w.Inv) {id : Nat} {args : StartArgs}
    (hok : w.StepOk (.call id (.start args))) : Inv (w.afterCall id (.start args)) := by
  rw [Page.afterCall, show w.call id (.start args) = w.start id args from rfl]
  by_cases hstate : w.state id = .inactive
  · have hsink : id ∉ w.mrsMap := by
      intro hmem
      have hrecording := (h.live (Or.inl hmem)).1
      rw [hstate] at hrecording
      cases hrecording
    -- in the handlers of its Stop event the object is registered already
    have hregistered : args = .urlThrows ∨ args = .streamsNull → insert id w.objs = w.objs :=
      fun hargs => Finset.insert_eq_of_mem ((h.objs id).mpr (Or.inr (hok hstate hargs)))
    rw [start_eq hstate hsink]
    cases args with
    | optionThrows => exact h
    | urlThrows =>
      dsimp only
      rw [hregistered (Or.inl rfl)]
      exact h
    | streamsNull =>
      dsimp only
      rw [hregistered (Or.inr rfl)]
      exact h
    | stream => exact h.started hstate .stream
  · have heq : w.start id args = (w, some .invalidState) := if_pos hstate
    rw [heq]
    exact h

/-- **`stop` keeps the invariant.** On an inactive object it throws. On a recording one the
condition gives the sink, which goes from `mrsMap` to the released ones and is counted there. -/
theorem Inv.afterStop {w : Page} (h : w.Inv) {id : Nat} (hok : w.StepOk (.call id .stop)) :
    Inv (w.afterCall id .stop) := by
  rw [Page.afterCall, show w.call id .stop = w.stop id from rfl]
  by_cases hstate : w.state id = .inactive
  · have heq : w.stop id = (w, some .invalidState) := if_pos hstate
    rw [heq]
    exact h
  · have hmem : id ∈ w.mrsMap := hok hstate
    rw [Page.stop, if_neg hstate, nativeStop, if_pos hmem]
    exact h.stopped hmem

/-- **Every call under `StepOk` keeps the invariant.** What is left beside `start` and `stop` are
the calls that either throw or reach the sink of a recording object. -/
theorem Inv.afterCall {w : Page} (h : w.Inv) {id : Nat} {c : Call} (hok : w.StepOk (.call id c)) :
    Inv (w.afterCall id c) := by
  -- the three calls that only reach the sink
  have hcall : ∀ (c : Call) (posted : Option EventName), c.isStartOrStop = false →
      posted ≠ some .stop → w.call id c = (w, some .invalidState) ∨
        w.call id c = w.nativeCall id posted → Inv (w.afterCall id c) := by
    intro c posted hc hposted heq
    unfold Page.afterCall
    rcases heq with heq | heq
    · rw [heq]
      exact h
    · have hnative : Inv (w.nativeCall id posted).1 := h.nativeCall hposted
      rw [heq]
      rcases hresult : w.nativeCall id posted with ⟨w', _ | thrown⟩
      · rw [hresult] at hnative
        exact hnative.noted id hc
      · rw [hresult] at hnative
        exact hnative
  cases c with
  | start args => exact h.afterStart hok
  | stop => exact h.afterStop hok
  | pause =>
    apply hcall .pause (some .pause) rfl (by decide)
    show w.pause id = _ ∨ w.pause id = _
    unfold Page.pause
    split
    · exact Or.inl rfl
    · exact Or.inr rfl
  | resume =>
    apply hcall .resume (some .resume) rfl (by decide)
    show w.resume id = _ ∨ w.resume id = _
    unfold Page.resume
    split
    · exact Or.inl rfl
    · exact Or.inr rfl
  | requestData =>
    apply hcall .requestData none rfl (by decide)
    show w.requestData id = _ ∨ w.requestData id = _
    unfold Page.requestData
    split
    · exact Or.inl rfl
    · exact Or.inr rfl

/-! ## Events -/

/-- The released sink posts its Stop event, and is counted in the queue from now on. No other Stop
event of the object waits, because there is only one recording. -/
theorem Inv.sinkStopped {w : Page} (h : w.Inv) {id : Nat} (hmem : id ∈ w.stopping) :
    Inv { w with
      stopping := w.stopping.erase id
      queue := w.queue ++ [⟨id, .stop⟩] } := by
  obtain ⟨hstate, hnone⟩ := h.live (Or.inr hmem)
  refine ⟨fun id' => ?_, ?_, h.stopLast.append hnone, h.objs, h.mrsMap⟩
  · show (if id' ∈ w.mrsMap then 1 else 0) + (w.stopping.erase id).count id' +
      (w.queue ++ [Event.mk id .stop]).count ⟨id', .stop⟩ = _
    rw [← h.sessions id', Page.sessions, List.count_append]
    by_cases hid : id' = id
    · -- one sink less on its way out, one Stop event more
      subst hid
      have hpos := List.count_pos_iff.mpr hmem
      rw [List.count_erase_self, List.count_singleton_self]
      omega
    · have hother : [Event.mk id .stop].count ⟨id', .stop⟩ = 0 := by
        apply List.count_eq_zero.mpr
        intro hmem
        rw [List.mem_singleton, Event.mk.injEq] at hmem
        exact hid hmem.1
      rw [List.count_erase_of_ne hid, hother, Nat.add_zero]
  · intro event hmem
    rcases List.mem_append.mp hmem with hmem | hmem
    · exact h.posted event hmem
    · rw [List.mem_singleton.mp hmem]
      exact hstate

/-- An event that is not a Stop event leaves the queue; `running` is what its listener waits for. -/
theorem Inv.pop {w : Page} (h : w.Inv) {event : Event} {queue : List Event}
    (hqueue : w.queue = event :: queue) (hname : event.name ≠ .stop) (hidle : w.running = none)
    {running : Option Listener} (hrunning : running.bind Listener.stopId = none) :
    Inv { w with
      queue := queue
      running := running } := by
  refine ⟨fun id => ?_, ?_, ?_, fun id => ?_, h.mrsMap⟩
  · have hsessions := h.sessions id
    rw [Page.sessions, hqueue, List.count_cons_of_ne] at hsessions
    · exact hsessions
    · intro heq
      apply hname
      rw [heq]
  · intro e hmem
    exact h.posted e (hqueue ▸ List.mem_cons_of_mem _ hmem)
  · have hlast := h.stopLast
    rw [hqueue] at hlast
    exact (List.pairwise_cons.mp hlast).2
  · show id ∈ w.objs ↔ w.state id = .recording ∨ running.bind Listener.stopId = some id
    rw [h.objs id, stopOf, hidle, hrunning, Option.bind_none]

/-- The Stop event of an object: no other event of the object waits, its recording is over. -/
theorem Inv.popStop {w : Page} (h : w.Inv) {id : Nat} {queue : List Event}
    (hqueue : w.queue = ⟨id, .stop⟩ :: queue) (hidle : w.running = none) (listener : Listener)
    (hlistener : listener.stopId = some id) :
    Inv { w with
      queue := queue
      state := Function.update w.state id .inactive
      running := some listener } := by
  have hstate : w.state id = .recording := h.posted ⟨id, .stop⟩ (by rw [hqueue]; simp)
  -- no event of the object is left behind, so every event in the queue keeps its recording
  have hlast := h.stopLast
  rw [hqueue] at hlast
  obtain ⟨hothers, hlast⟩ := List.pairwise_cons.mp hlast
  refine ⟨fun id' => ?_, ?_, hlast, fun id' => ?_, h.mrsMap⟩
  · have hsessions := h.sessions id'
    rw [Page.sessions, hqueue] at hsessions
    show (if id' ∈ w.mrsMap then 1 else 0) + w.stopping.count id' + queue.count ⟨id', .stop⟩ =
      if Function.update w.state id .inactive id' = .recording then 1 else 0
    by_cases hid : id' = id
    · subst hid
      rw [hstate, if_pos rfl, List.count_cons_self] at hsessions
      rw [Function.update_self, if_neg (show ¬RecordingState.inactive = .recording by decide)]
      omega
    · rw [List.count_cons_of_ne (fun heq => hid (Event.mk.inj heq).1.symm)] at hsessions
      rw [Function.update_of_ne hid]
      exact hsessions
  · intro e hmem
    show Function.update w.state id .inactive e.id = .recording
    rw [Function.update_of_ne (hothers e hmem rfl)]
    exact h.posted e (hqueue ▸ List.mem_cons_of_mem _ hmem)
  · show id' ∈ w.objs ↔ Function.update w.state id .inactive id' = .recording ∨
      listener.stopId = some id'
    rw [h.objs id', stopOf, hidle, hlistener]
    by_cases hid : id' = id
    · subst hid
      simp [hstate]
    · rw [Function.update_of_ne hid]
      simp [Ne.symm hid]

/-- The Stop listener comes to its end with the object inactive, and takes it out of the table of
the page. That nothing else is left of the recording is what the count says. -/
theorem Inv.endStop {w : Page} (h : w.Inv) {id : Nat} (hstop : w.stopOf = some id)
    (hstate : w.state id = .inactive) : Inv (w.endStop id) := by
  refine ⟨h.sessions, h.posted, h.stopLast, fun id' => ?_, h.mrsMap⟩
  show id' ∈ w.objs.erase id ↔ w.state id' = .recording ∨ none = some id'
  rw [Finset.mem_erase, h.objs id', hstop]
  by_cases hid : id' = id
  · subst hid
    simp [hstate]
  · simp [hid, Ne.symm hid]

/-- The listener that is running is left, or waits for its next handler. Nothing is counted
differently as long as it is for the same object that a Stop listener runs. -/
theorem Inv.setRunning {w : Page} (h : w.Inv) {running : Option Listener}
    (hrunning : ∀ id, w.state id = .inactive →
      (running.bind Listener.stopId = some id ↔ w.stopOf = some id)) :
    Inv { w with running := running } := by
  refine ⟨h.sessions, h.posted, h.stopLast, fun id => ?_, h.mrsMap⟩
  show id ∈ w.objs ↔ w.state id = .recording ∨ running.bind Listener.stopId = some id
  rw [h.objs id]
  by_cases hstate : w.state id = .inactive
  · rw [hrunning id hstate]
  · exact iff_of_true (Or.inl (ne_inactive_iff.mp hstate)) (Or.inl (ne_inactive_iff.mp hstate))

/-- Every event that waits finds its object: its object is not inactive, and those are registered.
-/
theorem Inv.found {w : Page} (h : w.Inv) {event : Event} (hmem : event ∈ w.queue) :
    event.id ∈ w.objs :=
  (h.objs event.id).mpr (Or.inl (h.posted event hmem))

/-- **The next event is taken from the loop** and its listener called. For a Stop event the object
becomes inactive before the first handler is called, and its entry in the table goes after the last
one; where a handler is missing, the next part of the listener follows in the same step. -/
theorem Inv.dispatch {w : Page} (h : w.Inv) {event : Event} {queue : List Event}
    (hqueue : w.queue = event :: queue) (hidle : w.running = none) (handler onstop : Bool) :
    Inv ({ w with queue := queue }.onEvent event handler onstop) := by
  have hfound : event.id ∈ w.objs := h.found (by rw [hqueue]; exact List.mem_cons_self ..)
  obtain ⟨id, name⟩ := event
  unfold Page.onEvent
  rw [if_neg (not_not_intro hfound)]
  -- a Stop event is the end of a recording, any other one changes no count
  by_cases hname : name = .stop
  · subst hname
    -- the listener goes to `ondataavailable` first and to `onstop` after it
    have hdata := h.popStop hqueue hidle (.stopData id) rfl
    have hstop := h.popStop hqueue hidle (.stopStop id) rfl
    show Inv (Page.onStopEvent { w with queue := queue } id handler onstop)
    unfold Page.onStopEvent
    dsimp only
    split
    · exact hdata
    · unfold Page.afterStopData
      split
      · exact hstop
      · exact hstop.endStop rfl (Function.update_self ..)
  · have hother : Inv (if handler then
        { w with
          queue := queue
          running := some (.handler id) }
        else { w with queue := queue }) := by
      split
      · exact h.pop hqueue hname hidle rfl
      · have hnone :=
          h.pop hqueue hname hidle (show Option.bind none Listener.stopId = none from rfl)
        rw [← hidle] at hnone
        exact hnone
    cases name with
    | stop => exact absurd rfl hname
    | start => exact hother
    | data => exact hother
    | pause => exact hother
    | resume => exact hother

/-- **Every step under `StepOk` keeps the invariant.** One case for each kind of step, and for the
end of a handler one for each listener it can be called from. -/
theorem Inv.step {w w' : Page} {op : Op} (h : w.Inv) (hok : w.StepOk op)
    (hstep : w.step op = some w') : Inv w' := by
  cases op with
  | call id c =>
    cases hstep
    exact h.afterCall hok
  | sinkEvent id start =>
    simp only [Page.step] at hstep
    split at hstep
    · rename_i hlive
      cases hstep
      exact h.post hlive (by cases start <;> decide)
    · cases hstep
  | sinkStopped id =>
    simp only [Page.step] at hstep
    split at hstep
    · rename_i hmem
      cases hstep
      exact h.sinkStopped hmem
    · cases hstep
  | dispatch handler onstop =>
    simp only [Page.step] at hstep
    split at hstep
    · rename_i event queue hidle hqueue
      cases hstep
      exact h.dispatch hqueue hidle handler onstop
    · cases hstep
  | handlerReturns onstop =>
    simp only [Page.step] at hstep
    split at hstep
    · cases hstep
    · rename_i id hrunning
      cases hstep
      apply h.setRunning
      intro id' _
      rw [stopOf, hrunning]
      rfl
    · rename_i id hrunning
      cases hstep
      have hstop : w.stopOf = some id := by rw [stopOf, hrunning]; rfl
      unfold Page.afterStopData
      split
      · apply h.setRunning
        intro id' _
        rw [hstop]
        rfl
      · -- the listener ends here and deletes the object it was called for
        rename_i honstop
        rcases hok id hstop with ⟨-, honstop'⟩ | hstate
        · exact absurd honstop' honstop
        · exact h.endStop hstop hstate
    · rename_i id hrunning
      cases hstep
      have hstop : w.stopOf = some id := by rw [stopOf, hrunning]; rfl
      rcases hok id hstop with ⟨hdata, -⟩ | hstate
      · rw [hrunning] at hdata
        cases hdata
      · exact h.endStop hstop hstate
  | handlerThrows =>
    simp only [Page.step] at hstep
    split at hstep
    · cases hstep
    · -- the rest of the listener is skipped, the deletion with it
      cases hstep
      apply h.setRunning
      intro id hstate
      refine iff_of_false ?_ (fun hstop => hok id hstop hstate)
      rintro ⟨⟩

/-- **Every step under `StepOk` is served.** A `stop` finds a sink because the condition says so,
and an event finds its object because it waited for one (`Inv.found`). -/
theorem Inv.served {w : Page} {op : Op} (h : w.Inv) (hok : w.StepOk op) : w.Served op := by
  cases op with
  | call id c =>
    cases c with
    | stop =>
      intro hstate
      rw [Page.stop, if_neg hstate, nativeStop, if_pos (hok hstate)]
    | start args => trivial
    | pause => trivial
    | resume => trivial
    | requestData => trivial
  | dispatch handler onstop =>
    intro event hmem _
    exact h.found (List.mem_of_mem_head? hmem)
  | sinkEvent id start => trivial
  | sinkStopped id => trivial
  | handlerReturns onstop => trivial
  | handlerThrows => trivial

/-- **The tables of the MediaRecorder objects agree.** In every run whose steps meet `StepOk` every
step serves the recordings, and whenever no handler is running `objs`, the states and `mrsMap` say
the same. -/
theorem script_agrees {ops : List Op} {w : Page}
    (hrun : Run (Guarded StepOk (ofPartial step)) {} ops w) :
    Run (Guarded Served (ofPartial step)) {} ops w ∧ (w.running = none → w.Agree) := by
  constructor
  · apply hrun.guarded_of _ _ Inv.init
    · exact fun _ _ _ h hok hst => h.step hok hst
    · exact fun _ _ _ h hok _ => h.served hok
  · have hinv : Inv w := hrun.invariant (fun _ _ _ h hst => h.step hst.1 hst.2) Inv.init
    exact hinv.agree

/-- A recording that is stopped while a data event waits; `onstop` starts another object, and the
object itself is started again after its Stop event. -/
def restarted : List Op :=
  [.call 0 (.start .stream), .sinkEvent 0 true, .dispatch true false, .handlerReturns false,
    .call 0 .pause, .call 0 .resume, .sinkEvent 0 false, .call 0 .stop, .sinkStopped 0,
    .dispatch false false, .dispatch false false, .dispatch true false, .handlerThrows,
    .dispatch true true, .handlerReturns true, .call 1 (.start .stream), .handlerReturns false,
    .call 0 (.start .stream)]

/-- A run with two objects: `onstop` of the first one starts the second, and the first is started
again after its Stop event. Both are recording in the end, and the tables agree. -/
theorem script_agrees_restarted :
    ∃ w, Run (Guarded Served (ofPartial step)) {} restarted w ∧ w.Agree ∧
      w.state 0 = .recording ∧ w.state 1 = .recording := by
  obtain ⟨w, hw, hidle, hzero, hone⟩ : ∃ w, exec StepOk step restarted {} = some w ∧
      w.running = none ∧ w.state 0 = .recording ∧ w.state 1 = .recording := ⟨_, rfl, rfl, rfl, rfl⟩
  obtain ⟨hserved, hagree⟩ := script_agrees (Run.of_exec hw)
  exact ⟨w, hserved, hagree hidle, hzero, hone⟩

/-- `start` of an object without a stream: `createObjectURL` throws, the object is registered and
stays inactive. -/
theorem noStream_disagrees :
    ¬ ∀ (ops : List Op) (w : Page), Run (ofPartial step) {} ops w →
      Run (Guarded Served (ofPartial step)) {} ops w ∧ (w.running = none → w.Agree) := by
  intro hall
  obtain ⟨-, hagree⟩ := hall [.call 0 (.start .urlThrows)] _ (.single rfl)
  have hiff := (hagree rfl).objs 0
  exact absurd rfl (hiff.mp (Finset.mem_insert_self ..))

end Page

end NodeWebkit.MediaRecorder
