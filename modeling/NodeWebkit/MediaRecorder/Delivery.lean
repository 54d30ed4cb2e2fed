import NodeWebkit.MediaRecorder.Output
import NodeWebkit.MediaRecorder.ScriptRuns

/-!
# From the encoders to `ondataavailable`

The recorders of a page and its `MediaRecorder` objects together. A capture thread posts packets to
the worker thread of a recorder, the worker and `Stop` have the muxer write, each chunk that comes
out is posted to the message loop of the page as an event, and its listener calls `ondataavailable`
of the object with a blob, or with `null` at the end.

## The model

* **`System.step`** — the calls and handlers of the page, as in `Page`, and the threads of the
  recorders, in any order. An object has a recorder for every `start` that went through, and events
  and their data wait in two queues of the same length;
* **`System.StepOk`** — the condition on a step: that of the script, and those of the recorder:
  `InitFile` runs once, `requestData` waits for the worker thread, and without a file the encoders
  hold nothing when `Stop` begins.

What `ondataavailable` is called with is noted also where the object has none at the time.

## How the proof goes

Each step changes the page, the last recorder of one object, or both. What a recorder sends with a
step is known from `Recorder.Advance`, and the page only appends what is posted, so the invariant
`System.Inv` balances three things for each object: what was offered to it, what waits for it, and
what its recorders have sent. The sinks tie the two halves together: a recorder that is not closed
belongs to a sink that is alive or stopping, and an inactive object has neither.

`recorded_bytes` — the blobs are the file that the muxer has written, piece by piece.
-/

namespace NodeWebkit.MediaRecorder

open Lts BufferedWrites

variable {Packet : Type}

/-- An event of a sink reaches the message loop; with its Stop event the sink is gone. -/
def Page.post (w : Page) (id : Nat) : EventName → Page
  | .stop =>
    { w with
      stopping := w.stopping.erase id
      queue := w.queue ++ [⟨id, .stop⟩] }
  | name => { w with queue := w.queue ++ [⟨id, name⟩] }

structure System (Packet : Type) where
  page : Page := {}
  /-- What the events of `page.queue` carry, in their order. -/
  payloads : List (List UInt8) := []
  /-- The recorders of each object, the last one first. -/
  recorders : Nat → List (Recorder Packet) := fun _ => []
  /-- What `ondataavailable` of each object is called with. -/
  offered : Nat → List (Option (List UInt8)) := fun _ => []

namespace System

/-- A step of the last recorder of an object, with the events that it sends. -/
def native (s : System Packet) (id : Nat) (f : Recorder Packet → Option (Recorder Packet)) :
    Option (System Packet) :=
  match s.recorders id with
  | [] => none
  | self :: rest =>
    (f self).map fun self' =>
      let sent := self'.events.drop self.events.length
      { s with
        page := sent.foldl (fun page event => page.post id event.1) s.page
        payloads := s.payloads ++ sent.map Prod.snd
        recorders := Function.update s.recorders id (self' :: rest) }

section

variable (pb : Writer UInt8) (muxer : Muxer Packet)

/-- A method call; `oc` says whether `Init` gets a context for the mime type. -/
def call (s : System Packet) (id : Nat) (c : Call) (oc : Bool) : Option (System Packet) :=
  let page := s.page.afterCall id c
  let after :=
    { s with
      page := page
      payloads := s.payloads ++ (page.queue.drop s.page.queue.length).map fun _ => [] }
  if (s.page.call id c).2.isSome then some after
  else
    match c with
    | .start _ =>
      some { after with
        recorders := Function.update s.recorders id ({ oc := oc } :: s.recorders id) }
    | .requestData => after.native id fun self => self.requestData pb muxer
    | _ => some after

end

/-- The listener of the first event is called. -/
def dispatch (s : System Packet) (page : Page) : Option (System Packet) :=
  match s.page.queue, s.payloads with
  | event :: _, data :: payloads =>
    some { s with
      page := page
      payloads := payloads
      offered :=
        if event.id ∈ s.page.objs then
          Function.update s.offered event.id
            (s.offered event.id ++ (Recorder.offer (event.name, data)).toList)
        else s.offered }
  | _, _ => none

inductive Op (Packet : Type) where
  | call (id : Nat) (c : Call) (oc : Bool)
  | initFile (id : Nat) (headerOk : Bool)
  /-- `UpdateVideo` or `UpdateAudio` has a packet of the encoder. -/
  | packet (id : Nat) (pkt : Packet)
  | workerStep (id : Nat)
  /-- The destructor of a released sink calls `Stop`. -/
  | beginStop (id : Nat) (encoders : Recording Packet)
  | stopStep (id : Nat) (thread : Thread)
  | dispatch (handler onstop : Bool)
  | handlerReturns (onstop : Bool)
  | handlerThrows

def step (pb : Writer UInt8) (muxer : Muxer Packet) (s : System Packet) :
    Op Packet → Option (System Packet)
  | .call id c oc => s.call pb muxer id c oc
  | .initFile id headerOk => s.native id fun self => self.initFile pb muxer headerOk
  | .packet id pkt => s.native id fun self => self.packet pb muxer pkt
  | .workerStep id => s.native id fun self => self.workerStep pb muxer
  | .beginStop id encoders =>
    if id ∈ s.page.stopping then s.native id fun self => self.beginStop encoders else none
  | .stopStep id thread => s.native id fun self => self.stopStep pb muxer thread
  | .dispatch handler onstop => (s.page.step (.dispatch handler onstop)).bind s.dispatch
  | .handlerReturns onstop =>
    (s.page.step (.handlerReturns onstop)).map fun page => { s with page := page }
  | .handlerThrows => (s.page.step .handlerThrows).map fun page => { s with page := page }

/-- The condition on a step: that on the page, and that on the last recorder of the object. -/
def StepOk (s : System Packet) : Op Packet → Prop
  | .call id c _ => s.page.StepOk (.call id c) ∧
    (c = .requestData → ∀ self ∈ (s.recorders id).head?, self.RequestOk)
  | .initFile id _ => ∀ self ∈ (s.recorders id).head?, self.FileOk
  | .beginStop id encoders => ∀ self ∈ (s.recorders id).head?, self.StopOk encoders
  | .handlerReturns onstop => s.page.StepOk (.handlerReturns onstop)
  | .handlerThrows => s.page.StepOk .handlerThrows
  | _ => True

instance (s : System Packet) : DecidablePred s.StepOk
  | .call id c _ => inferInstanceAs (Decidable (s.page.StepOk (.call id c) ∧
    (c = .requestData → ∀ self ∈ (s.recorders id).head?, self.RequestOk)))
  | .initFile id _ =>
    inferInstanceAs (Decidable (∀ self ∈ (s.recorders id).head?, self.FileOk))
  | .beginStop id encoders =>
    inferInstanceAs (Decidable (∀ self ∈ (s.recorders id).head?, self.StopOk encoders))
  | .handlerReturns onstop => inferInstanceAs (Decidable (s.page.StepOk (.handlerReturns onstop)))
  | .handlerThrows => inferInstanceAs (Decidable (s.page.StepOk .handlerThrows))
  | .packet _ _ | .workerStep _ | .stopStep _ _ | .dispatch _ _ =>
    inferInstanceAs (Decidable True)

/-- What `ondataavailable` of an object is still to be called with for the events that wait. -/
def waiting (s : System Packet) (id : Nat) : List (Option (List UInt8)) :=
  (s.page.queue.zip s.payloads).filterMap fun post =>
    if post.1.id = id then Recorder.offer (post.1.name, post.2) else none

end System

/-! ## Events that are posted

A recorder sends what it has to say as events of its sink. Those of one step are posted one after
the other; only `stop` does more than waiting in the queue, as it takes its sink out of `stopping`.
-/

namespace Page

variable {w : Page} {id : Nat}

theorem post_of_ne_stop {name : EventName} (hname : name ≠ .stop) :
    w.post id name = { w with queue := w.queue ++ [⟨id, name⟩] } := by
  cases name with
  | stop => exact absurd rfl hname
  | start => rfl
  | data => rfl
  | pause => rfl
  | resume => rfl

/-- Events other than `stop` wait behind those that were there, in the order in which they were
sent. -/
theorem posts_eq {sent : List (EventName × List UInt8)} (hsent : ∀ event ∈ sent, event.1 ≠ .stop) :
    sent.foldl (fun page event => page.post id event.1) w =
      { w with queue := w.queue ++ sent.map fun event => ⟨id, event.1⟩ } := by
  induction sent generalizing w with
  | nil =>
    rw [List.map_nil, List.append_nil]
    rfl
  | cons event sent ih =>
    obtain ⟨hevent, hsent⟩ := List.forall_mem_cons.mp hsent
    rw [List.foldl_cons, post_of_ne_stop hevent, ih hsent, List.append_assoc]
    rfl

/-- A live sink may post any number of them: the invariant of the page asks of an event that its
object is found, and of a `stop` that it is the last one. -/
theorem Inv.posts (h : w.Inv) (hlive : id ∈ w.mrsMap ∨ id ∈ w.stopping)
    {sent : List (EventName × List UInt8)} (hsent : ∀ event ∈ sent, event.1 ≠ .stop) :
    Inv { w with queue := w.queue ++ sent.map fun event => ⟨id, event.1⟩ } := by
  rw [← posts_eq hsent]
  induction sent generalizing w with
  | nil => exact h
  | cons event sent ih =>
    obtain ⟨hevent, hsent⟩ := List.forall_mem_cons.mp hsent
    rw [List.foldl_cons, post_of_ne_stop hevent]
    exact ih (h.post hlive hevent) hlive hsent

/-! ## Calls

What a call of the page does to the sinks. A recorder is heard through the sink of its object, so
for the invariant it matters that no call drops a sink with events to come: `stop` moves it to
`stopping`, and nothing else takes one away. -/

/-- A call leaves the live sinks alive, and posts at most what carries no data. -/
structure Keeps (w w' : Page) : Prop where
  queue : ∃ posted, w'.queue = w.queue ++ posted ∧
    ∀ event ∈ posted, event.name = .pause ∨ event.name = .resume
  live : ∀ id, id ∈ w.mrsMap ∨ id ∈ w.stopping → id ∈ w'.mrsMap ∨ id ∈ w'.stopping
  stopping : ∀ id ∈ w.stopping, id ∈ w'.stopping

theorem Keeps.of_eq {w' : Page} (hqueue : w'.queue = w.queue) (hmrsMap : w.mrsMap ⊆ w'.mrsMap)
    (hstopping : w'.stopping = w.stopping) : Keeps w w' := by
  refine ⟨⟨[], ?_, List.forall_mem_nil _⟩, fun id => Or.imp (@hmrsMap id) ?_, ?_⟩
  · rw [hqueue, List.append_nil]
  · exact fun hmem => hstopping ▸ hmem
  · exact fun _ hmem => hstopping ▸ hmem

theorem Inv.no_sink (h : w.Inv) (hstate : w.state id = .inactive) : id ∉ w.mrsMap := by
  intro hmem
  have hrecording := (h.live (Or.inl hmem)).1
  rw [hstate] at hrecording
  cases hrecording

/-- `start` makes a sink, or it throws at one of the places where it can. -/
theorem start_keeps (h : w.Inv) (id : Nat) (args : StartArgs) : Keeps w (w.start id args).1 := by
  by_cases hstate : w.state id = .inactive
  · rw [start_eq hstate (h.no_sink hstate)]
    cases args with
    | optionThrows => exact .of_eq rfl (Finset.Subset.refl _) rfl
    | urlThrows => exact .of_eq rfl (Finset.Subset.refl _) rfl
    | streamsNull => exact .of_eq rfl (Finset.Subset.refl _) rfl
    | stream => exact .of_eq rfl (Finset.subset_insert id _) rfl
  · have heq : w.start id args = (w, some .invalidState) := if_pos hstate
    rw [heq]
    exact .of_eq rfl (Finset.Subset.refl _) rfl

/-- `pause` and `resume` post one event if the sink is found, `requestData` posts none. -/
theorem nativeCall_keeps (w : Page) (id : Nat) {posted : Option EventName}
    (hposted : ∀ name ∈ posted, name = .pause ∨ name = .resume) :
    Keeps w (w.nativeCall id posted).1 := by
  unfold nativeCall
  split
  · refine ⟨⟨_, rfl, fun event hmem => ?_⟩, fun _ hlive => hlive, fun _ hmem => hmem⟩
    obtain ⟨name, hname, rfl⟩ := List.mem_map.mp hmem
    exact hposted name (Option.mem_toList.mp hname)
  · exact .of_eq rfl (Finset.Subset.refl _) rfl

/-- `stop` moves the sink to `stopping`: its events are still heard. -/
theorem stop_keeps (w : Page) (id : Nat) : Keeps w (w.stop id).1 := by
  unfold Page.stop
  split
  · exact .of_eq rfl (Finset.Subset.refl _) rfl
  · unfold nativeStop
    split
    · refine ⟨⟨[], (List.append_nil _).symm, List.forall_mem_nil _⟩, fun id' hlive => ?_, ?_⟩
      · show id' ∈ w.mrsMap.erase id ∨ id' ∈ id :: w.stopping
        rw [Finset.mem_erase, List.mem_cons]
        tauto
      · exact fun _ hmem => List.mem_cons_of_mem _ hmem
    · exact .of_eq rfl (Finset.Subset.refl _) rfl

/-- A call of the page, whichever it is. -/
theorem call_keeps (h : w.Inv) (id : Nat) (c : Call) : Keeps w (w.call id c).1 := by
  cases c with
  -- only a start makes a new sink
  | start args => exact start_keeps h id args
  | stop => exact stop_keeps w id
  | pause =>
    show Keeps w (w.pause id).1
    unfold Page.pause
    split
    · exact .of_eq rfl (Finset.Subset.refl _) rfl
    · exact nativeCall_keeps w id (by simp)
  | resume =>
    show Keeps w (w.resume id).1
    unfold Page.resume
    split
    · exact .of_eq rfl (Finset.Subset.refl _) rfl
    · exact nativeCall_keeps w id (by simp)
  | requestData =>
    show Keeps w (w.requestData id).1
    unfold Page.requestData
    split
    · exact .of_eq rfl (Finset.Subset.refl _) rfl
    · exact nativeCall_keeps w id (by simp)

/-- The same with what the script does after it, which is about the state of the object only. -/
theorem afterCall_keeps (h : w.Inv) (id : Nat) (c : Call) : Keeps w (w.afterCall id c) := by
  have hkeeps := call_keeps h id c
  unfold Page.afterCall
  split
  · rename_i w' hcall
    rw [hcall] at hkeeps
    exact ⟨hkeeps.queue, hkeeps.live, hkeeps.stopping⟩
  · rename_i w' thrown hcall
    rw [hcall] at hkeeps
    exact hkeeps

/-- A `start` that returns finds the object inactive and makes a sink. All recorders the object had
are closed then, and the sink is that of the new one. -/
theorem start_returned (h : w.Inv) {args : StartArgs}
    (hreturned : (w.call id (.start args)).2 = none) :
    w.state id = .inactive ∧ id ∈ (w.afterCall id (.start args)).mrsMap := by
  have hcall : w.call id (.start args) = w.start id args := rfl
  by_cases hstate : w.state id = .inactive
  · rw [Page.afterCall, hcall]
    rw [hcall] at hreturned
    rw [start_eq hstate (h.no_sink hstate)] at hreturned ⊢
    cases args with
    | optionThrows => cases hreturned
    | urlThrows => cases hreturned
    | streamsNull => cases hreturned
    | stream => exact ⟨hstate, Finset.mem_insert_self id _⟩
  · have heq : w.start id args = (w, some .invalidState) := if_pos hstate
    rw [hcall, heq] at hreturned
    cases hreturned

/-! ## Listeners

The listeners of the script and the handlers of the page run without touching a sink; a dispatch
takes the first event from the queue. -/

/-- The page with its queue and its sinks as they were. -/
def SameSinks (w w' : Page) : Prop :=
  w'.queue = w.queue ∧ w'.mrsMap = w.mrsMap ∧ w'.stopping = w.stopping

/-- Behind the last data of a recording the handler of `stop` runs, if there is one. -/
theorem afterStopData_sinks (w : Page) (id : Nat) (onstop : Bool) :
    SameSinks w (w.afterStopData id onstop) := by
  unfold afterStopData
  split
  · exact ⟨rfl, rfl, rfl⟩
  · exact ⟨rfl, rfl, rfl⟩

/-- What the listener of an event does is about the state of its object and the handler to be
called. -/
theorem onEvent_sinks (w : Page) (event : Event) (handler onstop : Bool) :
    SameSinks w (w.onEvent event handler onstop) := by
  have hother :
      SameSinks w (if handler then { w with running := some (.handler event.id) } else w) := by
    split
    · exact ⟨rfl, rfl, rfl⟩
    · exact ⟨rfl, rfl, rfl⟩
  unfold Page.onEvent
  split
  · exact ⟨rfl, rfl, rfl⟩
  · split
    · unfold onStopEvent
      dsimp only
      split
      · exact ⟨rfl, rfl, rfl⟩
      · exact afterStopData_sinks (w.setState event.id .inactive) event.id onstop
    · exact hother

/-- The first event is taken from the queue, and its listener leaves the sinks as they are. -/
theorem dispatch_spec {w' : Page} {handler onstop : Bool}
    (hstep : w.step (.dispatch handler onstop) = some w') :
    ∃ event queue, w.queue = event :: queue ∧ SameSinks { w with queue := queue } w' := by
  simp only [Page.step] at hstep
  split at hstep
  · rename_i event queue hidle hqueue
    cases hstep
    exact ⟨event, queue, hqueue, onEvent_sinks _ event handler onstop⟩
  · cases hstep

/-- A handler that returns leaves the sinks alone, and so does what comes after the last data. -/
theorem handlerReturns_sinks {w' : Page} {onstop : Bool}
    (hstep : w.step (.handlerReturns onstop) = some w') : SameSinks w w' := by
  simp only [Page.step] at hstep
  split at hstep
  · cases hstep
  · cases hstep
    exact ⟨rfl, rfl, rfl⟩
  · cases hstep
    exact afterStopData_sinks w _ onstop
  · cases hstep
    exact ⟨rfl, rfl, rfl⟩

theorem handlerThrows_sinks {w' : Page} (hstep : w.step .handlerThrows = some w') :
    SameSinks w w' := by
  simp only [Page.step] at hstep
  split at hstep
  · cases hstep
  · cases hstep
    exact ⟨rfl, rfl, rfl⟩

end Page

namespace System

variable {pb : Writer UInt8} {muxer : Muxer Packet} {s t : System Packet}

/-- Data that is kept or dropped by a condition that is the same for all of it. -/
theorem filterMap_ite {α β : Type} (f : α → Option β) (xs : List α) (p : Prop) [Decidable p] :
    (xs.filterMap fun x => if p then f x else none) = if p then xs.filterMap f else [] := by
  split
  · rfl
  · exact List.filterMap_eq_nil_iff.mpr fun _ _ => rfl

/-- What is posted by a sink is what its object still waits for, behind what it waited for before;
for the other objects nothing changes. -/
theorem waiting_posts {id : Nat} {sent : List (EventName × List UInt8)}
    (hlength : s.payloads.length = s.page.queue.length)
    (hqueue : t.page.queue = s.page.queue ++ sent.map fun event => ⟨id, event.1⟩)
    (hpayloads : t.payloads = s.payloads ++ sent.map Prod.snd) (id' : Nat) :
    t.waiting id' = s.waiting id' ++ if id = id' then sent.filterMap Recorder.offer else [] := by
  unfold waiting
  rw [hqueue, hpayloads, List.zip_append hlength.symm, List.filterMap_append, List.zip_map',
    List.filterMap_map]
  exact congrArg (_ ++ ·) (filterMap_ite Recorder.offer sent (id = id'))

/-! ## The invariant

`System.Inv` says for each object that what it was offered and what waits for it are what its
recorders have sent, in their order. Only the last recorder of an object can still send something.
-/

structure Inv (muxer : Muxer Packet) (s : System Packet) : Prop where
  page : s.page.Inv
  payloads : s.payloads.length = s.page.queue.length
  recorders : ∀ id, ∀ recorder ∈ s.recorders id, recorder.Ok muxer
  /-- Only the last recorder of an object may be open. -/
  past : ∀ id recorder rest, s.recorders id = recorder :: rest → ∀ old ∈ rest, old.closed = true
  live : ∀ id recorder rest, s.recorders id = recorder :: rest → recorder.closed = false →
    id ∈ s.page.mrsMap ∨ id ∈ s.page.stopping
  stopping : ∀ id recorder rest, s.recorders id = recorder :: rest → recorder.closed = false →
    recorder.stop ≠ none → id ∈ s.page.stopping
  offered : ∀ id, s.offered id ++ s.waiting id = (s.recorders id).reverse.flatMap Recorder.offers

theorem Inv.init : Inv muxer ({} : System Packet) where
  page := Page.Inv.init
  payloads := rfl
  recorders _ _ hmem := by cases hmem
  past _ _ _ heq := by cases heq
  live _ _ _ heq := by cases heq
  stopping _ _ _ heq := by cases heq
  offered _ := rfl

/-- The recorders after a step of the last one: what that one has sent with the step comes at the
end. -/
theorem offers_advance {self self' : Recorder Packet} {rest : List (Recorder Packet)}
    {sent : List (EventName × List UInt8)} (hevents : self'.events = self.events ++ sent) :
    (self' :: rest).reverse.flatMap Recorder.offers =
      (self :: rest).reverse.flatMap Recorder.offers ++ sent.filterMap Recorder.offer := by
  have hoffers : self'.offers = self.offers ++ sent.filterMap Recorder.offer := by
    unfold Recorder.offers
    rw [hevents, List.filterMap_append]
  rw [List.reverse_cons, List.flatMap_append, List.flatMap_singleton, hoffers, List.reverse_cons,
    List.flatMap_append, List.flatMap_singleton, List.append_assoc]

/-- **An object gets another last recorder**, with the ones before it all closed. The page may have
changed along with it; what has to be shown is the balance for each object, and that a recorder that
is not closed has a sink. -/
theorem Inv.setRecorders (h : s.Inv muxer) {id : Nat} {last : Recorder Packet}
    {rest : List (Recorder Packet)} {page : Page} {payloads : List (List UInt8)}
    (hpage : page.Inv) (hlength : payloads.length = page.queue.length) (hok : last.Ok muxer)
    (hrest : ∀ old ∈ rest, old ∈ s.recorders id ∧ old.closed = true)
    (hmrsMap : page.mrsMap = s.page.mrsMap)
    (hothers : ∀ id', id' ≠ id → id' ∈ s.page.stopping → id' ∈ page.stopping)
    (hlive : last.closed = false → id ∈ page.mrsMap ∨ id ∈ page.stopping)
    (hstopping : last.closed = false → last.stop ≠ none → id ∈ page.stopping)
    (hoffered : ∀ id', s.offered id' ++
      System.waiting { s with
        page := page
        payloads := payloads } id' =
      (Function.update s.recorders id (last :: rest) id').reverse.flatMap Recorder.offers) :
    Inv muxer { s with
      page := page
      payloads := payloads
      recorders := Function.update s.recorders id (last :: rest) } := by
  have hself : Function.update s.recorders id (last :: rest) id = last :: rest :=
    Function.update_self ..
  have hne : ∀ id', id' ≠ id → Function.update s.recorders id (last :: rest) id' =
      s.recorders id' := fun id' hid => Function.update_of_ne hid ..
  refine ⟨hpage, hlength, ?_, ?_, ?_, ?_, hoffered⟩
  · intro id' recorder hmem
    have hmem : recorder ∈ Function.update s.recorders id (last :: rest) id' := hmem
    by_cases hid : id' = id
    · rw [hid, hself] at hmem
      -- of this object: the new last recorder, or one that was there
      rcases List.mem_cons.mp hmem with rfl | hmem
      · exact hok
      · exact h.recorders id recorder (hrest recorder hmem).1
    · rw [hne id' hid] at hmem
      exact h.recorders id' recorder hmem
  · intro id' recorder rest' heq
    have heq : Function.update s.recorders id (last :: rest) id' = recorder :: rest' := heq
    by_cases hid : id' = id
    · rw [hid, hself] at heq
      cases heq
      exact fun old hmem => (hrest old hmem).2
    · rw [hne id' hid] at heq
      exact h.past id' recorder rest' heq
  · intro id' recorder rest' heq hopen
    have heq : Function.update s.recorders id (last :: rest) id' = recorder :: rest' := heq
    by_cases hid : id' = id
    · rw [hid, hself] at heq
      cases heq
      exact hid ▸ hlive hopen
    · rw [hne id' hid] at heq
      show id' ∈ page.mrsMap ∨ id' ∈ page.stopping
      rw [hmrsMap]
      exact (h.live id' recorder rest' heq hopen).imp_right (hothers id' hid)
  · intro id' recorder rest' heq hopen hstop
    have heq : Function.update s.recorders id (last :: rest) id' = recorder :: rest' := heq
    by_cases hid : id' = id
    · rw [hid, hself] at heq
      cases heq
      exact hid ▸ hstopping hopen hstop
    · rw [hne id' hid] at heq
      exact hothers id' hid (h.stopping id' recorder rest' heq hopen hstop)

/-- The last recorder of an object takes a step, and what it sends is posted. -/
theorem Inv.advance (h : s.Inv muxer) {id : Nat} {self self' : Recorder Packet}
    {rest : List (Recorder Packet)} (hrecorders : s.recorders id = self :: rest)
    {sent : List (EventName × List UInt8)} (hadvance : Recorder.Advance muxer self self' sent)
    {page : Page} (hpage : page.Inv)
    (hqueue : page.queue = s.page.queue ++ sent.map fun event => ⟨id, event.1⟩)
    (hmrsMap : page.mrsMap = s.page.mrsMap)
    (hothers : ∀ id', id' ≠ id → id' ∈ s.page.stopping → id' ∈ page.stopping)
    (hlive : self'.closed = false → id ∈ page.mrsMap ∨ id ∈ page.stopping)
    (hstopping : self'.closed = false → self'.stop ≠ none → id ∈ page.stopping) :
    Inv muxer { s with
      page := page
      payloads := s.payloads ++ sent.map Prod.snd
      recorders := Function.update s.recorders id (self' :: rest) } := by
  -- the recorders before the last one are closed and stay as they are
  have hrest : ∀ old ∈ rest, old ∈ s.recorders id ∧ old.closed = true := fun old hmem =>
    ⟨hrecorders ▸ List.mem_cons_of_mem _ hmem, h.past id self rest hrecorders old hmem⟩
  refine h.setRecorders hpage ?_ hadvance.ok hrest hmrsMap hothers hlive hstopping fun id' => ?_
  · rw [hqueue, List.length_append, List.length_append, List.length_map, List.length_map,
      h.payloads]
  · -- what was sent waits behind what was posted before
    rw [waiting_posts h.payloads hqueue rfl, ← List.append_assoc, h.offered id']
    by_cases hid : id' = id
    · rw [hid, if_pos rfl, Function.update_self, hrecorders, offers_advance hadvance.events]
    · rw [if_neg (Ne.symm hid), Function.update_of_ne hid, List.append_nil]

/-- **A thread of a recorder takes a step.** What it sends is posted to the page at once, so it is
among what the object waits for; whether it was allowed to begin `Stop` is the caller's business. -/
theorem Inv.native (h : s.Inv muxer) {id : Nat} {f : Recorder Packet → Option (Recorder Packet)}
    (hf : ∀ self self', self ∈ (s.recorders id).head? → self.Ok muxer → f self = some self' →
      (self'.stop ≠ none → self.stop ≠ none ∨ id ∈ s.page.stopping) ∧
        ∃ sent, Recorder.Advance muxer self self' sent)
    (hstep : s.native id f = some t) : t.Inv muxer := by
  unfold System.native at hstep
  split at hstep
  · cases hstep
  · rename_i self rest hrecorders
    obtain ⟨self', hself', rfl⟩ := Option.map_eq_some_iff.mp hstep
    have hok := h.recorders id self (hrecorders ▸ List.mem_cons_self)
    obtain ⟨hstop, sent, hadvance⟩ := hf self self' (by rw [hrecorders]; rfl) hok hself'
    have hlive := h.live id self rest hrecorders hadvance.before
    have hstopping : self'.stop ≠ none → id ∈ s.page.stopping := fun hne =>
      (hstop hne).elim (h.stopping id self rest hrecorders hadvance.before) fun hmem => hmem
    have hdrop : self'.events.drop self.events.length = sent := by
      rw [hadvance.events, List.drop_left]
    dsimp only
    rw [hdrop]
    rcases hadvance.sent with ⟨-, hsent⟩ | ⟨hclosed, rfl⟩
    · rw [Page.posts_eq hsent]
      exact h.advance hrecorders hadvance (h.page.posts hlive hsent) rfl rfl
        (fun _ _ hmem => hmem) (fun _ => hlive) fun _ => hstopping
    · -- the Stop event is the last thing that is heard of the sink
      have hmem : id ∈ s.page.stopping := by
        apply hstopping
        intro hnone
        rw [Recorder.closed_of_none hnone] at hclosed
        cases hclosed
      refine h.advance hrecorders hadvance (h.page.sinkStopped hmem) rfl rfl ?_ ?_ ?_
      · exact fun _ hne hmem => (List.mem_erase_of_ne hne).mpr hmem
      · exact fun hopen => absurd (hclosed.symm.trans hopen) Bool.true_eq_false_eq_False
      · exact fun hopen => absurd (hclosed.symm.trans hopen) Bool.true_eq_false_eq_False

/-- The page changes, and of the recorders nothing is heard: the events that it posts itself carry
no data. -/
theorem Inv.setPage (h : s.Inv muxer) {page : Page} (hpage : page.Inv)
    (hkeeps : Page.Keeps s.page page) :
    Inv muxer { s with
      page := page
      payloads := s.payloads ++ (page.queue.drop s.page.queue.length).map fun _ => [] } := by
  obtain ⟨posted, hqueue, hposted⟩ := hkeeps.queue
  have hdrop : page.queue.drop s.page.queue.length = posted := by rw [hqueue, List.drop_left]
  rw [hdrop]
  refine ⟨hpage, ?_, h.recorders, h.past, ?_, ?_, fun id => ?_⟩
  · show (s.payloads ++ posted.map fun _ => []).length = page.queue.length
    rw [hqueue, List.length_append, List.length_append, List.length_map, h.payloads]
  · exact fun id recorder rest heq hopen => hkeeps.live id (h.live id recorder rest heq hopen)
  · exact fun id recorder rest heq hopen hstop =>
      hkeeps.stopping id (h.stopping id recorder rest heq hopen hstop)
  · -- what is posted carries no data
    have hwaiting : System.waiting { s with
        page := page
        payloads := s.payloads ++ posted.map fun _ => [] } id = s.waiting id := by
      unfold waiting
      show (page.queue.zip (s.payloads ++ posted.map fun _ => [])).filterMap _ = _
      rw [hqueue, List.zip_append h.payloads.symm, List.filterMap_append]
      refine (congrArg (_ ++ ·) (List.filterMap_eq_nil_iff.mpr ?_)).trans (List.append_nil _)
      intro post hmem
      have hname := hposted post.1 (List.of_mem_zip hmem).1
      split
      · rcases hname with hname | hname
        · rw [hname]
          rfl
        · rw [hname]
          rfl
      · rfl
    rw [hwaiting]
    exact h.offered id

/-- A new recorder of an object, whose earlier ones are all closed. It has sent nothing, so the
balance stays. -/
theorem Inv.start (h : s.Inv muxer) {id : Nat} (hmem : id ∈ s.page.mrsMap)
    (hclosed : ∀ old ∈ s.recorders id, old.closed = true) (oc : Bool) :
    Inv muxer { s with
      recorders := Function.update s.recorders id ({ oc := oc } :: s.recorders id) } := by
  refine h.setRecorders h.page h.payloads (.new oc) (fun old hmem => ⟨hmem, hclosed old hmem⟩) rfl
    (fun _ _ hmem => hmem) (fun _ => Or.inl hmem) (fun _ hstop => absurd rfl hstop) fun id' => ?_
  refine (h.offered id').trans ?_
  by_cases hid : id' = id
  · rw [hid, Function.update_self, List.reverse_cons, List.flatMap_append, List.flatMap_singleton]
    exact (List.append_nil _).symm
  · rw [Function.update_of_ne hid]

/-- The recorders of an inactive object are closed: one that is not has a sink, and that makes its
object recording, paused or stopping. -/
theorem Inv.closed (h : s.Inv muxer) {id : Nat} (hstate : s.page.state id = .inactive)
    {recorder : Recorder Packet} (hmem : recorder ∈ s.recorders id) : recorder.closed = true := by
  cases hrecorders : s.recorders id with
  | nil =>
    rw [hrecorders] at hmem
    cases hmem
  | cons last rest =>
    rw [hrecorders] at hmem
    rcases List.mem_cons.mp hmem with rfl | hmem
    · by_contra hopen
      have hlive := h.live id recorder rest hrecorders ((Bool.not_eq_true _).mp hopen)
      have hrecording := (h.page.live hlive).1
      rw [hstate] at hrecording
      cases hrecording
    · exact h.past id last rest hrecorders recorder hmem

/-- **A call** of the page: a start that goes through makes a recorder, `requestData` posts a task
to one, and of the other calls the recorders hear nothing yet. -/
theorem Inv.call (h : s.Inv muxer) {id : Nat} {c : Call} {oc : Bool}
    (hok : s.page.StepOk (.call id c))
    (hrequest : c = .requestData → ∀ self ∈ (s.recorders id).head?, self.RequestOk)
    (hstep : s.call pb muxer id c oc = some t) : t.Inv muxer := by
  have hafter := h.setPage (h.page.afterCall hok) (Page.afterCall_keeps h.page id c)
  unfold System.call at hstep
  dsimp only at hstep
  split at hstep
  · cases hstep
    exact hafter
  · rename_i hthrown
    have hreturned := Option.not_isSome_iff_eq_none.mp hthrown
    -- the call has returned; only `start` and `requestData` reach a recorder
    cases c with
    | start args =>
      obtain ⟨hstate, hmem⟩ := Page.start_returned h.page hreturned
      cases hstep
      exact hafter.start hmem (fun _ hmem => h.closed hstate hmem) oc
    | requestData =>
      refine hafter.native (fun self self' hmem hself hself' => ?_) hstep
      obtain ⟨-, hnone, hadvance⟩ := hself.requestData (hrequest rfl self hmem) hself'
      exact ⟨fun hne => absurd hnone hne, [], hadvance⟩
    | stop =>
      cases hstep
      exact hafter
    | pause =>
      cases hstep
      exact hafter
    | resume =>
      cases hstep
      exact hafter

/-- A listener of the page goes on or is left, and nothing is posted and no sink changed. -/
theorem Inv.sameSinks (h : s.Inv muxer) {page : Page} (hpage : page.Inv)
    (hsame : Page.SameSinks s.page page) : Inv muxer { s with page := page } := by
  obtain ⟨hqueue, hmrsMap, hstopping⟩ := hsame
  refine ⟨hpage, hqueue ▸ h.payloads, h.recorders, h.past, ?_, ?_, fun id => ?_⟩
  · show ∀ id recorder rest, _ → _ → id ∈ page.mrsMap ∨ id ∈ page.stopping
    rw [hmrsMap, hstopping]
    exact h.live
  · show ∀ id recorder rest, _ → _ → _ → id ∈ page.stopping
    rw [hstopping]
    exact h.stopping
  · show s.offered id ++ (page.queue.zip s.payloads).filterMap _ = _
    rw [hqueue]
    exact h.offered id

/-- **The first event is taken to its object**, and what it carries with it. -/
theorem Inv.dispatch (h : s.Inv muxer) {page : Page} (hpage : page.Inv) {event : Event}
    {queue : List Event} (hqueue : s.page.queue = event :: queue)
    (hsame : Page.SameSinks { s.page with queue := queue } page)
    (hstep : s.dispatch page = some t) : t.Inv muxer := by
  have hfound : event.id ∈ s.page.objs := h.page.found (hqueue ▸ List.mem_cons_self)
  obtain ⟨hqueue', hmrsMap, hstopping⟩ := hsame
  have hlength := h.payloads
  unfold System.dispatch at hstep
  rw [hqueue] at hstep hlength
  split at hstep
  · rename_i event' queue' data payloads heq hpayloads
    cases heq
    rw [hpayloads] at hlength
    rw [if_pos hfound] at hstep
    cases hstep
    refine ⟨hpage, ?_, h.recorders, h.past, ?_, ?_, fun id => ?_⟩
    · show payloads.length = page.queue.length
      rw [hqueue']
      exact Nat.succ.inj hlength
    · show ∀ id recorder rest, _ → _ → id ∈ page.mrsMap ∨ id ∈ page.stopping
      rw [hmrsMap, hstopping]
      exact h.live
    · show ∀ id recorder rest, _ → _ → _ → id ∈ page.stopping
      rw [hstopping]
      exact h.stopping
    · have hoffered := h.offered id
      unfold waiting at hoffered ⊢
      rw [hqueue, hpayloads, List.zip_cons_cons, List.filterMap_cons] at hoffered
      show Function.update s.offered event.id _ id ++ (page.queue.zip payloads).filterMap _ = _
      rw [hqueue', ← hoffered]
      -- the data of the event goes from what waits to what was offered, for its own object
      by_cases hid : event.id = id
      · subst hid
        rw [Function.update_self, List.append_assoc, if_pos rfl]
        cases Recorder.offer (event.name, data) with
        | none => rfl
        | some offer => rfl
      · rw [Function.update_of_ne (Ne.symm hid), if_neg hid]
  · cases hstep

/-- **Every step under `StepOk` keeps the invariant.** The steps of the recorders are all cases of
`Inv.native`, each with the lemma of `Output.lean` about what the recorder sends. -/
theorem Inv.step (h : s.Inv muxer) {op : Op Packet} (hok : s.StepOk op)
    (hstep : s.step pb muxer op = some t) : t.Inv muxer := by
  cases op with
  | call id c oc => exact h.call hok.1 hok.2 hstep
  | initFile id headerOk =>
    -- the page hears of a step of the recorder only through the events it sends
    refine h.native (fun self self' hmem hself hself' => ?_) hstep
    obtain ⟨-, hnone, hadvance⟩ := hself.initFile (hok self hmem) hself'
    exact ⟨fun hne => absurd hnone hne, hadvance⟩
  | packet id pkt =>
    refine h.native (fun self self' _ hself hself' => ?_) hstep
    obtain ⟨-, hnone, hadvance⟩ := hself.packet hself'
    exact ⟨fun hne => absurd hnone hne, [], hadvance⟩
  | workerStep id =>
    refine h.native (fun self self' _ hself hself' => ?_) hstep
    obtain ⟨-, hnone, hadvance⟩ := hself.workerStep hself'
    exact ⟨fun hne => absurd hnone hne, hadvance⟩
  | beginStop id encoders =>
    obtain ⟨hstopping, hstep⟩ := Option.ite_none_right_eq_some.mp hstep
    refine h.native (fun self self' hmem hself hself' => ?_) hstep
    exact ⟨fun _ => Or.inr hstopping, [], hself.beginStop (hok self hmem) hself'⟩
  | stopStep id thread =>
    refine h.native (fun self self' _ hself hself' => ?_) hstep
    obtain ⟨hrunning, hadvance⟩ := hself.stopStep hself'
    exact ⟨fun _ => Or.inl hrunning, hadvance⟩
  | dispatch handler onstop =>
    obtain ⟨page, hpage, hdispatch⟩ := Option.bind_eq_some_iff.mp hstep
    -- the page takes the first event of its queue
    obtain ⟨event, queue, hqueue, hsame⟩ := Page.dispatch_spec hpage
    have hok : s.page.StepOk (.dispatch handler onstop) := trivial
    exact h.dispatch (h.page.step hok hpage) hqueue hsame hdispatch
  | handlerReturns onstop =>
    obtain ⟨page, hpage, rfl⟩ := Option.map_eq_some_iff.mp hstep
    have hok : s.page.StepOk (.handlerReturns onstop) := hok
    exact h.sameSinks (h.page.step hok hpage) (Page.handlerReturns_sinks hpage)
  | handlerThrows =>
    obtain ⟨page, hpage, rfl⟩ := Option.map_eq_some_iff.mp hstep
    have hok : s.page.StepOk .handlerThrows := hok
    exact h.sameSinks (h.page.step hok hpage) (Page.handlerThrows_sinks hpage)

end System

end NodeWebkit.MediaRecorder
