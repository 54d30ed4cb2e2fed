import NodeWebkit.App.NWEvents
import NodeWebkit.Lib.Run

/-!
# nw.App.getHttpAuth

A call waits for an event under the token of its URL. The native side looks for credentials on the
IO thread and posts an event: with credentials it has three arguments, without them five, the last
of which counts the attempts. On a first attempt without credentials every listener sends a HEAD
request, in order to make the network stack ask for credentials; unless the request ends with
status 407 it makes a second native call, without a callback and under the same token. All other
events, and a request that ends with 407, run the callback.

* `spec` — `GURL(url).spec()`.

Posted tasks, dispatched events and requests end in any order. The callbacks return normally; the
application may make further calls in them and between the events.

## The proof

* **`Inv`** — the listeners that wait are the calls that were not answered, and each of them is
  served by something under way: a task, an event, a request, or the event that is dispatched;
* **`InvBut c`** — the same with call `c` left out, while its listener runs;
* **`Inv.step`** — the steps under `StepOk` keep it, `Inv.stepOk` — a step to a safe state meets
  `StepOk`, so the condition asks no more than it has to;
* **`work_step`** — what is under way is used up.
-/

namespace NodeWebkit.App

open Lts

namespace HttpAuth

/-- The parameters of `GetHttpAuthCallbackIO`, posted to the IO thread. -/
structure Task where
  url : String
  realm : String
  scheme : String
  deep : Nat
  token : String
  deriving DecidableEq

/-- An entry of the network stack's cache. -/
structure Entry where
  username : String
  password : String
  realm : String
  scheme : String
  deriving DecidableEq

/-- The arguments of an event. -/
inductive Args where
  | credentials (url username password : String)
  | challenge (ev url realm scheme : String) (deep : Nat)
  deriving DecidableEq

structure Event where
  token : String
  args : Args
  deriving DecidableEq

/-- A HEAD request with the variables of the listener that sent it. -/
structure Head where
  call : Nat
  url : String
  realm : String
  scheme : String
  deep : Nat
  ev : String
  deriving DecidableEq

end HttpAuth

structure HttpAuth where
  page : NWEvents := {}
  tasks : List HttpAuth.Task := []
  events : List HttpAuth.Event := []
  heads : List HttpAuth.Head := []
  /-- The arguments of the event that is dispatched. -/
  args : HttpAuth.Args := .credentials "" "" ""
  /-- What the callbacks were called with, the last call at the end. -/
  results : List (Nat × List String) := []

namespace HttpAuth

/-- `GetHttpAuthCallbackIO`: the event it posts, for the entry it finds in the cache. -/
def getHttpAuthCallbackIo (spec : String → String) (task : Task) (entry : Option Entry) : Event :=
  let username := (entry.map Entry.username).getD ""
  let password := (entry.map Entry.password).getD ""
  let realm := (entry.map Entry.realm).getD task.realm
  let scheme := (entry.map Entry.scheme).getD task.scheme
  if username ≠ "" ∨ password ≠ "" then
    ⟨task.token, .credentials (spec task.url) username password⟩
  else ⟨task.token, .challenge task.token (spec task.url) realm scheme task.deep⟩

/-- `nw.App.getHttpAuth` of a valid URL by the application. -/
def getHttpAuth (s : HttpAuth) (url realm scheme : String) : HttpAuth :=
  let token := "getHttpAuth " ++ url
  { s with
    page := s.page.register token
    tasks := s.tasks ++ [⟨url, realm, scheme, 0, token⟩] }

/-- The callback of a call is called with some arguments. -/
def runCallback (s : HttpAuth) (c : Nat) (arguments : List String) : HttpAuth :=
  { s with
    page := s.page.complete c
    results := s.results ++ [(c, arguments)] }

/-- `getHttpAuthListener` of a call. -/
def listener (s : HttpAuth) (c : Nat) : HttpAuth :=
  match s.args with
  | .challenge ev url realm scheme deep =>
    if deep = 0 then { s with heads := s.heads ++ [⟨c, url, realm, scheme, deep, ev⟩] }
    else s.runCallback c [url, "", ""]
  | .credentials url username password => s.runCallback c [url, username, password]

/-- `onreadystatechange` of a request that is done. -/
def headDone (s : HttpAuth) (head : Head) (status : Nat) : HttpAuth :=
  if status ≠ 407 then
    { s with
      tasks := s.tasks ++ [⟨head.url, head.realm, head.scheme, head.deep + 1, head.ev⟩] }
  else s.runCallback head.call [head.url, "", ""]

inductive Op where
  | getHttpAuth (url realm scheme : String)
  | runTask (i : Nat) (entry : Option Entry)
  | dispatch (i : Nat)
  /-- The next listener gets the event that is dispatched. -/
  | listener
  /-- The callback that is running returns. -/
  | return
  | headDone (i status : Nat)
  deriving DecidableEq

/-- The page's thread takes up an event or the end of a request when it is done with the last one.
The application calls in a callback or while no event is dispatched. -/
def step (spec : String → String) (s : HttpAuth) : Op → Option HttpAuth
  | .getHttpAuth url realm scheme =>
    if s.page.callback.isSome ∨ s.page.pending = [] then some (s.getHttpAuth url realm scheme)
    else none
  | .runTask i entry =>
    (s.tasks[i]?).map fun task =>
      { s with
        tasks := s.tasks.eraseIdx i
        events := s.events ++ [getHttpAuthCallbackIo spec task entry] }
  | .dispatch i =>
    if s.page.Idle then
      (s.events[i]?).map fun event =>
        { s with
          page := s.page.dispatch event.token
          events := s.events.eraseIdx i
          args := event.args }
    else none
  | .listener =>
    match s.page.callback, s.page.pending with
    | none, c :: rest => some (listener { s with page := { s.page with pending := rest } } c)
    | _, _ => none
  | .return => if s.page.callback.isSome then some { s with page := s.page.finish } else none
  | .headDone i status =>
    if s.page.Idle then
      (s.heads[i]?).map fun head => headDone { s with heads := s.heads.eraseIdx i } head status
    else none

/-! ## What the calls are promised

A call is answered at most once, and when the page is idle and nothing is under way it has been
answered. The second half is not about the events of a call: its event may come from another call
with the same URL. -/

/-- Nothing is outstanding. -/
def Quiescent (s : HttpAuth) : Prop :=
  s.page.Idle ∧ s.tasks = [] ∧ s.events = [] ∧ s.heads = []

/-- No callback ran twice; when nothing is outstanding all have run, and nothing is left of the
calls. -/
structure Safe (s : HttpAuth) : Prop where
  once : ∀ (c : Nat) (call : Call), s.page.calls[c]? = some call → call.runs ≤ 1
  drained : s.Quiescent →
    (∀ (c : Nat) (call : Call), s.page.calls[c]? = some call → call.runs = 1) ∧
    (∀ e, s.page.listeners e = []) ∧ ∀ t, s.page.nwEventTokens t = none

/-- A request that ends with status 407 belongs to a call that still waits. -/
def StepOk (s : HttpAuth) : Op → Prop
  | .headDone i 407 => ∀ head ∈ s.heads[i]?, s.page.Waiting head.call
  | _ => True

def StepSafe (spec : String → String) (s : HttpAuth) (op : Op) : Prop :=
  ∀ t, step spec s op = some t → t.Safe

/-- What a waiting call waits for. -/
def Served (s : HttpAuth) (c : Nat) (token : String) : Prop :=
  (∃ task ∈ s.tasks, task.token = token) ∨ (∃ event ∈ s.events, event.token = token) ∨
    (∃ head ∈ s.heads, head.call = c) ∨ c ∈ s.page.pending

/-- The invariant, where one call may be left out that is about to be served. -/
structure InvBut (left : Option Nat) (s : HttpAuth) : Prop where
  page : s.page.Ok
  /-- An event names its own token, and so do those who got one. -/
  event : ∀ event ∈ s.events, ∀ ev url realm scheme deep,
    event.args = .challenge ev url realm scheme deep → ev = event.token
  args : ∀ ev url realm scheme deep, s.args = .challenge ev url realm scheme deep →
    ∀ c ∈ s.page.pending, ∀ call, s.page.calls[c]? = some call → ev = call.token
  head : ∀ head ∈ s.heads, ∃ call, s.page.calls[head.call]? = some call ∧ head.ev = call.token
  served : ∀ (c : Nat) (call : Call), s.page.calls[c]? = some call → call.runs = 0 →
    some c ≠ left → s.Served c call.token

abbrev Inv (s : HttpAuth) : Prop := s.InvBut none

variable {spec : String → String} {s : HttpAuth}

theorem Inv.init : ({} : HttpAuth).Inv := by
  refine ⟨NWEvents.Ok.init, ?_, ?_, ?_, ?_⟩
  · exact fun _ h => absurd h List.not_mem_nil
  · exact nofun
  · exact fun _ h => absurd h List.not_mem_nil
  · exact nofun

/-- **Exactly once.** A state of the invariant is safe: a call that waits is served by something
that is under way, so where nothing is, none waits. -/
theorem Inv.safe (h : s.Inv) : s.Safe := by
  refine ⟨fun c call hcall => h.page.runs_le hcall, ?_⟩
  rintro ⟨hidle, htasks, hevents, hheads⟩
  have hall : ∀ (c : Nat) (call : Call), s.page.calls[c]? = some call → call.runs = 1 := by
    intro c call hcall
    rcases h.page.runs c call hcall with ⟨hzero, -⟩ | ⟨hone, -⟩
    · -- a waiting call is served by something outstanding
      rcases h.served c call hcall hzero nofun with
        ⟨task, hmem, -⟩ | ⟨event, hmem, -⟩ | ⟨head, hmem, -⟩ | hmem
      · rw [htasks] at hmem
        cases hmem
      · rw [hevents] at hmem
        cases hmem
      · rw [hheads] at hmem
        cases hmem
      · rw [hidle.1] at hmem
        cases hmem
    · exact hone
  exact ⟨hall, h.page.clean hidle hall⟩

/-- The event that a task posts has the token of the task, with credentials and without. -/
theorem token_getHttpAuthCallbackIo (task : Task) (entry : Option Entry) :
    (getHttpAuthCallbackIo spec task entry).token = task.token := by
  unfold getHttpAuthCallbackIo
  simp only
  split <;> rfl

/-! ## Steps

One lemma for each thing that can happen. A listener takes its call out of those that the event
still serves and then sends a request or runs the callback, so the invariant is carried through it
with that call left out. -/

/-- **The callback of a waiting call runs.** Its listener goes, so the call is answered and waits no
more; it was the only one that was not served. -/
theorem InvBut.runCallback {c : Nat} (h : s.InvBut (some c)) (hwaiting : s.page.Waiting c)
    (hcallback : s.page.callback = none) (hc : c ∉ s.page.pending) (arguments : List String) :
    (s.runCallback c arguments).Inv := by
  constructor
  case page => exact h.page.complete hwaiting hcallback hc
  case event => exact h.event
  case args =>
    intro ev url realm scheme deep hargs k hk call hcall
    obtain ⟨old, hold, htoken, -⟩ := NWEvents.getElem?_complete_some hcall
    rw [htoken]
    exact h.args ev url realm scheme deep hargs k hk old hold
  case head =>
    intro head hhead
    obtain ⟨call, hcall, hev⟩ := h.head head hhead
    show ∃ call, (s.page.complete c).calls[head.call]? = some call ∧ head.ev = call.token
    rw [NWEvents.getElem?_complete, hcall]
    refine ⟨_, rfl, ?_⟩
    split <;> exact hev
  case served =>
    intro k call hcall hzero _
    obtain ⟨old, hold, htoken, -, hruns⟩ := NWEvents.getElem?_complete_some hcall
    rw [htoken]
    split at hruns
    · -- the call itself has run
      omega
    · rename_i hne
      exact h.served k old hold (hruns ▸ hzero) fun heq => hne (Option.some.inj heq)

/-- A new call registers its listener and posts its task, which serves it. The other calls wait for
what they waited for. -/
theorem Inv.getHttpAuth (h : s.Inv) (url realm scheme : String) :
    (s.getHttpAuth url realm scheme).Inv := by
  obtain ⟨e, hcalls⟩ := NWEvents.getElem?_register s.page ("getHttpAuth " ++ url)
  have hpending : (s.getHttpAuth url realm scheme).page.pending = s.page.pending :=
    NWEvents.pending_register s.page _
  constructor
  case page => exact h.page.register _
  case event => exact h.event
  case args =>
    intro ev url' realm' scheme' deep hargs c hc call hcall
    rw [hpending] at hc
    exact h.args ev url' realm' scheme' deep hargs c hc call (h.page.getElem?_of_pending hc hcall)
  case head =>
    intro head hhead
    obtain ⟨call, hcall, hev⟩ := h.head head hhead
    exact ⟨call, NWEvents.getElem?_register_of_some hcall _, hev⟩
  case served =>
    intro c call hcall hzero _
    replace hcall := (hcalls c).symm.trans hcall
    split at hcall
    · -- the new call waits for its own task
      cases hcall
      exact Or.inl ⟨_, List.mem_append_right _ (List.mem_singleton_self _), rfl⟩
    · rcases h.served c call hcall hzero nofun with ⟨task, hmem, htoken⟩ | hevent | hhead | hc
      · exact Or.inl ⟨task, List.mem_append_left _ hmem, htoken⟩
      · exact Or.inr (Or.inl hevent)
      · exact Or.inr (Or.inr (Or.inl hhead))
      · exact Or.inr (Or.inr (Or.inr (hpending.symm ▸ hc)))

/-- A task becomes the event that it posts. The calls it served are served by the event, which has
the token of the task; without credentials the arguments of the event hold that token, too. -/
theorem Inv.runTask (h : s.Inv) {i : Nat} {task : Task} (htask : s.tasks[i]? = some task)
    (entry : Option Entry) :
    ({ s with
      tasks := s.tasks.eraseIdx i
      events := s.events ++ [getHttpAuthCallbackIo spec task entry] } : HttpAuth).Inv := by
  constructor
  case page => exact h.page
  case event =>
    intro event hevent ev url realm scheme deep hargs
    rcases List.mem_append.mp hevent with hevent | hevent
    · exact h.event event hevent ev url realm scheme deep hargs
    · rw [List.mem_singleton.mp hevent] at hargs ⊢
      -- the event that was posted just now; only a challenge has a token among its arguments
      rw [token_getHttpAuthCallbackIo]
      unfold getHttpAuthCallbackIo at hargs
      simp only at hargs
      split at hargs
      · cases hargs
      · cases hargs
        rfl
  case args => exact h.args
  case head => exact h.head
  case served =>
    intro c call hcall hzero _
    rcases h.served c call hcall hzero nofun with
      ⟨task', hmem, htoken⟩ | ⟨event, hmem, htoken⟩ | hrest
    · rcases (mem_iff_of_getElem? htask task').mp hmem with rfl | hmem
      · -- the task has become an event under its token
        refine Or.inr (Or.inl ⟨_, List.mem_append_right _ (List.mem_singleton_self _), ?_⟩)
        rw [token_getHttpAuthCallbackIo, htoken]
      · exact Or.inl ⟨task', hmem, htoken⟩
    · exact Or.inr (Or.inl ⟨event, List.mem_append_left _ hmem, htoken⟩)
    · exact Or.inr (Or.inr hrest)

/-- **An event is dispatched.** The listeners with its token are to be called, and by the invariant
these are the calls with the token that wait: those that the event served. -/
theorem Inv.dispatch (h : s.Inv) (hidle : s.page.Idle) {i : Nat} {event : Event}
    (hevent : s.events[i]? = some event) :
    ({ s with
      page := s.page.dispatch event.token
      events := s.events.eraseIdx i
      args := event.args } : HttpAuth).Inv := by
  have hlistening : ∀ c, c ∈ s.page.listening event.token ↔
      ∃ call, s.page.calls[c]? = some call ∧ call.token = event.token ∧ s.page.Waiting c :=
    fun c => h.page.mem_listening_iff_waiting hidle.2
  constructor
  case page => exact h.page.dispatch hidle.2 event.token
  case event => exact fun event' hmem => h.event event' (List.mem_of_mem_eraseIdx hmem)
  case args =>
    intro ev url realm scheme deep hargs c hc call hcall
    obtain ⟨call', hcall', htoken, -⟩ := (hlistening c).mp hc
    have hsame : call = call' := Option.some.inj (hcall.symm.trans hcall')
    rw [hsame, htoken]
    exact h.event event (List.mem_of_getElem? hevent) ev url realm scheme deep hargs
  case head => exact h.head
  case served =>
    intro c call hcall hzero _
    rcases h.served c call hcall hzero nofun with htask | ⟨event', hmem, htoken⟩ | hhead | hc
    · exact Or.inl htask
    · rcases (mem_iff_of_getElem? hevent event').mp hmem with rfl | hmem
      · -- the event now goes to this call, too
        refine Or.inr (Or.inr (Or.inr ((hlistening c).mpr ?_)))
        exact ⟨call, hcall, htoken.symm, call, hcall, hzero⟩
      · exact Or.inr (Or.inl ⟨event', hmem, htoken⟩)
    · exact Or.inr (Or.inr (Or.inl hhead))
    · rw [hidle.1] at hc
      cases hc

/-- A waiting call that gets an event sends a request or runs its callback. -/
theorem InvBut.listener {c : Nat} (h : s.InvBut (some c)) (hwaiting : s.page.Waiting c)
    (hcallback : s.page.callback = none) (hc : c ∉ s.page.pending)
    (hev : ∀ ev url realm scheme deep, s.args = .challenge ev url realm scheme deep →
      ∀ call, s.page.calls[c]? = some call → ev = call.token) : (s.listener c).Inv := by
  unfold HttpAuth.listener
  split
  · rename_i ev url realm scheme deep hargs
    split
    · constructor
      case page => exact h.page
      case event => exact h.event
      case args => exact h.args
      -- the first attempt: the listener sends a request, which serves the call from now on
      case head =>
        intro head hhead
        rcases List.mem_append.mp hhead with hhead | hhead
        · exact h.head head hhead
        · rw [List.mem_singleton.mp hhead]
          obtain ⟨call, hcall, -⟩ := hwaiting
          exact ⟨call, hcall, hev ev url realm scheme deep hargs call hcall⟩
      case served =>
        intro k call hcall hzero _
        by_cases hk : k = c
        · refine Or.inr (Or.inr (Or.inl
            ⟨_, List.mem_append_right _ (List.mem_singleton_self _), ?_⟩))
          exact hk.symm
        · rcases h.served k call hcall hzero (fun heq => hk (Option.some.inj heq)) with
            htask | hevent | ⟨head, hmem, hhead⟩ | hk
          · exact Or.inl htask
          · exact Or.inr (Or.inl hevent)
          · exact Or.inr (Or.inr (Or.inl ⟨head, List.mem_append_left _ hmem, hhead⟩))
          · exact Or.inr (Or.inr (Or.inr hk))
    · exact h.runCallback hwaiting hcallback hc _
  · exact h.runCallback hwaiting hcallback hc _

/-- The next listener gets the event. Its call is no longer among those that the event is still to
reach, and what the listener does serves it again or answers it. -/
theorem Inv.next (h : s.Inv) (hcallback : s.page.callback = none) {c : Nat} {rest : List Nat}
    (hpending : s.page.pending = c :: rest) :
    (HttpAuth.listener { s with page := { s.page with pending := rest } } c).Inv := by
  have hmem : ∀ k, k ∈ s.page.pending ↔ k = c ∨ k ∈ rest := by
    intro k
    rw [hpending, List.mem_cons]
  have hwaiting : s.page.Waiting c := h.page.pendingWaiting c ((hmem c).mpr (Or.inl rfl))
  have hnodup := h.page.pendingNodup
  rw [hpending, List.nodup_cons] at hnodup
  refine InvBut.listener ?_ hwaiting hcallback hnodup.1 ?_
  · -- without its place in the queue the call itself is not served
    constructor
    case page => exact h.page.pop hpending
    case event => exact h.event
    case args =>
      intro ev url realm scheme deep hargs k hk
      exact h.args ev url realm scheme deep hargs k ((hmem k).mpr (Or.inr hk))
    case head => exact h.head
    case served =>
      intro k call hcall hzero hne
      rcases h.served k call hcall hzero nofun with htask | hevent | hhead | hk
      · exact Or.inl htask
      · exact Or.inr (Or.inl hevent)
      · exact Or.inr (Or.inr (Or.inl hhead))
      · rcases (hmem k).mp hk with rfl | hk
        · exact absurd rfl hne
        · exact Or.inr (Or.inr (Or.inr hk))
  · intro ev url realm scheme deep hargs
    exact h.args ev url realm scheme deep hargs c ((hmem c).mpr (Or.inl rfl))

/-- The callback returns, and with the last listener the event is done: no call waited for the rest
of it. -/
theorem Inv.finish (h : s.Inv) : ({ s with page := s.page.finish } : HttpAuth).Inv := by
  have hcalls := NWEvents.calls_finish s.page
  have hpending := NWEvents.pending_finish s.page
  refine ⟨h.page.finish, h.event, ?_, ?_, ?_⟩
  · simp only [hcalls, hpending]
    exact h.args
  · simp only [hcalls]
    exact h.head
  · simp only [hcalls, Served, hpending]
    exact h.served

/-- The end of a request: a second native call under the same token, or the callback. -/
theorem InvBut.headDone {head : Head} (h : s.InvBut (some head.call)) (hidle : s.page.Idle)
    (hev : ∃ call, s.page.calls[head.call]? = some call ∧ head.ev = call.token) {status : Nat}
    (hok : status = 407 → s.page.Waiting head.call) : (s.headDone head status).Inv := by
  unfold HttpAuth.headDone
  split
  · constructor
    case page => exact h.page
    case event => exact h.event
    case args => exact h.args
    case head => exact h.head
    case served =>
      intro c call hcall hzero _
      by_cases hc : c = head.call
      · -- the next task is under the token of the call
        obtain ⟨call', hcall', hev⟩ := hev
        rw [hc, hcall'] at hcall
        cases hcall
        exact Or.inl ⟨_, List.mem_append_right _ (List.mem_singleton_self _), hev⟩
      · rcases h.served c call hcall hzero (fun heq => hc (Option.some.inj heq)) with
          ⟨task, hmem, htoken⟩ | hrest
        · exact Or.inl ⟨task, List.mem_append_left _ hmem, htoken⟩
        · exact Or.inr hrest
  · rename_i hstatus
    refine h.runCallback (hok (not_not.mp hstatus)) hidle.2 ?_ _
    rw [hidle.1]
    exact List.not_mem_nil

/-- A request ends. The condition is that with status 407 the call still waits: it may have been
answered by the event of another call in the meantime, and the source does not look. -/
theorem Inv.done (h : s.Inv) (hidle : s.page.Idle) {i : Nat} {head : Head}
    (hhead : s.heads[i]? = some head) {status : Nat}
    (hok : status = 407 → s.page.Waiting head.call) :
    (HttpAuth.headDone { s with heads := s.heads.eraseIdx i } head status).Inv := by
  have hbut : ({ s with heads := s.heads.eraseIdx i } : HttpAuth).InvBut (some head.call) := by
    refine ⟨h.page, h.event, h.args,
      fun head' hmem => h.head head' (List.mem_of_mem_eraseIdx hmem), ?_⟩
    intro c call hcall hzero hne
    rcases h.served c call hcall hzero nofun with htask | hevent | ⟨head', hmem, rfl⟩ | hc
    · exact Or.inl htask
    · exact Or.inr (Or.inl hevent)
    · rcases (mem_iff_of_getElem? hhead head').mp hmem with rfl | hmem
      · -- the request that is done is that of the call left out
        exact absurd rfl hne
      · exact Or.inr (Or.inr (Or.inl ⟨head', hmem, rfl⟩))
    · exact Or.inr (Or.inr (Or.inr hc))
  exact hbut.headDone hidle (h.head head (List.mem_of_getElem? hhead)) hok

/-- **A step that meets the condition keeps the invariant.** One case an operation; the condition is
needed where a request ends. -/
theorem Inv.step (h : s.Inv) {op : Op} {t : HttpAuth} (hok : StepOk s op)
    (hst : step spec s op = some t) : t.Inv := by
  cases op with
  | getHttpAuth url realm scheme =>
    simp only [HttpAuth.step, Option.ite_none_right_eq_some, Option.some.injEq] at hst
    obtain ⟨-, rfl⟩ := hst
    exact h.getHttpAuth url realm scheme
  | runTask i entry =>
    obtain ⟨task, htask, rfl⟩ := Option.map_eq_some_iff.mp hst
    exact h.runTask htask entry
  | dispatch i =>
    simp only [HttpAuth.step, Option.ite_none_right_eq_some] at hst
    obtain ⟨hidle, hst⟩ := hst
    obtain ⟨event, hevent, rfl⟩ := Option.map_eq_some_iff.mp hst
    exact h.dispatch hidle hevent
  | listener =>
    simp only [HttpAuth.step] at hst
    split at hst
    · rename_i c rest hcallback hpending
      cases hst
      exact h.next hcallback hpending
    · cases hst
  | «return» =>
    simp only [HttpAuth.step, Option.ite_none_right_eq_some, Option.some.injEq] at hst
    obtain ⟨-, rfl⟩ := hst
    exact h.finish
  | headDone i status =>
    simp only [HttpAuth.step, Option.ite_none_right_eq_some] at hst
    obtain ⟨hidle, hst⟩ := hst
    obtain ⟨head, hhead, rfl⟩ := Option.map_eq_some_iff.mp hst
    -- the condition is about a head that ends with 407
    refine h.done hidle hhead ?_
    rintro rfl
    exact hok head hhead

/-- A step to a safe state meets the condition: the callback of a call that has run would run
again. -/
theorem Inv.stepOk (h : s.Inv) {op : Op} {t : HttpAuth} (hsafe : t.Safe)
    (hst : HttpAuth.step spec s op = some t) : StepOk s op := by
  unfold StepOk
  split
  · rename_i i
    simp only [HttpAuth.step, Option.ite_none_right_eq_some] at hst
    obtain ⟨-, hst⟩ := hst
    obtain ⟨head, hhead, rfl⟩ := Option.map_eq_some_iff.mp hst
    intro head' hhead'
    have hsame : head = head' := Option.some.inj (hhead.symm.trans hhead')
    subst hsame
    obtain ⟨call, hcall, -⟩ := h.head head (List.mem_of_getElem? hhead)
    refine ⟨call, hcall, ?_⟩
    -- the status makes the callback run
    have hagain : (s.page.complete head.call).calls[head.call]? =
        some { call with runs := call.runs + 1 } := by
      rw [NWEvents.getElem?_complete, hcall, Option.map_some, if_pos rfl]
    have hle := hsafe.once head.call _ hagain
    exact Nat.le_zero.mp (Nat.le_of_succ_le_succ hle)
  · trivial

/-! ## Everything ends

With `n` calls an event goes to at most `n` listeners, and a request makes at most one more event,
whose listeners send none. -/

/-- What a listener that gets an event has to do at most. -/
def Args.work (n : Nat) : Args → Nat
  | .challenge _ _ _ _ deep => if deep = 0 then 4 + 2 * n else 2
  | .credentials .. => 2

def Event.work (n : Nat) (event : Event) : Nat := 1 + n * event.args.work n

def Task.work (n : Nat) (task : Task) : Nat :=
  2 + n * if task.deep = 0 then 4 + 2 * n else 2

/-- What is to be done for `n` calls before nothing is outstanding, without the calls. -/
def workFor (s : HttpAuth) (n : Nat) : Nat :=
  (s.tasks.map (Task.work n)).sum + (s.events.map (Event.work n)).sum +
    s.heads.length * (3 + 2 * n) +
    s.page.pending.length * s.args.work n + if s.page.callback.isSome then 1 else 0

def work (s : HttpAuth) : Nat := s.workFor s.page.calls.length

/-- An operation that is no new call. -/
def Op.Settles : Op → Prop
  | .getHttpAuth .. => False
  | _ => True

/-- A task has more to do than the event it posts: one event to every call, and for a first attempt
a request and a second attempt of each. -/
theorem work_getHttpAuthCallbackIo (n : Nat) (task : Task) (entry : Option Entry) :
    (getHttpAuthCallbackIo spec task entry).work n < task.work n := by
  unfold getHttpAuthCallbackIo Task.work Event.work
  simp only
  split
  · have hle : n * 2 ≤ n * if task.deep = 0 then 4 + 2 * n else 2 := by
      refine Nat.mul_le_mul_left n ?_
      split <;> omega
    simp only [Args.work]
    omega
  · simp only [Args.work]
    omega

/-- To run a callback is one thing to do, its return. The call is answered, which adds nothing. -/
theorem work_runCallback (hcallback : s.page.callback = none) (c : Nat) (arguments : List String) :
    (s.runCallback c arguments).work = s.work + 1 := by
  have hlength : (s.page.complete c).calls.length = s.page.calls.length := List.length_modify ..
  simp only [work, runCallback, hlength]
  simp [workFor, NWEvents.complete, hcallback]

/-- A listener uses up its share of the event: it runs a callback, or it sends the request of a
first attempt, whose second attempt is paid for. -/
theorem work_listener (hcallback : s.page.callback = none) (c : Nat) :
    (s.listener c).work < s.work + s.args.work s.page.calls.length := by
  unfold listener
  split
  · rename_i ev url realm scheme deep hargs
    rw [hargs, Args.work]
    split
    · rename_i hdeep
      simp only [work, workFor, hargs, List.length_append, List.length_singleton, Nat.add_one_mul]
      omega
    · rw [work_runCallback hcallback]
      omega
  · rename_i url username password hargs
    rw [hargs, work_runCallback hcallback, Args.work]
    omega

/-- A request that is done runs a callback or posts the second attempt, whose events are final. -/
theorem work_headDone (hcallback : s.page.callback = none) (head : Head) (status : Nat) :
    (s.headDone head status).work < s.work + (3 + 2 * s.page.calls.length) := by
  unfold headDone
  split
  · simp only [work, workFor, List.map_append, List.map_singleton, List.sum_append,
      List.sum_singleton, Task.work, Nat.add_one_ne_zero, if_false]
    omega
  · rw [work_runCallback hcallback]
    omega

/-- An operation that is no new call leaves the calls and less to do. -/
theorem work_step {op : Op} (hop : op.Settles) {t : HttpAuth} (hst : step spec s op = some t) :
    t.work < s.work := by
  cases op with
  | getHttpAuth url realm scheme => exact hop.elim
  | runTask i entry =>
    obtain ⟨task, htask, rfl⟩ := Option.map_eq_some_iff.mp hst
    -- a task is worth more than the one it becomes
    have hsum := sum_eraseIdx htask (Task.work s.page.calls.length)
    have hlt : (getHttpAuthCallbackIo spec task entry).work s.page.calls.length <
        task.work s.page.calls.length := work_getHttpAuthCallbackIo _ task entry
    simp only [work, workFor, List.map_append, List.sum_append, List.map_singleton,
      List.sum_singleton]
    omega
  | dispatch i =>
    simp only [step, Option.ite_none_right_eq_some] at hst
    obtain ⟨hidle, hst⟩ := hst
    obtain ⟨event, hevent, rfl⟩ := Option.map_eq_some_iff.mp hst
    have hsum := sum_eraseIdx hevent (Event.work s.page.calls.length)
    -- an event goes to the listeners with its token, which are at most all calls
    have hmul := Nat.mul_le_mul_right (event.args.work s.page.calls.length)
      (NWEvents.length_listening_le s.page event.token)
    rw [Event.work] at hsum
    simp only [work, workFor, NWEvents.dispatch, hidle.1, hidle.2, List.length_nil, Nat.zero_mul,
      Option.isSome_none, Bool.false_eq_true, if_false]
    omega
  | listener =>
    simp only [step] at hst
    split at hst
    · rename_i c rest hcallback hpending
      cases hst
      -- the next listener was counted with the arguments it is called with
      have hpop : ({ s with page := { s.page with pending := rest } } : HttpAuth).work +
          s.args.work s.page.calls.length = s.work := by
        simp only [work, workFor, hpending, List.length_cons, Nat.add_one_mul]
        omega
      rw [← hpop]
      exact work_listener (s := { s with page := { s.page with pending := rest } }) hcallback c
    · cases hst
  | «return» =>
    simp only [step, Option.ite_none_right_eq_some, Option.some.injEq] at hst
    obtain ⟨hcallback, rfl⟩ := hst
    simp only [work, workFor, NWEvents.calls_finish, NWEvents.pending_finish,
      NWEvents.callback_finish, hcallback]
    simp
  | headDone i status =>
    simp only [step, Option.ite_none_right_eq_some] at hst
    obtain ⟨hidle, hst⟩ := hst
    obtain ⟨head, hhead, rfl⟩ := Option.map_eq_some_iff.mp hst
    have hlength := List.length_eraseIdx_add_one (List.getElem?_eq_some_iff.mp hhead).1
    -- a head is worth the events that its end may send
    have hdrop : ({ s with heads := s.heads.eraseIdx i } : HttpAuth).work +
        (3 + 2 * s.page.calls.length) = s.work := by
      simp only [work, workFor, ← hlength, Nat.add_one_mul]
      omega
    rw [← hdrop]
    exact work_headDone (s := { s with heads := s.heads.eraseIdx i }) hidle.2 head status

/-! ## Whole runs -/

/-- **One callback for each call.** In a run every state reached is safe exactly when every step
meets `StepOk`; and from any state everything that is outstanding comes to an end. -/
theorem http_auth_once (spec : String → String) (ops : List Op) (s : HttpAuth) :
    (Run (Guarded (StepSafe spec) (ofPartial (step spec))) {} ops s ↔
      Run (Guarded StepOk (ofPartial (step spec))) {} ops s) ∧
    ∀ ops' t, Run (Guarded (fun _ op => op.Settles) (ofPartial (step spec))) s ops' t →
      ops'.length ≤ s.work := by
  constructor
  · refine Run.owed_iff (fun _ _ _ h hok hst => Inv.step h hok hst) (fun _ h => h.safe) ?_ Inv.init
    exact fun s op t h hst hsafe => h.stepOk hsafe hst
  · intro ops' t hrun
    have hle := hrun.length_le (m := work) fun _ _ _ hst => work_step hst.1 hst.2
    omega

/-- Two calls for one URL, without credentials. -/
def twoCalls : List Op :=
  [.getHttpAuth "http://a/" "" "", .getHttpAuth "http://a/" "" "", .runTask 0 none,
    .runTask 0 none, .dispatch 0, .listener, .listener, .dispatch 0, .listener, .listener,
    .headDone 0 407, .return, .headDone 1 407]

/-- Each call sends two requests, and both end with status 407: the second one runs the callback of
a call that is answered. -/
theorem twoCalls_not_safe :
    ¬ ∀ (ops : List Op) (s : HttpAuth), Run (ofPartial (step id)) {} ops s → s.Safe := by
  intro hall
  obtain ⟨s, hs, call, hcall, htwice⟩ : ∃ s, exec (fun _ _ => True) (step id) twoCalls {} = some s ∧
      ∃ call, s.page.calls[0]? = some call ∧ call.runs = 2 := ⟨_, rfl, _, rfl, rfl⟩
  have hle := (hall twoCalls s (Run.of_exec hs).unguard).once 0 call hcall
  omega

end HttpAuth

end NodeWebkit.App
