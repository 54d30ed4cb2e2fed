import NodeWebkit.App.NWEvents
import NodeWebkit.Lib.Run
import Mathlib.Data.List.AList

/-!
# nw.App.getHttpProxy

A call waits for an event under the token of its URL. On the IO thread its token is added to the
entry of the URL in `url_proxy_map_`, and a first event with the URL alone is posted: every listener
of the token that gets it sends a HEAD request. `NWJSNetworkDelegate` sees the requests of all
tokens: it records the proxy of a request in the entry of the URL, and when the request is done it
posts an event with the proxy for every token of the entry and erases the entry. That event runs the
callbacks of the listeners.

* `spec` — `GURL(url).spec()`.

Other requests of the network delegate than those of the listeners may be to a URL of the map, too.
Posted tasks, dispatched events and requests end in any order. The callbacks return normally; the
application may make further calls in them and between the events.

## The proof

Two things are promised, and they need different invariants:

* **`Inv`** — every call that waits is served, and every answer is the proxy of a request to the
  call's own URL. It holds in every run, so the answers need no condition.
* **`Drains`** — every entry of the map has something under way that ends in a request to its URL.
  It is kept by the steps that meet `StepOk`: a first event must not find all its listeners gone
  while its entry stays.
* **`work`** — a measure of what is under way; every operation that settles lowers it.
-/

namespace NodeWebkit.App

open Lts

namespace HttpProxy

/-- The parameters of `GetHttpProxyCallbackIO`, posted to the IO thread. -/
structure Task where
  url : String
  token : String
  deriving DecidableEq

/-- What `net::HostPortPair` is asked for. -/
structure HostPortPair where
  hostForURL : String
  toString : String
  deriving DecidableEq

structure EventToken where
  proxy : String
  tokens : List String
  deriving DecidableEq

/-- The arguments of an event. -/
inductive Args where
  | first (url : String)
  | result (url proxy : String)
  deriving DecidableEq

def Args.url : Args → String
  | .first url => url
  | .result url _ => url

structure Event where
  token : String
  args : Args
  deriving DecidableEq

end HttpProxy

structure HttpProxy where
  page : NWEvents := {}
  tasks : List HttpProxy.Task := []
  urlProxyMap : AList fun _ : String => HttpProxy.EventToken := ∅
  events : List HttpProxy.Event := []
  /-- The HEAD requests under way, by their URLs. -/
  heads : List String := []
  /-- The arguments of the event that is dispatched. -/
  args : HttpProxy.Args := .first ""
  /-- What the callbacks were called with, the last call at the end. -/
  results : List (Nat × List String) := []
  /-- The proxies of the requests the network delegate saw, `""` for none, with their URLs. -/
  seen : List (String × String) := []

namespace HttpProxy

/-- The proxy that a request has, or that asks for credentials. -/
def HostPortPair.proxy (pair : HostPortPair) : String :=
  if pair.hostForURL ≠ "" then pair.toString else ""

def EventToken.record (entry : EventToken) (pair : HostPortPair) : EventToken :=
  if pair.hostForURL ≠ "" then { entry with proxy := pair.toString } else entry

/-- `HandleURLProxyListener` for a request to `urlSpec`. -/
def handleURLProxyListener (s : HttpProxy) (urlSpec : String) (pair : HostPortPair)
    (runCallback : Bool) : HttpProxy :=
  match s.urlProxyMap.lookup urlSpec with
  | some entry =>
    let entry := entry.record pair
    if runCallback then
      { s with
        events := s.events ++ entry.tokens.map fun token => ⟨token, .result urlSpec entry.proxy⟩
        urlProxyMap := s.urlProxyMap.erase urlSpec }
    else { s with urlProxyMap := s.urlProxyMap.insert urlSpec entry }
  | none => s

/-- A request to `urlSpec` gets to one of the hooks of `NWJSNetworkDelegate`. -/
def onRequest (s : HttpProxy) (urlSpec : String) (pair : HostPortPair) (completed : Bool) :
    HttpProxy :=
  { s with seen := s.seen ++ [(urlSpec, pair.proxy)] }.handleURLProxyListener urlSpec pair completed

/-- `AddURLProxyListener`. -/
def addURLProxyListener (s : HttpProxy) (url token : String) : HttpProxy :=
  match s.urlProxyMap.lookup url with
  | none => { s with urlProxyMap := s.urlProxyMap.insert url ⟨"", [token]⟩ }
  | some entry =>
    { s with
      urlProxyMap := s.urlProxyMap.insert url { entry with tokens := entry.tokens ++ [token] } }

/-- `GetHttpProxyCallbackIO`. -/
def getHttpProxyCallbackIo (s : HttpProxy) (task : Task) : HttpProxy :=
  let s := s.addURLProxyListener task.url task.token
  { s with events := s.events ++ [⟨task.token, .first task.url⟩] }

/-- `nw.App.getHttpProxy` of a valid URL by the application. -/
def getHttpProxy (spec : String → String) (s : HttpProxy) (url : String) : HttpProxy :=
  let token := "getHttpProxy " ++ url
  { s with
    page := s.page.register token
    tasks := s.tasks ++ [⟨spec url, token⟩] }

/-- `getHttpProxyListener` of a call. -/
def listener (s : HttpProxy) (c : Nat) : HttpProxy :=
  match s.args with
  | .result url proxy =>
    { s with
      page := s.page.complete c
      results := s.results ++ [(c, [url, proxy])] }
  | .first url => { s with heads := s.heads ++ [url] }

inductive Op where
  | getHttpProxy (url : String)
  | runTask (i : Nat)
  | dispatch (i : Nat)
  /-- The next listener gets the event that is dispatched. -/
  | listener
  /-- The callback that is running returns. -/
  | return
  /-- The headers of a request are received, or its proxy asks for credentials. -/
  | request (url : String) (pair : HostPortPair)
  | headCompleted (i : Nat) (pair : HostPortPair)
  /-- A request is done that no listener has sent. -/
  | otherCompleted (url : String) (pair : HostPortPair)
  deriving DecidableEq

/-- The page's thread takes up an event when it is done with the last one. The application calls in
a callback or while no event is dispatched. -/
def step (spec : String → String) (s : HttpProxy) : Op → Option HttpProxy
  | .getHttpProxy url =>
    if s.page.callback.isSome ∨ s.page.pending = [] then some (getHttpProxy spec s url) else none
  | .runTask i =>
    (s.tasks[i]?).map fun task => getHttpProxyCallbackIo { s with tasks := s.tasks.eraseIdx i } task
  | .dispatch i =>
    if s.page.Idle then
      (s.events[i]?).map fun event =>
        { s with
          page := s.page.dispatch event.token
          events := s.events.eraseIdx i
          args := event.args }
    else none
  | .listener =>
    match s.page.callback, s.page.pending with
    | none, c :: rest => some (listener { s with page := { s.page with pending := rest } } c)
    | _, _ => none
  | .return => if s.page.callback.isSome then some { s with page := s.page.finish } else none
  | .request url pair => some (s.onRequest url pair false)
  | .headCompleted i pair =>
    (s.heads[i]?).map fun url => onRequest { s with heads := s.heads.eraseIdx i } url pair true
  | .otherCompleted url pair => some (s.onRequest url pair true)

/-! ## What the calls are promised

`Answered` is about the calls and `Drains` about the map; `Safe` is the two of them, and the second
half of it says that the map is empty where nothing is under way. -/

/-- Nothing is outstanding. -/
def Quiescent (s : HttpProxy) : Prop :=
  s.page.Idle ∧ s.tasks = [] ∧ s.events = [] ∧ s.heads = []

/-- No callback ran twice, and each got a proxy of a request to its own URL; when nothing is
outstanding all have run and nothing is left of the calls in the page. -/
structure Answered (spec : String → String) (s : HttpProxy) : Prop where
  once : ∀ (c : Nat) (call : Call), s.page.calls[c]? = some call → call.runs ≤ 1
  own : ∀ result ∈ s.results, ∃ call url proxy, s.page.calls[result.1]? = some call ∧
    call.token = "getHttpProxy " ++ url ∧ result.2 = [spec url, proxy] ∧ (spec url, proxy) ∈ s.seen
  clean : s.Quiescent →
    (∀ (c : Nat) (call : Call), s.page.calls[c]? = some call → call.runs = 1) ∧
    (∀ e, s.page.listeners e = []) ∧ ∀ t, s.page.nwEventTokens t = none

/-- When nothing is outstanding no entry is left in `url_proxy_map_`, either. -/
structure Safe (spec : String → String) (s : HttpProxy) : Prop extends Answered spec s where
  drained : s.Quiescent → s.urlProxyMap = ∅

/-- Something under way for the URL that leads to a request, the listeners willing. -/
def Underway (s : HttpProxy) (url : String) : Prop :=
  url ∈ s.heads ∨ (∃ task ∈ s.tasks, task.url = url) ∨ ∃ event ∈ s.events, event.args = .first url

/-- A first event that no listener gets finds no entry for its URL, or something else is under way
for the URL. -/
def StepOk (s : HttpProxy) : Op → Prop
  | .dispatch i => ∀ event ∈ s.events[i]?, ∀ url, event.args = .first url →
    s.page.listening event.token = [] → url ∈ s.urlProxyMap →
    Underway { s with events := s.events.eraseIdx i } url
  | _ => True

/-! ## Answers

A proxy that is passed on has been seen by the network delegate in a request to the URL it is for.
What is known of an event is kept when more requests are seen. -/

/-- A token of a URL whose spec is `url`. -/
def OfUrl (spec : String → String) (token url : String) : Prop :=
  ∃ u, token = "getHttpProxy " ++ u ∧ spec u = url

/-- The arguments of an event are for the URL of its token, and the proxy is of a request to it. -/
def Args.Known (spec : String → String) (seen : List (String × String)) (token : String) :
    Args → Prop
  | .first url => OfUrl spec token url
  | .result url proxy => OfUrl spec token url ∧ (url, proxy) ∈ seen

def Args.IsResult : Args → Prop
  | .first _ => False
  | .result .. => True

/-- The token of a call is in an entry, and the call has a request or will send one. -/
def Asked (s : HttpProxy) (c : Nat) (token : String) : Prop :=
  ∃ url entry, s.urlProxyMap.lookup url = some entry ∧ token ∈ entry.tokens ∧
    (url ∈ s.heads ∨ ⟨token, .first url⟩ ∈ s.events ∨ (c ∈ s.page.pending ∧ s.args = .first url))

/-- What a waiting call waits for. -/
def Served (s : HttpProxy) (c : Nat) (token : String) : Prop :=
  (∃ task ∈ s.tasks, task.token = token) ∨
    (∃ event ∈ s.events, event.token = token ∧ event.args.IsResult) ∨
    (c ∈ s.page.pending ∧ s.args.IsResult) ∨ s.Asked c token

structure Inv (spec : String → String) (s : HttpProxy) : Prop where
  page : s.page.Ok
  task : ∀ task ∈ s.tasks, OfUrl spec task.token task.url
  entry : ∀ url entry, s.urlProxyMap.lookup url = some entry →
    (∀ token ∈ entry.tokens, OfUrl spec token url) ∧
      (entry.proxy = "" ∨ (url, entry.proxy) ∈ s.seen)
  event : ∀ event ∈ s.events, event.args.Known spec s.seen event.token
  args : ∀ c ∈ s.page.pending, ∀ call, s.page.calls[c]? = some call →
    s.args.Known spec s.seen call.token
  own : ∀ result ∈ s.results, ∃ call url proxy, s.page.calls[result.1]? = some call ∧
    call.token = "getHttpProxy " ++ url ∧ result.2 = [spec url, proxy] ∧ (spec url, proxy) ∈ s.seen
  served : ∀ (c : Nat) (call : Call), s.page.calls[c]? = some call → call.runs = 0 →
    s.Served c call.token

variable {spec : String → String} {s : HttpProxy}

theorem Args.Known.mono {seen seen' : List (String × String)} {token : String} {args : Args}
    (h : args.Known spec seen token) (hseen : ∀ x ∈ seen, x ∈ seen') :
    args.Known spec seen' token := by
  cases args with
  | first url => exact h
  | result url proxy => exact ⟨h.1, hseen _ h.2⟩

theorem Inv.init : ({} : HttpProxy).Inv spec := by
  constructor
  case page => exact NWEvents.Ok.init
  case task => exact fun _ h => absurd h List.not_mem_nil
  case entry => exact nofun
  case event => exact fun _ h => absurd h List.not_mem_nil
  case args => exact fun _ h => absurd h List.not_mem_nil
  case own => exact fun _ h => absurd h List.not_mem_nil
  case served => exact nofun

/-- **Exactly once.** A call that waits is served by something under way, and the results of a call
come from its own listener, which goes with the first of them. -/
theorem Inv.answered (h : s.Inv spec) : s.Answered spec := by
  refine ⟨fun c call hcall => h.page.runs_le hcall, h.own, ?_⟩
  rintro ⟨hidle, htasks, hevents, hheads⟩
  have hall : ∀ (c : Nat) (call : Call), s.page.calls[c]? = some call → call.runs = 1 := by
    intro c call hcall
    rcases h.page.runs c call hcall with ⟨hzero, -⟩ | ⟨hone, -⟩
    · -- a waiting call is served by something outstanding
      have hserved := h.served c call hcall hzero
      simp only [Served, Asked, htasks, hevents, hheads, hidle.1] at hserved
      simp at hserved
    · exact hone
  exact ⟨hall, h.page.clean hidle hall⟩

/-! ## Steps

The parts of the invariant travel along the way of a call: task, entry, event, request, and the
second event. Each step moves what serves a call one place further. -/

/-- A new call registers its listener and posts a task with its token and its URL, which serves it.
-/
theorem Inv.getHttpProxy (h : s.Inv spec) (url : String) : (getHttpProxy spec s url).Inv spec := by
  obtain ⟨e, hcalls⟩ := NWEvents.getElem?_register s.page ("getHttpProxy " ++ url)
  have hpending : (HttpProxy.getHttpProxy spec s url).page.pending = s.page.pending :=
    NWEvents.pending_register s.page _
  constructor
  case page => exact h.page.register _
  case task =>
    intro task htask
    rcases List.mem_append.mp htask with htask | htask
    · exact h.task task htask
    · rw [List.mem_singleton.mp htask]
      exact ⟨url, rfl, rfl⟩
  case entry => exact h.entry
  case event => exact h.event
  case args =>
    intro c hc call hcall
    rw [hpending] at hc
    exact h.args c hc call (h.page.getElem?_of_pending hc hcall)
  case own =>
    intro result hresult
    obtain ⟨call, u, proxy, hcall, hown⟩ := h.own result hresult
    exact ⟨call, u, proxy, NWEvents.getElem?_register_of_some hcall _, hown⟩
  case served =>
    intro c call hcall hzero
    replace hcall := (hcalls c).symm.trans hcall
    split at hcall
    · -- the new call waits for its own task
      cases hcall
      exact Or.inl ⟨_, List.mem_append_right _ (List.mem_singleton_self _), rfl⟩
    · have hserved := h.served c call hcall hzero
      unfold Served Asked at hserved ⊢
      rw [hpending]
      refine hserved.imp_left ?_
      rintro ⟨task, hmem, htoken⟩
      exact ⟨task, List.mem_append_left _ hmem, htoken⟩

theorem lookup_insert {url : String} {entry : EventToken} (u : String) :
    (s.urlProxyMap.insert url entry).lookup u =
      if u = url then some entry else s.urlProxyMap.lookup u := by
  split
  · rename_i heq
    rw [heq, AList.lookup_insert]
  · rename_i hne
    rw [AList.lookup_insert_ne hne]

/-- An entry that is replaced by one with more tokens still serves the calls it served, and a task
that becomes an entry with its first event serves the calls of its token. -/
theorem Served.insert {c : Nat} {token url : String} {entry : EventToken} {tasks : List Task}
    {events : List Event} {seen : List (String × String)} (h : s.Served c token)
    (hentry : ∀ old, s.urlProxyMap.lookup url = some old → ∀ t ∈ old.tokens, t ∈ entry.tokens)
    (htasks : ∀ task ∈ s.tasks, task.token = token →
      task ∈ tasks ∨ (task.token ∈ entry.tokens ∧ ⟨task.token, .first url⟩ ∈ events))
    (hevents : ∀ event ∈ s.events, event ∈ events) :
    ({ s with
      tasks := tasks
      events := events
      urlProxyMap := s.urlProxyMap.insert url entry
      seen := seen } : HttpProxy).Served c token := by
  rcases h with ⟨task, hmem, htoken⟩ | ⟨event, hmem, hevent⟩ | hpending |
    ⟨u, old, hold, htoken, hrest⟩
  · rcases htasks task hmem htoken with hmem | ⟨hin, hevent⟩
    · exact Or.inl ⟨task, hmem, htoken⟩
    · rw [htoken] at hin hevent
      refine Or.inr (Or.inr (Or.inr ⟨url, entry, AList.lookup_insert _, hin, ?_⟩))
      exact Or.inr (Or.inl hevent)
  · exact Or.inr (Or.inl ⟨event, hevents event hmem, hevent⟩)
  · exact Or.inr (Or.inr (Or.inl hpending))
  · -- an entry keeps its tokens, and what is under way for it stays
    have hrest' : u ∈ s.heads ∨ (⟨token, .first u⟩ : Event) ∈ events ∨
        (c ∈ s.page.pending ∧ s.args = .first u) := by
      rcases hrest with hhead | hevent | hpending
      · exact Or.inl hhead
      · exact Or.inr (Or.inl (hevents _ hevent))
      · exact Or.inr (Or.inr hpending)
    refine Or.inr (Or.inr (Or.inr ?_))
    by_cases hu : u = url
    · subst hu
      exact ⟨u, entry, AList.lookup_insert _, hentry old hold token htoken, hrest'⟩
    · refine ⟨u, old, ?_, htoken, hrest'⟩
      rw [AList.lookup_insert_ne hu]
      exact hold

/-- The token is added to the entry of the URL, behind those it had; a new entry has no proxy yet,
an old one keeps the proxy it may have. -/
theorem addURLProxyListener_spec (s : HttpProxy) (url token : String) :
    ∃ entry, s.addURLProxyListener url token =
        { s with urlProxyMap := s.urlProxyMap.insert url entry } ∧
      (∀ t, t ∈ entry.tokens ↔ (∃ old, s.urlProxyMap.lookup url = some old ∧ t ∈ old.tokens) ∨
        t = token) ∧
      (entry.proxy = "" ∨
        ∃ old, s.urlProxyMap.lookup url = some old ∧ entry.proxy = old.proxy) := by
  unfold addURLProxyListener
  cases hold : s.urlProxyMap.lookup url with
  | none => exact ⟨⟨"", [token]⟩, rfl, by simp, Or.inl rfl⟩
  | some old =>
    exact ⟨{ old with tokens := old.tokens ++ [token] }, rfl, by simp, Or.inr ⟨old, rfl, rfl⟩⟩

/-- A task adds its token to the map and posts the first event. A call that it served is served by
the two together: the event makes a listener send the request, whose end answers the entry. -/
theorem Inv.runTask (h : s.Inv spec) {i : Nat} {task : Task} (htask : s.tasks[i]? = some task) :
    (getHttpProxyCallbackIo { s with tasks := s.tasks.eraseIdx i } task).Inv spec := by
  obtain ⟨entry, heq, htokens, hproxy⟩ :=
    addURLProxyListener_spec { s with tasks := s.tasks.eraseIdx i } task.url task.token
  simp only at htokens hproxy
  have hown : OfUrl spec task.token task.url := h.task task (List.mem_of_getElem? htask)
  unfold getHttpProxyCallbackIo
  rw [heq]
  constructor
  case page => exact h.page
  case task => exact fun task' hmem => h.task task' (List.mem_of_mem_eraseIdx hmem)
  case entry =>
    intro url entry' hentry'
    simp only [lookup_insert] at hentry'
    split at hentry'
    · rename_i hurl
      cases hentry'
      rw [hurl]
      constructor
      · -- the tokens of the entry are those it had and that of the task
        intro token htoken
        rcases (htokens token).mp htoken with ⟨old, hold, htoken⟩ | rfl
        · exact (h.entry _ _ hold).1 token htoken
        · exact hown
      · rcases hproxy with hempty | ⟨old, hold, hproxy⟩
        · exact Or.inl hempty
        · rw [hproxy]
          exact (h.entry _ _ hold).2
    · exact h.entry url entry' hentry'
  case event =>
    intro event hevent
    rcases List.mem_append.mp hevent with hevent | hevent
    · exact h.event event hevent
    · rw [List.mem_singleton.mp hevent]
      exact hown
  case args => exact h.args
  case own => exact h.own
  case served =>
    intro c call hcall hzero
    refine Served.insert (s := s) (h.served c call hcall hzero) ?_ ?_ ?_
    · exact fun old hold t ht => (htokens t).mpr (Or.inl ⟨old, hold, ht⟩)
    · intro task' hmem _
      rcases (mem_iff_of_getElem? htask task').mp hmem with rfl | hmem
      · -- the task has become an entry and a first event
        refine Or.inr ⟨(htokens _).mpr (Or.inr rfl), ?_⟩
        exact List.mem_append_right _ (List.mem_singleton_self _)
      · exact Or.inl hmem
    · exact fun event hmem => List.mem_append_left _ hmem

/-- **An event is dispatched.** It goes to the listeners with its token, which are the calls that
wait under it. A second event answers all of them, so nobody is left unserved by it. -/
theorem Inv.dispatch (h : s.Inv spec) (hidle : s.page.Idle) {i : Nat} {event : Event}
    (hevent : s.events[i]? = some event) :
    ({ s with
      page := s.page.dispatch event.token
      events := s.events.eraseIdx i
      args := event.args } : HttpProxy).Inv spec := by
  have hlistening : ∀ c, c ∈ s.page.listening event.token ↔
      ∃ call, s.page.calls[c]? = some call ∧ call.token = event.token ∧ s.page.Waiting c :=
    fun c => h.page.mem_listening_iff_waiting hidle.2
  constructor
  case page => exact h.page.dispatch hidle.2 event.token
  case task => exact h.task
  case entry => exact h.entry
  case event => exact fun event' hmem => h.event event' (List.mem_of_mem_eraseIdx hmem)
  case args =>
    intro c hc call hcall
    obtain ⟨call', hcall', htoken, -⟩ := (hlistening c).mp hc
    have hsame : call = call' := Option.some.inj (hcall.symm.trans hcall')
    rw [hsame, htoken]
    exact h.event event (List.mem_of_getElem? hevent)
  case own => exact h.own
  case served =>
    intro c call hcall hzero
    have hmem : ∀ event', event' = event → event'.token = call.token →
        c ∈ s.page.listening event.token := by
      intro event' heq htoken
      rw [hlistening]
      exact ⟨call, hcall, heq ▸ htoken.symm, call, hcall, hzero⟩
    rcases h.served c call hcall hzero with htask | ⟨event', hin, htoken, hresult⟩ | ⟨hc, -⟩ |
      ⟨url, entry, hentry, htoken, hhead | hin | ⟨hc, -⟩⟩
    · exact Or.inl htask
    · rcases (mem_iff_of_getElem? hevent event').mp hin with heq | hin
      · -- the event now goes to this call, too
        exact Or.inr (Or.inr (Or.inl ⟨hmem event' heq htoken, heq ▸ hresult⟩))
      · exact Or.inr (Or.inl ⟨event', hin, htoken, hresult⟩)
    · rw [hidle.1] at hc
      cases hc
    · exact Or.inr (Or.inr (Or.inr ⟨url, entry, hentry, htoken, Or.inl hhead⟩))
    · refine Or.inr (Or.inr (Or.inr ⟨url, entry, hentry, htoken, Or.inr ?_⟩))
      rcases (mem_iff_of_getElem? hevent _).mp hin with heq | hin
      · exact Or.inr ⟨hmem _ heq rfl, heq ▸ rfl⟩
      · exact Or.inl hin
    · rw [hidle.1] at hc
      cases hc

/-- The listener of a call runs its callback with a proxy. The call waits no more, and what it is
given is a proxy that was seen for its URL, by what is known of the event. -/
theorem Inv.answer (h : s.Inv spec) (hcallback : s.page.callback = none) {c : Nat} {rest : List Nat}
    (hpending : s.page.pending = c :: rest) {url proxy : String}
    (hargs : s.args = .result url proxy) :
    HttpProxy.Inv spec
      { s with
        page := { s.page with pending := rest }.complete c
        results := s.results ++ [(c, [url, proxy])] } := by
  have hmem : ∀ k, k ∈ s.page.pending ↔ k = c ∨ k ∈ rest := by
    intro k
    rw [hpending, List.mem_cons]
  have hin : c ∈ s.page.pending := (hmem c).mpr (Or.inl rfl)
  have hnodup := h.page.pendingNodup
  rw [hpending, List.nodup_cons] at hnodup
  obtain ⟨call, hcall, hruns⟩ := h.page.pendingWaiting c hin
  -- the calls are those of before, but for the callback that ran
  have hkept : ∀ (k : Nat) (old : Call), s.page.calls[k]? = some old →
      ∃ new, ({ s.page with pending := rest }.complete c).calls[k]? = some new ∧
        new.token = old.token := by
    intro k old hold
    rw [NWEvents.getElem?_complete, hold]
    refine ⟨_, rfl, ?_⟩
    split <;> rfl
  constructor
  case page => exact (h.page.pop hpending).complete ⟨call, hcall, hruns⟩ hcallback hnodup.1
  case task => exact h.task
  case entry => exact h.entry
  case event => exact h.event
  case args =>
    intro k hk call' hcall'
    obtain ⟨old, hold, htoken, -⟩ := NWEvents.getElem?_complete_some hcall'
    rw [htoken]
    exact h.args k ((hmem k).mpr (Or.inr hk)) old hold
  case own =>
    intro result hresult
    rcases List.mem_append.mp hresult with hresult | hresult
    · obtain ⟨old, u, p, hold, htoken, hrest⟩ := h.own result hresult
      obtain ⟨new, hnew, hsame⟩ := hkept _ old hold
      exact ⟨new, u, p, hnew, hsame.trans htoken, hrest⟩
    · rw [List.mem_singleton.mp hresult]
      obtain ⟨new, hnew, hsame⟩ := hkept c call hcall
      have hknown := h.args c hin call hcall
      rw [hargs] at hknown
      -- the event of the call names its URL and a proxy seen for it
      obtain ⟨⟨u, htoken, rfl⟩, hseen⟩ := hknown
      exact ⟨new, u, proxy, hnew, hsame.trans htoken, rfl, hseen⟩
  case served =>
    intro k new hnew hzero
    obtain ⟨old, hold, htoken, -, hruns'⟩ := NWEvents.getElem?_complete_some hnew
    rw [htoken]
    split at hruns'
    · -- the call itself has run
      omega
    · rename_i hne
      have hk : k ∈ s.page.pending → k ∈ rest := fun hk => ((hmem k).mp hk).resolve_left hne
      rcases h.served k old hold (hruns' ▸ hzero) with htask | hevent | ⟨hk', hresult⟩ |
        ⟨u, entry, hentry, hin', hhead | hevent | ⟨hk', hfirst⟩⟩
      · exact Or.inl htask
      · exact Or.inr (Or.inl hevent)
      · exact Or.inr (Or.inr (Or.inl ⟨hk hk', hresult⟩))
      · exact Or.inr (Or.inr (Or.inr ⟨u, entry, hentry, hin', Or.inl hhead⟩))
      · exact Or.inr (Or.inr (Or.inr ⟨u, entry, hentry, hin', Or.inr (Or.inl hevent)⟩))
      · rw [hargs] at hfirst
        cases hfirst

/-- The listener of a call sends a request for its URL. The request is under way, and the entry of
the URL still has the token of the call, so its end will answer it. -/
theorem Inv.ask (h : s.Inv spec) {c : Nat} {rest : List Nat} (hpending : s.page.pending = c :: rest)
    {url : String} (hargs : s.args = .first url) :
    HttpProxy.Inv spec
      { s with
        page := { s.page with pending := rest }
        heads := s.heads ++ [url] } := by
  constructor
  case page => exact h.page.pop hpending
  case task => exact h.task
  case entry => exact h.entry
  case event => exact h.event
  case args =>
    intro k hk
    apply h.args k
    rw [hpending]
    exact List.mem_cons_of_mem c hk
  case own => exact h.own
  case served =>
    intro k call hcall hzero
    rcases h.served k call hcall hzero with htask | hevent | ⟨-, hresult⟩ |
      ⟨u, entry, hentry, hin', hhead | hevent | ⟨-, hfirst⟩⟩
    · exact Or.inl htask
    · exact Or.inr (Or.inl hevent)
    · rw [hargs] at hresult
      exact hresult.elim
    · refine Or.inr (Or.inr (Or.inr ⟨u, entry, hentry, hin', Or.inl ?_⟩))
      exact List.mem_append_left _ hhead
    · exact Or.inr (Or.inr (Or.inr ⟨u, entry, hentry, hin', Or.inr (Or.inl hevent)⟩))
    · -- the request that the listener sends
      have hurl : url = u := Args.first.inj (hargs.symm.trans hfirst)
      refine Or.inr (Or.inr (Or.inr ⟨u, entry, hentry, hin', Or.inl ?_⟩))
      rw [hurl]
      exact List.mem_append_right _ (List.mem_singleton_self _)

/-- The next listener gets the event: it sends a request or runs its callback. -/
theorem Inv.next (h : s.Inv spec) (hcallback : s.page.callback = none) {c : Nat} {rest : List Nat}
    (hpending : s.page.pending = c :: rest) :
    (HttpProxy.listener { s with page := { s.page with pending := rest } } c).Inv spec := by
  unfold HttpProxy.listener
  split
  · rename_i url proxy hargs
    exact h.answer hcallback hpending hargs
  · rename_i url hargs
    exact h.ask hpending hargs

/-- The callback returns, and with the last listener the event is done. -/
theorem Inv.finish (h : s.Inv spec) : ({ s with page := s.page.finish } : HttpProxy).Inv spec := by
  have hcalls := NWEvents.calls_finish s.page
  have hpending := NWEvents.pending_finish s.page
  constructor
  case page => exact h.page.finish
  case task => exact h.task
  case entry => exact h.entry
  case event => exact h.event
  case args =>
    simp only [hcalls, hpending]
    exact h.args
  case own =>
    simp only [hcalls]
    exact h.own
  case served =>
    simp only [hcalls, Served, Asked, hpending]
    exact h.served

/-- The network delegate sees a request. Whether its URL is in the map does not matter for what was
known before. -/
theorem Inv.see (h : s.Inv spec) (x : String × String) :
    ({ s with seen := s.seen ++ [x] } : HttpProxy).Inv spec := by
  have hseen : ∀ y ∈ s.seen, y ∈ s.seen ++ [x] := fun y hy => List.mem_append_left _ hy
  constructor
  case page => exact h.page
  case task => exact h.task
  case entry =>
    intro url entry hentry
    obtain ⟨htokens, hproxy⟩ := h.entry url entry hentry
    exact ⟨htokens, hproxy.imp_right (hseen _)⟩
  case event => exact fun event hmem => (h.event event hmem).mono hseen
  case args => exact fun c hc call hcall => (h.args c hc call hcall).mono hseen
  case own =>
    intro result hresult
    obtain ⟨call, u, proxy, hcall, htoken, hargs, hin⟩ := h.own result hresult
    exact ⟨call, u, proxy, hcall, htoken, hargs, hseen _ hin⟩
  case served => exact h.served

/-- Recording a proxy leaves the tokens of an entry as they are; without a proxy nothing is
recorded. -/
@[simp]
theorem EventToken.tokens_record (entry : EventToken) (pair : HostPortPair) :
    (entry.record pair).tokens = entry.tokens := by
  unfold record
  split <;> rfl

/-- What is recorded in the entry of a URL is the proxy of a request to it. -/
theorem recorded {url : String} {entry : EventToken} {pair : HostPortPair}
    (hseen : (url, pair.proxy) ∈ s.seen) (h : entry.proxy = "" ∨ (url, entry.proxy) ∈ s.seen) :
    (url, (entry.record pair).proxy) ∈ s.seen := by
  unfold HostPortPair.proxy at hseen
  unfold EventToken.record
  split
  · rename_i hhost
    rw [if_pos hhost] at hseen
    exact hseen
  · rename_i hhost
    rw [if_neg hhost] at hseen
    rcases h with hempty | h
    · rw [hempty]
      exact hseen
    · exact h

/-- A request starts, or a redirect of one: its proxy is recorded in the entry of its URL, if there
is one. Nobody is answered yet. -/
theorem Inv.request (h : s.Inv spec) {url : String} {pair : HostPortPair}
    (hseen : (url, pair.proxy) ∈ s.seen) : (s.handleURLProxyListener url pair false).Inv spec := by
  unfold handleURLProxyListener
  split
  · rename_i entry hentry
    obtain ⟨htokens, hproxy⟩ := h.entry url entry hentry
    constructor
    case page => exact h.page
    case task => exact h.task
    case entry =>
      -- the entry of this URL has the proxy of the request now, and the tokens it had
      intro u entry' hentry'
      simp only [Bool.false_eq_true, if_false, lookup_insert] at hentry'
      split at hentry'
      · rename_i hu
        cases hentry'
        rw [hu, EventToken.tokens_record]
        exact ⟨htokens, Or.inr (recorded hseen hproxy)⟩
      · exact h.entry u entry' hentry'
    case event => exact h.event
    case args => exact h.args
    case own => exact h.own
    case served =>
      intro c call hcall hzero
      -- a call that waits in this entry still does
      refine Served.insert (s := s) (h.served c call hcall hzero) ?_ (fun _ hmem _ => Or.inl hmem)
        (fun _ hmem => hmem)
      intro old hold t ht
      rw [hentry] at hold
      cases hold
      rw [EventToken.tokens_record]
      exact ht
  · exact h

/-- **A request to `url` is done.** The entry goes, and each of its tokens gets an event with the
proxy: the calls that the entry served are served by these. The requests to other URLs stay. -/
theorem Inv.completed (h : s.Inv spec) {url : String} {pair : HostPortPair}
    (hseen : (url, pair.proxy) ∈ s.seen) {heads : List String}
    (hheads : ∀ u ∈ s.heads, u ≠ url → u ∈ heads) :
    (handleURLProxyListener { s with heads := heads } url pair true).Inv spec := by
  unfold handleURLProxyListener
  split
  · rename_i entry hentry
    simp only at hentry
    obtain ⟨htokens, hproxy⟩ := h.entry url entry hentry
    constructor
    case page => exact h.page
    case task => exact h.task
    case entry =>
      intro u entry' hentry'
      simp only [if_true] at hentry'
      -- the entry of the URL is erased, the others stay
      by_cases hu : u = url
      · rw [hu, AList.lookup_erase] at hentry'
        cases hentry'
      · rw [AList.lookup_erase_ne hu] at hentry'
        exact h.entry u entry' hentry'
    case event =>
      intro event hevent
      rcases List.mem_append.mp hevent with hevent | hevent
      · exact h.event event hevent
      · -- a new event is for a token of the entry and has the proxy that was seen
        obtain ⟨token, htoken, rfl⟩ := List.mem_map.mp hevent
        rw [EventToken.tokens_record] at htoken
        exact ⟨htokens token htoken, recorded hseen hproxy⟩
    case args => exact h.args
    case own => exact h.own
    case served =>
      intro c call hcall hzero
      rcases h.served c call hcall hzero with htask | ⟨event, hmem, hevent⟩ | hpending |
        ⟨u, entry', hentry', htoken, hrest⟩
      · exact Or.inl htask
      · exact Or.inr (Or.inl ⟨event, List.mem_append_left _ hmem, hevent⟩)
      · exact Or.inr (Or.inr (Or.inl hpending))
      · by_cases hu : u = url
        · -- its token was in the entry that is erased
          rw [hu, hentry] at hentry'
          cases hentry'
          rw [← EventToken.tokens_record entry pair] at htoken
          refine Or.inr (Or.inl ⟨_, List.mem_append_right _ (List.mem_map_of_mem htoken), rfl, ?_⟩)
          exact trivial
        · refine Or.inr (Or.inr (Or.inr ⟨u, entry', ?_, htoken, ?_⟩))
          · exact (AList.lookup_erase_ne hu).trans hentry'
          · rcases hrest with hhead | hevent | hpending
            · exact Or.inl (hheads u hhead hu)
            · exact Or.inr (Or.inl (List.mem_append_left _ hevent))
            · exact Or.inr (Or.inr hpending)
  · -- no entry waits for the URL, so nothing is sent
    rename_i hnone
    simp only at hnone
    refine ⟨h.page, h.task, h.entry, h.event, h.args, h.own, ?_⟩
    intro c call hcall hzero
    rcases h.served c call hcall hzero with htask | hevent | hpending |
      ⟨u, entry', hentry', htoken, hhead | hrest⟩
    · exact Or.inl htask
    · exact Or.inr (Or.inl hevent)
    · exact Or.inr (Or.inr (Or.inl hpending))
    · refine Or.inr (Or.inr (Or.inr ⟨u, entry', hentry', htoken, Or.inl (hheads u hhead ?_)⟩))
      intro hu
      rw [hu, hnone] at hentry'
      cases hentry'
    · exact Or.inr (Or.inr (Or.inr ⟨u, entry', hentry', htoken, Or.inr hrest⟩))

/-- **Every step keeps the invariant**, without a condition: whatever the order in which tasks,
events and requests end, a call that waits is served. -/
theorem Inv.step (h : s.Inv spec) {op : Op} {t : HttpProxy}
    (hst : HttpProxy.step spec s op = some t) : t.Inv spec := by
  cases op with
  | getHttpProxy url =>
    simp only [HttpProxy.step, Option.ite_none_right_eq_some, Option.some.injEq] at hst
    obtain ⟨-, rfl⟩ := hst
    exact h.getHttpProxy url
  | runTask i =>
    obtain ⟨task, htask, rfl⟩ := Option.map_eq_some_iff.mp hst
    exact h.runTask htask
  | dispatch i =>
    simp only [HttpProxy.step, Option.ite_none_right_eq_some] at hst
    obtain ⟨hidle, hst⟩ := hst
    obtain ⟨event, hevent, rfl⟩ := Option.map_eq_some_iff.mp hst
    exact h.dispatch hidle hevent
  | listener =>
    simp only [HttpProxy.step] at hst
    split at hst
    · rename_i c rest hcallback hpending
      cases hst
      exact h.next hcallback hpending
    · cases hst
  | «return» =>
    simp only [HttpProxy.step, Option.ite_none_right_eq_some, Option.some.injEq] at hst
    obtain ⟨-, rfl⟩ := hst
    exact h.finish
  | request url pair =>
    cases hst
    exact (h.see _).request (List.mem_append_right _ (List.mem_singleton_self _))
  | headCompleted i pair =>
    obtain ⟨url, hhead, rfl⟩ := Option.map_eq_some_iff.mp hst
    refine (h.see (url, pair.proxy)).completed
      (List.mem_append_right _ (List.mem_singleton_self _)) ?_
    intro u hu hne
    -- the heads of all other URLs are still under way
    exact ((mem_iff_of_getElem? hhead u).mp hu).resolve_left hne
  | otherCompleted url pair =>
    cases hst
    exact (h.see (url, pair.proxy)).completed
      (List.mem_append_right _ (List.mem_singleton_self _)) fun u hu _ => hu

/-! ## The map drains

An entry has to be erased by the end of a request to its URL. For that a request has to be under
way, or a first event that makes some listener send one, or a task that posts such an event. -/

/-- For every entry something is under way, or a listener is to send a request. -/
def Drains (s : HttpProxy) : Prop :=
  ∀ url ∈ s.urlProxyMap, s.Underway url ∨ (s.page.pending ≠ [] ∧ s.args = .first url)

theorem Drains.init : ({} : HttpProxy).Drains :=
  fun url h => absurd h (AList.notMem_empty url)

/-- With both invariants a state is safe: where nothing is under way no entry can be left. -/
theorem Inv.safe (h : s.Inv spec) (hdrains : s.Drains) : s.Safe spec := by
  refine ⟨h.answered, ?_⟩
  rintro ⟨hidle, htasks, hevents, hheads⟩
  have hnone : ∀ url, url ∉ s.urlProxyMap := by
    intro url hmem
    have hunder := hdrains url hmem
    simp only [Underway, htasks, hevents, hheads, hidle.1] at hunder
    simp at hunder
  have hkeys : s.urlProxyMap.keys = [] := by
    rw [List.eq_nil_iff_forall_not_mem]
    exact fun url hmem => hnone url (AList.mem_keys.mpr hmem)
  exact AList.ext (List.map_eq_nil_iff.mp hkeys)

/-- What a hook of a request does to the keys of the map: it erases the one of its URL if the
request is done, and adds none. -/
theorem mem_handleURLProxyListener {url u : String} {pair : HostPortPair} {completed : Bool} :
    u ∈ (s.handleURLProxyListener url pair completed).urlProxyMap ↔
      u ∈ s.urlProxyMap ∧ (completed = true → u ≠ url) := by
  unfold handleURLProxyListener
  split
  · rename_i entry hentry
    -- the URL has an entry: erased when the request is completed, kept before
    have hmem : url ∈ s.urlProxyMap := by
      rw [← AList.lookup_isSome, hentry]
      rfl
    split
    · rename_i hcompleted
      rw [AList.mem_erase]
      simp [hcompleted, and_comm]
    · rename_i hcompleted
      rw [AList.mem_insert, and_iff_left fun htrue => absurd htrue hcompleted]
      refine or_iff_right_of_imp ?_
      rintro rfl
      exact hmem
  · rename_i hnone
    refine (and_iff_left_of_imp ?_).symm
    rintro hmem - rfl
    exact AList.lookup_eq_none.mp hnone hmem

/-- A hook of a request keeps what is under way. Where the request is done its own entry is gone,
and for the other URLs the same requests, tasks and events are there. -/
theorem Drains.handled (h : s.Drains) {url : String} {pair : HostPortPair} {completed : Bool}
    {heads : List String} (hheads : ∀ u ∈ s.heads, (completed = true → u ≠ url) → u ∈ heads) :
    (handleURLProxyListener { s with heads := heads } url pair completed).Drains := by
  intro u hu
  obtain ⟨hmem, hne⟩ := mem_handleURLProxyListener.mp hu
  -- events are only ever added
  have hkept : ∀ event ∈ s.events,
      event ∈ (handleURLProxyListener { s with heads := heads } url pair completed).events := by
    intro event hevent
    unfold handleURLProxyListener
    split
    · split
      · exact List.mem_append_left _ hevent
      · exact hevent
    · exact hevent
  -- nothing but the map and the events changes
  have hsame : ∀ r : HttpProxy,
      (r.handleURLProxyListener url pair completed).heads = r.heads ∧
      (r.handleURLProxyListener url pair completed).tasks = r.tasks ∧
      (r.handleURLProxyListener url pair completed).page = r.page ∧
      (r.handleURLProxyListener url pair completed).args = r.args := by
    intro r
    unfold handleURLProxyListener
    split
    · split <;> exact ⟨rfl, rfl, rfl, rfl⟩
    · exact ⟨rfl, rfl, rfl, rfl⟩
  obtain ⟨heq, htasks, hpage, hargs⟩ := hsame { s with heads := heads }
  unfold Underway
  rw [heq, htasks, hpage, hargs]
  -- what was under way for the URL is under way still
  rcases h u hmem with (hhead | htask | ⟨event, hevent, hfirst⟩) | hpending
  · exact Or.inl (Or.inl (hheads u hhead hne))
  · exact Or.inl (Or.inr (Or.inl htask))
  · exact Or.inl (Or.inr (Or.inr ⟨event, hkept event hevent, hfirst⟩))
  · exact Or.inr hpending

/-- A task adds an entry and posts the first event for it, which is what is under way for the URL
now. -/
theorem Drains.runTask (h : s.Drains) {i : Nat} {task : Task} (htask : s.tasks[i]? = some task) :
    (getHttpProxyCallbackIo { s with tasks := s.tasks.eraseIdx i } task).Drains := by
  obtain ⟨entry, heq, -⟩ :=
    addURLProxyListener_spec { s with tasks := s.tasks.eraseIdx i } task.url task.token
  unfold getHttpProxyCallbackIo
  rw [heq]
  intro u hu
  -- for the URL of the task there is the event that is posted
  have hevent : ∀ v, v = task.url → ∃ event ∈ s.events ++ [⟨task.token, .first task.url⟩],
      event.args = .first v := by
    rintro v rfl
    exact ⟨_, List.mem_append_right _ (List.mem_singleton_self _), rfl⟩
  rcases (AList.mem_insert _).mp hu with hu | hmem
  · exact Or.inl (Or.inr (Or.inr (hevent u hu)))
  · rcases h u hmem with (hhead | ⟨task', hin, hurl⟩ | ⟨event, hin, hfirst⟩) | hpending
    · exact Or.inl (Or.inl hhead)
    · rcases (mem_iff_of_getElem? htask task').mp hin with rfl | hin
      · exact Or.inl (Or.inr (Or.inr (hevent u hurl.symm)))
      · exact Or.inl (Or.inr (Or.inl ⟨task', hin, hurl⟩))
    · exact Or.inl (Or.inr (Or.inr ⟨event, List.mem_append_left _ hin, hfirst⟩))
    · exact Or.inr hpending

/-- **A first event is dispatched.** Its listeners will send requests. Where it has none, nothing
may be left to its entry: that is the condition. -/
theorem Drains.dispatch (h : s.Drains) (hidle : s.page.Idle) {i : Nat} {event : Event}
    (hevent : s.events[i]? = some event) (hok : StepOk s (.dispatch i)) :
    ({ s with
      page := s.page.dispatch event.token
      events := s.events.eraseIdx i
      args := event.args } : HttpProxy).Drains := by
  intro u hu
  rcases h u hu with (hhead | htask | ⟨event', hin, hfirst⟩) | ⟨hpending, -⟩
  · exact Or.inl (Or.inl hhead)
  · exact Or.inl (Or.inr (Or.inl htask))
  · rcases (mem_iff_of_getElem? hevent event').mp hin with rfl | hin
    · by_cases hnil : s.page.listening event'.token = []
      · -- no listener gets the first event of the URL
        exact Or.inl (hok event' hevent u hfirst hnil hu)
      · exact Or.inr ⟨hnil, hfirst⟩
    · exact Or.inl (Or.inr (Or.inr ⟨event', hin, hfirst⟩))
  · exact absurd hidle.1 hpending

/-- A listener that gets a first event sends its request, so the request takes over from the event.
-/
theorem Drains.next (h : s.Drains) {c : Nat} {rest : List Nat} :
    (HttpProxy.listener { s with page := { s.page with pending := rest } } c).Drains := by
  unfold HttpProxy.listener
  split
  · rename_i url proxy hargs
    simp only at hargs
    intro u hu
    rcases h u hu with hunder | ⟨-, hfirst⟩
    · exact Or.inl hunder
    · -- a result is no first event
      rw [hargs] at hfirst
      cases hfirst
  · rename_i url hargs
    simp only at hargs
    intro u hu
    rcases h u hu with (hhead | hrest) | ⟨-, hfirst⟩
    · exact Or.inl (Or.inl (List.mem_append_left _ hhead))
    · exact Or.inl (Or.inr hrest)
    · have hurl : url = u := Args.first.inj (hargs.symm.trans hfirst)
      refine Or.inl (Or.inl ?_)
      rw [hurl]
      exact List.mem_append_right _ (List.mem_singleton_self _)

/-- **A step that meets the condition keeps something under way for every entry.** Only the dispatch
of a first event can break the chain from the entry to the request. -/
theorem Drains.step (h : s.Drains) {op : Op} {t : HttpProxy} (hok : StepOk s op)
    (hst : HttpProxy.step spec s op = some t) : t.Drains := by
  cases op with
  | getHttpProxy url =>
    simp only [HttpProxy.step, Option.ite_none_right_eq_some, Option.some.injEq] at hst
    obtain ⟨-, rfl⟩ := hst
    -- a new call brings no event
    have hpending : (HttpProxy.getHttpProxy spec s url).page.pending = s.page.pending :=
      NWEvents.pending_register s.page _
    intro u hu
    rw [hpending]
    rcases h u hu with (hhead | ⟨task, hin, hurl⟩ | hevent) | hwait
    · exact Or.inl (Or.inl hhead)
    · exact Or.inl (Or.inr (Or.inl ⟨task, List.mem_append_left _ hin, hurl⟩))
    · exact Or.inl (Or.inr (Or.inr hevent))
    · exact Or.inr hwait
  | runTask i =>
    obtain ⟨task, htask, rfl⟩ := Option.map_eq_some_iff.mp hst
    exact h.runTask htask
  | dispatch i =>
    simp only [HttpProxy.step, Option.ite_none_right_eq_some] at hst
    obtain ⟨hidle, hst⟩ := hst
    obtain ⟨event, hevent, rfl⟩ := Option.map_eq_some_iff.mp hst
    exact h.dispatch hidle hevent hok
  | listener =>
    simp only [HttpProxy.step] at hst
    split at hst
    · cases hst
      exact h.next
    · cases hst
  | «return» =>
    simp only [HttpProxy.step, Option.ite_none_right_eq_some, Option.some.injEq] at hst
    obtain ⟨-, rfl⟩ := hst
    intro u hu
    rw [NWEvents.pending_finish]
    exact h u hu
  | request url pair =>
    cases hst
    exact Drains.handled (s := { s with seen := s.seen ++ [(url, pair.proxy)] }) h
      fun u hu _ => hu
  | headCompleted i pair =>
    obtain ⟨url, hhead, rfl⟩ := Option.map_eq_some_iff.mp hst
    -- the head that is done was that of this URL
    refine Drains.handled (s := { s with seen := s.seen ++ [(url, pair.proxy)] }) h ?_
    intro u hu hne
    exact ((mem_iff_of_getElem? hhead u).mp hu).resolve_left (hne rfl)
  | otherCompleted url pair =>
    cases hst
    exact Drains.handled (s := { s with seen := s.seen ++ [(url, pair.proxy)] }) h
      fun u hu _ => hu

/-! ## Everything ends

An event goes to at most all of the calls, each of which runs its callback or sends one request; a
token in an entry makes at most one more event. -/

/-- An event for `n` calls. -/
def eventWork (n : Nat) : Nat := 1 + n * 2

def entriesWork (n : Nat) (map : AList fun _ : String => EventToken) : Nat :=
  (map.entries.map fun entry => entry.2.tokens.length * eventWork n).sum

/-- What is to be done before nothing is outstanding, without new calls. -/
def work (s : HttpProxy) : Nat :=
  let n := s.page.calls.length
  s.tasks.length * (1 + 2 * eventWork n) + entriesWork n s.urlProxyMap +
    s.events.length * eventWork n + s.heads.length + s.page.pending.length * 2 +
    if s.page.callback.isSome then 1 else 0

/-- An operation that is no new call and no other request's. -/
def Op.Settles : Op → Prop
  | .getHttpProxy _ | .request .. | .otherCompleted .. => False
  | _ => True

/-- The work of the map without one entry: each token of the entry makes one more event. -/
theorem entriesWork_erase {n : Nat} {map : AList fun _ : String => EventToken} {url : String}
    {entry : EventToken} (h : map.lookup url = some entry) :
    entry.tokens.length * eventWork n + entriesWork n (map.erase url) = entriesWork n map := by
  have hmem : url ∈ map.entries.keys := by
    rw [← List.dlookup_isSome]
    exact Option.isSome_of_eq_some h
  obtain ⟨entry', before, after, hnot, heq, herase⟩ := List.exists_of_kerase hmem
  have hentry : (⟨url, entry⟩ : Sigma fun _ : String => EventToken) ∈ map.entries :=
    List.of_mem_dlookup h
  have hsame : entry = entry' := by
    refine map.nodupKeys.eq_of_mk_mem hentry ?_
    rw [heq]
    exact List.mem_append_right _ (List.mem_cons_self ..)
  unfold entriesWork
  rw [show (map.erase url).entries = map.entries.kerase url from rfl, herase, heq, hsame]
  simp only [List.map_append, List.map_cons, List.sum_append, List.sum_cons]
  omega

theorem entriesWork_insert {n : Nat} {map : AList fun _ : String => EventToken} {url : String}
    {entry : EventToken} : entriesWork n (map.insert url entry) =
      entry.tokens.length * eventWork n + entriesWork n (map.erase url) := rfl

theorem entriesWork_erase_of_none {n : Nat} {map : AList fun _ : String => EventToken}
    {url : String} (h : map.lookup url = none) :
    entriesWork n (map.erase url) = entriesWork n map := by
  have hnot : url ∉ map.entries.keys := AList.lookup_eq_none.mp h
  unfold entriesWork
  rw [show (map.erase url).entries = map.entries.kerase url from rfl,
    List.kerase_of_notMem_keys hnot]

/-- One more token in the map is one more event to come, whether its URL had an entry or not. -/
theorem work_addURLProxyListener (url token : String) :
    (s.addURLProxyListener url token).work = s.work + eventWork s.page.calls.length := by
  unfold addURLProxyListener
  cases hentry : s.urlProxyMap.lookup url with
  | none =>
    have herase := entriesWork_erase_of_none (n := s.page.calls.length) hentry
    simp only [work, entriesWork_insert, herase, List.length_singleton, Nat.one_mul]
    omega
  | some entry =>
    have herase := entriesWork_erase (n := s.page.calls.length) hentry
    simp only [work, entriesWork_insert, List.length_append, List.length_singleton,
      Nat.add_one_mul]
    omega

/-- The end of a request leaves no more to do than there was: the tokens of the entry were counted
as the events they become. -/
theorem work_completed (url : String) (pair : HostPortPair) :
    (s.handleURLProxyListener url pair true).work = s.work := by
  unfold handleURLProxyListener
  split
  · rename_i entry hentry
    have herase := entriesWork_erase (n := s.page.calls.length) hentry
    simp only [work, if_true, List.length_append, List.length_map, EventToken.tokens_record,
      Nat.add_mul]
    omega
  · rfl

/-- An operation that settles leaves less to do. A task is counted with both of its events, an event
with one listener's work for each call, and the end of a request with one. -/
theorem work_step {op : Op} (hop : op.Settles) {t : HttpProxy} (hst : step spec s op = some t) :
    t.work < s.work := by
  cases op with
  | getHttpProxy url => exact hop.elim
  | request url pair => exact hop.elim
  | otherCompleted url pair => exact hop.elim
  | runTask i =>
    obtain ⟨task, htask, rfl⟩ := Option.map_eq_some_iff.mp hst
    have hlength := List.length_eraseIdx_add_one (List.getElem?_eq_some_iff.mp htask).1
    -- the task is gone, and what it may still cause was counted with it
    have hdrop : ({ s with tasks := s.tasks.eraseIdx i } : HttpProxy).work +
        (1 + 2 * eventWork s.page.calls.length) = s.work := by
      simp only [work, ← hlength, Nat.add_one_mul]
      omega
    have hadd := work_addURLProxyListener (s := { s with tasks := s.tasks.eraseIdx i })
      task.url task.token
    obtain ⟨entry, heq, -⟩ :=
      addURLProxyListener_spec { s with tasks := s.tasks.eraseIdx i } task.url task.token
    unfold getHttpProxyCallbackIo
    rw [heq] at hadd ⊢
    simp only [work, List.length_append, List.length_singleton, Nat.add_one_mul] at hadd hdrop ⊢
    omega
  | dispatch i =>
    simp only [step, Option.ite_none_right_eq_some] at hst
    obtain ⟨hidle, hst⟩ := hst
    obtain ⟨event, hevent, rfl⟩ := Option.map_eq_some_iff.mp hst
    have hlength := List.length_eraseIdx_add_one (List.getElem?_eq_some_iff.mp hevent).1
    -- an event goes to as many listeners as there are calls, at most
    have hle := NWEvents.length_listening_le s.page event.token
    simp only [work, NWEvents.dispatch, hidle.1, hidle.2, ← hlength, Nat.add_one_mul,
      List.length_nil, Option.isSome_none, Bool.false_eq_true, if_false, eventWork]
    omega
  | listener =>
    simp only [step] at hst
    split at hst
    · rename_i c rest hcallback hpending
      cases hst
      unfold listener
      split
      · -- the call is complete: one listener less
        have hcalls : ({ s.page with pending := rest }.complete c).calls.length =
            s.page.calls.length := List.length_modify ..
        simp only [work, hcalls, hpending]
        simp only [NWEvents.complete, hcallback, List.length_cons, Option.isSome_some,
          Option.isSome_none, Bool.false_eq_true, if_true, if_false]
        omega
      · simp only [work, hpending, List.length_append, List.length_cons, List.length_nil]
        omega
    · cases hst
  | «return» =>
    simp only [step, Option.ite_none_right_eq_some, Option.some.injEq] at hst
    obtain ⟨hcallback, rfl⟩ := hst
    simp only [work, NWEvents.calls_finish, NWEvents.pending_finish, NWEvents.callback_finish,
      hcallback]
    simp
  | headCompleted i pair =>
    obtain ⟨url, hhead, rfl⟩ := Option.map_eq_some_iff.mp hst
    have hlength := List.length_eraseIdx_add_one (List.getElem?_eq_some_iff.mp hhead).1
    unfold onRequest
    rw [work_completed]
    simp only [work, ← hlength]
    omega

/-! ## Whole runs -/

/-- **Every call is answered once, and the map drains.** The callbacks of any run are as promised.
In a run whose steps meet `StepOk` the map is, too. From any state everything that is outstanding
comes to an end. -/
theorem http_proxy_drains (spec : String → String) (ops : List Op) (s : HttpProxy) :
    (Run (ofPartial (step spec)) {} ops s → s.Answered spec) ∧
    (Run (Guarded StepOk (ofPartial (step spec))) {} ops s → s.Safe spec) ∧
    ∀ ops' t, Run (Guarded (fun _ op => op.Settles) (ofPartial (step spec))) s ops' t →
      ops'.length ≤ s.work := by
  refine ⟨?_, ?_, ?_⟩
  · intro hrun
    have hinv : s.Inv spec := hrun.invariant (fun _ _ _ h hst => h.step hst) Inv.init
    exact hinv.answered
  · intro hrun
    have hinv : s.Inv spec ∧ s.Drains :=
      hrun.invariant (I := fun s => s.Inv spec ∧ s.Drains)
        (fun _ _ _ h hst => ⟨h.1.step hst.2, h.2.step hst.1 hst.2⟩) ⟨Inv.init, Drains.init⟩
    exact hinv.1.safe hinv.2
  · intro ops' t hrun
    have hle := hrun.length_le (m := work) fun _ _ _ hst => work_step hst.1 hst.2
    omega

/-- A second call for the URL is made while the answer to the first one is on its way. -/
def lateCall : List Op :=
  [.getHttpProxy "http://a/", .runTask 0, .dispatch 0, .listener, .headCompleted 0 ⟨"", ""⟩,
    .getHttpProxy "http://a/", .dispatch 0, .listener, .return, .listener, .return, .runTask 0,
    .dispatch 0]

/-- That answer runs both callbacks, and nobody sends a request for the entry of the second call. -/
theorem lateCall_not_safe :
    ¬ ∀ (ops : List Op) (s : HttpProxy), Run (ofPartial (step id)) {} ops s → s.Safe id := by
  intro hall
  obtain ⟨s, hs, hidle, htasks, hevents, hheads, hentry⟩ :
      ∃ s, exec (fun _ _ => True) (step id) lateCall {} = some s ∧ s.page.Idle ∧ s.tasks = [] ∧
        s.events = [] ∧ s.heads = [] ∧
        s.urlProxyMap.lookup "http://a/" = some ⟨"", ["getHttpProxy http://a/"]⟩ :=
    ⟨_, rfl, ⟨rfl, rfl⟩, rfl, rfl, rfl, rfl⟩
  have hempty := (hall lateCall s (Run.of_exec hs).unguard).drained ⟨hidle, htasks, hevents, hheads⟩
  rw [hempty] at hentry
  cases hentry

end HttpProxy

end NodeWebkit.App
