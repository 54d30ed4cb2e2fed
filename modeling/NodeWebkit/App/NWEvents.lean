import Mathlib.Algebra.GroupWithZero.Nat
import Mathlib.Data.List.Nodup
import Mathlib.Data.List.Perm.Basic
import Mathlib.Data.List.Range
import Mathlib.Logic.Function.Basic

/-!
# Event tokens of nw.App

`getHttpProxy` and `getHttpAuth` (`api_nw_app.js`) wait for native events under a token that is made
of the URL. All waiting calls of one token share an event object, which `NWEventTokens` keeps as
long as it has listeners. A native event goes to the listeners that are registered when it is
dispatched; each of them may run the callback of its call and then take itself off.

A call is named by its number. Application code runs in the callbacks, and may make further calls
there.

* **`register`**, **`dispatch`**, **`complete`**, **`finish`** — what happens to the calls;
* **`Ok`** — a call waits as long as it is listening, its callback runs once, and the table has
  exactly the event objects with listeners.

Each of the operations has a lemma `Ok.register`, …, `Ok.finish` that it keeps `Ok`, and lemmas that
say what it does to the calls. `HttpProxy.lean` and `HttpAuth.lean` use both and look at neither the
table nor the listeners again.
-/

namespace NodeWebkit.App

/-- What is in flight without one of its elements. Tasks, events and requests are taken from the
middle of a list, as they end in any order. -/
theorem perm_eraseIdx {α : Type} {l : List α} {i : Nat} {x : α} (h : l[i]? = some x) :
    (x :: l.eraseIdx i).Perm l := by
  obtain ⟨hlt, rfl⟩ := List.getElem?_eq_some_iff.mp h
  exact List.getElem_cons_eraseIdx_perm hlt

/-- What is in flight is the element that is taken and what is left. -/
theorem mem_iff_of_getElem? {α : Type} {l : List α} {i : Nat} {x : α} (h : l[i]? = some x)
    (y : α) : y ∈ l ↔ y = x ∨ y ∈ l.eraseIdx i := by
  rw [← (perm_eraseIdx h).mem_iff, List.mem_cons]

theorem sum_eraseIdx {α : Type} {l : List α} {i : Nat} {x : α} (h : l[i]? = some x) (f : α → Nat) :
    f x + ((l.eraseIdx i).map f).sum = (l.map f).sum := by
  rw [← ((perm_eraseIdx h).map f).sum_nat, List.map_cons, List.sum_cons]

structure Call where
  token : String
  /-- The event object of the call. -/
  event : Nat
  /-- How often the callback was called. -/
  runs : Nat := 0
  deriving DecidableEq

structure NWEvents where
  nwEventTokens : String → Option Nat := fun _ => none
  /-- The listeners of each event object, by the calls they belong to. -/
  listeners : Nat → List Nat := fun _ => []
  /-- How many event objects were made. -/
  eventCount : Nat := 0
  calls : List Call := []
  /-- The listeners that the event being dispatched has still to go to. -/
  pending : List Nat := []
  /-- The call whose callback is running. -/
  callback : Option Nat := none

namespace NWEvents

/-- `createNWEvent`. -/
def createNWEvent (self : NWEvents) (token : String) : Nat × NWEvents :=
  match self.nwEventTokens token with
  | some event => (event, self)
  | none =>
    (self.eventCount, { self with
      nwEventTokens := Function.update self.nwEventTokens token (some self.eventCount)
      eventCount := self.eventCount + 1 })

def addListener (self : NWEvents) (event call : Nat) : NWEvents :=
  { self with
    listeners := Function.update self.listeners event (self.listeners event ++ [call]) }

/-- `cleanNWEvent`. -/
def cleanNWEvent (self : NWEvents) (event call : Nat) (token : String) : NWEvents :=
  let rest := (self.listeners event).erase call
  { self with
    listeners := Function.update self.listeners event rest
    nwEventTokens :=
      if rest = [] then Function.update self.nwEventTokens token none else self.nwEventTokens }

/-- A new call under a token: it creates the event, or finds it, and adds its listener. -/
def register (self : NWEvents) (token : String) : NWEvents :=
  let (event, self) := self.createNWEvent token
  let call := self.calls.length
  { self.addListener event call with calls := self.calls ++ [{ token := token, event := event }] }

/-- The calls that listen under a token. -/
def listening (self : NWEvents) (token : String) : List Nat :=
  (List.range self.calls.length).filter fun c =>
    (self.calls[c]?).any fun call => call.token = token ∧ c ∈ self.listeners call.event

/-- A native event arrives. -/
def dispatch (self : NWEvents) (token : String) : NWEvents :=
  { self with pending := self.listening token }

/-- `callback.apply(self, ...)`, up to its return. -/
def complete (self : NWEvents) (c : Nat) : NWEvents :=
  { self with
    calls := self.calls.modify c fun call => { call with runs := call.runs + 1 }
    callback := some c }

/-- The callback that is running returns, and its listener is cleaned up. -/
def finish (self : NWEvents) : NWEvents :=
  match self.callback with
  | some c =>
    match self.calls[c]? with
    | some call => { self.cleanNWEvent call.event c call.token with callback := none }
    | none => { self with callback := none }
  | none => self

/-- No event is being dispatched and no callback is running. -/
def Idle (self : NWEvents) : Prop := self.pending = [] ∧ self.callback = none

instance (self : NWEvents) : Decidable self.Idle := inferInstanceAs (Decidable (_ ∧ _))

/-- The callback of the call has not run yet. -/
def Waiting (self : NWEvents) (c : Nat) : Prop := ∃ call, self.calls[c]? = some call ∧ call.runs = 0

instance (self : NWEvents) (c : Nat) : Decidable (self.Waiting c) :=
  match h : self.calls[c]? with
  | some call =>
    decidable_of_iff (call.runs = 0)
      ⟨fun hr => ⟨call, h, hr⟩, fun ⟨_, h', hr⟩ => Option.some.inj (h.symm.trans h') ▸ hr⟩
  | none => isFalse fun ⟨_, h', _⟩ => nomatch h.symm.trans h'

structure Ok (s : NWEvents) : Prop where
  listed : ∀ e, ∀ c ∈ s.listeners e, ∃ call, s.calls[c]? = some call ∧ call.event = e
  nodup : ∀ e, (s.listeners e).Nodup
  /-- An event object in the table has listeners. -/
  token : ∀ t e, s.nwEventTokens t = some e → s.listeners e ≠ []
  unique : ∀ t t' e, s.nwEventTokens t = some e → s.nwEventTokens t' = some e → t = t'
  found : ∀ (c : Nat) (call : Call), s.calls[c]? = some call → c ∈ s.listeners call.event →
    s.nwEventTokens call.token = some call.event
  fresh : ∀ e, s.eventCount ≤ e → s.listeners e = []
  /-- A call listens until its callback has run and returned. -/
  runs : ∀ (c : Nat) (call : Call), s.calls[c]? = some call →
    (call.runs = 0 ∧ c ∈ s.listeners call.event ∧ s.callback ≠ some c) ∨
    (call.runs = 1 ∧ (c ∈ s.listeners call.event ↔ s.callback = some c))
  pendingNodup : s.pending.Nodup
  pendingWaiting : ∀ c ∈ s.pending, s.Waiting c
  callbackCall : ∀ c, s.callback = some c → ∃ call, s.calls[c]? = some call

variable {s : NWEvents}

/-- Without calls there are no listeners and no tokens. -/
theorem Ok.init : ({} : NWEvents).Ok := by
  constructor
  case listed => exact fun _ _ h => absurd h List.not_mem_nil
  case nodup => exact fun _ => List.nodup_nil
  case token => exact nofun
  case unique => exact nofun
  case found => exact nofun
  case fresh => exact fun _ _ => rfl
  case runs => exact nofun
  case pendingNodup => exact List.nodup_nil
  case pendingWaiting => exact fun _ h => absurd h List.not_mem_nil
  case callbackCall => exact nofun

theorem lt_of_getElem? {c : Nat} {call : Call} (h : s.calls[c]? = some call) :
    c < s.calls.length := (List.getElem?_eq_some_iff.mp h).1

/-- The listeners an event goes to, by their calls: those under the token of the event that still
listen on the event object of their call. -/
theorem mem_listening_iff {token : String} {c : Nat} :
    c ∈ s.listening token ↔
      ∃ call, s.calls[c]? = some call ∧ call.token = token ∧ c ∈ s.listeners call.event := by
  rw [listening, List.mem_filter, List.mem_range, Option.any_eq_true]
  simp only [decide_eq_true_eq]
  constructor
  · rintro ⟨-, call, hcall, hlisten⟩
    exact ⟨call, hcall, hlisten⟩
  · rintro ⟨call, hcall, hlisten⟩
    exact ⟨lt_of_getElem? hcall, call, hcall, hlisten⟩

/-- An event goes to each call once at most. This is what bounds the work of an event. -/
theorem length_listening_le (s : NWEvents) (token : String) :
    (s.listening token).length ≤ s.calls.length := by
  have hfilter := List.length_filter_le (fun c =>
    (s.calls[c]?).any fun call => call.token = token ∧ c ∈ s.listeners call.event)
    (List.range s.calls.length)
  rw [List.length_range] at hfilter
  exact hfilter

/-! ## Waiting calls

A call waits until its callback has run. By `Ok` that is as long as it listens, with one exception:
while its callback runs, its listener is still there. -/

/-- A call that listens while no callback of its own is running waits: a callback that has run has
taken the listener off when it returned. -/
theorem Ok.waiting_of_listens (h : s.Ok) {c : Nat} {call : Call} (hcall : s.calls[c]? = some call)
    (hlisten : c ∈ s.listeners call.event) (hne : s.callback ≠ some c) : s.Waiting c := by
  rcases h.runs c call hcall with ⟨hruns, -, -⟩ | ⟨-, hiff⟩
  · exact ⟨call, hcall, hruns⟩
  · exact absurd (hiff.mp hlisten) hne

/-- A call that waits listens on the event object it was registered with, so an event under its
token reaches it. -/
theorem Ok.listens_of_waiting (h : s.Ok) {c : Nat} {call : Call} (hcall : s.calls[c]? = some call)
    (hwaiting : s.Waiting c) : c ∈ s.listeners call.event ∧ s.callback ≠ some c := by
  obtain ⟨call', hcall', hruns⟩ := hwaiting
  rw [hcall] at hcall'
  cases hcall'
  rcases h.runs c call hcall with ⟨-, hlisten⟩ | ⟨hone, -⟩
  · exact hlisten
  · omega

/-- **Every callback ran at most once**, whether its call waits, is running it or is done. -/
theorem Ok.runs_le (h : s.Ok) {c : Nat} {call : Call} (hcall : s.calls[c]? = some call) :
    call.runs ≤ 1 := by
  rcases h.runs c call hcall with ⟨hruns, -⟩ | ⟨hruns, -⟩ <;> omega

/-- **The event goes to the waiting calls of its token**, to all of them and to no others. A call
waits with the event object that the table has for its token. -/
theorem Ok.mem_listening_iff_waiting (h : s.Ok) (hidle : s.callback = none) {token : String}
    {c : Nat} : c ∈ s.listening token ↔
      ∃ call, s.calls[c]? = some call ∧ call.token = token ∧ s.Waiting c := by
  rw [mem_listening_iff]
  refine exists_congr fun call => and_congr_right fun hcall => and_congr_right fun _ => ?_
  constructor
  · intro hlisten
    refine h.waiting_of_listens hcall hlisten ?_
    rw [hidle]
    exact nofun
  · exact fun hwaiting => (h.listens_of_waiting hcall hwaiting).1

/-- **Clean up.** When nothing is going on and all callbacks have run, no listener is left and no
token. -/
theorem Ok.clean (h : s.Ok) (hidle : s.Idle)
    (hall : ∀ (c : Nat) (call : Call), s.calls[c]? = some call → call.runs = 1) :
    (∀ e, s.listeners e = []) ∧ ∀ t, s.nwEventTokens t = none := by
  have hlisteners : ∀ e, s.listeners e = [] := by
    intro e
    rw [List.eq_nil_iff_forall_not_mem]
    intro c hc
    obtain ⟨call, hcall, rfl⟩ := h.listed e c hc
    rcases h.runs c call hcall with ⟨hruns, -⟩ | ⟨-, hiff⟩
    · rw [hall c call hcall] at hruns
      cases hruns
    · rw [hidle.2] at hiff
      cases hiff.mp hc
  refine ⟨hlisteners, fun t => ?_⟩
  cases ht : s.nwEventTokens t with
  | none => rfl
  | some e => exact absurd (hlisteners e) (h.token t e ht)

/-! ## Operations

What the functions of the source do to the calls, and that `Ok` is kept. `register` is the only one
that makes event objects and `cleanNWEvent`, in `finish`, the only one that drops them. -/

/-- The event object of a new call: the one in the table, or a new one. -/
def EventOf (s : NWEvents) (token : String) (e : Nat) : Prop :=
  s.nwEventTokens token = some e ∨ (s.nwEventTokens token = none ∧ e = s.eventCount)

/-- A call is added at the end, with a listener on the event object of its token; where the token
had none a new one is made. -/
theorem register_spec (s : NWEvents) (token : String) :
    ∃ e, s.EventOf token e ∧
      s.register token = { s with
        nwEventTokens := Function.update s.nwEventTokens token (some e)
        listeners := Function.update s.listeners e (s.listeners e ++ [s.calls.length])
        eventCount := if s.nwEventTokens token = none then s.eventCount + 1 else s.eventCount
        calls := s.calls ++ [{ token := token, event := e }] } := by
  unfold register createNWEvent
  cases ht : s.nwEventTokens token with
  | none => exact ⟨s.eventCount, Or.inr ⟨ht, rfl⟩, rfl⟩
  | some e =>
    refine ⟨e, Or.inl ht, ?_⟩
    rw [show Function.update s.nwEventTokens token (some e) = s.nwEventTokens by
      rw [← ht, Function.update_eq_self]]
    rfl

/-- What the table has stays in it: an event object that is there is used again. -/
theorem EventOf.keeps {token : String} {e : Nat} (he : s.EventOf token e) {t : String} {e' : Nat}
    (ht : s.nwEventTokens t = some e') :
    Function.update s.nwEventTokens token (some e) t = some e' := by
  by_cases htok : t = token
  · rw [htok, Function.update_self]
    rw [htok] at ht
    rcases he with he | ⟨hnone, -⟩
    · rw [← he]
      exact ht
    · rw [hnone] at ht
      cases ht
  · rw [Function.update_of_ne htok]
    exact ht

/-- No other token has the event object, be it one of the table or the next new one. -/
theorem Ok.token_ne (h : s.Ok) {token : String} {e : Nat} (he : s.EventOf token e) {t : String}
    (hne : t ≠ token) : s.nwEventTokens t ≠ some e := by
  intro ht
  rcases he with he | ⟨-, rfl⟩
  · exact hne (h.unique t token e ht he)
  · exact h.token t _ ht (h.fresh _ (Nat.le_refl _))

/-- Two tokens never share an event object, so an event under the one reaches no call of the other.
-/
theorem Ok.unique_update (h : s.Ok) {token : String} {e : Nat} (he : s.EventOf token e)
    {t t' : String} {e' : Nat} (ht : Function.update s.nwEventTokens token (some e) t = some e')
    (ht' : Function.update s.nwEventTokens token (some e) t' = some e') : t = t' := by
  rw [Function.update_apply] at ht ht'
  split at ht
  case isTrue htok =>
    cases ht
    split at ht'
    case isTrue htok' => rw [htok, htok']
    case isFalse htok' => exact absurd ht' (h.token_ne he htok')
  case isFalse htok =>
    split at ht'
    · cases ht'
      exact absurd ht (h.token_ne he htok)
    · exact h.unique t t' e' ht ht'

theorem Ok.event_lt (h : s.Ok) {token : String} {e : Nat} (he : s.EventOf token e) :
    e < if s.nwEventTokens token = none then s.eventCount + 1 else s.eventCount := by
  rcases he with he | ⟨hnone, rfl⟩
  · rw [he, if_neg nofun]
    by_contra hle
    exact h.token token e he (h.fresh e (by omega))
  · rw [if_pos hnone]
    omega

/-- A new call is none of the old ones, so it is not among the listeners yet. -/
theorem Ok.length_not_mem (h : s.Ok) (e : Nat) : s.calls.length ∉ s.listeners e := by
  intro hmem
  obtain ⟨call, hcall, -⟩ := h.listed e _ hmem
  exact absurd (lt_of_getElem? hcall) (by omega)

theorem mem_update_append {listeners : Nat → List Nat} {e e' k c : Nat} :
    c ∈ Function.update listeners e (listeners e ++ [k]) e' ↔
      c ∈ listeners e' ∨ (e' = e ∧ c = k) := by
  by_cases he : e' = e
  · rw [he, Function.update_self, List.mem_append, List.mem_singleton]
    simp
  · rw [Function.update_of_ne he]
    simp [he]

theorem getElem?_append_call (call : Call) (c : Nat) :
    (s.calls ++ [call])[c]? = if c = s.calls.length then some call else s.calls[c]? := by
  rcases Nat.lt_trichotomy c s.calls.length with hlt | rfl | hgt
  · rw [List.getElem?_append_left hlt, if_neg (by omega)]
  · simp
  · rw [List.getElem?_append_right (by omega), if_neg (by omega),
      List.getElem?_eq_none (by simp; omega), List.getElem?_eq_none (by omega)]

/-- The calls are those before and the new one, which waits under its token. -/
theorem getElem?_register (s : NWEvents) (token : String) :
    ∃ e, ∀ c : Nat, (s.register token).calls[c]? =
      if c = s.calls.length then some ⟨token, e, 0⟩ else s.calls[c]? := by
  obtain ⟨e, -, heq⟩ := register_spec s token
  refine ⟨e, fun c => ?_⟩
  rw [heq]
  exact getElem?_append_call _ c

/-- A call that was made stays as it is when another one is made. -/
theorem getElem?_register_of_some {c : Nat} {call : Call} (h : s.calls[c]? = some call)
    (token : String) : (s.register token).calls[c]? = some call := by
  obtain ⟨e, hcalls⟩ := getElem?_register s token
  have hlt := lt_of_getElem? h
  rw [hcalls, if_neg (by omega)]
  exact h

/-- A call that is made while an event is dispatched does not get it: the listeners of the event
were taken before. -/
theorem pending_register (s : NWEvents) (token : String) :
    (s.register token).pending = s.pending := by
  obtain ⟨e, -, heq⟩ := register_spec s token
  rw [heq]

/-- A call that has still to get the event is an old one, for the same reason. -/
theorem Ok.getElem?_of_pending (h : s.Ok) {c : Nat} (hc : c ∈ s.pending) {token : String}
    {call : Call} (hcall : (s.register token).calls[c]? = some call) : s.calls[c]? = some call := by
  obtain ⟨old, hold, -⟩ := h.pendingWaiting c hc
  rw [getElem?_register_of_some hold] at hcall
  rw [← hcall]
  exact hold

/-- **A new call keeps the agreement.** Its token gets an event object if it has none, and that one
has a listener from now on. -/
theorem Ok.register (h : s.Ok) (token : String) : (s.register token).Ok := by
  -- the call listens on the event of its token, an old one or a new one
  obtain ⟨e, he, heq⟩ := register_spec s token
  have hkeep : ∀ c (call : Call), s.calls[c]? = some call →
      (s.register token).calls[c]? = some call :=
    fun _ _ hcall => getElem?_register_of_some hcall token
  rw [heq] at hkeep ⊢
  constructor
  case listed =>
    intro e' c hc
    rcases mem_update_append.mp hc with hc | ⟨rfl, rfl⟩
    · obtain ⟨call, hcall, hevent⟩ := h.listed e' c hc
      exact ⟨call, hkeep c call hcall, hevent⟩
    · exact ⟨_, List.getElem?_concat_length, rfl⟩
  case nodup =>
    intro e'
    by_cases hee : e' = e
    · simp only [hee, Function.update_self]
      rw [List.nodup_append']
      exact ⟨h.nodup e, List.nodup_singleton _, List.disjoint_singleton.mpr (h.length_not_mem e)⟩
    · simp only [Function.update_of_ne hee]
      exact h.nodup e'
  -- the table: its event objects have listeners, the new call's among them
  case token =>
    intro t e' ht
    simp only [Function.update_apply] at ht ⊢
    split at ht
    · cases ht
      simp
    · have hne := h.token t e' ht
      split <;> simp [hne]
  case unique => exact fun t t' e' ht ht' => h.unique_update he ht ht'
  case found =>
    intro c call hcall hc
    simp only [getElem?_append_call] at hcall
    split at hcall
    · cases hcall
      exact Function.update_self ..
    · rename_i hlt
      have hold := (mem_update_append.mp hc).resolve_right fun hand => hlt hand.2
      exact he.keeps (h.found c call hcall hold)
  case fresh =>
    intro e' he'
    have hlt := h.event_lt he
    have hne : e' ≠ e := by
      rintro rfl
      exact absurd hlt (Nat.not_lt.mpr he')
    simp only [Function.update_of_ne hne]
    refine h.fresh e' (Nat.le_trans ?_ he')
    simp only
    split <;> omega
  case runs =>
    intro c call hcall
    simp only [getElem?_append_call] at hcall
    split at hcall
    · rename_i hc
      cases hcall
      refine Or.inl ⟨rfl, mem_update_append.mpr (Or.inr ⟨rfl, hc⟩), fun hcb => ?_⟩
      obtain ⟨call, hcall⟩ := h.callbackCall c hcb
      exact absurd (lt_of_getElem? hcall) (by omega)
    · rename_i hlt
      simp only [mem_update_append, or_iff_left fun hand : _ ∧ c = s.calls.length => hlt hand.2]
      exact h.runs c call hcall
  case pendingNodup => exact h.pendingNodup
  case pendingWaiting =>
    intro c hc
    obtain ⟨call, hcall, hruns⟩ := h.pendingWaiting c hc
    exact ⟨call, hkeep c call hcall, hruns⟩
  case callbackCall =>
    intro c hc
    obtain ⟨call, hcall⟩ := h.callbackCall c hc
    exact ⟨call, hkeep c call hcall⟩

/-- An event takes the listeners that are there, each of them once; their calls wait. -/
theorem Ok.dispatch (h : s.Ok) (hidle : s.callback = none) (token : String) :
    (s.dispatch token).Ok := by
  refine { h with pendingNodup := ?_, pendingWaiting := ?_ }
  · exact List.nodup_range.filter _
  · intro c hc
    obtain ⟨call, -, -, hwaiting⟩ := (h.mem_listening_iff_waiting hidle).mp hc
    exact hwaiting

theorem Ok.pop (h : s.Ok) {c : Nat} {rest : List Nat} (hpending : s.pending = c :: rest) :
    ({ s with pending := rest } : NWEvents).Ok := by
  have hnodup := h.pendingNodup
  rw [hpending, List.nodup_cons] at hnodup
  refine { h with pendingNodup := hnodup.2, pendingWaiting := ?_ }
  intro c' hc'
  refine h.pendingWaiting c' ?_
  rw [hpending]
  exact List.mem_cons_of_mem c hc'

theorem getElem?_complete (c k : Nat) :
    (s.complete c).calls[k]? = (s.calls[k]?).map fun call =>
      if k = c then { call with runs := call.runs + 1 } else call := by
  simp only [complete, List.getElem?_modify]
  by_cases hk : c = k
  · subst hk
    simp
  · simp [hk, Ne.symm hk]

/-- A callback that runs changes neither the token nor the event object of a call, and counts for
its own call only. -/
theorem getElem?_complete_some {c k : Nat} {call : Call}
    (h : (s.complete c).calls[k]? = some call) :
    ∃ old, s.calls[k]? = some old ∧ call.token = old.token ∧ call.event = old.event ∧
      call.runs = if k = c then old.runs + 1 else old.runs := by
  rw [getElem?_complete] at h
  obtain ⟨old, hold, rfl⟩ := Option.map_eq_some_iff.mp h
  refine ⟨old, hold, ?_, ?_, ?_⟩ <;> split <;> rfl

theorem waiting_complete_iff {c k : Nat} (hne : k ≠ c) :
    (s.complete c).Waiting k ↔ s.Waiting k := by
  unfold Waiting
  rw [getElem?_complete]
  simp [hne]

/-- **The callback of a waiting call runs.** It had not run before. Its listener stays until it
returns, so the call is the one exception that `Ok` makes. -/
theorem Ok.complete (h : s.Ok) {c : Nat} (hwaiting : s.Waiting c) (hcallback : s.callback = none)
    (hc : c ∉ s.pending) : (s.complete c).Ok := by
  constructor
  case listed =>
    intro e k hk
    obtain ⟨call, hcall, hevent⟩ := h.listed e k hk
    rw [getElem?_complete, hcall]
    refine ⟨_, rfl, ?_⟩
    -- the count of a call changes, its event does not
    split <;> exact hevent
  case nodup => exact h.nodup
  case token => exact h.token
  case unique => exact h.unique
  case found =>
    intro k call hcall hk
    obtain ⟨old, hold, htoken, hevent, -⟩ := getElem?_complete_some hcall
    rw [hevent] at hk
    rw [htoken, hevent]
    exact h.found k old hold hk
  case fresh => exact h.fresh
  case runs =>
    intro k call hcall
    obtain ⟨old, hold, -, hevent, hruns⟩ := getElem?_complete_some hcall
    rw [hevent, hruns]
    by_cases hk : k = c
    · subst hk
      -- a call that waits still listens, so its callback runs now
      obtain ⟨hlisten, -⟩ := h.listens_of_waiting hold hwaiting
      obtain ⟨call', hcall', hzero⟩ := hwaiting
      rw [hold] at hcall'
      cases hcall'
      rw [if_pos rfl, hzero]
      exact Or.inr ⟨rfl, iff_of_true hlisten rfl⟩
    · have hne : (s.complete c).callback ≠ some k := fun heq => hk (Option.some.inj heq).symm
      rw [if_neg hk]
      rcases h.runs k old hold with ⟨hzero, hlisten, -⟩ | ⟨hone, hiff⟩
      · exact Or.inl ⟨hzero, hlisten, hne⟩
      · rw [hcallback] at hiff
        exact Or.inr ⟨hone, iff_of_false (fun hmem => nomatch hiff.mp hmem) hne⟩
  case pendingNodup => exact h.pendingNodup
  case pendingWaiting =>
    intro k hk
    refine (waiting_complete_iff ?_).mpr (h.pendingWaiting k hk)
    rintro rfl
    exact hc hk
  case callbackCall =>
    intro k hk
    obtain ⟨call, hcall, -⟩ := hwaiting
    have heq : c = k := Option.some.inj hk
    rw [← heq, getElem?_complete, hcall]
    exact ⟨_, rfl⟩

/-- The call whose callback is running still listens: the source removes the listener after the
callback. -/
theorem Ok.listens_running (h : s.Ok) {c : Nat} {call : Call} (hcb : s.callback = some c)
    (hcall : s.calls[c]? = some call) : c ∈ s.listeners call.event := by
  rcases h.runs c call hcall with ⟨-, -, hne⟩ | ⟨-, hiff⟩
  · exact absurd hcb hne
  · exact hiff.mpr hcb

/-- The listener of the call is taken off its event object; it was on it once, so none of it is
left. -/
theorem Ok.mem_cleanNWEvent (h : s.Ok) {event c e k : Nat} (token : String) :
    k ∈ (s.cleanNWEvent event c token).listeners e ↔
      k ∈ s.listeners e ∧ (e = event → k ≠ c) := by
  unfold cleanNWEvent
  by_cases he : e = event
  · simp only [he, Function.update_self]
    rw [(h.nodup _).mem_erase_iff, and_comm]
    simp
  · simp only [Function.update_of_ne he]
    simp [he]

theorem Ok.nodup_cleanNWEvent (h : s.Ok) (event c e : Nat) (token : String) :
    ((s.cleanNWEvent event c token).listeners e).Nodup := by
  unfold cleanNWEvent
  by_cases he : e = event
  · simp only [he, Function.update_self]
    exact (h.nodup _).erase c
  · simp only [Function.update_of_ne he]
    exact h.nodup e

/-- A token that is deleted is that of the call, and the event has no listener then. -/
theorem nwEventTokens_cleanNWEvent (event c : Nat) (token t : String) :
    (s.cleanNWEvent event c token).nwEventTokens t =
      if (s.cleanNWEvent event c token).listeners event = [] ∧ t = token then none
      else s.nwEventTokens t := by
  simp only [cleanNWEvent, Function.update_self]
  by_cases hempty : (s.listeners event).erase c = []
  · rw [if_pos hempty, Function.update_apply]
    simp [hempty]
  · rw [if_neg hempty, if_neg fun hand => hempty hand.1]

/-- An event object that stays in the table has listeners: with the last one it is dropped under the
token of the call, which is its only token. -/
theorem Ok.token_cleanNWEvent (h : s.Ok) {c e : Nat} {call : Call} {t : String}
    (hfound : s.nwEventTokens call.token = some call.event)
    (ht : (s.cleanNWEvent call.event c call.token).nwEventTokens t = some e) :
    (s.cleanNWEvent call.event c call.token).listeners e ≠ [] := by
  rw [nwEventTokens_cleanNWEvent] at ht
  split at ht
  case isTrue => cases ht
  case isFalse hkeep =>
    by_cases he : e = call.event
    · rw [he] at ht ⊢
      exact fun hempty => hkeep ⟨hempty, h.unique t _ _ ht hfound⟩
    · simp only [cleanNWEvent, Function.update_of_ne he]
      exact h.token t e ht

/-- **The callback that is running returns, and its listener goes.** With the last listener of an
event object its token goes from the table, so the table keeps exactly the ones that are in use. -/
theorem Ok.finish (h : s.Ok) : s.finish.Ok := by
  unfold NWEvents.finish
  cases hcb : s.callback with
  | none => exact h
  | some c =>
    obtain ⟨call, hcall⟩ := h.callbackCall c hcb
    simp only [hcall]
    have hfound := h.found c call hcall (h.listens_running hcb hcall)
    constructor
    case listed => exact fun e k hk => h.listed e k ((h.mem_cleanNWEvent call.token).mp hk).1
    case nodup => exact fun e => h.nodup_cleanNWEvent call.event c e call.token
    case token => exact fun t e ht => h.token_cleanNWEvent hfound ht
    case unique =>
      intro t t' e ht ht'
      simp only [nwEventTokens_cleanNWEvent] at ht ht'
      split at ht
      · cases ht
      · split at ht'
        · cases ht'
        · exact h.unique t t' e ht ht'
    case found =>
      intro k call' hcall' hk
      have hfound' := h.found k call' hcall' ((h.mem_cleanNWEvent call.token).mp hk).1
      simp only [nwEventTokens_cleanNWEvent]
      rw [if_neg]
      · exact hfound'
      · -- the event of a call that listens has a listener
        rintro ⟨hempty, htok⟩
        rw [htok, hfound] at hfound'
        have hevent : call.event = call'.event := Option.some.inj hfound'
        rw [hevent] at hempty hk
        rw [hempty] at hk
        exact List.not_mem_nil hk
    case fresh =>
      intro e he
      have hnil := h.fresh e he
      rw [List.eq_nil_iff_forall_not_mem] at hnil ⊢
      exact fun k hk => hnil k ((h.mem_cleanNWEvent call.token).mp hk).1
    case runs =>
      intro k call' hcall'
      rcases h.runs k call' hcall' with ⟨hzero, hl, hne⟩ | ⟨hone, hiff⟩
      · -- the call has not run, so it is not the one that returns
        refine Or.inl ⟨hzero, (h.mem_cleanNWEvent call.token).mpr ⟨hl, ?_⟩, nofun⟩
        rintro - rfl
        exact hne hcb
      · refine Or.inr ⟨hone, iff_of_false ?_ nofun⟩
        intro hmem
        obtain ⟨hl, hne⟩ := (h.mem_cleanNWEvent call.token).mp hmem
        have heq : c = k := Option.some.inj (hcb.symm.trans (hiff.mp hl))
        subst heq
        have hsame : call = call' := Option.some.inj (hcall.symm.trans hcall')
        subst hsame
        exact hne rfl rfl
    case pendingNodup => exact h.pendingNodup
    case pendingWaiting => exact h.pendingWaiting
    case callbackCall => exact nofun

theorem calls_finish (s : NWEvents) : s.finish.calls = s.calls := by
  unfold finish
  split
  · split <;> rfl
  · rfl

theorem pending_finish (s : NWEvents) : s.finish.pending = s.pending := by
  unfold finish
  split
  · split <;> rfl
  · rfl

theorem callback_finish (s : NWEvents) : s.finish.callback = none := by
  unfold finish
  split
  · split <;> rfl
  · assumption

end NWEvents

end NodeWebkit.App
