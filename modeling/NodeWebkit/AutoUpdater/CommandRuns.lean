import NodeWebkit.AutoUpdater.Commands
import Mathlib.Data.List.Nodup

/-!
# Commands complete and do not block later ones

The first event that ends a child has one result for all of its calls (`Child.result`). What carries
the proof is where a call can be:

* **`Attached`** — a call belongs to at most one child, and every child has one;
* **`Told`** — a call of a child waits or has that result, and if the child has ended it waits for a
  handler that is still to run;
* **`Dispatching`** — the handlers that are still to run will give it that result;
* **`Holding`** — the globals have a child that has not ended, or one whose first `exit` handler is
  the next thing to run;
* **`Ticking`** — a call that belongs to no child has its result or one entry in the tick queue.

`commands_complete` says that a run whose steps meet `StepOk` is safe, that the code always runs on
until the page is idle, and in how many steps.

## The shape of the proof

Together the five are `Inv`. Many steps change the same things, so the steps are grouped by what
they change and the invariant is proved once for each group:

* `Inv.serve` — a handler calls the callback of its call (`Inv.onExit`, `Inv.onError`);
* `Attaches.inv` — a call comes to a child, to the one of the globals or to a new one;
* `Inv.unattached` — a call that belongs to no child is changed (a refusal, a `spawn` that throws,
  an entry of the tick queue);
* `SetsChild.event` and `SetsChild.data` — a child ends, or it writes.

`Inv.step` puts them together, and `Inv.safe` reads what callers rely on off the invariant.
-/

namespace NodeWebkit.AutoUpdater

open Lts Updater

namespace Commands

/-! ## Where a call can be -/

/-- What the first event that ends a child says to its calls. -/
def Child.result (child : Child) : Option Result :=
  match child.error with
  | some error => some ⟨some error, none⟩
  | none => child.exit.map fun e => exitResult e.code e.signal e.stdout e.stderr

/-- The callback has not been called. -/
def Call.Waiting (call : Call) : Prop := call.results = [] ∧ call.errorEmitted = false

/-- The callback has been called with the result of the child. -/
def Call.Served (call : Call) (child : Child) : Prop :=
  call.errorEmitted = child.error.isSome ∧ ∃ r, child.result = some r ∧ call.results = [r]

structure Attached (s : Commands) : Prop where
  fresh : ∀ i, s.childCount ≤ i → s.children i = {}
  nonempty : ∀ i < s.childCount, (s.children i).calls ≠ []
  nodup : ∀ i, (s.children i).calls.Nodup
  lt : ∀ i, ∀ c ∈ (s.children i).calls, c < s.callCount
  unique : ∀ i j c, c ∈ (s.children i).calls → c ∈ (s.children j).calls → i = j

structure Told (s : Commands) : Prop where
  told : ∀ i, ∀ c ∈ (s.children i).calls,
    (s.calls c).Waiting ∨ (s.calls c).Served (s.children i)
  ended : ∀ i, ∀ c ∈ (s.children i).calls, (s.children i).Ended → (s.calls c).Waiting →
    ∃ d ∈ s.dispatch, d.child = i ∧ c ∈ d.rest
  wrote : ∀ i r, (s.children i).result = some r → r.error = none →
    r.stdout = some (s.children i).stdout

/-- What the handlers of an event will find. -/
def Expects (s : Commands) (i : Nat) (child : Child) (rest : List Nat) : ChildEvent → Prop
  | .exit code signal => ∀ c ∈ rest,
      if child.error = none then
        (s.calls c).Waiting ∧
          child.result = some (exitResult code signal (s.calls c).stdout (s.calls c).stderr)
      else (s.calls c).errorEmitted = true
  | .error error =>
      child.error = some error ∧ child.exit = none ∧
      (child.started = false → s.spawnedProcess ≠ some i) ∧
      ∀ c ∈ rest, (s.calls c).Waiting

structure Dispatching (s : Commands) (d : Dispatch) : Prop where
  nodup : d.rest.Nodup
  calls : ∀ c ∈ d.rest, c ∈ (s.children d.child).calls
  expects : s.Expects d.child (s.children d.child) d.rest d.event

def ChildEvent.isExit : ChildEvent → Bool
  | .exit .. => true
  | .error _ => false

/-- No handler of an `exit` of the child has run. -/
def ExitAhead (s : Commands) (i : Nat) : Prop :=
  s.code = none ∧
    ∃ d ∈ s.dispatch, d.child = i ∧ d.event.isExit = true ∧ d.rest = (s.children i).calls

structure Holding (s : Commands) : Prop where
  lt : ∀ i, s.spawnedProcess = some i → i < s.childCount
  ended : ∀ i, s.spawnedProcess = some i → (s.children i).Ended → s.ExitAhead i

structure Ticking (s : Commands) : Prop where
  entry : ∀ e ∈ s.nextTick, e.1 < s.callCount ∧ ∀ i, e.1 ∉ (s.children i).calls
  count : ∀ c < s.callCount, (∀ i, c ∉ (s.children i).calls) →
    (s.nextTick.map Prod.fst).count c + (s.calls c).results.length = 1

structure Inv (s : Commands) : Prop where
  attached : s.Attached
  told : s.Told
  dispatching : ∀ d ∈ s.dispatch, s.Dispatching d
  holding : s.Holding
  ticking : s.Ticking

/-- At the start there is no child, no call and nothing in the tick queue: the parts of the
invariant speak about nothing. -/
theorem Inv.init : ({} : Commands).Inv where
  attached := {
    fresh := fun _ _ => rfl
    nonempty := fun i hi => absurd hi (Nat.not_lt_zero i)
    nodup := fun _ => List.nodup_nil
    lt := fun _ _ hc => nomatch hc
    unique := fun _ _ _ hc => nomatch hc }
  told := {
    told := fun _ _ hc => nomatch hc
    ended := fun _ _ hc => nomatch hc
    wrote := fun _ _ hr => nomatch hr }
  dispatching := fun _ hd => nomatch hd
  holding := {
    lt := fun _ hi => nomatch hi
    ended := fun _ hi => nomatch hi }
  ticking := {
    entry := fun _ he => nomatch he
    count := fun c hc => absurd hc (Nat.not_lt_zero c) }

variable {s t : Commands}

/-- A child that has no result has no call that is served: what a served call has been given is the
result of its child. -/
theorem Told.waiting (h : s.Told) {i c : Nat} (hc : c ∈ (s.children i).calls)
    (hresult : (s.children i).result = none) : (s.calls c).Waiting := by
  rcases h.told i c hc with hwaiting | ⟨-, r, hr, -⟩
  · exact hwaiting
  · rw [hresult] at hr
    cases hr

/-- Where no handler is left to run, the calls of a child that has ended are served. -/
theorem Told.served (h : s.Told) (hd : s.dispatch = none) {i c : Nat}
    (hc : c ∈ (s.children i).calls) (hended : (s.children i).Ended) :
    (s.calls c).Served (s.children i) := by
  rcases h.told i c hc with hwaiting | hserved
  · obtain ⟨d, hmem, -⟩ := h.ended i c hc hended hwaiting
    rw [hd] at hmem
    cases hmem
  · exact hserved

/-- Where no handler is left to run, the globals have a child that has not ended. -/
theorem Holding.not_ended (h : s.Holding) (hd : s.code ≠ none ∨ s.dispatch = none) (i : Nat)
    (hi : s.spawnedProcess = some i) : ¬ (s.children i).Ended := by
  intro hended
  obtain ⟨hcode, d, hmem, -⟩ := h.ended i hi hended
  rcases hd with hne | hnone
  · exact hne hcode
  · rw [hnone] at hmem
    cases hmem

/-- The children stay, and calls may come: a new call belongs to no child until it is attached to
one, so nothing changes about whose calls there are. -/
theorem Attached.frame (h : s.Attached) (hchildren : t.children = s.children)
    (hchildCount : t.childCount = s.childCount) (hcallCount : s.callCount ≤ t.callCount) :
    t.Attached := by
  constructor
  case fresh =>
    rw [hchildren, hchildCount]
    exact h.fresh
  case nonempty =>
    rw [hchildren, hchildCount]
    exact h.nonempty
  case nodup =>
    rw [hchildren]
    exact h.nodup
  case lt =>
    rw [hchildren]
    intro i c hc
    exact Nat.lt_of_lt_of_le (h.lt i c hc) hcallCount
  case unique =>
    rw [hchildren]
    exact h.unique

/-- What some of the handlers will find, where their calls stay. The handlers that have run are not
in `rest'` any more, and their calls may have changed; the globals may have been cleared, too. -/
theorem Expects.frame {i : Nat} {child : Child} {rest rest' : List Nat} {event : ChildEvent}
    (h : s.Expects i child rest event) (hsub : ∀ c ∈ rest', c ∈ rest)
    (hcalls : ∀ c ∈ rest', t.calls c = s.calls c)
    (hspawned : t.spawnedProcess = some i → s.spawnedProcess = some i) :
    t.Expects i child rest' event := by
  cases event with
  | exit code signal =>
    intro c hc
    rw [hcalls c hc]
    exact h c (hsub c hc)
  | error error =>
    obtain ⟨herror, hexit, hfailed, hwaiting⟩ := h
    refine ⟨herror, hexit, fun hstarted hi => hfailed hstarted (hspawned hi), ?_⟩
    intro c hc
    rw [hcalls c hc]
    exact hwaiting c (hsub c hc)

/-! ## Code that starts and ends -/

/-- Application code may start, and go on elsewhere, where the globals do not have a child that has
ended. -/
theorem Inv.setCode (h : s.Inv) (code : Option (List Nat))
    (hnext : ∀ i, s.spawnedProcess = some i → ¬ (s.children i).Ended) :
    ({ s with code := code } : Commands).Inv where
  attached := ⟨h.attached.fresh, h.attached.nonempty, h.attached.nodup, h.attached.lt,
    h.attached.unique⟩
  told := ⟨h.told.told, h.told.ended, h.told.wrote⟩
  dispatching := fun d hd =>
    have hs := h.dispatching d hd
    ⟨hs.nodup, hs.calls, hs.expects⟩
  holding := ⟨h.holding.lt, fun i hi hended => absurd hended (hnext i hi)⟩
  ticking := ⟨h.ticking.entry, h.ticking.count⟩

/-- An event is done when its last handler is. No call waits for a handler of it then, and the
globals do not have its child: the first handler of an `exit` has cleared them. -/
theorem Inv.endDispatch (h : s.Inv) (hrest : ∀ d ∈ s.dispatch, d.rest = []) :
    ({ s with dispatch := none } : Commands).Inv where
  attached := ⟨h.attached.fresh, h.attached.nonempty, h.attached.nodup, h.attached.lt,
    h.attached.unique⟩
  told := {
    told := h.told.told
    ended := by
      intro i c hc hended hwaiting
      obtain ⟨d, hd, -, hmem⟩ := h.told.ended i c hc hended hwaiting
      rw [hrest d hd] at hmem
      cases hmem
    wrote := h.told.wrote }
  dispatching := fun _ hd => nomatch hd
  holding := {
    lt := h.holding.lt
    ended := by
      intro i hi hended
      -- the globals would have a child without calls
      obtain ⟨-, d, hd, -, -, hcalls⟩ := h.holding.ended i hi hended
      rw [hrest d hd] at hcalls
      exact absurd hcalls.symm (h.attached.nonempty i (h.holding.lt i hi)) }
  ticking := ⟨h.ticking.entry, h.ticking.count⟩

/-! ## Handlers

A handler is the closure of one call. It reads and writes the variables of that call and clears the
globals; what it finds there is what `Expects` says of it, and the calls whose handlers have not run
yet are as they were. -/

theorem modifyCall_self (c : Nat) (f : Call → Call) : (s.modifyCall c f).calls c = f (s.calls c) :=
  Function.update_self ..

/-- The variables of the other calls stay: each call of `spawnUpdate` has its own closure. -/
theorem modifyCall_of_ne {c c' : Nat} (hne : c' ≠ c) (f : Call → Call) :
    (s.modifyCall c f).calls c' = s.calls c' :=
  Function.update_of_ne hne ..

/-- What a callback is called with is added to the results of its call, at the end. -/
theorem runCallback_self (c : Nat) (result : Result) (tries : List Nat) :
    (s.runCallback c result tries).calls c =
      { s.calls c with results := (s.calls c).results ++ [result] } :=
  Function.update_self ..

/-- A callback is called for one call only; the others have the results they had. -/
theorem runCallback_of_ne {c c' : Nat} (hne : c' ≠ c) (result : Result) (tries : List Nat) :
    (s.runCallback c result tries).calls c' = s.calls c' :=
  Function.update_of_ne hne ..

/-- A handler serves its call and leaves the others, and the globals have no child that has ended
afterwards. -/
theorem Inv.serve (h : s.Inv) {i c : Nat} {event : ChildEvent} {rest : List Nat}
    (hd : s.dispatch = some ⟨i, event, c :: rest⟩) (hd' : t.dispatch = some ⟨i, event, rest⟩)
    (hchildren : t.children = s.children) (hchildCount : t.childCount = s.childCount)
    (hcallCount : t.callCount = s.callCount) (hnextTick : t.nextTick = s.nextTick)
    (hothers : ∀ c' ≠ c, t.calls c' = s.calls c')
    (hserved : (t.calls c).Served (s.children i))
    (hspawned : ∀ j, t.spawnedProcess = some j →
      s.spawnedProcess = some j ∧ ¬ (s.children j).Ended) : t.Inv := by
  have hs := h.dispatching _ hd
  have hc : c ∈ (s.children i).calls := hs.calls c (List.mem_cons_self ..)
  have hnotin : c ∉ rest := (List.nodup_cons.mp hs.nodup).1
  -- the call is of no other child
  have hchild : ∀ j, c ∈ (s.children j).calls → j = i := fun j hj => h.attached.unique j i c hj hc
  constructor
  case attached => exact h.attached.frame hchildren hchildCount (Nat.le_of_eq hcallCount.symm)
  case told =>
    constructor
    case told =>
      intro j c' hc'
      rw [hchildren] at hc' ⊢
      rcases eq_or_ne c' c with rfl | hne
      · rw [hchild j hc']
        exact .inr hserved
      · rw [hothers c' hne]
        exact h.told.told j c' hc'
    case ended =>
      intro j c' hc' hended hwaiting
      rw [hchildren] at hc' hended
      rcases eq_or_ne c' c with rfl | hne
      · -- what has been served does not wait
        obtain ⟨-, r, -, hresults⟩ := hserved
        rw [hwaiting.1] at hresults
        cases hresults
      · rw [hothers c' hne] at hwaiting
        obtain ⟨d, hmem, hj, hrest⟩ := h.told.ended j c' hc' hended hwaiting
        rw [hd] at hmem
        cases hmem
        exact ⟨_, hd', hj, (List.mem_cons.mp hrest).resolve_left hne⟩
    case wrote =>
      rw [hchildren]
      exact h.told.wrote
  case dispatching =>
    intro d hmem
    rw [hd'] at hmem
    cases hmem
    have hrest : ∀ c' ∈ rest, t.calls c' = s.calls c' :=
      fun c' hc' => hothers c' fun heq => hnotin (heq ▸ hc')
    refine ⟨(List.nodup_cons.mp hs.nodup).2, ?_, ?_⟩
    · intro c' hc'
      rw [hchildren]
      exact hs.calls c' (List.mem_cons_of_mem _ hc')
    · rw [hchildren]
      exact hs.expects.frame (fun _ hc' => List.mem_cons_of_mem _ hc') hrest
        fun hi => (hspawned i hi).1
  case holding =>
    constructor
    case lt =>
      intro j hj
      rw [hchildCount]
      exact h.holding.lt j (hspawned j hj).1
    case ended =>
      intro j hj hended
      rw [hchildren] at hended
      exact absurd hended (hspawned j hj).2
  case ticking =>
    constructor
    case entry =>
      rw [hnextTick, hcallCount, hchildren]
      exact h.ticking.entry
    case count =>
      intro c' hlt hno
      rw [hchildren] at hno
      rw [hcallCount] at hlt
      -- the call that is served belongs to a child
      have hne : c' ≠ c := fun heq => hno i (heq ▸ hc)
      rw [hnextTick, hothers c' hne]
      exact h.ticking.count c' hlt hno

/-- **An `exit` handler keeps the invariant.** Either it calls the callback with the exit, which is
the result of a child without an error, or it stays silent because the `error` handler of the same
call has called it before. It clears the globals in both cases. -/
theorem Inv.onExit (h : s.Inv) {i c : Nat} {code : Option Int} {signal : Option String}
    {rest : List Nat} (hd : s.dispatch = some ⟨i, .exit code signal, c :: rest⟩) :
    (Commands.onExit { s with dispatch := some ⟨i, .exit code signal, rest⟩ } c code
      signal).Inv := by
  have hs := h.dispatching _ hd
  have hc : c ∈ (s.children i).calls := hs.calls c (List.mem_cons_self ..)
  have hexpects := hs.expects c (List.mem_cons_self ..)
  dsimp only at hexpects
  unfold Commands.onExit
  dsimp only
  by_cases hemitted : (s.calls c).errorEmitted = true
  · -- the `error` handler of the call has served it
    rw [if_pos hemitted]
    refine h.serve hd rfl rfl rfl rfl rfl (fun _ _ => rfl) ?_ (fun _ hj => nomatch hj)
    rcases h.told.told i c hc with ⟨-, hnot⟩ | hserved
    · rw [hemitted] at hnot
      cases hnot
    · exact hserved
  · rw [if_neg hemitted]
    have herror : (s.children i).error = none := by
      by_contra hne
      rw [if_neg hne] at hexpects
      exact hemitted hexpects
    rw [if_pos herror] at hexpects
    obtain ⟨hwaiting, hresult⟩ := hexpects
    refine h.serve hd rfl rfl rfl rfl rfl (fun _ hne => runCallback_of_ne hne ..) ?_
      (fun _ hj => nomatch hj)
    rw [runCallback_self]
    refine ⟨?_, _, hresult, ?_⟩
    · rw [herror]
      exact hwaiting.2
    · show (s.calls c).results ++ _ = _
      rw [hwaiting.1]
      rfl

/-- **An `error` handler keeps the invariant.** The call waited, and it is served with the error,
which is the result of its child. The handler leaves the globals as they are, so they must not have
this child: that is what `Holding` says while an `error` is dispatched. -/
theorem Inv.onError (h : s.Inv) {i c : Nat} {error : String} {rest : List Nat}
    (hd : s.dispatch = some ⟨i, .error error, c :: rest⟩) :
    (Commands.onError { s with dispatch := some ⟨i, .error error, rest⟩ } c error).Inv := by
  obtain ⟨herror, hexit, hfailed, hwaiting⟩ := (h.dispatching _ hd).expects
  have hothers : ∀ c' ≠ c,
      (Commands.onError { s with dispatch := some ⟨i, .error error, rest⟩ } c error).calls c' =
        s.calls c' := by
    intro c' hne
    unfold Commands.onError
    rw [runCallback_of_ne hne, modifyCall_of_ne hne]
  refine h.serve hd rfl rfl rfl rfl rfl hothers ?_ ?_
  · unfold Commands.onError
    rw [runCallback_self, modifyCall_self]
    refine ⟨?_, ⟨some error, none⟩, ?_, ?_⟩
    · rw [herror]
      rfl
    · unfold Child.result
      rw [herror]
    · show (s.calls c).results ++ _ = _
      rw [(hwaiting c (List.mem_cons_self ..)).1]
      rfl
  · intro j hj
    refine ⟨hj, fun hended => ?_⟩
    -- the event that is dispatched would be an `exit`
    obtain ⟨-, d, hmem, -, hevent, -⟩ := h.holding.ended j hj hended
    rw [hd] at hmem
    cases hmem
    cases hevent

/-! ## `spawnUpdate`

A call of `spawnUpdate` is refused, attached to the process that runs, or attached to a new one;
where `spawn` throws there is no child for it. In the first and in the last case its result comes
without a child, at once or in the next tick. -/

/-- A change of a call that belongs to no child. What the invariant says about children is about
other calls, and what it says about this one is `Ticking`, which is given for the state after it. -/
theorem Inv.unattached (h : s.Inv) {c : Nat} (hc : ∀ i, c ∉ (s.children i).calls)
    (hchildren : t.children = s.children) (hchildCount : t.childCount = s.childCount)
    (hcallCount : s.callCount ≤ t.callCount) (hdispatch : t.dispatch = s.dispatch)
    (hspawned : t.spawnedProcess = s.spawnedProcess)
    (hothers : ∀ c' ≠ c, t.calls c' = s.calls c')
    (hnext : ∀ i, s.spawnedProcess = some i → ¬ (s.children i).Ended)
    (hticking : t.Ticking) : t.Inv := by
  have hcalls : ∀ i, ∀ c' ∈ (s.children i).calls, t.calls c' = s.calls c' :=
    fun i c' hc' => hothers c' fun heq => hc i (heq ▸ hc')
  constructor
  -- the calls of the children are other ones, so each part is as before
  case attached => exact h.attached.frame hchildren hchildCount hcallCount
  case told =>
    constructor
    case told =>
      intro i c' hc'
      rw [hchildren] at hc' ⊢
      rw [hcalls i c' hc']
      exact h.told.told i c' hc'
    case ended =>
      intro i c' hc'
      rw [hchildren] at hc' ⊢
      rw [hcalls i c' hc', hdispatch]
      exact h.told.ended i c' hc'
    case wrote => rw [hchildren]; exact h.told.wrote
  case dispatching =>
    intro d hd
    rw [hdispatch] at hd
    have hs := h.dispatching d hd
    refine ⟨hs.nodup, hchildren ▸ hs.calls, ?_⟩
    rw [hchildren]
    exact hs.expects.frame (fun _ hc' => hc') (fun c' hc' => hcalls _ c' (hs.calls c' hc'))
      fun hi => hspawned ▸ hi
  case holding =>
    constructor
    case lt => rw [hspawned, hchildCount]; exact h.holding.lt
    case ended =>
      intro i hi hended
      rw [hspawned] at hi
      rw [hchildren] at hended
      exact absurd hended (hnext i hi)
  case ticking => exact hticking

/-- A new call is attached to a child that has not ended: the one of the globals, or a new one. -/
structure Attaches (s t : Commands) (i : Nat) (child : Child) : Prop where
  target : s.spawnedProcess = some i ∨ i = s.childCount
  children : t.children = Function.update s.children i child
  calls : child.calls = (s.children i).calls ++ [s.callCount]
  error : child.error = (s.children i).error
  exit : child.exit = (s.children i).exit
  stdout : child.stdout = (s.children i).stdout
  ended : ¬ child.Ended
  childCount : t.childCount = max s.childCount (i + 1)
  call : t.calls = Function.update s.calls s.callCount {}
  callCount : t.callCount = s.callCount + 1
  dispatch : t.dispatch = s.dispatch
  nextTick : t.nextTick = s.nextTick
  spawned : t.spawnedProcess = some i

namespace Attaches

variable {i : Nat} {child : Child} (h : Attaches s t i child)

include h

/-- The child the call is attached to, afterwards. -/
theorem self : t.children i = child := by rw [h.children, Function.update_self]

theorem of_ne {j : Nat} (hj : j ≠ i) : t.children j = s.children j := by
  rw [h.children, Function.update_of_ne hj]

theorem call_of_lt {c : Nat} (hc : c < s.callCount) : t.calls c = s.calls c := by
  rw [h.call, Function.update_of_ne (Nat.ne_of_lt hc)]

theorem lt_childCount : i < t.childCount := by
  have := h.childCount
  omega

theorem mem_iff (j c : Nat) : c ∈ (t.children j).calls ↔
    c ∈ (s.children j).calls ∨ (j = i ∧ c = s.callCount) := by
  rcases eq_or_ne j i with rfl | hj
  · rw [h.self, h.calls, List.mem_append, List.mem_singleton]
    exact or_congr_right (iff_and_self.mpr fun _ => rfl)
  · rw [h.of_ne hj]
    exact (or_iff_left fun hnew => hj hnew.1).symm

/-- What else is known of a child stays: a call that is added to it changes neither its result nor
what it has written. For a new child that is the state of one that has done nothing yet. -/
theorem result (j : Nat) : (t.children j).result = (s.children j).result ∧
    (t.children j).error = (s.children j).error ∧ (t.children j).exit = (s.children j).exit ∧
    (t.children j).stdout = (s.children j).stdout := by
  rcases eq_or_ne j i with rfl | hj
  · rw [h.self]
    unfold Child.result
    rw [h.error, h.exit]
    exact ⟨rfl, rfl, rfl, h.stdout⟩
  · rw [h.of_ne hj]
    exact ⟨rfl, rfl, rfl, rfl⟩

/-- Attaching a new call keeps calls and children apart: the call has a number that no child has
among its calls, and the child that gets it has at least this one. -/
theorem attached (hs : s.Attached) (hle : i ≤ s.childCount) : t.Attached := by
  -- `i` is an old child or the next one, and the call has the next id
  have hcount := h.childCount
  have hnew := h.callCount
  constructor
  case fresh =>
    intro j hj
    rw [h.of_ne (by omega)]
    exact hs.fresh j (by omega)
  case nonempty =>
    intro j hj
    rcases eq_or_ne j i with rfl | hji
    · rw [h.self, h.calls]
      exact List.append_ne_nil_of_right_ne_nil _ (List.cons_ne_nil _ _)
    · rw [h.of_ne hji]
      exact hs.nonempty j (by omega)
  case nodup =>
    intro j
    rcases eq_or_ne j i with rfl | hji
    · rw [h.self, h.calls, List.nodup_append]
      refine ⟨hs.nodup j, List.nodup_singleton _, ?_⟩
      intro c hc c' hc'
      rw [List.mem_singleton] at hc'
      have := hs.lt j c hc
      omega
    · rw [h.of_ne hji]
      exact hs.nodup j
  case lt =>
    intro j c hc
    rcases (h.mem_iff j c).mp hc with hc | ⟨-, rfl⟩
    · have := hs.lt j c hc
      omega
    · omega
  case unique =>
    intro j k c hj hk
    rcases (h.mem_iff j c).mp hj with hj | ⟨rfl, rfl⟩
    · rcases (h.mem_iff k c).mp hk with hk | ⟨-, rfl⟩
      · exact hs.unique j k c hj hk
      · exact absurd (hs.lt j _ hj) (Nat.lt_irrefl _)
    · rcases (h.mem_iff k _).mp hk with hk | ⟨rfl, -⟩
      · exact absurd (hs.lt k _ hk) (Nat.lt_irrefl _)
      · rfl

/-- The new call waits and its child has not ended; the calls that were there have the results they
had. -/
theorem told (hs : s.Told) (hattached : s.Attached) : t.Told := by
  constructor
  case told =>
    intro j c hc
    rcases (h.mem_iff j c).mp hc with hc | ⟨-, rfl⟩
    · rw [h.call_of_lt (hattached.lt j c hc)]
      refine (hs.told j c hc).imp_right fun hserved => ?_
      unfold Call.Served
      rw [(h.result j).1, (h.result j).2.1]
      exact hserved
    · -- the new call waits
      rw [h.call, Function.update_self]
      exact .inl ⟨rfl, rfl⟩
  case ended =>
    intro j c hc hj hwaiting
    have hji : j ≠ i := by
      rintro rfl
      rw [h.self] at hj
      exact h.ended hj
    rw [h.of_ne hji] at hc hj
    rw [h.call_of_lt (hattached.lt j c hc)] at hwaiting
    rw [h.dispatch]
    exact hs.ended j c hc hj hwaiting
  case wrote =>
    intro j r hr
    rw [(h.result j).1] at hr
    rw [(h.result j).2.2.2]
    exact hs.wrote j r hr

/-- The handlers that are still to run are those of earlier calls. For an `error` the globals must
not have its child afterwards, and the child they get is one that has not failed, or a new one. -/
theorem dispatching {d : Dispatch} (hs : s.Dispatching d) (hattached : s.Attached) :
    t.Dispatching d := by
  obtain ⟨j, event, rest⟩ := d
  have hrest : ∀ c ∈ rest, t.calls c = s.calls c :=
    fun c hc => h.call_of_lt (hattached.lt j c (hs.calls c hc))
  refine ⟨hs.nodup, fun c hc => (h.mem_iff j c).mpr (.inl (hs.calls c hc)), ?_⟩
  have hexpects := hs.expects
  obtain ⟨hr, he, hx, -⟩ := h.result j
  cases event with
  | exit code signal =>
    intro c hc
    rw [he, hr, hrest c hc]
    exact hexpects c hc
  | error error =>
    obtain ⟨herror, hexit, hfailed, hwaiting⟩ := hexpects
    refine ⟨he.trans herror, hx.trans hexit, ?_, ?_⟩
    · intro hstarted heq
      rw [h.spawned] at heq
      cases heq
      -- a child that has failed is not the one of the globals, and no new one
      rcases h.target with hi | rfl
      · rw [h.self] at hstarted
        refine h.ended (.inr ⟨hstarted, ?_⟩)
        rw [h.error, herror]
        rfl
      · rw [hattached.fresh _ (Nat.le_refl _)] at herror
        cases herror
    · intro c hc
      rw [hrest c hc]
      exact hwaiting c hc

/-- The globals have the child the call was attached to, and that one has not ended. -/
theorem holding : t.Holding := by
  constructor
  case lt =>
    intro j hj
    rw [h.spawned] at hj
    cases hj
    exact h.lt_childCount
  case ended =>
    intro j hj hchild
    rw [h.spawned] at hj
    cases hj
    rw [h.self] at hchild
    exact absurd hchild h.ended

/-- The new call belongs to a child, so it is not among the calls that the tick queue owes a result.
-/
theorem ticking (hs : s.Ticking) : t.Ticking := by
  have hnew := h.callCount
  constructor
  case entry =>
    intro e he
    rw [h.nextTick] at he
    obtain ⟨hlt, hno⟩ := hs.entry e he
    refine ⟨by omega, fun j hj => ?_⟩
    rcases (h.mem_iff j _).mp hj with hj | ⟨-, heq⟩
    · exact hno j hj
    · omega
  case count =>
    intro c hc hno
    have hne : c ≠ s.callCount := fun heq => hno i ((h.mem_iff i c).mpr (.inr ⟨rfl, heq⟩))
    rw [h.nextTick, h.call_of_lt (by omega)]
    exact hs.count c (by omega) fun j hj => hno j ((h.mem_iff j c).mpr (.inl hj))

/-- **A call that comes to a child keeps the invariant**, be it the child of the globals or one that
was just spawned: the parts above, put together. -/
theorem inv (hs : s.Inv) : t.Inv where
  attached := by
    refine h.attached hs.attached ?_
    rcases h.target with hi | rfl
    · exact Nat.le_of_lt (hs.holding.lt i hi)
    · exact Nat.le_refl _
  told := h.told hs.told hs.attached
  dispatching := fun d hd => h.dispatching (hs.dispatching d (h.dispatch ▸ hd)) hs.attached
  holding := h.holding
  ticking := h.ticking hs.ticking

end Attaches

/-- A new call that belongs to no child has its result, or an entry in the tick queue. -/
theorem Ticking.addCall (h : s.Ticking) (ticks : List (Nat × String))
    (hattached : s.Attached) (hchildren : t.children = s.children)
    (hcallCount : t.callCount = s.callCount + 1)
    (hothers : ∀ c ≠ s.callCount, t.calls c = s.calls c)
    (hnextTick : t.nextTick = s.nextTick ++ ticks) (hticks : ∀ e ∈ ticks, e.1 = s.callCount)
    (hone : ticks.length + (t.calls s.callCount).results.length = 1) : t.Ticking := by
  have hcount : ∀ c,
      (ticks.map Prod.fst).count c = if c = s.callCount then ticks.length else 0 := by
    intro c
    split
    · rename_i heq
      rw [← List.length_map Prod.fst, List.count_eq_length]
      intro c' hc'
      obtain ⟨e, he, rfl⟩ := List.mem_map.mp hc'
      rw [heq, hticks e he]
    · rename_i hne
      refine List.count_eq_zero.mpr fun hc => ?_
      obtain ⟨e, he, rfl⟩ := List.mem_map.mp hc
      exact hne (hticks e he)
  -- no entry is there for a call to come
  have hbefore : (s.nextTick.map Prod.fst).count s.callCount = 0 := by
    refine List.count_eq_zero.mpr fun hc => ?_
    obtain ⟨e, he, heq⟩ := List.mem_map.mp hc
    have hlt := (h.entry e he).1
    omega
  constructor
  case entry =>
    intro e he
    rw [hnextTick] at he
    rw [hcallCount, hchildren]
    rcases List.mem_append.mp he with he | he
    · obtain ⟨hlt, hno⟩ := h.entry e he
      exact ⟨by omega, hno⟩
    · rw [hticks e he]
      refine ⟨by omega, fun i hi => ?_⟩
      exact absurd (hattached.lt i _ hi) (Nat.lt_irrefl _)
  case count =>
    intro c hc hno
    rw [hchildren] at hno
    rw [hnextTick, List.map_append, List.count_append, hcount]
    rcases eq_or_ne c s.callCount with rfl | hne
    · rw [if_pos rfl, hbefore]
      omega
    · rw [if_neg hne, hothers c hne]
      have hold := h.count c (by omega) hno
      omega

/-- **`spawnUpdate` keeps the invariant**, with each of its four outcomes: attached to the child of
the globals, refused, attached to a new child, or answered in the next tick because `spawn` has
thrown. -/
theorem Inv.spawnUpdate (h : s.Inv) (hcode : s.code ≠ none) (args : List Arg) (detached : Bool)
    (outcome : SpawnOutcome) (tries : List Nat) :
    (s.spawnUpdate args detached outcome tries).Inv := by
  have hnext := h.holding.not_ended (.inl hcode)
  have hno : ∀ i, s.callCount ∉ (s.children i).calls :=
    fun i hi => absurd (h.attached.lt i _ hi) (Nat.lt_irrefl _)
  have hadd : ∀ c ≠ s.callCount, s.addCall.calls c = s.calls c :=
    fun c hc => Function.update_of_ne hc ..
  unfold Commands.spawnUpdate
  cases hi : s.spawnedProcess with
  | some i =>
    dsimp only
    split
    · -- the same arguments: the call goes to the child of the globals
      refine Attaches.inv (i := i) ⟨.inl hi, rfl, rfl, rfl, rfl, rfl, hnext i hi, ?_, rfl, rfl, rfl,
        rfl, hi⟩ h
      have hlt := h.holding.lt i hi
      show s.childCount = _
      omega
    · -- other arguments: the refusal is the result of the call
      have hothers : ∀ c ≠ s.callCount,
          (s.addCall.runCallback s.callCount (refusal args) (s.callCount :: tries)).calls c =
            s.calls c := by
        intro c hc
        rw [runCallback_of_ne hc, hadd c hc]
      refine h.unattached hno rfl rfl (Nat.le_succ _) rfl rfl hothers hnext ?_
      refine h.ticking.addCall [] h.attached rfl rfl hothers (List.append_nil _).symm
        (fun _ he => nomatch he) ?_
      rw [runCallback_self]
      show 0 + ((Function.update s.calls s.callCount {} s.callCount).results ++ [_]).length = 1
      rw [Function.update_self]
      rfl
  | none =>
    -- a child that was not there before has no calls
    have hchild := h.attached.fresh s.childCount (Nat.le_refl _)
    have hspawned : ∀ started,
        ((s.addCall.spawned args detached started).attach s.childCount s.callCount).Inv := by
      intro started
      have hnew : Attaches s ((s.addCall.spawned args detached started).attach s.childCount
          s.callCount) s.childCount
          { started := started, args := args, detached := detached, calls := [s.callCount] } := by
        constructor
        case target => exact .inr rfl
        case children =>
          have hself : (s.addCall.spawned args detached started).children s.childCount =
              { started := started, args := args, detached := detached } :=
            Function.update_self ..
          refine (Function.update_idem ..).trans (congrArg _ ?_)
          dsimp only
          rw [hself]
          rfl
        case calls => rw [hchild]; rfl
        case error => rw [hchild]
        case exit => rw [hchild]
        case stdout => rw [hchild]
        case ended =>
          rintro (hexit | ⟨-, herror⟩)
          · cases hexit
          · cases herror
        case childCount =>
          show s.childCount + 1 = _
          omega
        all_goals rfl
      exact hnew.inv h
    cases outcome with
    | throws error =>
      refine h.unattached hno rfl rfl (Nat.le_succ _) rfl rfl hadd hnext ?_
      refine h.ticking.addCall [(s.callCount, error)] h.attached rfl rfl hadd rfl ?_ ?_
      · intro e he
        rw [List.mem_singleton.mp he]
      · show 1 + (Function.update s.calls s.callCount {} s.callCount).results.length = 1
        rw [Function.update_self]
        rfl
    | failed => exact hspawned false
    | running => exact hspawned true

/-- The callback of an entry of the tick queue is called. The call had no result, because the count
of its entries and its results is one, and afterwards it has one and no entry. -/
theorem Inv.tick (h : s.Inv) (hdispatch : s.dispatch = none) {c : Nat} {error : String}
    {rest : List (Nat × String)} (hnextTick : s.nextTick = (c, error) :: rest) :
    (runCallback { s with nextTick := rest } c ⟨some error, none⟩ []).Inv := by
  obtain ⟨hlt, hno⟩ := h.ticking.entry (c, error) (by rw [hnextTick]; exact List.mem_cons_self ..)
  refine h.unattached hno rfl rfl (Nat.le_refl _) rfl rfl (fun _ hne => runCallback_of_ne hne ..)
    (h.holding.not_ended (.inr hdispatch)) ?_
  constructor
  case entry =>
    intro e he
    exact h.ticking.entry e (by rw [hnextTick]; exact List.mem_cons_of_mem _ he)
  case count =>
    intro c' hc' hno'
    have hcount := h.ticking.count c' hc' hno'
    rw [hnextTick, List.map_cons, List.count_cons] at hcount
    show (rest.map Prod.fst).count c' + _ = 1
    rcases eq_or_ne c' c with rfl | hne
    · -- the entry is used up, and the result comes instead
      rw [if_pos (beq_self_eq_true _)] at hcount
      rw [runCallback_self]
      show (rest.map Prod.fst).count c' + ((s.calls c').results ++ [_]).length = 1
      rw [List.length_append, List.length_singleton]
      omega
    · rw [if_neg (by rw [beq_iff_eq]; exact hne.symm)] at hcount
      rw [runCallback_of_ne hne]
      exact hcount

/-! ## What a child does

The events of a child are recorded in the child and in the variables that its `data` handlers write.
`SetsChild` says what such a step leaves alone: the calls of the children, their results, the
globals and the tick queue. -/

/-- A child changes in other ways than in its calls. -/
structure SetsChild (s t : Commands) (i : Nat) (child : Child) : Prop where
  lt : i < s.childCount
  calls : child.calls = (s.children i).calls
  children : t.children = Function.update s.children i child
  childCount : t.childCount = s.childCount
  callCount : t.callCount = s.callCount
  results : ∀ c, (t.calls c).results = (s.calls c).results
  emitted : ∀ c, (t.calls c).errorEmitted = (s.calls c).errorEmitted
  nextTick : t.nextTick = s.nextTick
  spawned : t.spawnedProcess = s.spawnedProcess

namespace SetsChild

variable {i : Nat} {child : Child} (h : SetsChild s t i child)

include h

/-- The child after what it did. -/
theorem self : t.children i = child := by rw [h.children, Function.update_self]

theorem of_ne {j : Nat} (hj : j ≠ i) : t.children j = s.children j := by
  rw [h.children, Function.update_of_ne hj]

theorem calls_eq (j : Nat) : (t.children j).calls = (s.children j).calls := by
  rcases eq_or_ne j i with rfl | hj
  · rw [h.self, h.calls]
  · rw [h.of_ne hj]

/-- A call waits as it did: the output that is added to its variables is not a result. -/
theorem waiting_iff (c : Nat) : (t.calls c).Waiting ↔ (s.calls c).Waiting := by
  unfold Call.Waiting
  rw [h.results, h.emitted]

theorem served_iff (c : Nat) (child : Child) :
    (t.calls c).Served child ↔ (s.calls c).Served child := by
  unfold Call.Served
  rw [h.results, h.emitted]

/-- Calls and children belong together as before. -/
theorem attached (hs : s.Attached) : t.Attached := by
  have hlt := h.lt
  constructor
  case fresh =>
    intro j hj
    rw [h.childCount] at hj
    rw [h.of_ne (by omega)]
    exact hs.fresh j hj
  case nonempty =>
    intro j hj
    rw [h.calls_eq]
    exact hs.nonempty j (h.childCount ▸ hj)
  case nodup =>
    intro j
    rw [h.calls_eq]
    exact hs.nodup j
  case lt =>
    intro j
    rw [h.calls_eq, h.callCount]
    exact hs.lt j
  case unique =>
    intro j k
    rw [h.calls_eq, h.calls_eq]
    exact hs.unique j k

theorem ticking (hs : s.Ticking) : t.Ticking := by
  constructor
  case entry =>
    simp only [h.calls_eq, h.callCount, h.nextTick]
    exact hs.entry
  case count =>
    simp only [h.calls_eq, h.callCount, h.nextTick, h.results]
    exact hs.count

/-- The globals go on having a child that has not ended, or one whose `exit` handlers are to run. -/
theorem holding (hs : s.Holding) (hdispatch : s.dispatch = none)
    (hexit : child.Ended → s.spawnedProcess = some i → t.ExitAhead i) : t.Holding := by
  constructor
  case lt =>
    rw [h.spawned, h.childCount]
    exact hs.lt
  case ended =>
    intro j hj hended
    rw [h.spawned] at hj
    rcases eq_or_ne j i with rfl | hji
    · rw [h.self] at hended
      exact hexit hended hj
    · rw [h.of_ne hji] at hended
      exact absurd hended (hs.not_ended (.inr hdispatch) j hj)

/-- No handler is left to run, so that an event of the child may begin. -/
theorem told (hs : s.Told) (hdispatch : s.dispatch = none)
    (htold : ∀ c ∈ child.calls, (s.calls c).Waiting ∨ (s.calls c).Served child)
    (hended : ∀ c ∈ child.calls, child.Ended → (s.calls c).Waiting →
      ∃ d ∈ t.dispatch, d.child = i ∧ c ∈ d.rest)
    (hwrote : ∀ r, child.result = some r → r.error = none → r.stdout = some child.stdout) :
    t.Told := by
  constructor
  case told =>
    intro j c hc
    rw [h.waiting_iff, h.served_iff]
    rcases eq_or_ne j i with rfl | hj
    · rw [h.self] at hc ⊢
      exact htold c hc
    · rw [h.of_ne hj] at hc ⊢
      exact hs.told j c hc
  case ended =>
    intro j c hc hend hwaiting
    rw [h.waiting_iff] at hwaiting
    rcases eq_or_ne j i with rfl | hj
    · rw [h.self] at hc hend
      exact hended c hc hend hwaiting
    · rw [h.of_ne hj] at hc hend
      -- of another child that has ended no call waits, as no handler is left to run
      obtain ⟨d, hd, -⟩ := hs.ended j c hc hend hwaiting
      rw [hdispatch] at hd
      cases hd
  case wrote =>
    intro j
    rcases eq_or_ne j i with rfl | hj
    · rw [h.self]
      exact hwrote
    · rw [h.of_ne hj]
      exact hs.wrote j

/-- **An event of a child** that waits, or that will have served its calls, keeps the invariant. All
the handlers of the event are still to run, so a call of the child that waits has one of them ahead;
where the event ends the child of the globals, it is an `exit`, whose first handler clears them. -/
theorem event {event : ChildEvent} (hs : s.Inv) (hquiet : s.Quiet)
    (hdispatch : t.dispatch = some ⟨i, event, child.calls⟩) (hcode : t.code = none)
    (htold : ∀ c ∈ child.calls, (s.calls c).Waiting ∨ (s.calls c).Served child)
    (hwrote : ∀ r, child.result = some r → r.error = none → r.stdout = some child.stdout)
    (hexit : child.Ended → s.spawnedProcess = some i → event.isExit = true)
    (hexpects : t.Expects i child child.calls event) : t.Inv where
  attached := h.attached hs.attached
  told := h.told hs.told hquiet.2 htold (fun _ hc _ _ => ⟨_, hdispatch, rfl, hc⟩) hwrote
  dispatching := by
    intro d hd
    rw [hdispatch] at hd
    cases hd
    constructor
    case nodup =>
      show child.calls.Nodup
      rw [h.calls]
      exact hs.attached.nodup i
    case calls =>
      show ∀ c ∈ child.calls, c ∈ (t.children i).calls
      rw [h.self]
      exact fun _ hc => hc
    case expects =>
      show t.Expects i (t.children i) child.calls event
      rw [h.self]
      exact hexpects
  holding := by
    -- the globals may have the child: then its first handler is ahead
    refine h.holding hs.holding hquiet.2 fun hended hi => ?_
    refine ⟨hcode, _, hdispatch, rfl, hexit hended hi, ?_⟩
    rw [h.self]
  ticking := h.ticking hs.ticking

/-- Output changes neither what the calls have been told nor, after a result without an error, what
the child is known to have written. -/
theorem data (hs : s.Inv) (hquiet : s.Quiet) (hdispatch : t.dispatch = s.dispatch)
    (herror : child.error = (s.children i).error) (hexit : child.exit = (s.children i).exit)
    (hstarted : child.started = (s.children i).started)
    (hwrote : ∀ r, (s.children i).result = some r → r.error = none →
      child.stdout = (s.children i).stdout) : t.Inv := by
  have hresult : child.result = (s.children i).result := by
    unfold Child.result
    rw [herror, hexit]
  have hended : child.Ended ↔ (s.children i).Ended := by
    unfold Child.Ended
    rw [herror, hexit, hstarted]
  constructor
  case attached => exact h.attached hs.attached
  case told =>
    refine h.told hs.told hquiet.2 ?_ ?_ ?_
    · intro c hc
      unfold Call.Served
      rw [hresult, herror]
      exact hs.told.told i c (h.calls ▸ hc)
    · intro c hc hend hwaiting
      rw [hdispatch]
      exact hs.told.ended i c (h.calls ▸ hc) (hended.mp hend) hwaiting
    · intro r hr hnone
      rw [hresult] at hr
      rw [hwrote r hr hnone]
      exact hs.told.wrote i r hr hnone
  case dispatching =>
    intro d hd
    rw [hdispatch, hquiet.2] at hd
    cases hd
  case holding =>
    -- writing does not end a child
    refine h.holding hs.holding hquiet.2 fun hend hi => ?_
    exact absurd (hended.mp hend) (hs.holding.not_ended (.inr hquiet.2) i hi)
  case ticking => exact h.ticking hs.ticking

end SetsChild

/-- An event is recorded in the child, and its handlers are to run: the calls have not changed. -/
theorem SetsChild.of_modifyChild {i : Nat} (hi : i < s.childCount) (f : Child → Child)
    (hcalls : (f (s.children i)).calls = (s.children i).calls) (dispatch : Option Dispatch) :
    SetsChild s { s.modifyChild i f with dispatch := dispatch } i (f (s.children i)) :=
  ⟨hi, hcalls, rfl, rfl, rfl, fun _ => rfl, fun _ => rfl, rfl, rfl⟩

/-- What the child writes is recorded in it and in the variables of its calls, by their `data`
handlers; no callback is called. -/
theorem SetsChild.of_onData {i : Nat} (hi : i < s.childCount) (f : Child → Child) (g : Call → Call)
    (hcalls : (f (s.children i)).calls = (s.children i).calls)
    (hresults : ∀ call, (g call).results = call.results)
    (hemitted : ∀ call, (g call).errorEmitted = call.errorEmitted) :
    SetsChild s ((s.modifyChild i f).onData i g) i (f (s.children i)) := by
  -- the `data` handlers of a call are called, or they are not its own
  have hcall : ∀ c, ((s.modifyChild i f).onData i g).calls c = g (s.calls c) ∨
      ((s.modifyChild i f).onData i g).calls c = s.calls c := by
    intro c
    show (if c ∈ ((s.modifyChild i f).children i).calls then g (s.calls c) else s.calls c) = _ ∨
      (if c ∈ ((s.modifyChild i f).children i).calls then g (s.calls c) else s.calls c) = _
    split
    · exact .inl rfl
    · exact .inr rfl
  refine ⟨hi, hcalls, rfl, rfl, rfl, ?_, ?_, rfl, rfl⟩
  · intro c
    rcases hcall c with hc | hc
    · rw [hc, hresults]
    · rw [hc]
  · intro c
    rcases hcall c with hc | hc
    · rw [hc, hemitted]
    · rw [hc]

/-- **An `exit`.** After an `error` the result of the child is the error, and all its calls have it
by `StepOk`; otherwise the exit is the result, with the output up to now, which by `StepOk` is what
each call has collected. -/
theorem Inv.exit (h : s.Inv) {i : Nat} {code : Option Int} {signal : Option String}
    (hok : s.StepOk (.exit i code signal)) (hst : s.step (.exit i code signal) = some t) :
    t.Inv := by
  simp only [step, Option.ite_none_right_eq_some, Option.some.injEq] at hst
  obtain ⟨⟨hidle, hi, hstarted, hexit⟩, rfl⟩ := hst
  -- the child has its exit, and its calls are to be told
  have hset := SetsChild.of_modifyChild hi (fun child =>
    { child with exit := some ⟨code, signal, child.stdout, child.stderr⟩ }) rfl
      (some ⟨i, .exit code signal, (s.children i).calls⟩)
  refine hset.event h hidle.1 rfl hidle.1.1 ?_ ?_ (fun _ _ => rfl) ?_
  · intro c hc
    rcases h.told.told i c hc with hwaiting | ⟨hemitted, r, hr, hresults⟩
    · exact .inl hwaiting
    · -- a result before the exit is that of an error
      refine .inr ⟨hemitted, r, ?_, hresults⟩
      unfold Child.result at hr ⊢
      cases herror : (s.children i).error with
      | none =>
        rw [herror, hexit] at hr
        cases hr
      | some error =>
        rw [herror] at hr
        exact hr
  · -- the result that is told is the one that the exit text gives
    intro r hr hnone
    unfold Child.result at hr
    cases herror : (s.children i).error with
    | some error =>
      simp only [herror, Option.some.injEq] at hr
      subst hr
      cases hnone
    | none =>
      simp only [herror, Option.map_some, Option.some.injEq] at hr
      subst hr
      unfold exitResult at hnone ⊢
      split at hnone
      · cases hnone
      · rename_i hcode
        rw [if_neg hcode]
  · intro c hc
    -- a call that waits was told nothing before, so its result is that of the exit
    have hchild := hok c hc
    show if (s.children i).error = none then _ else _
    by_cases herror : (s.children i).error = none
    · rw [if_pos herror] at hchild ⊢
      refine ⟨h.told.waiting hc ?_, ?_⟩
      · unfold Child.result
        rw [herror, hexit]
        rfl
      · unfold Child.result
        simp only [herror, Option.map_some]
        exact congrArg some hchild.symm
    · rw [if_neg herror] at hchild ⊢
      exact hchild

/-- **An `error`.** It is the first event of the child, so all its calls wait and will be told of
it; where the process was never started, `StepOk` says that the globals have another child. -/
theorem Inv.error (h : s.Inv) {i : Nat} {error : String} (hok : s.StepOk (.error i error))
    (hst : s.step (.error i error) = some t) : t.Inv := by
  simp only [step, Option.ite_none_right_eq_some, Option.some.injEq] at hst
  obtain ⟨⟨hquiet, hi⟩, rfl⟩ := hst
  obtain ⟨herror, hexit, hfailed⟩ := hok
  have hresult : (s.children i).result = none := by
    unfold Child.result
    rw [herror, hexit]
    rfl
  -- before its first event a child has told its calls nothing
  have hwaiting : ∀ c ∈ (s.children i).calls, (s.calls c).Waiting :=
    fun c hc => h.told.waiting hc hresult
  have hset := SetsChild.of_modifyChild hi (fun child => { child with error := some error }) rfl
    (some ⟨i, .error error, (s.children i).calls⟩)
  refine hset.event h hquiet rfl hquiet.1 (fun c hc => .inl (hwaiting c hc)) ?_ ?_ ?_
  · rintro r hr hnone
    cases hr
    cases hnone
  · rintro (hended | ⟨hstarted, -⟩) hspawned
    · rw [hexit] at hended
      cases hended
    · exact absurd hspawned (hfailed hstarted)
  · exact ⟨rfl, hexit, hfailed, hwaiting⟩

/-- **The child writes to `stdout`.** By `StepOk` it does so only while it has no result that holds
its output, so a result without an error still has all of it. -/
theorem Inv.stdoutData (h : s.Inv) {i : Nat} {data : String}
    (hok : s.StepOk (.stdoutData i data)) (hst : s.step (.stdoutData i data) = some t) :
    t.Inv := by
  simp only [step, Option.ite_none_right_eq_some, Option.some.injEq] at hst
  obtain ⟨⟨hidle, hi, -⟩, rfl⟩ := hst
  have hset := SetsChild.of_onData hi
    (fun child => { child with stdout := child.stdout ++ data })
    (fun call => { call with stdout := call.stdout ++ data }) rfl (fun _ => rfl) (fun _ => rfl)
  refine hset.data h hidle.1 rfl rfl rfl rfl ?_
  intro r hr hnone
  -- the child has exited, and one of its calls has been given its output
  have hended : (s.children i).Ended := by
    unfold Child.result at hr
    cases herror : (s.children i).error with
    | some error =>
      simp only [herror, Option.some.injEq] at hr
      subst hr
      cases hnone
    | none =>
      rw [herror] at hr
      obtain ⟨e, he, -⟩ := Option.map_eq_some_iff.mp hr
      refine .inl ?_
      rw [he]
      rfl
  obtain ⟨c, hc⟩ := List.exists_mem_of_ne_nil _ (h.attached.nonempty i hi)
  obtain ⟨-, r', hr', hresults⟩ := h.told.served hidle.1.2 hc hended
  rw [hr] at hr'
  cases hr'
  have hdata : data = "" := by
    by_contra hne
    exact hok hne c hc r (by rw [hresults]; exact List.mem_singleton_self r) hnone
  rw [hdata]
  exact String.append_empty

/-- What is written to `stderr` goes only into the text of a failure, which is made at the exit. -/
theorem Inv.stderrData (h : s.Inv) {i : Nat} {data : String}
    (hst : s.step (.stderrData i data) = some t) : t.Inv := by
  simp only [step, Option.ite_none_right_eq_some, Option.some.injEq] at hst
  obtain ⟨⟨hidle, hi, -⟩, rfl⟩ := hst
  have hset := SetsChild.of_onData hi
    (fun child => { child with stderr := child.stderr ++ data })
    (fun call => { call with stderr := call.stderr ++ data }) rfl (fun _ => rfl) (fun _ => rfl)
  exact hset.data h hidle.1 rfl rfl rfl rfl fun _ _ _ => rfl

/-! ## One step -/

/-- The next handler of the event that is dispatched, or the end of the event after the last one. -/
theorem Inv.handler (h : s.Inv) (hst : s.step .handler = some t) : t.Inv := by
  simp only [step] at hst
  split at hst
  · rename_i hcode hd
    cases hst
    -- the last handler is done
    refine h.endDispatch fun d hmem => ?_
    rw [hd] at hmem
    cases hmem
    rfl
  · rename_i hcode hd
    cases hst
    exact h.onExit hd
  · rename_i hcode hd
    cases hst
    exact h.onError hd
  · cases hst

/-- **A step that meets `StepOk` keeps every call where it can be.** One case an operation, each by
the lemma of its group; only `throw` and the events of a child need the condition. -/
theorem Inv.step (h : s.Inv) {op : Op} (hok : s.StepOk op) (hst : s.step op = some t) :
    t.Inv := by
  cases op with
  | turn =>
    simp only [Commands.step, Option.ite_none_right_eq_some, Option.some.injEq] at hst
    obtain ⟨hidle, rfl⟩ := hst
    -- code of the program runs only where nothing is being told
    exact h.setCode _ (h.holding.not_ended (.inr hidle.1.2))
  | spawnUpdate args detached outcome =>
    obtain ⟨tries, hcode, rfl⟩ := Option.map_eq_some_iff.mp hst
    have hne : s.code ≠ none := by
      rw [hcode]
      exact nofun
    exact h.spawnUpdate hne args detached outcome tries
  | «return» =>
    -- a return ends the code, or the callback of a refused call inside it
    have hset : ∀ code, s.code ≠ none → ({ s with code := code } : Commands).Inv :=
      fun code hne => h.setCode code (h.holding.not_ended (.inl hne))
    simp only [Commands.step] at hst
    split at hst
    · cases hst
    · rename_i hcode
      cases hst
      exact hset none (by rw [hcode]; exact nofun)
    · rename_i hcode
      cases hst
      exact hset _ (by rw [hcode]; exact nofun)
  | throw error =>
    -- an error that is thrown ends the event, whose other listeners had nothing to do
    obtain ⟨hcode, hrest⟩ := hok
    simp only [Commands.step, hcode, Option.some.injEq] at hst
    subst hst
    refine (h.endDispatch hrest).setCode none ?_
    exact h.holding.not_ended (.inl (by rw [hcode]; exact nofun))
  | handler => exact h.handler hst
  | tick =>
    simp only [Commands.step] at hst
    split at hst
    · cases hst
    · rename_i c error rest hnextTick
      rw [Option.ite_none_right_eq_some, Option.some.injEq] at hst
      obtain ⟨hquiet, rfl⟩ := hst
      exact h.tick hquiet.2 hnextTick
  | exit i code signal => exact h.exit hok hst
  | error i error => exact h.error hok hst
  | stdoutData i data => exact h.stdoutData hok hst
  | stderrData i data => exact h.stderrData hst

/-- **What callers rely on follows from the invariant.** A call has at most one result, calls of one
child have the same one, a call whose child has ended has it when the page is idle, and the globals
are free for the next command when application code runs. -/
theorem Inv.safe (h : s.Inv) : s.Safe := by
  -- a call of a child that has been told anything has been told the child's result
  have htold : ∀ i, ∀ c ∈ (s.children i).calls, ∀ r ∈ (s.calls c).results,
      (s.children i).result = some r := by
    intro i c hc r hr
    rcases h.told.told i c hc with hwaiting | ⟨-, r', hresult, hresults⟩
    · rw [hwaiting.1] at hr
      cases hr
    · rw [hresults, List.mem_singleton] at hr
      rw [hr]
      exact hresult
  have hsame : ∀ i, ∀ c ∈ (s.children i).calls, ∀ c' ∈ (s.children i).calls,
      ∀ r ∈ (s.calls c).results, ∀ r' ∈ (s.calls c').results, r = r' := by
    intro i c hc c' hc' r hr r' hr'
    have heq := (htold i c hc r hr).symm.trans (htold i c' hc' r' hr')
    exact Option.some.inj heq
  constructor
  case once =>
    intro c hlt
    -- a call of a child waits or is served, another one is counted with its tick
    by_cases hattached : ∃ i, c ∈ (s.children i).calls
    · obtain ⟨i, hc⟩ := hattached
      rcases h.told.told i c hc with hwaiting | ⟨-, r, -, hresults⟩
      · rw [hwaiting.1]
        exact Nat.zero_le _
      · rw [hresults]
        exact Nat.le_refl _
    · have hcount := h.ticking.count c hlt (not_exists.mp hattached)
      omega
  case complete =>
    intro hidle c hlt hended
    by_cases hattached : ∃ i, c ∈ (s.children i).calls
    · obtain ⟨i, hc⟩ := hattached
      obtain ⟨-, r, -, hresults⟩ := h.told.served hidle.1.2 hc (hended i hc)
      rw [hresults]
      rfl
    · have hcount := h.ticking.count c hlt (not_exists.mp hattached)
      rw [hidle.2] at hcount
      rw [← hcount]
      exact (Nat.zero_add _).symm
  case same => exact hsame
  case stdout => exact fun i c hc r hr => h.told.wrote i r (htold i c hc r hr)
  case update =>
    intro Release releases i c hc c' hc' r hr r' hr'
    rw [hsame i c hc c' hc' r hr r' hr']
  case next => exact fun hcode => h.holding.not_ended (.inl hcode)

/-! ## The code runs on until the page is idle

Nothing here needs the invariant: whatever the state, code that has begun can go on, and `work`
bounds how long. A refused call costs most, because its callback may throw into the tick queue. -/

/-- Where the page is not idle there is code that runs on: application code returns, the next
handler of the event runs, or the first entry of the tick queue is taken. -/
theorem settles_of_not_idle (hidle : ¬ s.Idle) : ∃ op t, op.Settles ∧ s.step op = some t := by
  -- code that runs can return; then the listeners go on; then the queue of ticks
  cases hcode : s.code with
  | some tries =>
    refine ⟨.return, ?_⟩
    cases tries with
    | nil => exact ⟨_, trivial, by simp only [step, hcode]; rfl⟩
    | cons c tries => exact ⟨_, trivial, by simp only [step, hcode]; rfl⟩
  | none =>
    cases hd : s.dispatch with
    | some d =>
      refine ⟨.handler, ?_⟩
      obtain ⟨i, event, rest⟩ := d
      cases rest with
      | nil => exact ⟨_, trivial, by simp only [step, hcode, hd]; rfl⟩
      | cons c rest =>
        cases event with
        | exit code signal => exact ⟨_, trivial, by simp only [step, hcode, hd]; rfl⟩
        | error error => exact ⟨_, trivial, by simp only [step, hcode, hd]; rfl⟩
    | none =>
      cases htick : s.nextTick with
      | nil => exact absurd ⟨⟨hcode, hd⟩, htick⟩ hidle
      | cons e rest =>
        exact ⟨.tick, _, trivial, by simp only [step, htick]; exact if_pos ⟨hcode, hd⟩⟩

/-- An operation that settles leaves less to do. Only `return` and `throw` of the code inside a
refusal, the handlers and the ticks do so; new turns and events of a child bring more work. -/
theorem work_step {op : Op} (hop : op.Settles) (hst : s.step op = some t) : t.work < s.work := by
  cases op with
  | turn => exact hop.elim
  | spawnUpdate args detached outcome => exact hop.elim
  | exit i code signal => exact hop.elim
  | error i error => exact hop.elim
  | stdoutData i data => exact hop.elim
  | stderrData i data => exact hop.elim
  | «return» =>
    simp only [step] at hst
    split at hst
    · cases hst
    · rename_i hcode
      cases hst
      simp only [work, hcode, Option.elim, List.length_nil]
      omega
    · rename_i hcode
      cases hst
      simp only [work, hcode, Option.elim, List.length_cons]
      omega
  | throw error =>
    simp only [step] at hst
    split at hst
    · cases hst
    · rename_i hcode
      cases hst
      simp only [work, hcode, Option.elim, List.length_nil]
      omega
    · rename_i hcode
      cases hst
      -- the entry in the tick queue costs less than the refused call did
      simp only [work, hcode, Option.elim, List.length_cons, List.length_append, List.length_nil]
      omega
  | handler =>
    simp only [step] at hst
    split at hst
    · -- the event has no listener left
      rename_i hcode hd
      cases hst
      simp only [work, hcode, hd, Option.elim, List.length_nil]
      omega
    · rename_i hcode hd
      cases hst
      unfold onExit
      dsimp only
      split
      · -- the child has a result already, so the listener does nothing
        simp only [work, hcode, hd, Option.elim, List.length_cons]
        omega
      · simp only [work, runCallback, modifyCall, hcode, hd, Option.elim, List.length_cons,
          List.length_nil]
        omega
    · rename_i hcode hd
      cases hst
      simp only [work, onError, runCallback, modifyCall, hcode, hd, Option.elim, List.length_cons,
        List.length_nil]
      omega
    · cases hst
  | tick =>
    simp only [step] at hst
    split at hst
    · cases hst
    · rename_i c error rest hnextTick
      rw [Option.ite_none_right_eq_some, Option.some.injEq] at hst
      obtain ⟨⟨hcode, hd⟩, rfl⟩ := hst
      simp only [work, runCallback, modifyCall, hcode, hd, hnextTick, Option.elim, List.length_cons,
        List.length_nil]
      omega

/-! ## Whole runs -/

/-- **Commands complete and do not block later ones** in a run whose steps meet `StepOk`. From any
state the code runs on until the page is idle, and that comes in a bounded number of steps. -/
theorem commands_complete (ops : List Op) (s : Commands) :
    (Run (Guarded StepOk (ofPartial step)) {} ops s → s.Safe) ∧
    (¬ s.Idle → ∃ op t, op.Settles ∧ s.step op = some t) ∧
    ∀ ops' t, Run (Guarded (fun _ op => op.Settles) (ofPartial step)) s ops' t →
      ops'.length ≤ s.work := by
  refine ⟨?_, settles_of_not_idle, ?_⟩
  · intro hrun
    have hinv : s.Inv :=
      hrun.invariant (fun _ _ _ h hst => h.step hst.1 hst.2) Inv.init
    exact hinv.safe
  · intro ops' t hrun
    have hle := hrun.length_le (m := work) fun _ _ _ hst => work_step hst.1 hst.2
    omega

/-- A command, the same one again, another one, which is refused, and that one again after the exit
of the first one. -/
def attachedAndRefused : List Op :=
  [.turn, .spawnUpdate [some "--download", some "a"] false .running,
    .spawnUpdate [some "--download", some "a"] false .running,
    .spawnUpdate [some "--update", some "a"] false .running, .return, .return,
    .stdoutData 0 "{}", .exit 0 (some 0) none, .handler, .return, .handler, .return, .handler,
    .turn, .spawnUpdate [some "--update", some "a"] false .running]

/-- The second call has the output of the child it was attached to, and the last one is started. -/
theorem attachedAndRefused_safe :
    ∃ s, Run (Guarded StepOk (ofPartial step)) {} attachedAndRefused s ∧ s.Safe ∧
      s.spawnedProcess = some 1 ∧ (s.calls 1).results = [⟨none, some "{}"⟩] := by
  obtain ⟨s, hs, hspawned, hresults⟩ :
      ∃ s, exec StepOk step attachedAndRefused {} = some s ∧ s.spawnedProcess = some 1 ∧
        (s.calls 1).results = [⟨none, some "{}"⟩] :=
    ⟨_, rfl, rfl, rfl⟩
  have hrun := Run.of_exec hs
  exact ⟨s, hrun, (commands_complete attachedAndRefused s).1 hrun, hspawned, hresults⟩

/-- `spawn` fails, and application code runs in a later turn. -/
def failedSpawn : List Op :=
  [.turn, .spawnUpdate [some "--download", some "a"] false .failed, .return, .error 0 "ENOENT",
    .handler, .return, .handler, .turn]

/-- The globals still have the process that was never there: the `error` handler does not clear
them, and no `exit` will come. -/
theorem failedSpawn_not_safe :
    ¬ ∀ (ops : List Op) (s : Commands), Run (ofPartial step) {} ops s → s.Safe := by
  intro hall
  obtain ⟨s, hs, hcode, hspawned, hstarted, herror⟩ :
      ∃ s, exec (fun _ _ => True) step failedSpawn {} = some s ∧ s.code ≠ none ∧
        s.spawnedProcess = some 0 ∧ (s.children 0).started = false ∧
        (s.children 0).error = some "ENOENT" :=
    ⟨_, rfl, nofun, rfl, rfl, rfl⟩
  have hnext := (hall failedSpawn s (Run.of_exec hs).unguard).next hcode 0 hspawned
  refine hnext (.inr ⟨hstarted, ?_⟩)
  rw [herror]
  rfl

end Commands

end NodeWebkit.AutoUpdater
