import NodeWebkit.Lib.JsArray
import NodeWebkit.Window.Listeners

/-!
# What the listener operations do to the live listeners

The functions of `Listeners.lean` reach an event source through three tables and a `switch`.
`source` names the source an event ends up at, and the lemmas here restate each operation
as its effect on `live`, the list of bound functions registered for an event:

* `attach` / `on_eq`: `on` appends to an event object and overwrites a handler property;
* `detach` / `removeListener_eq`: `removeListener` drops the first listener with the callback;
* `clear` / `removeAllListeners_eq`: the loop over a copy empties the list, the loop over the live
  array does so when there is at most one listener.

Each of the three gets the same lemmas: which of the other fields it leaves alone, what it does to
the listeners of its own event (`live_attach_listener`, `live_attach_handler`, `live_detach`,
`live_clear`), and that the listeners of the other events stay, which rests on
`source_injective`.

Nothing here speaks about the records; they are compared with the live listeners in
`ListenersAgree.lean`.
-/

namespace NodeWebkit.Window

/-! ## The source of an event

The lookups follow the order of the source: the map of the app window, then the ones of `NWWindow`,
and `focus` and `blur` apart from them, as the handler properties they are. -/

/-- The event object or handler property an event name is registered on. -/
def source : EventName → Option (EventProp ⊕ HandlerProp)
  | .focus => some (.inr .onfocus)
  | .blur => some (.inr .onblur)
  | event => (appWinEventsMap event <|> nwWinEventsMap event <|> nwWrapEventsMap event).map .inl

/-- The three maps and the `switch` share no event object and no handler property. An operation on
the source of one event therefore never touches the listeners of another one. -/
theorem source_injective {e e' : EventName} {src : EventProp ⊕ HandlerProp}
    (h : source e = some src) (h' : source e' = some src) : e = e' := by
  cases e <;> simp [source, appWinEventsMap, nwWinEventsMap, nwWrapEventsMap] at h <;>
    subst h <;>
    cases e' <;> simp [source, appWinEventsMap, nwWinEventsMap, nwWrapEventsMap] at h' ⊢

/-- The events with a source are the ones that `on` dispatches: for every other name `on` makes a
record and registers nothing, so the agreement is only asked for these. -/
theorem mem_dispatched_iff {e : EventName} : e ∈ EventName.dispatched ↔ source e ≠ none := by
  cases e <;>
    simp [EventName.dispatched, source, appWinEventsMap, nwWinEventsMap, nwWrapEventsMap]

namespace NWWindow

variable {F : Type}

/-- **`live` read through `source`.** The form in which every operation below is compared: a list on
an event object, at most one function on a handler property, nothing for an unknown name. -/
theorem live_eq (self : NWWindow F) (e : EventName) :
    self.live e = match source e with
      | some (.inl p) => self.listeners p
      | some (.inr h) => (self.handlers h).toList
      | none => [] := by
  cases e <;> rfl

/-! ## `on`

`on` makes a record, if it is asked to, and registers on the source; the two halves are apart in
`on_eq`, and `once` and the replay after a reload use the second one on its own. -/

/-- Registration of one bound function on the source of the event. -/
def attach (self : NWWindow F) (e : EventName) (callback : JsFn F) : NWWindow F :=
  match source e with
  | some (.inl p) => self.addListener p callback
  | some (.inr h) => self.setHandler h callback
  | none => self

/-- `on` is the record followed by the registration; with the flag off, as in a reload, it is the
registration alone. The `switch` over the names is used up here. -/
theorem on_eq (self : NWWindow F) (e : EventName) (callback : JsFn F) (record : Bool) :
    self.on e callback record =
      (if record then self.nwRecordEvent e callback false else self).attach e callback := by
  cases e <;> rfl

section Attach

variable (self : NWWindow F) (e : EventName) (callback : JsFn F)

@[simp] theorem attach_outerEventCBs :
    (self.attach e callback).outerEventCBs = self.outerEventCBs := by
  unfold attach; split <;> rfl

@[simp] theorem attach_fired : (self.attach e callback).fired = self.fired := by
  unfold attach; split <;> rfl

@[simp] theorem attach_calls : (self.attach e callback).calls = self.calls := by
  unfold attach; split <;> rfl

/-- Registering for one event leaves the listeners of every other event alone. -/
theorem live_attach_of_ne {e' : EventName} (hne : e' ≠ e) :
    (self.attach e callback).live e' = self.live e' := by
  rw [live_eq, live_eq]
  unfold attach
  cases hs : source e with
  | none => rfl
  | some src =>
    cases hs' : source e' with
    | none => rfl
    | some src' =>
      -- both events have a source, and by `source_injective` not the same one
      have hsrc : src' ≠ src := fun heq =>
        hne (source_injective hs' (heq ▸ hs))
      cases src <;> cases src' <;> simp_all [addListener, setHandler]

/-- On an event object the new bound function comes last, as the function object with the next
number. -/
theorem live_attach_listener {p : EventProp} (hs : source e = some (.inl p)) :
    (self.attach e callback).live e = self.live e ++ [⟨self.nextRef, callback⟩] ∧
      (self.attach e callback).nextRef = self.nextRef + 1 := by
  rw [live_eq, live_eq]
  simp [attach, hs, addListener]

/-- On a handler property the new bound function is the only one: what was there is overwritten, and
its record is not. This is where a second `on('focus', f)` goes wrong. -/
theorem live_attach_handler {h : HandlerProp} (hs : source e = some (.inr h)) :
    (self.attach e callback).live e = [⟨self.nextRef, callback⟩] ∧
      (self.attach e callback).nextRef = self.nextRef + 1 := by
  rw [live_eq]
  simp [attach, hs, setHandler]

end Attach

/-! ## `removeListener`

The record and the bound function are looked up separately, each by the raw callback. `detach` is
the second half. It compares the property `listener` of the bound functions, and for a function
registered by `once` that is the closure `g`. -/

variable [DecidableEq F]

/-- The part of `removeListener` that works on the event source. -/
def detach (self : NWWindow F) (e : EventName) (callback : JsFn F) : NWWindow F :=
  match source e with
  | some (.inl p) => (self.removeFirst p callback).getD self
  | some (.inr h) => self.clearHandler h callback
  | none => self

/-- `removeListener` drops the first record of the callback and then the first bound function for
it. In the source the second half stands once in each arm of the lookup, here it is `detach`. -/
theorem removeListener_eq (self : NWWindow F) (e : EventName) (callback : JsFn F) :
    self.removeListener e callback = (self.nwRemoveOuterEventCB e callback).detach e callback := by
  cases e with
  | focus | blur | other => rfl
  | _ =>
    simp only [removeListener, detach, source, appWinEventsMap, nwWinEventsMap, nwWrapEventsMap,
      Option.bind_some, Option.bind_none, HOrElse.hOrElse, OrElse.orElse, Option.orElse,
      Option.map_some]
    cases removeFirst _ _ callback <;> rfl

section Detach

variable (self : NWWindow F) (e : EventName) (callback : JsFn F)

@[simp] theorem detach_outerEventCBs :
    (self.detach e callback).outerEventCBs = self.outerEventCBs := by
  unfold detach removeFirst
  split
  · cases (self.listeners _).find? _ <;> rfl
  · rfl
  · rfl

@[simp] theorem detach_fired : (self.detach e callback).fired = self.fired := by
  unfold detach removeFirst
  split
  · cases (self.listeners _).find? _ <;> rfl
  · rfl
  · rfl

@[simp] theorem detach_calls : (self.detach e callback).calls = self.calls := by
  unfold detach removeFirst
  split
  · cases (self.listeners _).find? _ <;> rfl
  · rfl
  · rfl

@[simp] theorem detach_nextRef : (self.detach e callback).nextRef = self.nextRef := by
  unfold detach removeFirst
  split
  · cases (self.listeners _).find? _ <;> rfl
  · rfl
  · rfl

/-- Unregistering from one event leaves the listeners of every other event alone. -/
theorem live_detach_of_ne {e' : EventName} (hne : e' ≠ e) :
    (self.detach e callback).live e' = self.live e' := by
  rw [live_eq, live_eq]
  cases hs' : source e' with
  | none => rfl
  | some src' =>
    unfold detach removeFirst
    cases hs : source e with
    | none => rfl
    | some src =>
      -- both events have a source, and by `source_injective` not the same one
      have hsrc : src' ≠ src := fun heq => hne (source_injective hs' (heq ▸ hs))
      cases src with
      | inl p =>
        cases hfind : (self.listeners p).find? fun l => l.listener = callback with
        | none => simp [hfind]
        | some l => cases src' <;> simp_all [eventRemoveListener]
      | inr h => cases src' <;> simp_all [clearHandler]

/-- `detach` removes the first listener with the callback: the search stops at it, and no other
listener is the same function object. -/
theorem live_detach (hrefs : (self.live e).Pairwise fun l l' => l.ref ≠ l'.ref) :
    (self.detach e callback).live e = (self.live e).eraseP fun l => l.listener = callback := by
  rw [live_eq] at hrefs ⊢
  rw [live_eq]
  unfold detach removeFirst
  cases hs : source e with
  | none => rfl
  | some src =>
    cases src with
    | inl p =>
      -- an event object: the loop stops at the first listener found, which is erased by its
      -- identity
      rw [hs] at hrefs
      cases hfind : (self.listeners p).find? fun l => l.listener = callback with
      | none =>
        have hnone : ∀ l ∈ self.listeners p, ¬ decide (l.listener = callback) = true :=
          List.find?_eq_none.mp hfind
        simp only [hfind, Option.map_none, Option.getD_none]
        exact (List.eraseP_of_forall_not hnone).symm
      | some l =>
        simp only [hfind, Option.map_some, Option.getD_some, eventRemoveListener,
          Function.update_self]
        exact JsArray.eraseP_key_eq hrefs hfind
    | inr h =>
      -- a handler property holds one function, which goes if it is the one
      cases hh : self.handlers h with
      | none => simp [clearHandler, hh]
      | some l => by_cases hl : l.listener = callback <;> simp [clearHandler, hh, hl]

end Detach

section RemoveListener

variable (self : NWWindow F) (e : EventName) (callback : JsFn F)

/-- The first record of the callback goes, and the records of the other events stay. What is live
plays no part in it: the record goes also where no bound function is found. -/
theorem removeListener_outerEventCBs :
    (self.removeListener e callback).outerEventCBs = Function.update self.outerEventCBs e
      ((self.outerEventCBs e).eraseP fun r => r.callback = callback) := by
  rw [removeListener_eq, detach_outerEventCBs]
  rfl

@[simp] theorem removeListener_fired : (self.removeListener e callback).fired = self.fired := by
  rw [removeListener_eq, detach_fired]
  rfl

@[simp] theorem removeListener_calls : (self.removeListener e callback).calls = self.calls := by
  rw [removeListener_eq, detach_calls]
  rfl

@[simp] theorem removeListener_nextRef :
    (self.removeListener e callback).nextRef = self.nextRef := by
  rw [removeListener_eq, detach_nextRef]
  rfl

/-- Removing from one event leaves the listeners of every other event alone, whatever is registered
for them. -/
theorem live_removeListener_of_ne {e' : EventName} (hne : e' ≠ e) :
    (self.removeListener e callback).live e' = self.live e' := by
  rw [removeListener_eq, live_detach_of_ne _ _ _ hne]
  rfl

/-- The first listener with the callback goes. The search finds the function object and
`removeListener` of the event object then looks for that very object, so the identities have to be
distinct for the two to be the same one. -/
theorem live_removeListener (hrefs : (self.live e).Pairwise fun l l' => l.ref ≠ l'.ref) :
    (self.removeListener e callback).live e =
      (self.live e).eraseP fun l => l.listener = callback := by
  rw [removeListener_eq, live_detach (self.nwRemoveOuterEventCB e callback) e callback hrefs]
  rfl

end RemoveListener

/-! ## `removeAllListeners`

The source has the loop twice: some event objects are gone through by a copy of their list, the
others by the live array, from which each turn takes an element out. -/

/-- The event source of the event loses all its listeners. -/
def clear (self : NWWindow F) (e : EventName) : NWWindow F :=
  match source e with
  | some (.inl p) => { self with listeners := Function.update self.listeners p [] }
  | some (.inr h) => { self with handlers := Function.update self.handlers h none }
  | none => self

omit [DecidableEq F] in
/-- The loop over a copy empties the list: the array always starts with the listener the loop is
at. -/
theorem removeEachCopy_eq (self : NWWindow F) (p : EventProp) :
    self.removeEachCopy p = { self with listeners := Function.update self.listeners p [] } := by
  suffices h : ∀ xs (s : NWWindow F), s.listeners p = xs →
      xs.foldl (fun s l => s.eventRemoveListener p l.ref) s =
        { s with listeners := Function.update s.listeners p [] } from h _ self rfl
  -- the induction is on the copy, which is what is still live when a turn begins
  intro xs
  induction xs with
  | nil =>
    intro s hs
    rw [List.foldl_nil, ← hs, Function.update_eq_self]
  | cons l xs ih =>
    intro s hs
    have hrest : (s.eventRemoveListener p l.ref).listeners p = xs := by
      simp [eventRemoveListener, hs]
    rw [List.foldl_cons, ih _ hrest]
    simp [eventRemoveListener]

omit [DecidableEq F] in
/-- The loop over the live array skips every other listener, so it empties the list only when
there is at most one. -/
theorem removeEach_eq (copy : Bool) (self : NWWindow F) (p : EventProp)
    (h : copy = true ∨ (self.listeners p).length ≤ 1) :
    self.removeEach copy p = { self with listeners := Function.update self.listeners p [] } := by
  cases copy with
  | true => simpa [removeEach] using removeEachCopy_eq self p
  | false =>
    -- the live array with at most one listener: there is nothing to skip
    have hlen : (self.listeners p).length ≤ 1 := by simpa using h
    cases hxs : self.listeners p with
    | nil =>
      simp only [removeEach, hxs, List.length_nil, removeEachLive]
      rw [if_neg (by simp), ← hxs, Function.update_eq_self]
    | cons l xs =>
      have hxs' : xs = [] := by
        rw [hxs, List.length_cons] at hlen
        exact List.length_eq_zero_iff.mp (by omega)
      subst hxs'
      simp [removeEach, hxs, removeEachLive, eventRemoveListener]

omit [DecidableEq F] in
/-- **`removeAllListeners` clears the event**, where its loop goes over a copy or has at most one
listener to go through: then the records and the bound functions go together. -/
theorem removeAllListeners_eq (copy : Bool) (self : NWWindow F) (e : EventName)
    (h : copy = true ∨ (self.live e).length ≤ 1) :
    self.removeAllListeners copy e = (self.nwRemoveAllListeners e).clear e := by
  cases e with
  | focus | blur | other => rfl
  | _ => exact removeEach_eq copy _ _ h

section Clear

variable (self : NWWindow F) (e : EventName)

omit [DecidableEq F] in
@[simp] theorem clear_outerEventCBs : (self.clear e).outerEventCBs = self.outerEventCBs := by
  unfold clear; split <;> rfl

omit [DecidableEq F] in
@[simp] theorem clear_fired : (self.clear e).fired = self.fired := by
  unfold clear; split <;> rfl

omit [DecidableEq F] in
@[simp] theorem clear_calls : (self.clear e).calls = self.calls := by
  unfold clear; split <;> rfl

omit [DecidableEq F] in
@[simp] theorem clear_nextRef : (self.clear e).nextRef = self.nextRef := by
  unfold clear; split <;> rfl

omit [DecidableEq F] in
/-- A cleared event has no listener, whether its source is an event object or a handler property. -/
theorem live_clear : (self.clear e).live e = [] := by
  rw [live_eq]
  unfold clear
  cases source e with
  | none => rfl
  | some src => cases src <;> simp

omit [DecidableEq F] in
/-- Clearing one event leaves the listeners of every other event alone, as the events share no
source. -/
theorem live_clear_of_ne {e' : EventName} (hne : e' ≠ e) :
    (self.clear e).live e' = self.live e' := by
  rw [live_eq, live_eq]
  unfold clear
  cases hs : source e with
  | none => rfl
  | some src =>
    cases hs' : source e' with
    | none => rfl
    | some src' =>
      have hsrc : src' ≠ src := fun heq => hne (source_injective hs' (heq ▸ hs))
      cases src <;> cases src' <;> simp_all

end Clear

end NWWindow

end NodeWebkit.Window
