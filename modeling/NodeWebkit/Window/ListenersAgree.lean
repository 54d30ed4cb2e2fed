import NodeWebkit.Lib.Run
import NodeWebkit.Window.ListenerSources

/-!
# Listener records agree with the live listeners

`__nw_initwindow` replays `outerEventCBs` after a reload, so the table has to hold exactly the
listeners that are live. The source keeps the two in step only as long as a removal meets the
registration it is about:

* `removeListener(e, f)` compares the raw callback with the property `listener` of the bound
  function. For a registration made by `once` that property is the closure `g`, so the record
  goes and the listener stays.
* the closure `g` drops the first record of its callback, also where that record belongs to a
  registration made by `on`;
* a second `on('focus', f)` overwrites the handler property and still adds a record;
* the loop of `removeAllListeners` skips every other listener of a live array.

`StepOk` is the condition on a step that avoids these four, and `Inv` is what the steps under it
preserve: the two representations are equal as *lists*. The order is what makes "the first
record" and "the first listener" the same registration.

## The lemmas

There is one lemma for each operation: `Inv.on` and `Inv.once` (both by `Inv.register`),
`Inv.removeListener`, `Inv.removeAllListeners`, `Inv.dispatch` and `Inv.reload`. The last two are
loops of the source. A dispatch may drop listeners while it goes through them, so its lemma
`Inv.callEach` carries the ones that are passed; a reload rebuilds one event after the other, so
`replayEvents` carries the events that are still to be done.

What the removals and the closures need on top of the equal lists is `Fresh`: a listener is found
again by its identity. The runs are put together in `ListenerRuns.lean`.
-/

namespace NodeWebkit.Window

variable {F : Type}

/-! ## Comparing the two representations -/

/-- The record a live listener stands for: a closure `g` stands for its listener, once. -/
def Wrapped.record (l : Wrapped F) : Record F :=
  match l.listener with
  | .user f => ⟨.user f, false⟩
  | .g _ f => ⟨f, true⟩

/-- The function is one the app wrote. -/
def JsFn.IsUser (c : JsFn F) : Prop := ∃ f, c = .user f

/-- No `on` registration of a callback precedes a `once` registration of the same callback. -/
def OnceFirst (rs : List (Record F)) : Prop :=
  rs.Pairwise fun r r' => r.callback = r'.callback → r'.once → r.once

namespace NWWindow

/-- The (callback, once-flag) pairs live on the event source of the current document. -/
def liveCBs (self : NWWindow F) (e : EventName) : List (Record F) :=
  (self.live e).map Wrapped.record

/-- For every event `on` dispatches the live pairs are, as a multiset, the recorded ones. -/
def RecordsAgree (self : NWWindow F) : Prop :=
  ∀ e ∈ EventName.dispatched, (self.liveCBs e).Perm (self.outerEventCBs e)

/-- The condition on a step that keeps the representations in step, on the state before it. -/
def StepOk [DecidableEq F] (copy : Bool) (self : NWWindow F) : Op F → Prop
  | .on e _ | .once e _ => e = .focus ∨ e = .blur → self.outerEventCBs e = []
  | .removeListener e f =>
    e ∈ EventName.dispatched →
      ∀ r, (self.outerEventCBs e).find? (fun r => r.callback = .user f) = some r → r.once = false
  | .removeAllListeners e => copy = true ∨ (self.live e).length ≤ 1
  | .dispatch e status =>
    e ∈ EventName.dispatched → passes e status → OnceFirst (self.outerEventCBs e)
  | .reload => True

end NWWindow

/-! ## Identities of function objects

`Fresh live fired next`: every function object among the live listeners is older than `next`,
no two of them are the same object, and the closure of a `once` listener is the object created
just before the bound function around it and has not fired. -/

structure Fresh (live : EventName → List (Wrapped F)) (fired : List Nat) (next : Nat) : Prop where
  below : ∀ e, ∀ l ∈ live e, l.ref < next
  firedBelow : ∀ id ∈ fired, id < next
  distinct : ∀ e, (live e).Pairwise fun l l' => l.ref ≠ l'.ref
  apart : ∀ e e', e ≠ e' → ∀ l ∈ live e, ∀ l' ∈ live e', l.ref ≠ l'.ref
  tied : ∀ e, ∀ l ∈ live e, ∀ id f, l.listener = .g id f → l.ref = id + 1
  unfired : ∀ e, ∀ l ∈ live e, ∀ id f, l.listener = .g id f → id ∉ fired

namespace Fresh

variable {live live' : EventName → List (Wrapped F)} {fired : List Nat} {next next' : Nat}

theorem shrink (h : Fresh live fired next) (hsub : ∀ e, (live' e).Sublist (live e))
    (hnext : next ≤ next') : Fresh live' fired next' where
  below e l hl := Nat.lt_of_lt_of_le (h.below e l ((hsub e).mem hl)) hnext
  firedBelow id hid := Nat.lt_of_lt_of_le (h.firedBelow id hid) hnext
  distinct e := (h.distinct e).sublist (hsub e)
  apart e e' hne l hl l' hl' := h.apart e e' hne l ((hsub e).mem hl) l' ((hsub e').mem hl')
  tied e l hl := h.tied e l ((hsub e).mem hl)
  unfired e l hl := h.unfired e l ((hsub e).mem hl)

/-- A new bound function may be added at the end of one event's listeners. -/
theorem add (h : Fresh live fired next) {e : EventName} {kept : List (Wrapped F)} {c : JsFn F}
    (hne : ∀ e', e' ≠ e → live' e' = live e') (hkept : kept.Sublist (live e))
    (he : live' e = kept ++ [⟨next, c⟩])
    (hc : ∀ id f, c = .g id f → next = id + 1 ∧ id ∉ fired) :
    Fresh live' fired (next + 1) := by
  -- a listener of `live'` is an old one, or the new one at `e`
  have hcases : ∀ e' l, l ∈ live' e' → l ∈ live e' ∨ (e' = e ∧ l = ⟨next, c⟩) := by
    intro e' l hl
    by_cases hee : e' = e
    · subst hee
      rw [he, List.mem_append, List.mem_singleton] at hl
      exact hl.imp hkept.mem fun h => ⟨rfl, h⟩
    · rw [hne e' hee] at hl
      exact Or.inl hl
  refine ⟨?_, ?_, ?_, ?_, ?_, ?_⟩
  · intro e' l hl
    rcases hcases e' l hl with hl | ⟨_, rfl⟩
    · exact Nat.lt_succ_of_lt (h.below e' l hl)
    · exact Nat.lt_succ_self next
  · intro id hid
    exact Nat.lt_succ_of_lt (h.firedBelow id hid)
  · intro e'
    by_cases hee : e' = e
    · subst hee
      rw [he, List.pairwise_append]
      refine ⟨(h.distinct e').sublist hkept, List.pairwise_singleton _ _, ?_⟩
      intro l hl l' hl'
      rw [List.mem_singleton] at hl'
      subst hl'
      exact Nat.ne_of_lt (h.below e' l (hkept.mem hl))
    · rw [hne e' hee]
      exact h.distinct e'
  · intro e1 e2 h12 l1 hl1 l2 hl2
    rcases hcases e1 l1 hl1 with hl1 | ⟨rfl, rfl⟩
    · rcases hcases e2 l2 hl2 with hl2 | ⟨rfl, rfl⟩
      · exact h.apart e1 e2 h12 l1 hl1 l2 hl2
      · exact Nat.ne_of_lt (h.below e1 l1 hl1)
    · rcases hcases e2 l2 hl2 with hl2 | ⟨rfl, rfl⟩
      · exact Nat.ne_of_gt (h.below e2 l2 hl2)
      · exact absurd rfl h12
  · intro e' l hl id f hg
    rcases hcases e' l hl with hl | ⟨_, rfl⟩
    · exact h.tied e' l hl id f hg
    · exact (hc id f hg).1
  · intro e' l hl id f hg
    rcases hcases e' l hl with hl | ⟨_, rfl⟩
    · exact h.unfired e' l hl id f hg
    · exact (hc id f hg).2

/-- A closure that is no longer registered may set its flag. -/
theorem fire (h : Fresh live fired next) {id : Nat} (hid : id < next)
    (hgone : ∀ e, ∀ l ∈ live e, l.ref ≠ id + 1) : Fresh live (id :: fired) next where
  below := h.below
  firedBelow id' hid' := by
    rcases List.mem_cons.mp hid' with rfl | hid'
    · exact hid
    · exact h.firedBelow id' hid'
  distinct := h.distinct
  apart := h.apart
  tied := h.tied
  unfired e l hl id' f hg hmem := by
    rcases List.mem_cons.mp hmem with rfl | hmem
    · exact hgone e l hl (h.tied e l hl id' f hg)
    · exact h.unfired e l hl id' f hg hmem

end Fresh

namespace NWWindow

/-- Registering a callback keeps the identities fresh. -/
theorem fresh_attach {s : NWWindow F} (h : Fresh s.live s.fired s.nextRef) (e : EventName)
    {c : JsFn F} (hc : ∀ id f, c = .g id f → s.nextRef = id + 1 ∧ id ∉ s.fired) :
    Fresh (s.attach e c).live (s.attach e c).fired (s.attach e c).nextRef := by
  rw [attach_fired]
  cases hs : source e with
  | none =>
    have hself : s.attach e c = s := by simp [attach, hs]
    rwa [hself]
  | some src =>
    cases src with
    | inl p =>
      obtain ⟨hlive, hnext⟩ := live_attach_listener s e c hs
      rw [hnext]
      exact h.add (fun e' hne => live_attach_of_ne s e c hne) (List.Sublist.refl _) hlive hc
    | inr hp =>
      -- the function that was on the property is dropped, so nothing is kept
      obtain ⟨hlive, hnext⟩ := live_attach_handler s e c hs
      rw [hnext]
      exact h.add (fun e' hne => live_attach_of_ne s e c hne) (List.nil_sublist _) hlive hc

/-! ## The invariant -/

/-- The two representations are equal as lists, the recorded callbacks are ones the app wrote,
and the live function objects are fresh. -/
structure Inv (s : NWWindow F) : Prop where
  same : ∀ e ∈ EventName.dispatched, s.liveCBs e = s.outerEventCBs e
  user : ∀ e, ∀ r ∈ s.outerEventCBs e, r.callback.IsUser
  fresh : Fresh s.live s.fired s.nextRef

/-- Equal lists are equal as multisets: the invariant is stronger than the agreement that it is kept
for. -/
theorem Inv.agree {s : NWWindow F} (h : Inv s) : s.RecordsAgree :=
  fun e he => by rw [h.same e he]

/-- A window that was just made has neither records nor listeners, and no function object was given
a number yet. -/
theorem Inv.init : Inv ({} : NWWindow F) where
  same e _ := by cases e <;> rfl
  user _ r hr := by simp at hr
  fresh := by
    have hnil : ∀ e, ({} : NWWindow F).live e = [] := fun e => by cases e <;> rfl
    refine ⟨?_, ?_, ?_, ?_, ?_, ?_⟩ <;> simp [hnil]

/-- **Two registrations at once**, of a callback on an event source and of its record. `on` and
`once` differ in the function that is bound and in the record it stands for; the state `s'` is the
one in which the record and the closure are made and the function is not bound yet. -/
theorem Inv.register {s s' : NWWindow F} (h : Inv s) {e : EventName} {c : JsFn F} {r : Record F}
    (hfree : e = .focus ∨ e = .blur → s.outerEventCBs e = [])
    (hlive : s'.live = s.live) (hfired : s'.fired = s.fired) (hnext : s.nextRef ≤ s'.nextRef)
    (hrec : s'.outerEventCBs = Function.update s.outerEventCBs e (s.outerEventCBs e ++ [r]))
    (hr : (Wrapped.mk s'.nextRef c).record = r) (hruser : r.callback.IsUser)
    (hc : ∀ id f, c = .g id f → s'.nextRef = id + 1 ∧ id ∉ s'.fired) :
    Inv (s'.attach e c) where
  same e' he' := by
    rw [attach_outerEventCBs, hrec, liveCBs]
    by_cases hee : e' = e
    · -- an event object appends; a handler property is overwritten, so it has to be free
      subst hee
      rw [Function.update_self]
      obtain ⟨src, hs⟩ := Option.ne_none_iff_exists'.mp (mem_dispatched_iff.mp he')
      cases src with
      | inl p =>
        rw [(live_attach_listener s' e' c hs).1, hlive, List.map_append, ← h.same e' he', liveCBs]
        simp [hr]
      | inr hp =>
        have hhandler : e' = .focus ∨ e' = .blur := by
          cases e' <;> simp [source, appWinEventsMap, nwWinEventsMap, nwWrapEventsMap] at hs ⊢
        rw [(live_attach_handler s' e' c hs).1, hfree hhandler]
        simp [hr]
    · rw [Function.update_of_ne hee, live_attach_of_ne s' e c hee, hlive]
      exact h.same e' he'
  user e' r' hr' := by
    rw [attach_outerEventCBs, hrec] at hr'
    by_cases hee : e' = e
    · subst hee
      rw [Function.update_self, List.mem_append, List.mem_singleton] at hr'
      rcases hr' with hr' | rfl
      · exact h.user e' r' hr'
      · exact hruser
    · rw [Function.update_of_ne hee] at hr'
      exact h.user e' r' hr'
  fresh := by
    refine fresh_attach ?_ e hc
    rw [hlive, hfired]
    exact h.fresh.shrink (fun _ => List.Sublist.refl _) hnext

/-- `on` binds the callback itself, so the record says that it stays. Only a handler property that
is taken is in the way. -/
theorem Inv.on {s : NWWindow F} (h : Inv s) {e : EventName} {f : F}
    (hfree : e = .focus ∨ e = .blur → s.outerEventCBs e = []) : Inv (s.on e (.user f) true) := by
  rw [on_eq]
  exact h.register hfree rfl rfl (Nat.le_refl _) rfl rfl ⟨f, rfl⟩ (by simp)

/-- `once` binds a closure that was made just before: it has the number before the one of the bound
function, which is how `Fresh` ties the two together, and it has not fired. -/
theorem Inv.once {s : NWWindow F} (h : Inv s) {e : EventName} {f : F}
    (hfree : e = .focus ∨ e = .blur → s.outerEventCBs e = []) : Inv (s.once e (.user f) true) := by
  unfold NWWindow.once
  rw [on_eq]
  -- the closure takes the next number and the bound function the one after it
  refine h.register hfree rfl rfl (Nat.le_succ _) rfl rfl ⟨f, rfl⟩ ?_
  rintro id f' ⟨⟩
  exact ⟨rfl, fun hmem => Nat.lt_irrefl _ (h.fresh.firedBelow _ hmem)⟩

/-! ## Removal

From here on listeners are compared, so the callbacks have decidable equality. -/

variable [DecidableEq F]

omit [DecidableEq F] in
/-- A listener that is bound to a callback of the app stands for a record that stays. -/
theorem record_of_user {l : Wrapped F} {f : F} (h : l.listener = .user f) :
    l.record = ⟨.user f, false⟩ := by
  simp [Wrapped.record, h]

omit [DecidableEq F] in
/-- A listener that is bound to a closure stands for a record of the callback inside the closure,
once. -/
theorem record_of_g {l : Wrapped F} {id : Nat} {c : JsFn F} (h : l.listener = .g id c) :
    l.record = ⟨c, true⟩ := by
  simp [Wrapped.record, h]

/-- If the oldest record of `f` is not a `once` record, then the first record of `f` belongs to
the first listener whose `listener` is `f`. -/
theorem map_eraseP_record {ls : List (Wrapped F)} {f : F}
    (hok : ∀ r, (ls.map Wrapped.record).find? (fun r => r.callback = .user f) = some r →
      r.once = false) :
    (ls.eraseP fun l => l.listener = .user f).map Wrapped.record =
      (ls.map Wrapped.record).eraseP fun r => r.callback = .user f := by
  induction ls with
  | nil => rfl
  | cons l ls ih =>
    by_cases hl : l.listener = .user f
    · have hrec : l.record.callback = .user f := by rw [record_of_user hl]
      rw [List.eraseP_cons_of_pos (by simpa using hl), List.map_cons,
        List.eraseP_cons_of_pos (by simpa using hrec)]
    · -- `l` has the record of `f` only as a closure, which the condition excludes
      have hrec : l.record.callback ≠ .user f := by
        intro hcb
        have honce : l.record.once = false :=
          hok l.record (by rw [List.map_cons, List.find?_cons_of_pos (by simpa using hcb)])
        cases hlist : l.listener with
        | user f' =>
          rw [record_of_user hlist] at hcb
          exact hl (hlist.trans hcb)
        | g id c =>
          rw [record_of_g hlist] at honce
          exact Bool.noConfusion honce
      have hok' : ∀ r, (ls.map Wrapped.record).find? (fun r => r.callback = .user f) = some r →
          r.once = false := by
        intro r hr
        exact hok r (by rw [List.map_cons, List.find?_cons_of_neg (by simpa using hrec), hr])
      rw [List.eraseP_cons_of_neg (by simpa using hl), List.map_cons, List.map_cons,
        List.eraseP_cons_of_neg (by simpa using hrec), ih hok']

/-- **`removeListener` keeps the representations in step** where the oldest record of the callback
is not a `once` record. Then the record found by its callback among the records of the live
listeners is the one of the first such listener, and both go. -/
theorem Inv.removeListener {s : NWWindow F} (h : Inv s) {e : EventName} {f : F}
    (hok : e ∈ EventName.dispatched →
      ∀ r, (s.outerEventCBs e).find? (fun r => r.callback = .user f) = some r → r.once = false) :
    Inv (s.removeListener e (.user f)) where
  same e' he' := by
    rw [removeListener_outerEventCBs, liveCBs]
    by_cases hee : e' = e
    · subst hee
      rw [live_removeListener s e' (.user f) (h.fresh.distinct e'), Function.update_self,
        ← h.same e' he']
      -- the two searches stop at the same place of the two equal lists
      exact map_eraseP_record fun r hr => hok he' r (by rw [← h.same e' he']; exact hr)
    · rw [live_removeListener_of_ne s e (.user f) hee, Function.update_of_ne hee]
      exact h.same e' he'
  user e' r hr := by
    rw [removeListener_outerEventCBs] at hr
    by_cases hee : e' = e
    · subst hee
      rw [Function.update_self] at hr
      exact h.user e' r (List.mem_of_mem_eraseP hr)
    · rw [Function.update_of_ne hee] at hr
      exact h.user e' r hr
  fresh := by
    rw [removeListener_fired, removeListener_nextRef]
    refine h.fresh.shrink (fun e' => ?_) (Nat.le_refl _)
    by_cases hee : e' = e
    · subst hee
      rw [live_removeListener s e' (.user f) (h.fresh.distinct e')]
      exact List.eraseP_sublist
    · rw [live_removeListener_of_ne s e (.user f) hee]

omit [DecidableEq F] in
/-- **`removeAllListeners` keeps the representations in step** where its loop empties the list: it
goes over a copy, or there is at most one listener. The records go in any case. -/
theorem Inv.removeAllListeners {s : NWWindow F} (h : Inv s) {copy : Bool} {e : EventName}
    (hok : copy = true ∨ (s.live e).length ≤ 1) : Inv (s.removeAllListeners copy e) := by
  rw [removeAllListeners_eq copy s e hok]
  -- the event has no listener left, the others have theirs
  have hlive : ∀ e', ((s.nwRemoveAllListeners e).clear e).live e' =
      if e' = e then [] else s.live e' := by
    intro e'
    by_cases hee : e' = e
    · subst hee
      rw [live_clear, if_pos rfl]
    · rw [live_clear_of_ne _ _ hee, if_neg hee]
      rfl
  refine ⟨?_, ?_, ?_⟩
  · intro e' he'
    rw [liveCBs, hlive e', clear_outerEventCBs]
    simp only [nwRemoveAllListeners]
    by_cases hee : e' = e
    · subst hee
      simp
    · rw [if_neg hee, Function.update_of_ne hee]
      exact h.same e' he'
  · intro e' r hr
    rw [clear_outerEventCBs] at hr
    simp only [nwRemoveAllListeners] at hr
    by_cases hee : e' = e
    · subst hee
      simp at hr
    · rw [Function.update_of_ne hee] at hr
      exact h.user e' r hr
  · rw [clear_fired, clear_nextRef]
    refine h.fresh.shrink (fun e' => ?_) (Nat.le_refl _)
    rw [hlive e']
    split
    · exact List.nil_sublist _
    · exact List.Sublist.refl _

/-! ## Dispatch

The loop goes over the listeners that were live at the start. Its invariant: the listeners it
has passed are still live exactly when they were registered by `on`, and the rest is untouched. -/

/-- The records after the two removals of `g`: the first one of `c` is that of `w`, and `g` has
none. -/
theorem Inv.fire_records {s : NWWindow F} (h : Inv s) {e : EventName}
    (he : e ∈ EventName.dispatched) {kept post : List (Wrapped F)} {w : Wrapped F} {id : Nat}
    {c : JsFn F} (hlive : s.live e = kept ++ w :: post) (hw : w.listener = .g id c)
    (hkept : ∀ l ∈ kept, l.record.once = false)
    (hfirst : OnceFirst ((kept ++ w :: post).map Wrapped.record)) :
    ((s.nwRemoveOuterEventCB e c).removeListener e (.g id c)).outerEventCBs e =
      (kept ++ post).map Wrapped.record := by
  have hwrec : w.record = ⟨c, true⟩ := record_of_g hw
  -- a record before it with the same callback would be a once record, and those were fired
  have hbefore : ∀ r ∈ kept.map Wrapped.record, ¬ decide (r.callback = c) = true := by
    -- no second record is taken out: the wrapper itself was never recorded
    intro r hr hcb
    obtain ⟨l, hl, rfl⟩ := List.mem_map.mp hr
    rw [List.map_append, OnceFirst, List.pairwise_append] at hfirst
    have honce := hfirst.2.2 l.record (List.mem_map_of_mem hl) w.record (by simp)
      (by rw [hwrec]; simpa using hcb) (by rw [hwrec])
    rw [hkept l hl] at honce
    exact Bool.noConfusion honce
  -- so the first record with this callback is the one of the wrapper
  have herase : (s.outerEventCBs e).eraseP (fun r => decide (r.callback = c)) =
      (kept ++ post).map Wrapped.record := by
    rw [← h.same e he, liveCBs, hlive, List.map_append, List.map_cons,
      List.eraseP_append_right _ hbefore, List.eraseP_cons_of_pos (by simp [hwrec]),
      List.map_append]
  rw [removeListener_outerEventCBs, Function.update_self]
  simp only [nwRemoveOuterEventCB, Function.update_self]
  rw [List.eraseP_of_forall_not, herase]
  intro r hr hcb
  obtain ⟨f, hf⟩ := h.user e r (List.mem_of_mem_eraseP hr)
  rw [hf] at hcb
  simp at hcb

/-- The listeners after the two removals: the closure is found by its identity, and `kept` has no
closures. -/
theorem Inv.fire_live {s : NWWindow F} (h : Inv s) {e : EventName} {kept post : List (Wrapped F)}
    {w : Wrapped F} {id : Nat} {c : JsFn F} (hlive : s.live e = kept ++ w :: post)
    (hw : w.listener = .g id c) (hkept : ∀ l ∈ kept, l.record.once = false) :
    ((s.nwRemoveOuterEventCB e c).removeListener e (.g id c)).live e = kept ++ post := by
  have hbefore : ∀ l ∈ kept, ¬ decide (l.listener = .g id c) = true := by
    intro l hl hcb
    have hg := record_of_g (l := l) (of_decide_eq_true hcb)
    have honce := hkept l hl
    rw [hg] at honce
    exact Bool.noConfusion honce
  have hdist : ((s.nwRemoveOuterEventCB e c).live e).Pairwise fun l l' => l.ref ≠ l'.ref :=
    h.fresh.distinct e
  rw [live_removeListener _ _ _ hdist]
  change (s.live e).eraseP _ = _
  rw [hlive, List.eraseP_append_right _ hbefore, List.eraseP_cons_of_pos (by simp [hw])]

/-- A `once` listener fires: its record and its bound function go, and nothing else. The listeners
already passed are `on` listeners, and by the order none of them has the same callback. -/
theorem Inv.fire {s : NWWindow F} (h : Inv s) {e : EventName} {status : String}
    (he : e ∈ EventName.dispatched) (hpass : passes e status = true)
    {kept post : List (Wrapped F)} {w : Wrapped F} {id : Nat} {c : JsFn F}
    (hlive : s.live e = kept ++ w :: post) (hw : w.listener = .g id c)
    (hkept : ∀ l ∈ kept, l.record.once = false)
    (hfirst : OnceFirst ((kept ++ w :: post).map Wrapped.record)) :
    Inv (call e status s w) ∧ (call e status s w).live e = kept ++ post ∧
      (∀ e', e' ≠ e → (call e status s w).outerEventCBs e' = s.outerEventCBs e') ∧
      (call e status s w).calls = s.calls ++ [⟨e, c, true⟩] := by
  have hunfired : id ∉ s.fired := h.fresh.unfired e w (by simp [hlive]) id c hw
  -- `s2` is the state after the two removals of `g`, before it runs its listener
  set s2 := (s.nwRemoveOuterEventCB e c).removeListener e (.g id c) with hs2
  have hcall : call e status s w =
      { s2 with fired := id :: s.fired, calls := s.calls ++ [⟨e, c, true⟩] } := by
    have hfired2 : s2.fired = s.fired := removeListener_fired _ _ _
    have hcalls2 : s2.calls = s.calls := removeListener_calls _ _ _
    simp only [call, hpass, if_true, hw, ← hs2, hfired2, hcalls2, if_neg hunfired]
  have hrecs : s2.outerEventCBs e = (kept ++ post).map Wrapped.record :=
    h.fire_records he hlive hw hkept hfirst
  have hlive2 : s2.live e = kept ++ post := h.fire_live hlive hw hkept
  have hrecs' : ∀ e', e' ≠ e → s2.outerEventCBs e' = s.outerEventCBs e' := by
    intro e' hne
    rw [hs2, removeListener_outerEventCBs, Function.update_of_ne hne]
    exact Function.update_of_ne hne _ _
  have hlive2' : ∀ e', e' ≠ e → s2.live e' = s.live e' :=
    fun e' hne => live_removeListener_of_ne _ _ _ hne
  have hsub : ∀ e', (s2.live e').Sublist (s.live e') := by
    intro e'
    by_cases hee : e' = e
    · subst hee
      rw [hlive2, hlive]
      exact List.Sublist.append_left (List.sublist_cons_self w post) kept
    · rw [hlive2' e' hee]
  have hwref : w.ref = id + 1 := h.fresh.tied e w (by simp [hlive]) id c hw
  rw [hcall]
  refine ⟨⟨?_, ?_, ?_⟩, hlive2, hrecs', rfl⟩
  · -- the lists of `e` are known; those of the other events are untouched
    intro e' he'
    change (s2.live e').map _ = s2.outerEventCBs e'
    by_cases hee : e' = e
    · subst hee
      rw [hlive2, hrecs]
    · rw [hlive2' e' hee, hrecs' e' hee]
      exact h.same e' he'
  · intro e' r hr
    change r ∈ s2.outerEventCBs e' at hr
    by_cases hee : e' = e
    · subst hee
      rw [hrecs] at hr
      refine h.user e' r ?_
      rw [← h.same e' he, liveCBs, hlive]
      have hsub : List.Sublist (kept ++ post) (kept ++ w :: post) :=
        List.Sublist.append_left (List.sublist_cons_self w post) kept
      exact (hsub.map _).mem hr
    · rw [hrecs' e' hee] at hr
      exact h.user e' r hr
  · -- the closure sets its flag after its listener is gone, by which no live closure has fired
    have hshrunk : Fresh s2.live s.fired s.nextRef := h.fresh.shrink hsub (Nat.le_refl _)
    have hnext : s2.nextRef = s.nextRef := removeListener_nextRef _ _ _
    change Fresh s2.live (id :: s.fired) s2.nextRef
    rw [hnext]
    refine hshrunk.fire ?_ ?_
    · have := h.fresh.below e w (by simp [hlive])
      omega
    · intro e' l hl
      rw [← hwref]
      by_cases hee : e' = e
      · subst hee
        have hd := h.fresh.distinct e'
        rw [hlive, List.pairwise_append, List.pairwise_cons] at hd
        rw [hlive2, List.mem_append] at hl
        rcases hl with hl | hl
        · exact hd.2.2 l hl w (by simp)
        · exact (hd.2.1.1 l hl).symm
      · rw [hlive2' e' hee] at hl
        exact h.fresh.apart e' e hee l hl w (by simp [hlive])

/-- The loop of a dispatch over the listeners it still has to call. Induction on them; the
listeners passed so far are `kept`. -/
theorem Inv.callEach {e : EventName} {status : String} (he : e ∈ EventName.dispatched)
    (hpass : passes e status = true) (post : List (Wrapped F)) :
    ∀ (kept : List (Wrapped F)) (s : NWWindow F), Inv s → s.live e = kept ++ post →
      (∀ l ∈ kept, l.record.once = false) → OnceFirst ((kept ++ post).map Wrapped.record) →
      Inv (post.foldl (call e status) s) ∧
      (post.foldl (call e status) s).live e = kept ++ post.filter (fun l => !l.record.once) ∧
      (∀ e', e' ≠ e →
        (post.foldl (call e status) s).outerEventCBs e' = s.outerEventCBs e') ∧
      (post.foldl (call e status) s).calls =
        s.calls ++ post.map fun l => ⟨e, l.record.callback, l.record.once⟩ := by
  induction post with
  | nil =>
    intro kept s h hlive _ _
    exact ⟨h, by simpa using hlive, fun _ _ => rfl, by simp⟩
  | cons w post ih =>
    intro kept s h hlive hkept hfirst
    cases hw : w.listener with
    | user f =>
      -- the listener stays, and joins the ones that are passed
      have hwrec := record_of_user hw
      set s1 : NWWindow F := { s with calls := s.calls ++ [⟨e, .user f, false⟩] } with hs1
      have hcall : call e status s w = s1 := by simp [call, hpass, hw, hs1]
      have hinv : Inv s1 := ⟨h.same, h.user, h.fresh⟩
      have hlive1 : s1.live e = (kept ++ [w]) ++ post := by
        rw [List.append_assoc, List.singleton_append]
        exact hlive
      have hkept1 : ∀ l ∈ kept ++ [w], l.record.once = false := by
        intro l hl
        rcases List.mem_append.mp hl with hl | hl
        · exact hkept l hl
        · rw [List.mem_singleton.mp hl, hwrec]
      obtain ⟨h1, h2, h3, h4⟩ := ih (kept ++ [w]) s1 hinv hlive1 hkept1
        (by rwa [List.append_assoc, List.singleton_append])
      rw [List.foldl_cons, hcall]
      refine ⟨h1, ?_, h3, ?_⟩
      · rw [h2, List.filter_cons_of_pos (by simp [hwrec])]
        simp
      · rw [h4, List.map_cons, hwrec]
        simp [hs1]
    | g id c =>
      -- the listener and its record go, the ones that are passed stay as they are
      have hwrec := record_of_g hw
      obtain ⟨hinv, hlive1, hrest, hcalls⟩ := h.fire he hpass hlive hw hkept hfirst
      have hfirst1 : OnceFirst ((kept ++ post).map Wrapped.record) :=
        List.Pairwise.sublist
          (List.Sublist.map _ (List.Sublist.append_left (List.sublist_cons_self w post) kept))
          hfirst
      obtain ⟨h1, h2, h3, h4⟩ := ih kept (call e status s w) hinv hlive1 hkept hfirst1
      rw [List.foldl_cons]
      refine ⟨h1, ?_, fun e' hne => (h3 e' hne).trans (hrest e' hne), ?_⟩
      · rw [h2, List.filter_cons_of_neg (by simp [hwrec])]
      · rw [h4, hcalls, List.map_cons, hwrec]
        simp

/-- What a dispatch does: it calls the recorded callbacks in order and drops the `once` ones. -/
structure Dispatched (s t : NWWindow F) (e : EventName) : Prop where
  inv : Inv t
  records : t.outerEventCBs e = (s.outerEventCBs e).filter fun r => !r.once
  rest : ∀ e', e' ≠ e → t.outerEventCBs e' = s.outerEventCBs e'
  calls : t.calls = s.calls ++ (s.outerEventCBs e).map fun r => ⟨e, r.callback, r.once⟩

/-- **A dispatch calls the recorded callbacks in their order and drops the `once` ones**, from the
records as from the listeners, where no `on` registration of a callback comes before a `once`
registration of it. -/
theorem Inv.dispatch {s : NWWindow F} (h : Inv s) {e : EventName} {status : String}
    (he : e ∈ EventName.dispatched) (hpass : passes e status = true)
    (hfirst : OnceFirst (s.outerEventCBs e)) : Dispatched s (s.dispatch e status) e := by
  have hsame := h.same e he
  obtain ⟨hinv, hlive, hrest, hcalls⟩ := Inv.callEach he hpass (s.live e) [] s h rfl
    (by simp) (by rw [← hsame] at hfirst; exact hfirst)
  refine ⟨hinv, ?_, hrest, ?_⟩
  · change ((s.live e).foldl (call e status) s).outerEventCBs e = _
    rw [← hinv.same e he, liveCBs, hlive, ← hsame, liveCBs, List.nil_append, List.filter_map]
    rfl
  · rw [← hsame, liveCBs, List.map_map]
    exact hcalls

/-- A dispatch that reaches no callback changes nothing. -/
theorem dispatch_idle {s : NWWindow F} {e : EventName} {status : String}
    (h : e ∉ EventName.dispatched ∨ passes e status = false) : s.dispatch e status = s := by
  rcases h with he | hpass
  · have hsrc : source e = none := by
      by_contra hne
      exact he (mem_dispatched_iff.mpr hne)
    rw [NWWindow.dispatch, live_eq, hsrc]
    rfl
  · have hcall : ∀ w, call e status s w = s := fun w => by simp [call, hpass]
    have hall : ∀ ls : List (Wrapped F), ls.foldl (call e status) s = s := by
      intro ls
      induction ls with
      | nil => rfl
      | cons w ls ih => rw [List.foldl_cons, hcall w, ih]
    exact hall _

/-! ## Reload -/

/-- What replaying records does: the pairs are live again, and nothing is recorded or called. -/
structure Replayed (s t : NWWindow F) (e : EventName) (rs : List (Record F)) : Prop where
  live : t.liveCBs e = s.liveCBs e ++ rs
  rest : ∀ e', e' ≠ e → t.live e' = s.live e'
  records : t.outerEventCBs = s.outerEventCBs
  calls : t.calls = s.calls
  fresh : Fresh t.live t.fired t.nextRef

omit [DecidableEq F] in
/-- One registration of the replay: `on` and `once` without a record. The pair that becomes live is
the record it was made for, and a handler property has to be free for it. -/
theorem Replayed.attach {s s' : NWWindow F} {e : EventName} {c : JsFn F} {r : Record F}
    (he : e ∈ EventName.dispatched) (hfree : e = .focus ∨ e = .blur → s.live e = [])
    (hlive : s'.live = s.live) (hrec : s'.outerEventCBs = s.outerEventCBs)
    (hcalls : s'.calls = s.calls) (hfresh : Fresh s'.live s'.fired s'.nextRef)
    (hr : (Wrapped.mk s'.nextRef c).record = r)
    (hc : ∀ id f, c = .g id f → s'.nextRef = id + 1 ∧ id ∉ s'.fired) :
    Replayed s (s'.attach e c) e [r] := by
  refine ⟨?_, ?_, ?_, ?_, fresh_attach hfresh e hc⟩
  · obtain ⟨src, hs⟩ := Option.ne_none_iff_exists'.mp (mem_dispatched_iff.mp he)
    cases src with
    | inl p =>
      rw [liveCBs, (live_attach_listener s' e c hs).1, hlive, List.map_append, ← hr]
      rfl
    -- `focus` and `blur` have one handler, and it was free
    | inr hp =>
      have hhandler : e = .focus ∨ e = .blur := by
        cases e <;> simp [source, appWinEventsMap, nwWinEventsMap, nwWrapEventsMap] at hs ⊢
      rw [liveCBs, (live_attach_handler s' e c hs).1, liveCBs, hfree hhandler, ← hr]
      rfl
  · intro e' hne
    rw [live_attach_of_ne s' e c hne, hlive]
  · rw [attach_outerEventCBs, hrec]
  · rw [attach_calls, hcalls]

omit [DecidableEq F] in
/-- **One turn of the replay loop.** A record that stays is registered by `on` and one that does not
by `once`, both without another record; the recorded callbacks are ones the app wrote, so no closure
is bound twice. -/
theorem Replayed.one {s : NWWindow F} {e : EventName} {r : Record F}
    (he : e ∈ EventName.dispatched) (hfree : e = .focus ∨ e = .blur → s.live e = [])
    (hfresh : Fresh s.live s.fired s.nextRef) (hr : r.callback.IsUser) :
    Replayed s (replay e s r) e [r] := by
  obtain ⟨⟨f⟩ | ⟨id, c⟩, once⟩ := r
  · cases once with
    | false =>
      simp only [replay, Bool.false_eq_true, if_false, on_eq]
      exact Replayed.attach he hfree rfl rfl rfl hfresh rfl (by simp)
    | true =>
      simp only [replay, if_true, NWWindow.once, on_eq, Bool.false_eq_true, if_false]
      refine Replayed.attach he hfree rfl rfl rfl ?_ rfl ?_
      · exact hfresh.shrink (fun _ => List.Sublist.refl _) (Nat.le_succ _)
      · rintro id f' ⟨⟩
        exact ⟨rfl, fun hmem => Nat.lt_irrefl _ (hfresh.firedBelow _ hmem)⟩
  · obtain ⟨f, hf⟩ := hr
    cases hf

omit [DecidableEq F] in
/-- The inner loop of `__nw_initwindow`. Induction on the records still to replay; a handler
property has room for one listener. -/
theorem Replayed.each {e : EventName} (he : e ∈ EventName.dispatched) (rs : List (Record F)) :
    ∀ s : NWWindow F, Fresh s.live s.fired s.nextRef → (∀ r ∈ rs, r.callback.IsUser) →
      (e = .focus ∨ e = .blur → (s.live e).length + rs.length ≤ 1) →
      Replayed s (rs.foldl (replay e) s) e rs := by
  induction rs with
  | nil =>
    intro s hfresh _ _
    exact ⟨by simp, fun _ _ => rfl, rfl, rfl, hfresh⟩
  | cons r rs ih =>
    intro s hfresh huser hroom
    -- the property is free before the first record, and there is no second one
    have hfree : e = .focus ∨ e = .blur → s.live e = [] := by
      intro hh
      have := hroom hh
      rw [List.length_cons] at this
      exact List.length_eq_zero_iff.mp (by omega)
    have h1 := Replayed.one he hfree hfresh (huser r (List.mem_cons_self ..))
    have hlen : ((replay e s r).live e).length = (s.live e).length + 1 := by
      have := congrArg List.length h1.live
      simpa [liveCBs] using this
    have h2 := ih (replay e s r) h1.fresh (fun r' hr' => huser r' (List.mem_cons_of_mem _ hr'))
      (fun hh => by have := hroom hh; rw [List.length_cons] at this; omega)
    rw [List.foldl_cons]
    refine ⟨?_, ?_, h2.records.trans h1.records, h2.calls.trans h1.calls, h2.fresh⟩
    · rw [h2.live, h1.live, List.append_assoc, List.singleton_append]
    · exact fun e' hne => (h2.rest e' hne).trans (h1.rest e' hne)

omit [DecidableEq F] in
/-- The outer loop of `__nw_initwindow`. Induction on the event names still to replay, which have
no listeners yet. -/
theorem replayEvents (self : NWWindow F)
    (huser : ∀ e, ∀ r ∈ self.outerEventCBs e, r.callback.IsUser)
    (hroom : ∀ e, e = .focus ∨ e = .blur → (self.outerEventCBs e).length ≤ 1)
    (es : List EventName) :
    ∀ t : NWWindow F, es.Nodup → (∀ e ∈ es, e ∈ EventName.dispatched ∧ t.live e = []) →
      Fresh t.live t.fired t.nextRef →
      let u := es.foldl (fun new e => (self.outerEventCBs e).foldl (replay e) new) t
      (∀ e ∈ es, u.liveCBs e = self.outerEventCBs e) ∧
      (∀ e, e ∉ es → u.live e = t.live e) ∧
      u.outerEventCBs = t.outerEventCBs ∧ u.calls = t.calls ∧
      Fresh u.live u.fired u.nextRef := by
  induction es with
  | nil =>
    intro t _ _ hfresh
    exact ⟨by simp, fun _ _ => rfl, rfl, rfl, hfresh⟩
  | cons e es ih =>
    intro t hnodup hes hfresh
    obtain ⟨hnot, hnodup'⟩ := List.nodup_cons.mp hnodup
    obtain ⟨hdisp, hempty⟩ := hes e (List.mem_cons_self ..)
    have h1 := Replayed.each hdisp (self.outerEventCBs e) t hfresh (huser e)
      (fun hh => by rw [hempty]; simpa using hroom e hh)
    -- the events still to replay are other ones, so they stay empty while this one is filled
    have hne : ∀ e' ∈ es, e' ≠ e := fun e' he' heq => hnot (heq ▸ he')
    obtain ⟨h2, h3, h4, h5, h6⟩ := ih _ hnodup'
      (fun e' he' => ⟨(hes e' (List.mem_cons_of_mem _ he')).1,
        (h1.rest e' (hne e' he')).trans (hes e' (List.mem_cons_of_mem _ he')).2⟩) h1.fresh
    simp only [List.foldl_cons]
    refine ⟨?_, ?_, h4.trans h1.records, h5.trans h1.calls, h6⟩
    · intro e' he'
      rcases List.mem_cons.mp he' with rfl | he'
      · rw [liveCBs, h3 e' hnot]
        simpa [liveCBs, hempty] using h1.live
      · exact h2 e' he'
    · intro e' he'
      rw [List.mem_cons, not_or] at he'
      exact (h3 e' he'.2).trans (h1.rest e' he'.1)

omit [DecidableEq F] in
/-- **A reload registers exactly the records, and keeps them.** The new document starts without
listeners, the replay goes through the events that `on` dispatches, and a handler property has at
most one record by the agreement before. -/
theorem Inv.reload {s : NWWindow F} (h : Inv s) :
    Inv s.reload ∧ s.reload.outerEventCBs = s.outerEventCBs ∧ s.reload.calls = s.calls := by
  -- a handler event has one record at most, so its replay displaces nothing
  have hroom : ∀ e, e = .focus ∨ e = .blur → (s.outerEventCBs e).length ≤ 1 := by
    rintro e (rfl | rfl)
    · rw [← h.same _ (by decide), liveCBs, List.length_map]
      exact Option.length_toList_le
    · rw [← h.same _ (by decide), liveCBs, List.length_map]
      exact Option.length_toList_le
  -- the new window has no listeners
  have hempty : ∀ e, NWWindow.live
      { s with listeners := fun _ => [], handlers := fun _ => none } e = [] := by
    intro e
    cases e <;> rfl
  obtain ⟨h1, _, h3, h4, h5⟩ := replayEvents s h.user hroom EventName.dispatched
    { s with listeners := fun _ => [], handlers := fun _ => none } (by decide)
    (fun e he => ⟨he, hempty e⟩)
    (h.fresh.shrink (fun e => by rw [hempty e]; exact List.nil_sublist _) (Nat.le_refl _))
  refine ⟨⟨?_, ?_, h5⟩, h3, h4⟩
  · intro e he
    have h3' : s.reload.outerEventCBs e = s.outerEventCBs e := congrFun h3 e
    rw [h3']
    exact h1 e he
  · intro e r hr
    have h3' : s.reload.outerEventCBs e = s.outerEventCBs e := congrFun h3 e
    rw [h3'] at hr
    exact h.user e r hr

end NWWindow

end NodeWebkit.Window
