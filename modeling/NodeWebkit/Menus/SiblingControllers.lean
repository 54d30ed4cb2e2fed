import Mathlib.Algebra.Order.BigOperators.Group.Finset
import NodeWebkit.Menus.MenuBarController

/-!
# Which sibling controllers are deleted

The controllers of a menu bar run apart from their menus. A sibling goes to the list of the
controller that made it, and only the master deletes what its list has. The master itself may make
siblings, and a sibling whose menu is open may make further ones.

* **`Counted`** — in a run every sibling is in one list, and what was made before the run is
  deleted;
* **`ListsOk`** — the condition on a step: when the menu is closed, no controller but the master has
  a sibling in its list;
* **`controllers_owned_iff`** — the runs in which every controller has one owner or was deleted
  once, and none is left when the menu is closed, are those that meet the condition.

`Counted` holds during a run whatever is made, so the condition is about the end of a run alone.
Then `Counted.count_add` splits the siblings into those in the list of the master, which go, and
those in other lists, which stay: the second part is empty exactly under the condition.
-/

namespace NodeWebkit.Menus

open Lts

namespace MenuBarHeap

/-- Every controller has one owner or was deleted, once, and none is left after a run. -/
structure ControllersOwned (s : MenuBarHeap) : Prop where
  owners : ∀ c < s.controllers.length, s.controllerOwners c + s.deletedControllers.count c = 1
  released : s.running = none → ∀ c < s.controllers.length, s.deletedControllers.count c = 1

def StepControllersOwned (s : MenuBarHeap) (op : Op) : Prop :=
  ∀ t, s.step op = some t → t.ControllersOwned

/-- The condition on a step: the siblings were all made by the master when the menu is closed. -/
def ListsOk (s : MenuBarHeap) : Op → Prop
  | .menuClosed => ∀ runner ∈ s.running, ∀ o ∈ s.live, o ≠ runner.controller → s.ownedBy o = []
  | _ => True

instance (s : MenuBarHeap) : DecidablePred s.ListsOk
  | .menuClosed => inferInstanceAs (Decidable (∀ runner ∈ s.running, ∀ o ∈ s.live,
      o ≠ runner.controller → s.ownedBy o = []))
  | .getSiblingMenu _ _ _ | .runMenuAt _ => inferInstanceAs (Decidable True)

/-- The first controller of the run, or the next one that is made. -/
def base (s : MenuBarHeap) : Nat := s.running.elim s.controllers.length MenuRunner.controller

structure Counted (s : MenuBarHeap) : Prop where
  deleted : ∀ c, s.deletedControllers.count c = if c < s.base then 1 else 0
  listed : ∀ c, ∑ o ∈ s.live, (s.ownedBy o).count c =
    if s.base < c ∧ c < s.controllers.length then 1 else 0
  running : ∀ runner ∈ s.running, runner.controller < s.controllers.length ∧
    s.master = some runner.controller

variable {s t : MenuBarHeap}

theorem Counted.init : Counted {} := by
  refine ⟨fun _ => rfl, fun c => ?_, fun runner hrunner => by cases hrunner⟩
  rw [if_neg]
  · rfl
  · intro hc
    exact Nat.not_lt_zero c hc.2

theorem base_of_running {runner : MenuRunner} (h : s.running = some runner) :
    s.base = runner.controller := by
  rw [base, h, Option.elim_some]

theorem base_of_idle (h : s.running = none) : s.base = s.controllers.length := by
  rw [base, h, Option.elim_none]

/-- The controllers that live are those of the run: the master and what was made after it. -/
theorem Counted.mem_live (h : s.Counted) {o : Nat} :
    o ∈ s.live ↔ s.base ≤ o ∧ o < s.controllers.length := by
  have hcount := h.deleted o
  rw [live, Finset.mem_filter, Finset.mem_range, ← List.count_eq_zero, hcount]
  split <;> omega

/-- **Counted controllers are owned.** The ones before the run were deleted once and nobody has
them, the master is what runs, and each of those after it is in one list. -/
theorem Counted.controllersOwned (h : s.Counted) : s.ControllersOwned := by
  refine ⟨fun c hc => ?_, fun hidle c hc => ?_⟩
  · rw [controllerOwners, h.listed, h.deleted]
    cases hrunning : s.running with
    | none =>
      rw [base_of_idle hrunning]
      simp [hc]
      omega
    | some runner =>
      rw [base_of_running hrunning]
      simp only [Option.map_some, Option.some.injEq]
      split <;> split <;> split <;> omega
  · rw [h.deleted, base_of_idle hidle, if_pos hc]

/-- A step that changes neither lists nor what is deleted, nor which controller runs. All counts are
over these. -/
theorem Counted.congr (h : s.Counted) (hlen : t.controllers.length = s.controllers.length)
    (hlists : ∀ o, t.ownedBy o = s.ownedBy o)
    (hdeleted : t.deletedControllers = s.deletedControllers)
    (hrunning : t.running.map MenuRunner.controller = s.running.map MenuRunner.controller)
    (hmaster : t.master = s.master) : t.Counted := by
  -- the run began with the same controller
  have hbase : t.base = s.base := by
    have helim : ∀ u : MenuBarHeap, u.base =
        (u.running.map MenuRunner.controller).getD u.controllers.length := by
      intro u
      rw [base]
      cases u.running with
      | none => rfl
      | some runner => rfl
    rw [helim, helim, hrunning, hlen]
  have hlive : t.live = s.live := by rw [live, live, hlen, hdeleted]
  refine ⟨fun c => by rw [hdeleted, hbase, h.deleted], fun c => ?_, fun runner hrunner => ?_⟩
  · rw [hlive, hbase, hlen, ← h.listed]
    exact Finset.sum_congr rfl fun o _ => by rw [hlists]
  · have hsome : s.running.map MenuRunner.controller = some runner.controller := by
      rw [← hrunning, Option.mem_def.mp hrunner, Option.map_some]
    obtain ⟨old, hold, heq⟩ := Option.map_eq_some_iff.mp hsome
    rw [hlen, hmaster, ← heq]
    exact h.running old hold

/-! ## The operations -/

theorem ownedBy_of_le {o : Nat} (h : s.controllers.length ≤ o) : s.ownedBy o = [] := by
  rw [ownedBy, List.getElem?_eq_none h, Option.elim_none]

/-- The new sibling goes to the end of the list of its maker. Its own list is empty, and the others
are what they were. -/
theorem ownedBy_createSibling {receiver : Nat} (hreceiver : receiver < s.controllers.length)
    (model o : Nat) : (s.createSibling receiver model).ownedBy o =
      s.ownedBy o ++ if o = receiver then [s.controllers.length] else [] := by
  rw [createSibling, ownedBy_modifyController]
  show ((s.controllers ++ [_])[o]?).elim [] _ = _
  rcases Nat.lt_trichotomy o s.controllers.length with hlt | rfl | hgt
  · rw [List.getElem?_append_left hlt, ownedBy, List.getElem?_eq_getElem hlt]
    by_cases ho : o = receiver
    · simp [ho]
    · simp [ho, Ne.symm ho]
  · rw [List.getElem?_concat_length, ownedBy_of_le (Nat.le_refl _), if_neg (by omega)]
    simp [Nat.ne_of_lt hreceiver]
  · rw [ownedBy_of_le (Nat.le_of_lt hgt), if_neg (by omega), List.getElem?_eq_none]
    · rfl
    · rw [List.length_append, List.length_singleton]
      omega

/-- **A run begins.** The controllers of earlier runs are deleted, so no list is left that counts,
and the master is the only one that lives. -/
theorem Counted.runMenuAt (h : s.Counted) (hidle : s.running = none) (model : Nat) :
    (s.runMenuAt model).Counted := by
  have hlen : (s.runMenuAt model).controllers.length = s.controllers.length + 1 := by
    show (s.controllers ++ [_]).length = _
    rw [List.length_append, List.length_singleton]
  have hbase : (s.runMenuAt model).base = s.controllers.length := rfl
  refine ⟨fun c => ?_, fun c => ?_, fun runner hrunner => ?_⟩
  · show s.deletedControllers.count c = _
    rw [h.deleted, hbase, base_of_idle hidle]
  · rw [hbase, hlen, if_neg (by omega)]
    refine Finset.sum_eq_zero fun o ho => ?_
    have hlists : (s.runMenuAt model).ownedBy o = s.ownedBy o := ownedBy_newSibling model o
    -- a live controller is a new one, since nothing runs
    have hle : s.controllers.length ≤ o := by
      have hlive : o ∉ s.deletedControllers := (Finset.mem_filter.mp ho).2
      have hcount := h.deleted o
      rw [List.count_eq_zero.mpr hlive, base_of_idle hidle] at hcount
      split at hcount <;> omega
    rw [hlists, ownedBy_of_le hle, List.count_nil]
  · cases hrunner
    refine ⟨?_, rfl⟩
    rw [hlen]
    exact Nat.lt_succ_self _

theorem Counted.setActiveMenuModel (h : s.Counted) (model : Nat) :
    (s.setActiveMenuModel model).Counted := by
  obtain ⟨controllers, heq, hlen, hlists⟩ := s.setActiveMenuModel_eq model
  refine h.congr ?_ hlists ?_ ?_ ?_
  · rw [heq]
    exact hlen
  · rw [heq]
  · rw [heq]
  · rw [heq]

/-- The new sibling is in the list of its maker, who lives, and in no other one. It is the last of
the controllers, so for those before it nothing changes. -/
theorem Counted.createSibling (h : s.Counted) {receiver : Nat} (hbase : s.base ≤ receiver)
    (hreceiver : receiver < s.controllers.length) (hrunning : s.running ≠ none) (model : Nat) :
    (s.createSibling receiver model).Counted := by
  have hlen : (s.createSibling receiver model).controllers.length =
      s.controllers.length + 1 := by
    show ((s.controllers ++ [_]).modify receiver _).length = _
    rw [List.length_modify, List.length_append, List.length_singleton]
  have hsame : (s.createSibling receiver model).base = s.base := by
    obtain ⟨runner, hrunner⟩ := Option.ne_none_iff_exists'.mp hrunning
    rw [base_of_running hrunner]
    exact base_of_running hrunner
  have hdeleted : (s.createSibling receiver model).deletedControllers = s.deletedControllers := rfl
  have hnew : s.controllers.length ∉ s.live := fun hmem => by
    have hlt := (h.mem_live.mp hmem).2
    omega
  have hlive : (s.createSibling receiver model).live = insert s.controllers.length s.live := by
    have hkept : s.controllers.length ∉ s.deletedControllers := by
      rw [← List.count_eq_zero, h.deleted, if_neg (by omega)]
    rw [live, live, hlen, hdeleted, Finset.range_add_one, Finset.filter_insert, if_pos hkept]
  -- only the maker's list is longer
  have hsum : ∀ c, ∑ o ∈ s.live,
      (if o = receiver then [s.controllers.length] else []).count c =
        if s.controllers.length = c then 1 else 0 := by
    intro c
    rw [Finset.sum_eq_single_of_mem receiver (h.mem_live.mpr ⟨hbase, hreceiver⟩)]
    · rw [if_pos rfl, List.count_singleton]
      simp
    · intro o _ ho
      rw [if_neg ho, List.count_nil]
  refine ⟨fun c => ?_, fun c => ?_, fun runner hrunner => ?_⟩
  · rw [hdeleted, hsame, h.deleted]
  · have hnil : ((s.createSibling receiver model).ownedBy s.controllers.length).count c = 0 := by
      rw [ownedBy_createSibling hreceiver, ownedBy_of_le (Nat.le_refl _), if_neg (by omega),
        List.append_nil, List.count_nil]
    have hlists : ∑ o ∈ s.live, ((s.createSibling receiver model).ownedBy o).count c =
        ∑ o ∈ s.live, ((s.ownedBy o).count c +
          (if o = receiver then [s.controllers.length] else []).count c) := by
      refine Finset.sum_congr rfl fun o _ => ?_
      rw [ownedBy_createSibling hreceiver, List.count_append]
    have hbelow : s.base < s.controllers.length := Nat.lt_of_le_of_lt hbase hreceiver
    rw [hlive, Finset.sum_insert hnew, hnil, hlists, Finset.sum_add_distrib, h.listed, hsum, hsame,
      hlen]
    split <;> split <;> split <;> omega
  · rw [hlen]
    obtain ⟨hlt, hmaster⟩ := h.running runner hrunner
    exact ⟨Nat.lt_succ_of_lt hlt, hmaster⟩

/-- Telling the runner of a menu is about menus. -/
theorem Counted.showSibling (h : s.Counted) (model : Nat) : (s.showSibling model).Counted := by
  unfold MenuBarHeap.showSibling
  split
  · rename_i menu _
    have hsame : ∀ runner : MenuRunner,
        (runner.siblingMenuCreated menu).controller = runner.controller := by
      intro runner
      unfold MenuRunner.siblingMenuCreated
      split
      · rfl
      · rfl
    refine h.congr rfl (fun _ => rfl) rfl ?_ rfl
    rw [Option.map_map]
    exact congrArg (Option.map · s.running) (funext hsame)
  · exact h

/-- **The mouse moves** over a button, or off all of them. Whether a sibling is made depends on the
model of the button; whether its menu is shown plays no part. -/
theorem Counted.getSiblingMenu (h : s.Counted) {receiver : Nat} (hbase : s.base ≤ receiver)
    (hreceiver : receiver < s.controllers.length) (hrunning : s.running ≠ none)
    (location : Option Nat) (shown : Bool) :
    (s.getSiblingMenu receiver location shown).Counted := by
  cases location with
  | none => exact h
  | some model =>
    have hactive := h.setActiveMenuModel model
    -- a menu that is not in the map yet gets a controller, which the receiver owns
    have hfound : (s.findSibling receiver model).Counted := by
      obtain ⟨controllers, heq, hlen, -⟩ := s.setActiveMenuModel_eq model
      by_cases hnew : (s.setActiveMenuModel model).modelToMenuMap model = none
      · rw [findSibling, if_pos hnew]
        refine hactive.createSibling ?_ ?_ ?_ model
        · obtain ⟨runner, hrunner⟩ := Option.ne_none_iff_exists'.mp hrunning
          have hrunner' : (s.setActiveMenuModel model).running = some runner := by
            rw [heq]
            exact hrunner
          rwa [base_of_running hrunner', ← base_of_running hrunner]
        · rw [heq]
          show receiver < controllers.length
          omega
        · rw [heq]
          exact hrunning
      · rw [findSibling, if_neg hnew]
        exact hactive
    rw [MenuBarHeap.getSiblingMenu]
    cases shown with
    | true =>
      rw [if_pos rfl]
      exact hfound.showSibling model
    | false =>
      rw [if_neg Bool.false_ne_true]
      exact hfound

/-- What is deleted when the menu is closed: beside what was deleted before, the master and what is
in its list. -/
theorem Counted.count_deleteThis (h : s.Counted) {runner : MenuRunner}
    (hrunner : s.running = some runner) (c : Nat) :
    (s.deleteThis runner).deletedControllers.count c =
      (if c < runner.controller then 1 else 0) + (s.ownedBy runner.controller).count c +
        if runner.controller = c then 1 else 0 := by
  show (s.deletedControllers ++ (if s.master = some runner.controller then _ else _) ++
    [runner.controller]).count c = _
  rw [if_pos (h.running runner hrunner).2, List.count_append, List.count_append,
    List.count_singleton, h.deleted, base_of_running hrunner]
  simp

/-- The lists of the controllers of a run hold each sibling once, the master's and the others
together. -/
theorem Counted.count_add (h : s.Counted) {runner : MenuRunner} (hrunner : s.running = some runner)
    (c : Nat) :
    (s.ownedBy runner.controller).count c +
        ∑ o ∈ s.live.erase runner.controller, (s.ownedBy o).count c =
      if runner.controller < c ∧ c < s.controllers.length then 1 else 0 := by
  have hmem : runner.controller ∈ s.live := by
    rw [h.mem_live, base_of_running hrunner]
    exact ⟨Nat.le_refl _, (h.running runner hrunner).1⟩
  rw [Finset.add_sum_erase _ (fun o => (s.ownedBy o).count c) hmem, h.listed,
    base_of_running hrunner]

/-- **The run ends** under the condition. No list but that of the master has anything, so all that
was made in the run is deleted now, each controller once. -/
theorem Counted.deleteThis (h : s.Counted) {runner : MenuRunner}
    (hrunner : s.running = some runner) (hok : s.ListsOk .menuClosed) :
    (s.deleteThis runner).Counted := by
  -- the condition: nothing stands in another list
  have hrest : ∀ c, ∑ o ∈ s.live.erase runner.controller, (s.ownedBy o).count c = 0 := by
    intro c
    refine Finset.sum_eq_zero fun o ho => ?_
    obtain ⟨hne, hlive⟩ := Finset.mem_erase.mp ho
    rw [hok runner hrunner o hlive hne, List.count_nil]
  have hbase : (s.deleteThis runner).base = s.controllers.length := rfl
  have hdeleted : ∀ c, (s.deleteThis runner).deletedControllers.count c =
      if c < s.controllers.length then 1 else 0 := by
    intro c
    have hcount := h.count_add hrunner c
    have hlt := (h.running runner hrunner).1
    rw [hrest, Nat.add_zero] at hcount
    rw [h.count_deleteThis hrunner, hcount]
    split <;> split <;> split <;> split <;> omega
  refine ⟨fun c => by rw [hdeleted, hbase], fun c => ?_, fun _ hnone => by cases hnone⟩
  rw [hbase, if_neg (by show ¬(_ ∧ c < s.controllers.length); omega)]
  refine Finset.sum_eq_zero fun o ho => ?_
  -- no controller is left
  obtain ⟨hrange, hkept⟩ := Finset.mem_filter.mp ho
  have hlt : o < s.controllers.length := Finset.mem_range.mp hrange
  have hone := hdeleted o
  rw [if_pos hlt, List.count_eq_zero.mpr hkept] at hone
  cases hone

/-- Every step under the condition keeps the count. -/
theorem Counted.step {op : Op} (h : s.Counted) (hok : s.ListsOk op) (hst : s.step op = some t) :
    t.Counted := by
  cases op with
  | runMenuAt model =>
    simp only [MenuBarHeap.step] at hst
    split at hst
    · rename_i hidle
      cases hst
      exact h.runMenuAt hidle model
    · cases hst
  | getSiblingMenu receiver location shown =>
    obtain ⟨runner, hrunner, hst⟩ := Option.bind_eq_some_iff.mp hst
    split at hst
    · rename_i hreceiver
      cases hst
      have hbase : s.base ≤ receiver := by
        rw [base_of_running hrunner]
        exact hreceiver.1
      exact h.getSiblingMenu hbase hreceiver.2 (by simp [hrunner]) location shown
    · cases hst
  | menuClosed =>
    obtain ⟨runner, hrunner, rfl⟩ := Option.map_eq_some_iff.mp hst
    -- the runner is deleted, with what its list owns
    exact h.deleteThis hrunner hok

/-- Where all siblings are deleted, they were all in the list of the master. -/
theorem Counted.listsOk_of_step {op : Op} (h : s.Counted) (hst : s.step op = some t)
    (ht : t.ControllersOwned) : s.ListsOk op := by
  cases op with
  | menuClosed =>
    obtain ⟨runner, hrunner, rfl⟩ := Option.map_eq_some_iff.mp hst
    intro runner' hrunner' o hlive hne
    obtain rfl : runner = runner' := Option.some.inj (hrunner.symm.trans hrunner')
    by_contra hlist
    -- a sibling in another list stays alive when the run is over
    obtain ⟨c, hc⟩ := List.exists_mem_of_ne_nil _ hlist
    have hpos : 0 < (s.ownedBy o).count c := List.count_pos_iff.mpr hc
    have hle : (s.ownedBy o).count c ≤
        ∑ o ∈ s.live.erase runner.controller, (s.ownedBy o).count c :=
      Finset.single_le_sum (f := fun o => (s.ownedBy o).count c) (fun _ _ => Nat.zero_le _)
        (Finset.mem_erase.mpr ⟨hne, hlive⟩)
    have hcount := h.count_add hrunner c
    -- it was made in this run
    have hbetween : runner.controller < c ∧ c < s.controllers.length := by
      by_contra hnot
      rw [if_neg hnot] at hcount
      omega
    have hone := ht.released rfl c hbetween.2
    rw [h.count_deleteThis hrunner, if_neg (by omega), if_neg (by omega)] at hone
    rw [if_pos hbetween] at hcount
    omega
  | runMenuAt model => trivial
  | getSiblingMenu receiver location shown => trivial

/-- **The receivers decide which siblings are deleted.** The runs after each step of which every
controller has one owner or was deleted, once, and none is left when the menu is closed, are those
in which every menu is closed while the master has all siblings in its list. -/
theorem controllers_owned_iff (ops : List Op) (s : MenuBarHeap) :
    (Run (Guarded StepControllersOwned (ofPartial MenuBarHeap.step)) {} ops s ↔
      Run (Guarded ListsOk (ofPartial MenuBarHeap.step)) {} ops s) ∧
    (Run (Guarded ListsOk (ofPartial MenuBarHeap.step)) {} ops s → s.ControllersOwned) := by
  constructor
  · refine Run.owed_iff (fun _ _ _ h hok hst => Counted.step h hok hst)
      (fun _ h => h.controllersOwned) ?_ Counted.init
    exact fun s op t h hst howned => h.listsOk_of_step hst howned
  · intro hrun
    exact (hrun.invariant (fun _ _ _ h hst => h.step hst.1 hst.2) Counted.init).controllersOwned

end MenuBarHeap

end NodeWebkit.Menus
