import Mathlib.Algebra.BigOperators.Group.Finset.Basic
import NodeWebkit.Lib.Run

/-!
# The controllers of a running menu bar

A click on a button of the menu bar makes a `MenuBarController`, the master, and runs its menu until
it is closed. When the mouse moves over another button, the delegate of the menu that is open is
asked for a sibling menu: it makes another controller, whose constructor makes a menu, and then a
second menu for the same model. The controller goes to the list of the one that was asked, the
second menu to the `MenuRunner` of the master. When the run is over, the master deletes itself and
what is in its own list.

* **`Owned`** — every controller and every menu has one owner or was deleted, once, and nothing is
  left after a run;
* **`SiblingOk`** — the condition on a step: the button under the mouse is one whose model has a
  menu already;
* **`owned_iff`** — the runs that keep to the former are those that meet the latter.

The `MenuRunner` deletes its menu and the sibling menus that it was told of. It is told of a menu
that it is to show; whether it shows one is up to it.

## How the proof goes

A run that meets the condition never makes a sibling, so its heap is simple: **`Alone`** says that
no controller has anything in its list, that what was made is deleted unless it runs, and that the
runner has one menu. It gives `Owned` (`Alone.owned`) and every step that meets the condition keeps
it. A step that makes a sibling makes two menus at once, the first of which is known to nobody
(`Alone.menuOwners_eq_zero`), and so it breaks `Owned` at once.
-/

namespace NodeWebkit.Menus

open Lts

/-- A root `MenuItemView`: the model it was built from and the controller that is its delegate. -/
structure MenuItemView where
  model : Nat
  delegate : Nat
  deriving DecidableEq

structure MenuBarController where
  activeMenuModel : Nat
  /-- `controllers_` -/
  controllers : List Nat := []
  deriving DecidableEq

/-- The `menu_runner_` of a controller whose `RunMenuAt` runs. -/
structure MenuRunner where
  controller : Nat
  menu : Nat
  siblingMenus : List Nat := []
  deriving DecidableEq

/-- `MenuRunnerImpl::SiblingMenuCreated` -/
def MenuRunner.siblingMenuCreated (runner : MenuRunner) (menu : Nat) : MenuRunner :=
  if menu ≠ runner.menu ∧ menu ∉ runner.siblingMenus then
    { runner with siblingMenus := runner.siblingMenus ++ [menu] }
  else runner

/-- All controllers and root menus that were made, numbered in that order, the static members of
`MenuBarController`, and what was deleted. -/
structure MenuBarHeap where
  controllers : List MenuBarController := []
  menus : List MenuItemView := []
  modelToMenuMap : Nat → Option Nat := fun _ => none
  master : Option Nat := none
  running : Option MenuRunner := none
  deletedControllers : List Nat := []
  deletedMenus : List Nat := []

namespace MenuBarHeap

/-- `CreateMenu` -/
def createMenu (s : MenuBarHeap) (model controller : Nat) : MenuBarHeap :=
  { s with
    menus := s.menus ++ [⟨model, controller⟩]
    modelToMenuMap := Function.update s.modelToMenuMap model (some s.menus.length) }

/-- The constructor of `MenuBarController` with a master. -/
def newSibling (s : MenuBarHeap) (model : Nat) : MenuBarHeap :=
  createMenu { s with controllers := s.controllers ++ [{ activeMenuModel := model }] } model
    s.controllers.length

/-- The constructor of `MenuBarController` without a master, and `RunMenuAt` up to its loop. -/
def runMenuAt (s : MenuBarHeap) (model : Nat) : MenuBarHeap :=
  { s.newSibling model with
    master := some s.controllers.length
    running := some { controller := s.controllers.length, menu := s.menus.length } }

def modifyController (s : MenuBarHeap) (controller : Nat)
    (f : MenuBarController → MenuBarController) : MenuBarHeap :=
  { s with controllers := s.controllers.modify controller f }

/-- `master_->active_menu_model_ = model` -/
def setActiveMenuModel (s : MenuBarHeap) (model : Nat) : MenuBarHeap :=
  s.master.elim s fun master =>
    s.modifyController master fun c => { c with activeMenuModel := model }

/-- What `GetSiblingMenu` of a controller does where the model has no menu yet. -/
def createSibling (s : MenuBarHeap) (receiver model : Nat) : MenuBarHeap :=
  ((s.newSibling model).createMenu model s.controllers.length).modifyController receiver fun c =>
    { c with controllers := c.controllers ++ [s.controllers.length] }

/-- `GetSiblingMenu` of a controller, for the model of the button under the mouse. -/
def findSibling (s : MenuBarHeap) (receiver model : Nat) : MenuBarHeap :=
  let s := s.setActiveMenuModel model
  if s.modelToMenuMap model = none then s.createSibling receiver model else s

/-- The menu runner shows the menu that `GetSiblingMenu` returned, the one in the map. -/
def showSibling (s : MenuBarHeap) (model : Nat) : MenuBarHeap :=
  match s.modelToMenuMap model with
  | some menu => { s with running := s.running.map (MenuRunner.siblingMenuCreated · menu) }
  | none => s

/-- The menu runner asks for a sibling menu: the button under the mouse, if there is one, has a
model, and `shown` tells whether the runner shows the menu that it gets. -/
def getSiblingMenu (s : MenuBarHeap) (receiver : Nat) (location : Option Nat) (shown : Bool) :
    MenuBarHeap :=
  match location with
  | none => s
  | some model =>
    if shown then (s.findSibling receiver model).showSibling model
    else s.findSibling receiver model

/-- The list that a controller has. -/
def ownedBy (s : MenuBarHeap) (controller : Nat) : List Nat :=
  (s.controllers[controller]?).elim [] MenuBarController.controllers

/-- The end of `RunMenuAt`: `delete this`, which deletes the siblings if it is the master, and with
the members the menu runner. -/
def deleteThis (s : MenuBarHeap) (runner : MenuRunner) : MenuBarHeap :=
  let siblings := if s.master = some runner.controller then s.ownedBy runner.controller else []
  { s with
    deletedControllers := s.deletedControllers ++ siblings ++ [runner.controller]
    modelToMenuMap := if s.master = some runner.controller then fun _ => none
      else s.modelToMenuMap
    deletedMenus := s.deletedMenus ++ runner.menu :: runner.siblingMenus
    running := none }

/-- The controllers that were not deleted. -/
def live (s : MenuBarHeap) : Finset Nat :=
  (Finset.range s.controllers.length).filter (· ∉ s.deletedControllers)

inductive Op where
  | runMenuAt (model : Nat)
  /-- The menu of `receiver`, a controller of this run, is open. -/
  | getSiblingMenu (receiver : Nat) (location : Option Nat) (shown : Bool)
  | menuClosed
  deriving DecidableEq

def step (s : MenuBarHeap) : Op → Option MenuBarHeap
  | .runMenuAt model => if s.running = none then some (s.runMenuAt model) else none
  | .getSiblingMenu receiver location shown =>
    s.running.bind fun runner =>
      if runner.controller ≤ receiver ∧ receiver < s.controllers.length then
        some (s.getSiblingMenu receiver location shown)
      else none
  | .menuClosed => s.running.map s.deleteThis

/-! ## Owners -/

/-- The owners of a controller: itself while its `RunMenuAt` runs, and the lists it is in. -/
def controllerOwners (s : MenuBarHeap) (controller : Nat) : Nat :=
  (if s.running.map MenuRunner.controller = some controller then 1 else 0) +
    ∑ o ∈ s.live, (s.ownedBy o).count controller

/-- The owners of a root menu: the menu runner, for its own menu or for a sibling menu. -/
def menuOwners (s : MenuBarHeap) (menu : Nat) : Nat :=
  s.running.elim 0 fun runner => (runner.menu :: runner.siblingMenus).count menu

structure Owned (s : MenuBarHeap) : Prop where
  controllers : ∀ c < s.controllers.length,
    s.controllerOwners c + s.deletedControllers.count c = 1
  menus : ∀ v < s.menus.length, s.menuOwners v + s.deletedMenus.count v = 1
  /-- Nothing is left after a run. -/
  released : s.running = none →
    (∀ c < s.controllers.length, s.deletedControllers.count c = 1) ∧
      (∀ v < s.menus.length, s.deletedMenus.count v = 1) ∧ ∀ model, s.modelToMenuMap model = none
  /-- The map has one menu for a model, which was built from it. -/
  mapped : ∀ model menu, s.modelToMenuMap model = some menu →
    (s.menus[menu]?).map MenuItemView.model = some model

/-- What a step owes. -/
def StepOwned (s : MenuBarHeap) (op : Op) : Prop := ∀ t, s.step op = some t → t.Owned

/-- The condition on a step: a button under the mouse is one whose model has a menu. -/
def SiblingOk (s : MenuBarHeap) : Op → Prop
  | .getSiblingMenu _ (some model) _ => s.modelToMenuMap model ≠ none
  | _ => True

instance (s : MenuBarHeap) : DecidablePred s.SiblingOk
  | .getSiblingMenu _ (some model) _ => inferInstanceAs (Decidable (s.modelToMenuMap model ≠ none))
  | .getSiblingMenu _ none _ | .runMenuAt _ | .menuClosed => inferInstanceAs (Decidable True)

/-! ## Runs without siblings -/

variable {s t : MenuBarHeap}

/-- What holds while no sibling was made: all is deleted but the controller that runs and its menu,
which is the only one in the map. -/
structure Alone (s : MenuBarHeap) : Prop where
  lists : ∀ o, s.ownedBy o = []
  deletedControllers : ∀ c, s.deletedControllers.count c =
    if c < s.controllers.length ∧ s.running.map MenuRunner.controller ≠ some c then 1 else 0
  deletedMenus : ∀ v, s.deletedMenus.count v =
    if v < s.menus.length ∧ s.running.map MenuRunner.menu ≠ some v then 1 else 0
  running : ∀ runner ∈ s.running, runner.controller < s.controllers.length ∧
    runner.menu < s.menus.length ∧ runner.siblingMenus = [] ∧ s.master = some runner.controller
  mapped : ∀ model menu, s.modelToMenuMap model = some menu →
    s.running.map MenuRunner.menu = some menu ∧
      (s.menus[menu]?).map MenuItemView.model = some model

theorem Alone.init : Alone {} := by
  refine ⟨fun _ => rfl, fun _ => rfl, fun _ => rfl, ?_, ?_⟩
  · intro runner hrunner
    cases hrunner
  · intro model menu hmenu
    cases hmenu

/-- With no siblings a controller has an owner exactly while its menu runs: the running menu itself.
-/
theorem Alone.controllerOwners_eq (h : s.Alone) (c : Nat) :
    s.controllerOwners c = if s.running.map MenuRunner.controller = some c then 1 else 0 := by
  have hsum : ∑ o ∈ s.live, (s.ownedBy o).count c = 0 := by
    refine Finset.sum_eq_zero fun o _ => ?_
    rw [h.lists, List.count_nil]
  rw [controllerOwners, hsum, Nat.add_zero]

/-- A menu has an owner exactly while the runner has it, and no sibling menus beside it. -/
theorem Alone.menuOwners_eq (h : s.Alone) (v : Nat) :
    s.menuOwners v = if s.running.map MenuRunner.menu = some v then 1 else 0 := by
  unfold menuOwners
  cases hrunning : s.running with
  | none => rfl
  | some runner =>
    rw [Option.elim_some, (h.running runner hrunning).2.2.1, List.count_singleton]
    simp

/-- **Without siblings everything is owned.** What runs has its one owner and was not deleted; what
does not run was deleted once and has none; and the map of the menus is empty when nothing runs. -/
theorem Alone.owned (h : s.Alone) : s.Owned where
  controllers c hc := by
    rw [h.controllerOwners_eq, h.deletedControllers]
    by_cases hrunning : s.running.map MenuRunner.controller = some c
    · rw [if_pos hrunning, if_neg fun hnot => hnot.2 hrunning]
    · rw [if_neg hrunning, if_pos ⟨hc, hrunning⟩]
  menus v hv := by
    rw [h.menuOwners_eq, h.deletedMenus]
    by_cases hrunning : s.running.map MenuRunner.menu = some v
    · rw [if_pos hrunning, if_neg fun hnot => hnot.2 hrunning]
    · rw [if_neg hrunning, if_pos ⟨hv, hrunning⟩]
  released hidle := by
    refine ⟨fun c hc => ?_, fun v hv => ?_, fun model => ?_⟩
    · rw [h.deletedControllers, if_pos ⟨hc, by simp [hidle]⟩]
    · rw [h.deletedMenus, if_pos ⟨hv, by simp [hidle]⟩]
    · by_contra hmap
      obtain ⟨menu, hmenu⟩ := Option.ne_none_iff_exists'.mp hmap
      have hrunning := (h.mapped model menu hmenu).1
      rw [hidle] at hrunning
      cases hrunning
  mapped model menu hmenu := (h.mapped model menu hmenu).2

/-! ## The operations -/

/-- A new controller has an empty list, and the lists of the others are what they were. -/
theorem ownedBy_newSibling (model o : Nat) : (s.newSibling model).ownedBy o = s.ownedBy o := by
  show ((s.controllers ++ [_])[o]?).elim [] MenuBarController.controllers = _
  rw [ownedBy]
  rcases Nat.lt_trichotomy o s.controllers.length with hlt | rfl | hgt
  · rw [List.getElem?_append_left hlt]
  · rw [List.getElem?_concat_length, List.getElem?_eq_none (Nat.le_refl _)]
    rfl
  · rw [List.getElem?_eq_none (by rw [List.length_append, List.length_singleton]; omega),
      List.getElem?_eq_none (by omega)]

/-- A controller that is changed has the list that the change gives it, the others keep theirs. -/
theorem ownedBy_modifyController (controller : Nat) (f : MenuBarController → MenuBarController)
    (o : Nat) : (s.modifyController controller f).ownedBy o =
      (s.controllers[o]?).elim [] fun c =>
        if controller = o then (f c).controllers else c.controllers := by
  show ((s.controllers.modify controller f)[o]?).elim [] MenuBarController.controllers = _
  rw [List.getElem?_modify]
  cases s.controllers[o]? with
  | none => rfl
  | some c =>
    by_cases ho : controller = o
    · simp [ho]
    · simp [ho]

/-- The active model of the master is not seen here: it changes neither the number of the
controllers nor the list of any of them. -/
theorem setActiveMenuModel_eq (model : Nat) :
    ∃ controllers : List MenuBarController,
      s.setActiveMenuModel model = { s with controllers := controllers } ∧
      controllers.length = s.controllers.length ∧
      ∀ o, (s.setActiveMenuModel model).ownedBy o = s.ownedBy o := by
  rcases Option.eq_none_or_eq_some s.master with hmaster | ⟨master, hmaster⟩
  · have heq : s.setActiveMenuModel model = s := by
      rw [setActiveMenuModel, hmaster]
      rfl
    exact ⟨s.controllers, heq, rfl, fun o => by rw [heq]⟩
  · have heq : s.setActiveMenuModel model =
        s.modifyController master fun c => { c with activeMenuModel := model } := by
      rw [setActiveMenuModel, hmaster]
      rfl
    refine ⟨_, heq, List.length_modify .., fun o => ?_⟩
    rw [heq, ownedBy_modifyController, ownedBy]
    simp

theorem Alone.setActiveMenuModel (h : s.Alone) (model : Nat) :
    (s.setActiveMenuModel model).Alone := by
  obtain ⟨controllers, heq, hlen, hlists⟩ := s.setActiveMenuModel_eq model
  have hlists' : ∀ o, (s.setActiveMenuModel model).ownedBy o = [] := fun o => by
    rw [hlists, h.lists]
  rw [heq] at hlists' ⊢
  exact ⟨hlists', fun c => by rw [hlen]; exact h.deletedControllers c, h.deletedMenus,
    fun runner hrunner => by rw [hlen]; exact h.running runner hrunner, h.mapped⟩

/-- **A click** makes a controller and its menu, which run from now on. Both have the next number,
so of the earlier ones nothing changes. -/
theorem Alone.runMenuAt (h : s.Alone) (hidle : s.running = none) (model : Nat) :
    (s.runMenuAt model).Alone where
  lists o := (ownedBy_newSibling model o).trans (h.lists o)
  deletedControllers c := by
    show s.deletedControllers.count c =
      if c < (s.controllers ++ [_]).length ∧ some s.controllers.length ≠ some c then 1 else 0
    rw [h.deletedControllers, hidle, List.length_append, List.length_singleton]
    simp only [Option.map_none, ne_eq, Option.some.injEq]
    -- the new one is the only one that is not deleted
    refine if_congr ?_ rfl rfl
    simp
    omega
  deletedMenus v := by
    show s.deletedMenus.count v =
      if v < (s.menus ++ [_]).length ∧ some s.menus.length ≠ some v then 1 else 0
    rw [h.deletedMenus, hidle, List.length_append, List.length_singleton]
    simp only [Option.map_none, ne_eq, Option.some.injEq]
    refine if_congr ?_ rfl rfl
    simp
    omega
  running runner hrunner := by
    cases hrunner
    refine ⟨?_, ?_, rfl, rfl⟩
    · show s.controllers.length < (s.controllers ++ [_]).length
      simp
    · show s.menus.length < (s.menus ++ [_]).length
      simp
  mapped other menu hmenu := by
    have hupdate : Function.update s.modelToMenuMap model (some s.menus.length) other = some menu :=
      hmenu
    by_cases hother : other = model
    · subst hother
      rw [Function.update_self] at hupdate
      cases hupdate
      refine ⟨rfl, ?_⟩
      show ((s.menus ++ [⟨other, s.controllers.length⟩])[s.menus.length]?).map _ = _
      rw [List.getElem?_concat_length]
      rfl
    · rw [Function.update_of_ne hother] at hupdate
      -- nothing ran, so nothing else was mapped
      have hrunning := (h.mapped other menu hupdate).1
      rw [hidle] at hrunning
      cases hrunning

/-- The menu of the runner is no sibling menu, so being told of it changes nothing. -/
theorem Alone.showSibling (h : s.Alone) (model : Nat) : s.showSibling model = s := by
  unfold MenuBarHeap.showSibling
  split
  · rename_i menu hmenu
    obtain ⟨runner, hrunner, hmenu'⟩ := Option.map_eq_some_iff.mp (h.mapped model menu hmenu).1
    have hsame : runner.siblingMenuCreated menu = runner := by
      rw [MenuRunner.siblingMenuCreated, if_neg fun hnew => hnew.1 hmenu'.symm]
    rw [hrunner, Option.map_some, hsame, ← hrunner]
  · rfl

/-- The mouse moves. Off all buttons nothing is asked for, and over the button of a model that has a
menu already that menu is taken, so no controller is made. -/
theorem Alone.getSiblingMenu (h : s.Alone) {receiver : Nat} {location : Option Nat} {shown : Bool}
    (hok : s.SiblingOk (.getSiblingMenu receiver location shown)) :
    (s.getSiblingMenu receiver location shown).Alone := by
  cases location with
  | none => exact h
  | some model =>
    have hactive := h.setActiveMenuModel model
    obtain ⟨controllers, heq, -, -⟩ := s.setActiveMenuModel_eq model
    have hfound : s.findSibling receiver model = s.setActiveMenuModel model := by
      rw [findSibling, if_neg]
      rw [heq]
      exact hok
    rw [MenuBarHeap.getSiblingMenu]
    cases shown with
    | true =>
      rw [if_pos rfl, hfound, hactive.showSibling]
      exact hactive
    | false =>
      rw [if_neg Bool.false_ne_true, hfound]
      exact hactive

/-- **The run is over.** The runner deletes its menu, the master deletes itself and an empty list,
and the map of the menus is cleared. This is all that ran, so all that was made is deleted now. -/
theorem Alone.deleteThis (h : s.Alone) {runner : MenuRunner} (hrunner : s.running = some runner) :
    (s.deleteThis runner).Alone := by
  obtain ⟨hcontroller, hmenu, hsiblings, hmaster⟩ := h.running runner hrunner
  refine ⟨h.lists, fun c => ?_, fun v => ?_, fun _ hnone => ?_, fun model menu hmap => ?_⟩
  · show (s.deletedControllers ++ (if s.master = some runner.controller then _ else _) ++
      [runner.controller]).count c = if c < s.controllers.length ∧ none ≠ some c then 1 else 0
    -- the runner is the master, and its list is empty
    rw [if_pos hmaster, h.lists, List.append_nil, List.count_append, List.count_singleton,
      h.deletedControllers, hrunner]
    by_cases hc : runner.controller = c
    · subst hc
      simp [hcontroller]
    · simp [hc]
  · show (s.deletedMenus ++ runner.menu :: runner.siblingMenus).count v =
      if v < s.menus.length ∧ none ≠ some v then 1 else 0
    -- there is one menu to delete, that of the runner
    rw [hsiblings, List.count_append, List.count_singleton, h.deletedMenus, hrunner]
    by_cases hv : runner.menu = v
    · subst hv
      simp [hmenu]
    · simp [hv]
  · cases hnone
  · have hcleared : (if s.master = some runner.controller then fun _ => none
        else s.modelToMenuMap) model = some menu := hmap
    rw [if_pos hmaster] at hcleared
    cases hcleared

/-- **A step that makes no sibling leaves nothing behind.** A click, a move of the mouse and the end
of a run are the only steps, one lemma each. -/
theorem Alone.step {op : Op} (h : s.Alone) (hok : s.SiblingOk op) (hst : s.step op = some t) :
    t.Alone := by
  cases op with
  | runMenuAt model =>
    simp only [MenuBarHeap.step] at hst
    split at hst
    · rename_i hidle
      cases hst
      exact h.runMenuAt hidle model
    · cases hst
  | getSiblingMenu receiver location shown =>
    obtain ⟨runner, -, hst⟩ := Option.bind_eq_some_iff.mp hst
    split at hst
    · cases hst
      exact h.getSiblingMenu hok
    · cases hst
  | menuClosed =>
    obtain ⟨runner, hrunner, rfl⟩ := Option.map_eq_some_iff.mp hst
    exact h.deleteThis hrunner

/-! ## A sibling is made -/

/-- The first of the two menus of a new sibling: it is in no list and was not deleted. -/
theorem findSibling_menu {model : Nat} (hnew : s.modelToMenuMap model = none)
    (receiver : Nat) :
    (s.findSibling receiver model).menus.length = s.menus.length + 2 ∧
    (s.findSibling receiver model).running = s.running ∧
    (s.findSibling receiver model).deletedMenus = s.deletedMenus ∧
    (s.findSibling receiver model).modelToMenuMap model = some (s.menus.length + 1) := by
  obtain ⟨controllers, heq, -, -⟩ := s.setActiveMenuModel_eq model
  have hcreated : s.findSibling receiver model =
      (s.setActiveMenuModel model).createSibling receiver model := by
    rw [findSibling, if_pos]
    rw [heq]
    exact hnew
  rw [hcreated, heq]
  refine ⟨?_, rfl, rfl, ?_⟩
  · show ((s.menus ++ [_]) ++ [_]).length = s.menus.length + 2
    simp
  · show Function.update (_ : Nat → Option Nat) model (some (s.menus ++ [_]).length) model = _
    rw [Function.update_self, List.length_append, List.length_singleton]

/-- Whether the second menu is shown or not, the first one has no owner. -/
theorem Alone.menuOwners_eq_zero (h : s.Alone) {model : Nat} (hnew : s.modelToMenuMap model = none)
    (receiver : Nat) (shown : Bool) :
    (s.getSiblingMenu receiver (some model) shown).menuOwners s.menus.length = 0 := by
  obtain ⟨-, hrunning, -, hmap⟩ := findSibling_menu hnew receiver
  -- neither the menu that runs nor the sibling menu that is shown is the first one
  have hcount : ∀ runner ∈ s.running, ∀ siblings : List Nat, s.menus.length ∉ siblings →
      (runner.menu :: siblings).count s.menus.length = 0 := by
    intro runner hrunner siblings hsiblings
    have hlt := (h.running runner hrunner).2.1
    rw [List.count_eq_zero, List.mem_cons, not_or]
    exact ⟨by omega, hsiblings⟩
  rw [MenuBarHeap.getSiblingMenu]
  cases hrunner : s.running with
  | none =>
    cases shown with
    | true => simp [MenuBarHeap.showSibling, hmap, hrunning, hrunner, menuOwners]
    | false => simp [hrunning, hrunner, menuOwners]
  | some runner =>
    have hnil := (h.running runner hrunner).2.2.1
    cases shown with
    | true =>
      have hcreated : (runner.siblingMenuCreated (s.menus.length + 1)).menu = runner.menu ∧
          s.menus.length ∉ (runner.siblingMenuCreated (s.menus.length + 1)).siblingMenus := by
        unfold MenuRunner.siblingMenuCreated
        split
        · rw [hnil]
          exact ⟨rfl, by simp⟩
        · rw [hnil]
          exact ⟨rfl, List.not_mem_nil⟩
      have howners := hcount runner hrunner _ hcreated.2
      rw [← hcreated.1] at howners
      simpa [MenuBarHeap.showSibling, hmap, hrunning, hrunner, menuOwners] using howners
    | false =>
      have howners := hcount runner hrunner runner.siblingMenus (by simp [hnil])
      simpa [hrunning, hrunner, menuOwners] using howners

/-- Being told of a sibling menu, the runner makes no menu and deletes none. -/
theorem showSibling_menus (model : Nat) :
    (s.showSibling model).menus = s.menus ∧
      (s.showSibling model).deletedMenus = s.deletedMenus := by
  unfold showSibling
  split
  · exact ⟨rfl, rfl⟩
  · exact ⟨rfl, rfl⟩

/-- **A step that makes a sibling loses a menu.** It makes two menus, of which the first is neither
owned nor deleted, which `Owned` asks of every menu that was made. -/
theorem Alone.siblingOk_of_step {op : Op} (h : s.Alone) (hst : s.step op = some t)
    (ht : t.Owned) : s.SiblingOk op := by
  cases op with
  | getSiblingMenu receiver location shown =>
    cases location with
    | none => trivial
    | some model =>
      intro hnew
      obtain ⟨runner, -, hst⟩ := Option.bind_eq_some_iff.mp hst
      split at hst
      · cases hst
        obtain ⟨hlen, -, hdeleted, -⟩ := findSibling_menu hnew receiver
        -- two menus more, and none of them deleted
        have hmenus : (s.getSiblingMenu receiver (some model) shown).menus.length =
            s.menus.length + 2 ∧
            (s.getSiblingMenu receiver (some model) shown).deletedMenus = s.deletedMenus := by
          rw [MenuBarHeap.getSiblingMenu]
          cases shown with
          | true => simp [showSibling_menus, hlen, hdeleted]
          | false => simp [hlen, hdeleted]
        have howned := ht.menus s.menus.length (by omega)
        rw [h.menuOwners_eq_zero hnew, hmenus.2, h.deletedMenus] at howned
        simp at howned
      · cases hst
  | runMenuAt model => trivial
  | menuClosed => trivial

/-- **Controllers and menus are released exactly once.** The runs after each step of which every
controller and every menu has one owner or was deleted, once, and nothing is left when the menu is
closed, are the runs in which no sibling is made. -/
theorem owned_iff (ops : List Op) (s : MenuBarHeap) :
    (Run (Guarded StepOwned (ofPartial step)) {} ops s ↔
      Run (Guarded SiblingOk (ofPartial step)) {} ops s) ∧
    (Run (Guarded SiblingOk (ofPartial step)) {} ops s → s.Owned) := by
  constructor
  · refine Run.owed_iff (fun _ _ _ h hok hst => Alone.step h hok hst) (fun _ h => h.owned) ?_
      Alone.init
    exact fun s op t h hst howned => h.siblingOk_of_step hst howned
  · intro hrun
    exact (hrun.invariant (fun _ _ _ h hst => h.step hst.1 hst.2) Alone.init).owned

/-- Two runs in which the mouse is over no button, or over the one that was clicked. -/
def staysOnButton : List Op :=
  [.runMenuAt 5, .getSiblingMenu 0 none true, .getSiblingMenu 0 (some 5) true, .menuClosed,
    .runMenuAt 7, .getSiblingMenu 1 (some 7) false, .menuClosed]

/-- Each controller and each menu of the two runs is deleted once. -/
theorem owned_iff_staysOnButton :
    ∃ s, Run (Guarded StepOwned (ofPartial step)) {} staysOnButton s ∧ s.Owned ∧
      s.deletedControllers = [0, 1] ∧ s.deletedMenus = [0, 1] := by
  obtain ⟨s, hs, hcontrollers, hmenus⟩ : ∃ s, exec SiblingOk step staysOnButton {} = some s ∧
      s.deletedControllers = [0, 1] ∧ s.deletedMenus = [0, 1] := ⟨_, rfl, rfl, rfl⟩
  obtain ⟨hiff, howned⟩ := owned_iff staysOnButton s
  have hrun := Run.of_exec hs
  exact ⟨s, hiff.mpr hrun, howned hrun, hcontrollers, hmenus⟩

/-- The mouse goes from the menu of the master to a sibling, and from there to another one. -/
def overTwoButtons : List Op :=
  [.runMenuAt 0, .getSiblingMenu 0 (some 1) true, .getSiblingMenu 1 (some 2) true, .menuClosed]

/-- The second sibling is in the list of the first one, which deletes nothing; and of the two menus
that each sibling made, one is left. -/
theorem overTwoButtons_not_owned :
    ¬ ∀ (ops : List Op) (s : MenuBarHeap), Run (ofPartial step) {} ops s → s.Owned := by
  intro hall
  obtain ⟨s, hs, hidle, hlen, hdeleted⟩ : ∃ s,
      exec (fun _ _ => True) step overTwoButtons {} = some s ∧ s.running = none ∧
        s.controllers.length = 3 ∧ s.deletedControllers = [1, 0] := ⟨_, rfl, rfl, rfl, rfl⟩
  have howned := hall overTwoButtons s (Run.of_exec hs).unguard
  have hcount := (howned.released hidle).1 2 (by omega)
  rw [hdeleted] at hcount
  cases hcount

end MenuBarHeap

end NodeWebkit.Menus
