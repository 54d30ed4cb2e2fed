import NodeWebkit.Menus.MenuGraph

/-!
# The menu bar of a window

Setting the menu of a window makes a `MenuBarView` with one button for each entry of the menu's
model, adds it to the root view and notes it in the `BrowserViewLayout`. Clearing the menu takes the
view out that the layout has noted.

* **`OneMenuBar`** — the children of the root view, the pointer of the layout and the menu that was
  set last say the same;
* **`BarOk`** — the condition on a step: a menu is set only where the layout has no menu bar;
* **`one_menu_bar`** — the runs that keep to the former are those that meet the latter.

The entries of a menu change meanwhile, and a click on a button runs a menu until it is closed.
-/

namespace NodeWebkit.Menus

open Lts

structure MenuBarView where
  id : Nat
  /-- The menu whose model is shown. The constructor leaves the field as it is; `UpdateMenu` sets it
  before anything else happens. -/
  model_ : Option Nat := none
  /-- For each button the entry that it was made for, whose label it has. -/
  buttons : List Entry := []
  deriving DecidableEq

/-- `UpdateMenu` and `InitView`. -/
def MenuBarView.updateMenu (view : MenuBarView) (menu : Nat) (model : List Entry) : MenuBarView :=
  { view with
    model_ := some menu
    buttons := model }

/-- The root view of a window with its layout, and the native menus. -/
structure WindowViews where
  /-- `menu_model_` of every native menu. -/
  models : Nat → List Entry := fun _ => []
  /-- The children of the root view that are a `MenuBarView`, in their order. -/
  menuBars : List MenuBarView := []
  /-- `BrowserViewLayout::menu_bar_`. -/
  menu_bar_ : Option Nat := none
  /-- The view and the button whose click runs a menu. -/
  running : Option (MenuBarView × Nat) := none
  /-- The number of the next view. -/
  nextView : Nat := 0
  /-- The menu that was set last and the entries it had then, none after a clear; the code has no
  such field. -/
  assigned : Option (Nat × List Entry) := none

namespace WindowViews

/-- What an operation of `ui::MenuModel` does to the entries of one menu. -/
def updateModel (s : WindowViews) (m : Nat) (model : List Entry) : WindowViews :=
  { s with models := Function.update s.models m model }

/-- `NwCurrentWindowInternalSetMenuFunction::RunNWSync` -/
def setMenu (s : WindowViews) (m : Nat) : WindowViews :=
  let menubar : MenuBarView := { id := s.nextView }
  { s with
    menu_bar_ := some menubar.id
    menuBars := s.menuBars ++ [menubar.updateMenu m (s.models m)]
    nextView := s.nextView + 1
    assigned := some (m, s.models m) }

/-- `RemoveChildView` -/
def removeChildView (menuBars : List MenuBarView) (view : Nat) : List MenuBarView :=
  menuBars.eraseP fun v => v.id = view

/-- `NwCurrentWindowInternalClearMenuFunction::RunAsync` -/
def clearMenu (s : WindowViews) : WindowViews :=
  { s with
    menuBars := s.menu_bar_.elim s.menuBars (removeChildView s.menuBars)
    menu_bar_ := none
    assigned := none }

/-- The entries of the model that a view has. -/
def live (s : WindowViews) (view : MenuBarView) : List Entry := view.model_.elim [] s.models

/-- The first part of `OnMenuButtonClicked`: for an entry with a submenu, `RunMenuAt` runs it. For
any other entry the click is over with `ActivatedAt`. -/
def click (s : WindowViews) (view : MenuBarView) (button : Nat) : WindowViews :=
  match (s.live view)[button]? with
  | some entry => if entry.type = .submenu then { s with running := some (view, button) } else s
  | none => s

inductive Op where
  /-- `Menu::Append` -/
  | append (m : Nat) (entry : Entry)
  /-- `Menu::Insert` -/
  | insert (m : Nat) (entry : Entry) (pos : Int)
  /-- `Menu::Remove` -/
  | remove (m : Nat) (pos : Int)
  | setMenu (m : Nat)
  | clearMenu
  | click (view : MenuBarView) (button : Nat)
  /-- `RunMenuAt` returns, and the click goes on with `ActivatedAt`. -/
  | menuClosed
  deriving DecidableEq

variable (addSeparator : List Entry → Bool)

def step (s : WindowViews) : Op → Option WindowViews
  | .append m entry => some (s.updateModel m (addEntry addSeparator (s.models m) entry))
  | .insert m entry pos => some (s.updateModel m (insertEntryAt (s.models m) entry pos))
  | .remove m pos => some (s.updateModel m (removeItemAt (s.models m) pos))
  | .setMenu m => some (s.setMenu m)
  | .clearMenu => some s.clearMenu
  | .click view button =>
    if view ∈ s.menuBars ∧ button < view.buttons.length ∧ s.running = none then
      some (s.click view button)
    else none
  | .menuClosed => if s.running.isSome then some { s with running := none } else none

/-! ## One menu bar view -/

/-- While a menu is set, its view is the only one and the layout points to it; else there is
none. -/
def OneMenuBar (s : WindowViews) : Prop :=
  match s.assigned with
  | some (m, model) =>
    ∃ id, s.menuBars = [{ id := id, model_ := some m, buttons := model }] ∧ s.menu_bar_ = some id
  | none => s.menuBars = [] ∧ s.menu_bar_ = none

/-- What a step owes. -/
def StepOneMenuBar (s : WindowViews) (op : Op) : Prop :=
  ∀ t, s.step addSeparator op = some t → t.OneMenuBar

/-- The condition on a step: a menu is set where the layout has no menu bar. -/
def BarOk (s : WindowViews) : Op → Prop
  | .setMenu _ => s.menu_bar_ = none
  | _ => True

instance (s : WindowViews) : DecidablePred s.BarOk
  | .setMenu _ => inferInstanceAs (Decidable (s.menu_bar_ = none))
  | .append _ _ | .insert _ _ _ | .remove _ _ | .clearMenu | .click _ _ | .menuClosed =>
    inferInstanceAs (Decidable True)

variable {s t : WindowViews}

theorem OneMenuBar.menuBars_eq_nil (h : s.OneMenuBar) (hnone : s.menu_bar_ = none) :
    s.menuBars = [] := by
  unfold OneMenuBar at h
  split at h
  · obtain ⟨id, -, hid⟩ := h
    rw [hnone] at hid
    cases hid
  · exact h.1

/-- Where there is no menu bar, the new view is the only one and the layout points to it. -/
theorem OneMenuBar.setMenu (h : s.OneMenuBar) (hnone : s.menu_bar_ = none) (m : Nat) :
    (s.setMenu m).OneMenuBar := by
  have hnil := h.menuBars_eq_nil hnone
  refine ⟨s.nextView, ?_, rfl⟩
  show s.menuBars ++ _ = _
  rw [hnil]
  rfl

/-- The view that the layout points to is the only one, so taking it out leaves none; and where
there is none, clearing finds nothing to take out. -/
theorem OneMenuBar.clearMenu (h : s.OneMenuBar) : s.clearMenu.OneMenuBar := by
  refine ⟨?_, rfl⟩
  show s.menu_bar_.elim s.menuBars (removeChildView s.menuBars) = []
  unfold OneMenuBar at h
  split at h
  · obtain ⟨id, hbars, hid⟩ := h
    rw [hid, hbars]
    simp [removeChildView]
  · rw [h.2]
    exact h.1

/-- A step that concerns neither views nor layout, such as one that changes the model of a menu. -/
theorem OneMenuBar.congr (h : s.OneMenuBar) (hbars : t.menuBars = s.menuBars)
    (hlayout : t.menu_bar_ = s.menu_bar_) (hassigned : t.assigned = s.assigned) : t.OneMenuBar := by
  unfold OneMenuBar at h ⊢
  rwa [hassigned, hbars, hlayout]

/-- A click runs the menu of the button, or does nothing where the entry has no submenu. -/
theorem click_eq (view : MenuBarView) (button : Nat) :
    s.click view button = s ∨
      s.click view button = { s with running := some (view, button) } := by
  unfold click
  split
  · split
    · exact Or.inr rfl
    · exact Or.inl rfl
  · exact Or.inl rfl

variable {addSeparator} {op : Op}

/-- **A step under `BarOk` keeps one menu bar.** Setting and clearing are the only steps that touch
the views or the layout. -/
theorem OneMenuBar.step (h : s.OneMenuBar) (hok : s.BarOk op)
    (hst : s.step addSeparator op = some t) : t.OneMenuBar := by
  cases op with
  | append m entry =>
    cases hst
    exact h.congr rfl rfl rfl
  | insert m entry pos =>
    cases hst
    exact h.congr rfl rfl rfl
  | remove m pos =>
    cases hst
    exact h.congr rfl rfl rfl
  | setMenu m =>
    cases hst
    exact h.setMenu hok m
  | clearMenu =>
    cases hst
    exact h.clearMenu
  | click view button =>
    simp only [WindowViews.step] at hst
    split at hst
    · cases hst
      -- a click changes nothing, or opens a menu
      rcases click_eq view button with heq | heq
      · exact heq.symm ▸ h
      · exact heq.symm ▸ h.congr rfl rfl rfl
    · cases hst
  | menuClosed =>
    simp only [WindowViews.step] at hst
    split at hst
    · cases hst
      exact h.congr rfl rfl rfl
    · cases hst

/-- A menu that is set where the layout has a menu bar makes a second one. -/
theorem OneMenuBar.barOk_of_step (h : s.OneMenuBar) (hst : s.step addSeparator op = some t)
    (ht : t.OneMenuBar) : s.BarOk op := by
  cases op with
  | setMenu m =>
    cases hst
    obtain ⟨id, hbars, -⟩ : ∃ id, s.menuBars ++ _ = [_] ∧ _ := ht
    have hlen := congrArg List.length hbars
    -- after the step there is one view, the new one, so before it there was none
    have hnil : s.menuBars = [] := by
      rw [List.length_append] at hlen
      exact List.length_eq_zero_iff.mp (by simpa using hlen)
    show s.menu_bar_ = none
    unfold OneMenuBar at h
    split at h
    · obtain ⟨_, hone, -⟩ := h
      rw [hnil] at hone
      cases hone
    · exact h.2
  | append m entry => trivial
  | insert m entry pos => trivial
  | remove m pos => trivial
  | clearMenu => trivial
  | click view button => trivial
  | menuClosed => trivial

/-- **Exactly one menu bar view.** The runs after each step of which the children, the layout and
the menu that was set last agree are the runs that set a menu only where the layout has no menu
bar. -/
theorem one_menu_bar (addSeparator : List Entry → Bool) (models : Nat → List Entry)
    (ops : List Op) (s : WindowViews) :
    (Run (Guarded (StepOneMenuBar addSeparator) (ofPartial (step addSeparator)))
        { models := models } ops s ↔
      Run (Guarded BarOk (ofPartial (step addSeparator))) { models := models } ops s) ∧
    (Run (Guarded BarOk (ofPartial (step addSeparator))) { models := models } ops s →
      s.OneMenuBar) := by
  have hinit : OneMenuBar { models := models } := ⟨rfl, rfl⟩
  constructor
  · refine Run.owed_iff (fun _ _ _ h hok hst => OneMenuBar.step h hok hst) (fun _ h => h) ?_ hinit
    exact fun s op t h hst hone => h.barOk_of_step hst hone
  · intro hrun
    exact hrun.invariant (fun _ _ _ h hst => h.step hst.1 hst.2) hinit

/-- A menu is set, filled, cleared twice and set again. The second clearing finds no menu bar, and
in the end there is one view. -/
theorem one_menu_bar_resets :
    ∃ s, Run (Guarded BarOk (ofPartial (step separates))) {}
        [.setMenu 0, .append 0 ⟨0, .submenu, some 1⟩, .clearMenu, .clearMenu, .setMenu 0] s ∧
      s.OneMenuBar ∧ s.menuBars.length = 1 := by
  obtain ⟨s, hs, hlen⟩ : ∃ s, exec BarOk (step separates)
      [.setMenu 0, .append 0 ⟨0, .submenu, some 1⟩, .clearMenu, .clearMenu, .setMenu 0] {} =
        some s ∧ s.menuBars.length = 1 := ⟨_, rfl, rfl⟩
  have hrun := Run.of_exec hs
  exact ⟨s, hrun, (one_menu_bar separates (fun _ => []) _ s).2 hrun, hlen⟩

/-- Setting a menu twice leaves the first view among the children: the layout points to the second
one, and nothing takes the first one out. -/
theorem set_twice_two_menuBars :
    ¬ ∀ (ops : List Op) (s : WindowViews), Run (ofPartial (step separates)) {} ops s →
      s.OneMenuBar := by
  intro hall
  obtain ⟨s, hs, hassigned, hlen⟩ : ∃ s,
      exec (fun _ _ => True) (step separates) [.setMenu 0, .setMenu 1] {} = some s ∧
        s.assigned = some (1, []) ∧ s.menuBars.length = 2 := ⟨_, rfl, rfl, rfl⟩
  have hone := hall _ s (Run.of_exec hs).unguard
  rw [OneMenuBar, hassigned] at hone
  obtain ⟨id, hbars, -⟩ := hone
  rw [hbars] at hlen
  cases hlen

end WindowViews

end NodeWebkit.Menus
