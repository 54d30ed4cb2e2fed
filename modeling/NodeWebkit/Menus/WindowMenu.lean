import Mathlib.Data.Finset.Erase
import Mathlib.Data.Finset.Insert
import Mathlib.Data.Finset.Option
import Mathlib.Data.Finset.SDiff
import NodeWebkit.Lib.JsArray
import NodeWebkit.Lib.Run
import NodeWebkit.Menus.Registry

/-!
# The menu of a window

`win.menu = m` keeps `m` on the script side of the window and sets the pointer `menu_` of its
`AppWindow`, which `ExecuteAppCommandHook` follows.

The script side is `privates(this).menu` of the outer window object, the one that
`nw.Window.get()` returns. `__nw_initwindow` keeps that object in `bgPage.__nw_windows`, under the
routing id of the window: it outlives a reload of the window, its hidden fields included, and only
gets the `NWWindow` of the new document for its prototype. In a process without a background page
the window is its own `bgPage`, and the object goes with the document. The `AppWindow` stays in both
cases.

* **`MenuSet`**, **`StepSet`** — every `menu_` is what was last assigned, and is registered;
* **`StepOk`** — the condition on a step: no menu is taken back by `win.menu = null`, and none goes
  that a window still points to without knowing it;
* **`Inv`** — what a page reaches is registered and was not told to go;
* **`window_menu_set`** — the runs that keep to the former are those that meet the condition.

A window that knows its menu keeps it from being collected, because the menu is reached through it.
So the pointer of the `AppWindow` is in danger only where the script side was lost, by a reload
without a background page, or was set to null.
-/

namespace NodeWebkit.Menus

open JsArray Lts

/-- `option.type` of a `Menu`. -/
inductive MenuType where
  | contextmenu | menubar
  deriving DecidableEq

structure Window where
  /-- There is a background page besides the window, and it keeps the outer window object. -/
  hasBgPage : Bool := true
  /-- `privates(this).menu` of the outer window object. -/
  menu : Option Nat := none
  /-- `AppWindow::menu_`. -/
  menu_ : Option Nat := none
  /-- The last assignment to `win.menu` that did not throw; the code has no such field. -/
  assigned : Option Nat := none
  deriving DecidableEq

structure Browser where
  objectsRegistry : Registry MenuType := {}
  /-- The menus that the code of the pages and their items reach. -/
  held : Finset Nat := ∅
  windows : List Window := []

namespace Browser

def Reachable (b : Browser) (m : Nat) : Prop :=
  m ∈ b.held ∨ ∃ win ∈ b.windows, win.menu = some m

instance (b : Browser) (m : Nat) : Decidable (b.Reachable m) :=
  inferInstanceAs (Decidable (m ∈ b.held ∨ ∃ win ∈ b.windows, win.menu = some m))

/-- `win.menu = m`: only a menubar is accepted. `NwCurrentWindowInternalSetMenuFunction` sets the
native pointer. -/
def setMenu (b : Browser) (w m : Nat) : Option Browser :=
  if b.Reachable m then
    (b.objectsRegistry.lookup m).map fun obj =>
      if obj.object ≠ .menubar then b
      else
        { b with
          windows := b.windows.modify w fun win =>
            { win with
              menu := some m
              menu_ := some m
              assigned := some m } }
  else none

/-- `win.menu = null`. `NwCurrentWindowInternalClearMenuFunction` takes the menu bar out of the
layout and leaves the native pointer as it is. -/
def clearMenu (b : Browser) (w : Nat) : Browser :=
  { b with
    windows := b.windows.modify w fun win =>
      { win with
        menu := none
        assigned := none } }

/-- The menu of an outer window object that goes with the document of its window. -/
def outerMenu (b : Browser) (w : Nat) : Finset Nat :=
  ((b.windows[w]?).bind fun win => if win.hasBgPage then none else win.menu).toFinset

/-- The document of the window is loaded again: its objects go, and with them what only they held.
The outer window object is among them where no background page keeps it; its menu may be reached
from elsewhere still, so that `dropped` says what is not. -/
def reload (b : Browser) (w : Nat) (dropped : Finset Nat) : Browser :=
  { b with
    held := (b.held ∪ b.outerMenu w) \ dropped
    windows := b.windows.modify w fun win =>
      if win.hasBgPage then win else { win with menu := none } }

/-- The finalizer of a menu that no page reaches. -/
def destroy (b : Browser) (m : Nat) : Option Browser :=
  match b.objectsRegistry.lookup m with
  | some obj =>
    if b.Reachable m ∨ obj.pendingDestruction then none
    else some { b with objectsRegistry := b.objectsRegistry.onDeallocateObject m }
  | none => none

/-- `ExecuteAppCommandHook`: the menu whose delegate gets the command, if the hook takes it. -/
def executeAppCommandHook (b : Browser) (w : Nat) : Option Nat :=
  (b.windows[w]?).bind Window.menu_

inductive Op where
  | openWindow (hasBgPage : Bool)
  | newMenu (type : MenuType)
  | setMenu (w m : Nat)
  | clearMenu (w : Nat)
  | reload (w : Nat) (dropped : Finset Nat)
  /-- A page drops its last variable with the menu, or its last item. -/
  | release (m : Nat)
  /-- A page takes the menu out of `win.menu`. -/
  | readMenu (w : Nat)
  | destroy (m : Nat)
  | popupBegin (m : Nat)
  | popupEnd (m : Nat)
  deriving DecidableEq

def step (b : Browser) : Op → Option Browser
  | .openWindow hasBgPage => some { b with windows := b.windows ++ [{ hasBgPage := hasBgPage }] }
  | .newMenu type =>
    some { b with
      objectsRegistry := b.objectsRegistry.add type
      held := insert b.objectsRegistry.nextId b.held }
  | .setMenu w m => b.setMenu w m
  | .clearMenu w => some (b.clearMenu w)
  | .reload w dropped => some (b.reload w dropped)
  | .release m => some { b with held := b.held.erase m }
  | .readMenu w =>
    ((b.windows[w]?).bind Window.menu).map fun m => { b with held := insert m b.held }
  | .destroy m => b.destroy m
  | .popupBegin m =>
    if b.Reachable m then some { b with objectsRegistry := b.objectsRegistry.popupBegin m }
    else none
  | .popupEnd m =>
    match b.objectsRegistry.lookup m with
    | some obj =>
      if obj.delayDestruction then
        some { b with objectsRegistry := b.objectsRegistry.popupEnd m }
      else none
    | none => none

/-- The pointer of every window is what was assigned last, null or a registered menu. -/
def MenuSet (b : Browser) : Prop :=
  ∀ win ∈ b.windows, win.menu_ = win.assigned ∧
    ∀ m ∈ win.menu_, ∃ obj, b.objectsRegistry.lookup m = some obj

/-- What a step owes: it leaves every pointer set, and null where null was assigned. -/
def StepSet (b : Browser) (op : Op) : Prop :=
  ∀ t, b.step op = some t →
    t.MenuSet ∧ ∀ w, op = .clearMenu w → ∀ win ∈ t.windows[w]?, win.menu_ = none

/-- The condition on a step, on the state before it: null is assigned only to the menu of a window
that has none, and a menu is taken out of the registry only while every window that points to it
knows it, that is, has not lost its outer window object to a reload since. -/
def StepOk (b : Browser) : Op → Prop
  | .clearMenu w => ∀ win ∈ b.windows[w]?, win.menu_ = none
  | .destroy m => ∀ obj ∈ b.objectsRegistry.lookup m, obj.delayDestruction = false →
      ∀ win ∈ b.windows, win.menu_ = some m → win.menu = some m
  | .popupEnd m => ∀ obj ∈ b.objectsRegistry.lookup m, obj.pendingDestruction = true →
      ∀ win ∈ b.windows, win.menu_ = some m → win.menu = some m
  | _ => True

instance (b : Browser) : DecidablePred b.StepOk
  | .clearMenu w => inferInstanceAs (Decidable (∀ win ∈ b.windows[w]?, win.menu_ = none))
  | .destroy m => inferInstanceAs (Decidable (∀ obj ∈ b.objectsRegistry.lookup m,
      obj.delayDestruction = false →
        ∀ win ∈ b.windows, win.menu_ = some m → win.menu = some m))
  | .popupEnd m => inferInstanceAs (Decidable (∀ obj ∈ b.objectsRegistry.lookup m,
      obj.pendingDestruction = true →
        ∀ win ∈ b.windows, win.menu_ = some m → win.menu = some m))
  | .openWindow _ | .newMenu _ | .setMenu _ _ | .reload _ _ | .release _ | .readMenu _
  | .popupBegin _ => inferInstanceAs (Decidable True)

structure Inv (b : Browser) : Prop where
  menuSet : b.MenuSet
  reachable : b.objectsRegistry.Holds b.Reachable

theorem Inv.init : Inv {} := by
  refine ⟨?_, ?_⟩
  · rintro win ⟨⟩
  · rintro m (hm | ⟨win, hmem, -⟩)
    · cases hm
    · cases hmem

/-- What a change of the windows leaves: the new window has a pointer that was assigned, and a menu
on the script side that was reached. -/
theorem Inv.modifyWindow {b : Browser} (h : b.Inv) (w : Nat) {f : Window → Window}
    {held : Finset Nat} (hheld : ∀ m ∈ held, b.Reachable m)
    (hmenu : ∀ win ∈ b.windows, ∀ m, (f win).menu = some m → b.Reachable m)
    (hassigned : ∀ win ∈ b.windows[w]?, (f win).menu_ = (f win).assigned)
    (hlive : ∀ win ∈ b.windows[w]?, ∀ m ∈ (f win).menu_,
      ∃ obj, b.objectsRegistry.lookup m = some obj) :
    Inv { b with
      held := held
      windows := b.windows.modify w f } := by
  refine ⟨?_, ?_⟩
  · intro win hmem
    rcases mem_modify hmem with hold | ⟨old, -, hold, rfl⟩
    · exact h.menuSet win hold
    · exact ⟨hassigned old hold, hlive old hold⟩
  · rintro m (hm | ⟨win, hmem, hm⟩)
    · exact h.reachable m (hheld m hm)
    · rcases mem_modify hmem with hold | ⟨old, hold, -, rfl⟩
      · exact h.reachable m (Or.inr ⟨win, hold, hm⟩)
      · exact h.reachable m (hmenu old hold m hm)

/-- The page takes up a menu it reaches, so nothing is reached that was not before. -/
theorem Inv.hold {b : Browser} (h : b.Inv) {m : Nat} (hm : b.Reachable m) :
    Inv { b with held := insert m b.held } := by
  refine ⟨h.menuSet, ?_⟩
  rintro k (hk | hk)
  · rcases Finset.mem_insert.mp hk with rfl | hk
    · exact h.reachable k hm
    · exact h.reachable k (Or.inl hk)
  · exact h.reachable k (Or.inr hk)

/-- The registry covers the menus that windows point to, whether or not a page reaches them. -/
theorem Inv.covers {b : Browser} (h : b.Inv) :
    b.objectsRegistry.Covers fun m => ∃ win ∈ b.windows, win.menu_ = some m := by
  rintro m ⟨win, hmem, hm⟩
  exact (h.menuSet win hmem).2 m hm

/-- The registry loses no menu that a page reaches or a window points to. -/
theorem Inv.registry {b : Browser} (h : b.Inv) {r : Registry MenuType}
    (hcovers : r.Covers fun m => ∃ win ∈ b.windows, win.menu_ = some m)
    (hholds : r.Holds b.Reachable) : Inv { b with objectsRegistry := r } := by
  refine ⟨?_, hholds⟩
  intro win hmem
  exact ⟨(h.menuSet win hmem).1, fun m hm => hcovers m ⟨win, hmem, hm⟩⟩

/-- A new menu is registered and held, and no window has it yet. -/
theorem Inv.newMenu {b : Browser} (h : b.Inv) (type : MenuType) :
    Inv { b with
      objectsRegistry := b.objectsRegistry.add type
      held := insert b.objectsRegistry.nextId b.held } := by
  refine ⟨?_, ?_⟩
  · intro win hmem
    exact ⟨(h.menuSet win hmem).1, fun m hm => h.covers.add type m ⟨win, hmem, hm⟩⟩
  · intro k hk
    apply h.reachable.add type k
    rcases hk with hk | hk
    · exact (Finset.mem_insert.mp hk).imp_right Or.inl
    · exact Or.inr (Or.inr hk)

/-- **`win.menu = m`.** A menubar that the page reaches goes to both sides of the window; a menu of
the other type is turned away and changes nothing. -/
theorem Inv.setMenu {b b' : Browser} (h : b.Inv) {w m : Nat} (hstep : b.setMenu w m = some b') :
    b'.Inv := by
  unfold Browser.setMenu at hstep
  split at hstep
  · rename_i hreach
    obtain ⟨obj, hobj, rfl⟩ := Option.map_eq_some_iff.mp hstep
    split
    · exact h
    · apply h.modifyWindow w fun _ => Or.inl
      · rintro win - k ⟨⟩
        exact hreach
      · exact fun _ _ => rfl
      · rintro win - k ⟨⟩
        exact ⟨obj, hobj⟩
  · cases hstep

/-- **`win.menu = null`** forgets the menu on the script side only. Under the condition the window
has no native pointer that would be left behind. -/
theorem Inv.clearMenu {b : Browser} (h : b.Inv) {w : Nat} (hok : b.StepOk (.clearMenu w)) :
    (b.clearMenu w).Inv := by
  apply h.modifyWindow w fun _ => Or.inl
  · rintro win - k ⟨⟩
  · exact hok
  · intro win hwin k hk
    exact (h.menuSet win (List.mem_of_getElem? hwin)).2 k hk

/-- The menu of an outer window object is one that is reached, whoever keeps the object. -/
theorem reachable_of_mem_outerMenu {b : Browser} {w m : Nat} (hm : m ∈ b.outerMenu w) :
    b.Reachable m := by
  rw [outerMenu, Option.mem_toFinset] at hm
  obtain ⟨win, hwin, hmenu⟩ := Option.bind_eq_some_iff.mp hm
  split at hmenu
  · cases hmenu
  · exact Or.inr ⟨win, List.mem_of_getElem? hwin, hmenu⟩

/-- A reload reaches no menu that was not reached before, and leaves the native pointers alone. -/
theorem Inv.reload {b : Browser} (h : b.Inv) (w : Nat) (dropped : Finset Nat) :
    (b.reload w dropped).Inv := by
  apply h.modifyWindow w
  · intro m hm
    rcases Finset.mem_union.mp (Finset.mem_sdiff.mp hm).1 with hheld | houter
    · exact Or.inl hheld
    · exact reachable_of_mem_outerMenu houter
  · intro win hwin m hm
    split at hm
    · exact Or.inr ⟨win, hwin, hm⟩
    · cases hm
  · intro win hwin
    have hset := (h.menuSet win (List.mem_of_getElem? hwin)).1
    split
    · exact hset
    · exact hset
  · intro win hwin
    have hlive := (h.menuSet win (List.mem_of_getElem? hwin)).2
    split
    · exact hlive
    · exact hlive

/-- A menu is collected that no page reaches. By the condition a window that points to it would know
it, and then it would be reached. -/
theorem Inv.destroy {b b' : Browser} (h : b.Inv) {m : Nat} (hok : b.StepOk (.destroy m))
    (hstep : b.destroy m = some b') : b'.Inv := by
  unfold Browser.destroy at hstep
  split at hstep
  · split at hstep
    · cases hstep
    · rename_i hunreached
      cases hstep
      apply h.registry
      · apply h.covers.onDeallocateObject
        -- a window that knows the menu would reach it
        rintro ⟨win, hmem, hm⟩ obj hobj
        rw [← Bool.not_eq_false]
        intro hdelay
        exact hunreached (Or.inl (Or.inr ⟨win, hmem, hok obj hobj hdelay win hmem hm⟩))
      · apply h.reachable.onDeallocateObject
        exact fun hreach => hunreached (Or.inl hreach)
  · cases hstep

/-- A popup ends whose menu was told to go meanwhile. What was told to go is not reached, so again
no window knows it. -/
theorem Inv.popupEnd {b : Browser} (h : b.Inv) {m : Nat} (hok : b.StepOk (.popupEnd m)) :
    Inv { b with objectsRegistry := b.objectsRegistry.popupEnd m } := by
  apply h.registry
  · apply h.covers.popupEnd
    rintro ⟨win, hmem, hm⟩ obj hobj
    rw [← Bool.not_eq_true]
    intro hpending
    -- what was told to go is not reached, so no window knows it
    have hknown := hok obj hobj hpending win hmem hm
    obtain ⟨obj', hobj', hfalse⟩ := h.reachable m (Or.inr ⟨win, hmem, hknown⟩)
    rw [Option.mem_def.mp hobj, Option.some.injEq] at hobj'
    rw [hobj', hfalse] at hpending
    cases hpending
  · exact h.reachable.popupEnd m

/-- **Every step under `StepOk` keeps the invariant.** One case for each step; a reload asks
nothing, because it only takes away what is known of menus. -/
theorem Inv.step {b b' : Browser} {op : Op} (h : b.Inv) (hok : b.StepOk op)
    (hstep : b.step op = some b') : b'.Inv := by
  cases op with
  | openWindow hasBgPage =>
    cases hstep
    refine ⟨?_, ?_⟩
    · intro win hmem
      rcases List.mem_append.mp hmem with hmem | hmem
      · exact h.menuSet win hmem
      · rw [List.mem_singleton.mp hmem]
        exact ⟨rfl, by rintro m ⟨⟩⟩
    · -- the new window has no menu
      rintro m (hm | ⟨win, hmem, hm⟩)
      · exact h.reachable m (Or.inl hm)
      · rcases List.mem_append.mp hmem with hmem | hmem
        · exact h.reachable m (Or.inr ⟨win, hmem, hm⟩)
        · rw [List.mem_singleton.mp hmem] at hm
          cases hm
  | newMenu type =>
    cases hstep
    exact h.newMenu type
  | setMenu w m => exact h.setMenu hstep
  | clearMenu w =>
    cases hstep
    exact h.clearMenu hok
  | reload w dropped =>
    cases hstep
    exact h.reload w dropped
  | release m =>
    cases hstep
    refine ⟨h.menuSet, ?_⟩
    -- letting go of a reference makes fewer menus reachable
    rintro k (hk | hk)
    · exact h.reachable k (Or.inl (Finset.mem_of_mem_erase hk))
    · exact h.reachable k (Or.inr hk)
  | readMenu w =>
    obtain ⟨m, hm, rfl⟩ := Option.map_eq_some_iff.mp hstep
    obtain ⟨win, hwin, hm⟩ := Option.bind_eq_some_iff.mp hm
    exact h.hold (Or.inr ⟨win, List.mem_of_getElem? hwin, hm⟩)
  | destroy m => exact h.destroy hok hstep
  | popupBegin m =>
    simp only [Browser.step] at hstep
    split at hstep
    · cases hstep
      exact h.registry (h.covers.popupBegin m) (h.reachable.popupBegin m)
    · cases hstep
  | popupEnd m =>
    simp only [Browser.step] at hstep
    split at hstep
    · split at hstep
      · cases hstep
        exact h.popupEnd hok
      · cases hstep
    · cases hstep

theorem getElem?_clearMenu (b : Browser) (w : Nat) :
    (b.clearMenu w).windows[w]? = (b.windows[w]?).map fun win =>
      { win with
        menu := none
        assigned := none } :=
  List.getElem?_modify_eq ..

/-- A menu that is destroyed and not open is gone from the registry, and the windows have not been
told of it. -/
theorem lookup_of_destroy {b b' : Browser} {m : Nat} (hstep : b.destroy m = some b')
    {obj : Registered MenuType} (hobj : b.objectsRegistry.lookup m = some obj)
    (hdelay : obj.delayDestruction = false) :
    b'.windows = b.windows ∧ b'.objectsRegistry.lookup m = none := by
  simp only [Browser.destroy, hobj] at hstep
  split at hstep
  · cases hstep
  · cases hstep
    refine ⟨rfl, ?_⟩
    show (b.objectsRegistry.onDeallocateObject m).lookup m = none
    rw [Registry.onDeallocateObject, Registry.lookup_modify, if_pos rfl, hobj, Option.bind_some,
      hdelay]
    rfl

/-- A menu that was told to go while it was open is gone when it is closed. -/
theorem lookup_of_popupEnd {b b' : Browser} {m : Nat} (hstep : b.step (.popupEnd m) = some b')
    {obj : Registered MenuType} (hobj : b.objectsRegistry.lookup m = some obj)
    (hpending : obj.pendingDestruction = true) :
    b'.windows = b.windows ∧ b'.objectsRegistry.lookup m = none := by
  simp only [Browser.step, hobj] at hstep
  split at hstep
  · cases hstep
    refine ⟨rfl, ?_⟩
    show (b.objectsRegistry.popupEnd m).lookup m = none
    rw [Registry.lookup_popupEnd, if_pos rfl, hobj, Option.bind_some, hpending]
    rfl
  · cases hstep

/-- **A step leaves the pointers set exactly when it meets `StepOk`.** Each clause of the condition
is read off the window after the step that it is about: a pointer that was not cleared, or one that
is no longer registered. -/
theorem stepOk_iff_stepSet {b b' : Browser} {op : Op} (h : b.Inv) (hst : b.step op = some b') :
    b.StepOk op ↔ b.StepSet op := by
  constructor
  · intro hok t ht
    refine ⟨(h.step hok ht).menuSet, ?_⟩
    -- a window that had no menu pointer has none afterwards
    rintro w rfl win hwin
    cases ht
    rw [getElem?_clearMenu] at hwin
    obtain ⟨old, hold, rfl⟩ := Option.map_eq_some_iff.mp hwin
    exact hok old hold
  · intro hset
    obtain ⟨hmenus, hclear⟩ := hset b' hst
    cases op with
    | clearMenu w =>
      cases hst
      intro win hwin
      have hnew := getElem?_clearMenu b w
      rw [Option.mem_def.mp hwin] at hnew
      have hnull := hclear w rfl _ hnew
      exact hnull
    | destroy m =>
      intro obj hobj hdelay win hmem hptr
      -- a pointer to the menu that is gone would not be set
      obtain ⟨hwindows, hgone⟩ := lookup_of_destroy hst hobj hdelay
      obtain ⟨obj', hobj'⟩ := (hmenus win (hwindows ▸ hmem)).2 m hptr
      rw [hgone] at hobj'
      cases hobj'
    | popupEnd m =>
      intro obj hobj hpending win hmem hptr
      obtain ⟨hwindows, hgone⟩ := lookup_of_popupEnd hst hobj hpending
      obtain ⟨obj', hobj'⟩ := (hmenus win (hwindows ▸ hmem)).2 m hptr
      rw [hgone] at hobj'
      cases hobj'
    | openWindow hasBgPage => trivial
    | newMenu type => trivial
    | setMenu w m => trivial
    | reload w dropped => trivial
    | release m => trivial
    | readMenu w => trivial
    | popupBegin m => trivial

/-- **The menu of a window is the one set on it.** A run leaves the pointers set at every step
exactly when every step meets `StepOk`; then the command hook of every window goes to the menu that
was assigned last, a registered one, or is not taken. -/
theorem window_menu_set (ops : List Op) (b : Browser) :
    (Run (Guarded StepSet (ofPartial step)) {} ops b ↔
      Run (Guarded StepOk (ofPartial step)) {} ops b) ∧
    (Run (Guarded StepOk (ofPartial step)) {} ops b →
      b.MenuSet ∧ ∀ w, ∀ win ∈ b.windows[w]?, b.executeAppCommandHook w = win.assigned) := by
  have hstep : ∀ b op b', Inv b → StepOk b op → ofPartial Browser.step b op b' → Inv b' :=
    fun _ _ _ h hok hst => h.step hok hst
  constructor
  · exact (Run.guarded_iff hstep (fun _ _ _ h hst => stepOk_iff_stepSet h hst) Inv.init).symm
  · intro hrun
    have hinv : Inv b := hrun.invariant (fun b op b' h hst => hstep b op b' h hst.1 hst.2) Inv.init
    refine ⟨hinv.menuSet, fun w win hwin => ?_⟩
    rw [executeAppCommandHook, Option.mem_def.mp hwin, Option.bind_some]
    exact (hinv.menuSet win (List.mem_of_getElem? hwin)).1

/-- A menu is replaced by another one, released and collected; it was open meanwhile. Both windows
are loaded again: the first one still has its menu then, which is read back from it, and the menu of
the second one is reached from elsewhere. -/
def replaced : List Op :=
  [.openWindow true, .openWindow false, .newMenu .menubar, .newMenu .menubar,
    .newMenu .contextmenu, .setMenu 0 0, .setMenu 0 2, .popupBegin 0, .setMenu 0 1, .setMenu 1 1,
    .release 0, .destroy 0, .popupEnd 0, .release 1, .reload 0 {2}, .readMenu 0, .destroy 2,
    .reload 1 {}]

/-- The first window has the menu that was assigned to it last, after a reload, and the menu before
that one is gone. -/
theorem window_menu_set_replaced :
    ∃ b, Run (Guarded StepSet (ofPartial step)) {} replaced b ∧ b.MenuSet ∧
      b.executeAppCommandHook 0 = some 1 ∧ b.objectsRegistry.lookup 0 = none := by
  obtain ⟨b, hb, hhook, hgone⟩ : ∃ b, exec StepOk step replaced {} = some b ∧
      b.executeAppCommandHook 0 = some 1 ∧ b.objectsRegistry.lookup 0 = none := by
    refine ⟨_, rfl, ?_, ?_⟩ <;> decide
  obtain ⟨hiff, hset⟩ := window_menu_set replaced b
  have hrun := Run.of_exec hb
  exact ⟨b, hiff.mpr hrun, (hset hrun).1, hhook, hgone⟩

/-- `win.menu = m; win.menu = null`. -/
def cleared : List Op :=
  [.openWindow true, .newMenu .menubar, .setMenu 0 0, .clearMenu 0]

/-- The pointer stays, and the hook still goes to the menu that was taken back. -/
theorem cleared_not_set :
    ¬ ∀ (ops : List Op) (b : Browser), Run (ofPartial step) {} ops b →
      Run (Guarded StepSet (ofPartial step)) {} ops b ∧ b.MenuSet ∧
        ∀ w, ∀ win ∈ b.windows[w]?, b.executeAppCommandHook w = win.assigned := by
  intro hall
  obtain ⟨b, hb, hwin, hhook⟩ : ∃ b, exec (fun _ _ => True) step cleared {} = some b ∧
      b.windows[0]? = some ⟨true, none, some 0, none⟩ ∧ b.executeAppCommandHook 0 = some 0 :=
    ⟨_, rfl, rfl, rfl⟩
  have hnone := (hall cleared b (Run.of_exec hb).unguard).2.2 0 _ hwin
  rw [hhook] at hnone
  cases hnone

end Browser

end NodeWebkit.Menus
