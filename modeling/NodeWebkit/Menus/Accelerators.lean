import NodeWebkit.Lib.PathWalk
import NodeWebkit.Menus.MenuGraph

/-!
# Accelerators of the window's menu

On Windows and Linux a native `Menu` has a `menu_model_`, which is what is shown, and a vector
`menu_items_` of its items. When a menu is set on a window, `Menu::UpdateKeys` goes through
`menu_items_`, and through the submenus of these items, and registers every item that has a
shortcut with the window's focus manager. Nothing in the repository takes a registration back.

Menus, items and windows are numbered. What is destroyed is gone; a pointer to it dangles.

## What is asked

* **`Follows`** — the accelerators after an operation: right after a menu was set they are the items
  with a shortcut in the tree of its *model*, although `UpdateKeys` never looks at a model.
* **`StepOk`** — the operations that do not reach a slip. `Insert` and `Remove` leave `menu_items_`
  as it is and `SetSubmenu` leaves the models as they are, so they are for entries that no key
  hangs on; and a window that got a menu with a shortcut keeps its accelerators for good, so
  it gets no other menu, its menu is not taken away and these items are not destroyed.

The condition on the windows speaks of the models that were set earlier in the run, which are not
part of the state. `Observed` is the state together with them.
-/

namespace NodeWebkit.Menus

open PathWalk

structure Accelerator where
  keyCode : Nat
  modifiers : Nat
  deriving DecidableEq

namespace Keys

/-- What a native `MenuItem` has to do with keys and menus. -/
structure Item where
  type : ItemType
  enableShortcut : Bool
  accelerator : Accelerator
  submenu_ : Option Nat
  deriving DecidableEq

/-- The entry that `Append` and `Insert` make for an item. -/
def Item.entry (item : Item) (id : Nat) : Entry :=
  (MenuItem.mk item.type none none item.submenu_).entry id

structure NativeMenu where
  /-- `menu_model_`. -/
  model : List Entry := []
  /-- `menu_items_`. -/
  menuItems : List Nat := []
  deriving DecidableEq

/-- The accelerators of a focus manager with their targets, in the order of registration. -/
abbrev Table := List (Accelerator × Nat)

end Keys

structure Keys where
  menus : Nat → Option Keys.NativeMenu := fun _ => none
  items : Nat → Option Keys.Item := fun _ => none
  /-- How many menus and items were made. -/
  menuCount : Nat := 0
  itemCount : Nat := 0
  /-- The focus manager of each window. -/
  focusManager : Nat → Keys.Table := fun _ => []
  /-- The process has used a pointer to freed memory or run out of stack. -/
  crashed : Bool := false

namespace Keys

/-! ## Going through the items -/

/-- `MenuItem::UpdateKeys` for the items of a vector. -/
def updateItems (s : Keys) (updateSubmenu : Nat → Table → Option Table) :
    List Nat → Table → Option Table
  | [], table => some table
  | id :: ids, table =>
    (s.items id).bind fun item =>
      let table := if item.enableShortcut then table ++ [(item.accelerator, id)] else table
      (match item.submenu_ with
        | none => some table
        | some submenu => updateSubmenu submenu table).bind
          (updateItems s updateSubmenu ids)

/-- `Menu::UpdateKeys`, for a stack that takes the given number of menus. -/
def updateKeys (s : Keys) : Nat → Nat → Table → Option Table
  | 0, _, _ => none
  | depth + 1, m, table =>
    (s.menus m).bind fun menu => updateItems s (updateKeys s depth) menu.menuItems table

/-! ## The operations -/

section Operations

variable (addSeparator : List Entry → Bool)

def updateMenu (s : Keys) (m : Nat) (menu : NativeMenu) : Keys :=
  { s with menus := Function.update s.menus m (some menu) }

/-- The item and the menu of a call, with the model of the item's submenu, which the call uses. -/
def called (s : Keys) (m id : Nat) : Option (NativeMenu × Item) :=
  (s.menus m).bind fun menu => (s.items id).bind fun item =>
    if ∀ submenu ∈ item.submenu_, (s.menus submenu).isSome then some (menu, item) else none

/-- A call on a menu and an item finds both of them, and they are what the tables have under the two
numbers. -/
theorem called_eq_some {s : Keys} {m id : Nat} {menu : NativeMenu} {item : Item}
    (h : s.called m id = some (menu, item)) : s.menus m = some menu ∧ s.items id = some item := by
  obtain ⟨menu', hmenu, h⟩ := Option.bind_eq_some_iff.mp h
  obtain ⟨item', hitem, h⟩ := Option.bind_eq_some_iff.mp h
  cases (Option.ite_none_right_eq_some.mp h).2
  exact ⟨hmenu, hitem⟩

/-- `Menu::Append`. -/
def append (s : Keys) (m id : Nat) : Option Keys :=
  (s.called m id).map fun (menu, item) =>
    s.updateMenu m
      { model := addEntry addSeparator menu.model (item.entry id)
        menuItems := menu.menuItems ++ [id] }

/-- `Menu::Insert`. -/
def insert (s : Keys) (m id : Nat) (pos : Int) : Option Keys :=
  (s.called m id).map fun (menu, item) =>
    s.updateMenu m { menu with model := insertEntryAt menu.model (item.entry id) pos }

/-- `Menu::Remove`. -/
def remove (s : Keys) (m id : Nat) (pos : Int) : Option Keys :=
  (s.menus m).bind fun menu => (s.items id).map fun _ =>
    s.updateMenu m { menu with model := removeItemAt menu.model pos }

/-- The constructor of a `MenuItem`; the options of a separator are replaced, so it has no key. -/
def newMenuItem (s : Keys) (type : ItemType) (key : Option Accelerator) (submenu : Option Nat) :
    Keys :=
  let (key, submenu) := if type = .separator then (none, none) else (key, submenu)
  { s with
    items := Function.update s.items s.itemCount
      (some ⟨type, key.isSome, key.getD ⟨0, 0⟩, submenu⟩)
    itemCount := s.itemCount + 1 }

/-- `MenuItem::SetSubmenu`. -/
def setSubmenu (s : Keys) (id : Nat) (submenu : Option Nat) : Option Keys :=
  (s.items id).map fun item =>
    { s with items := Function.update s.items id (some { item with submenu_ := submenu }) }

inductive Op where
  | newMenu
  | newMenuItem (type : ItemType) (key : Option Accelerator) (submenu : Option Nat)
  | append (m id : Nat)
  | insert (m id : Nat) (pos : Int)
  | remove (m id : Nat) (pos : Int)
  | setSubmenu (id : Nat) (submenu : Option Nat)
  | setMenu (window m : Nat)
  | clearMenu (window : Nat)
  | destroyMenu (m : Nat)
  | destroyItem (id : Nat)
  deriving DecidableEq

/-- An operation, where a stack of the given depth is enough for it. `ClearMenu` only takes the
menu bar out of the window; the destructors of menus and items do nothing. -/
def step (s : Keys) (depth : Nat) : Op → Option Keys
  | .newMenu =>
    some { s.updateMenu s.menuCount {} with menuCount := s.menuCount + 1 }
  | .newMenuItem type key submenu => some (s.newMenuItem type key submenu)
  | .append m id => s.append addSeparator m id
  | .insert m id pos => s.insert m id pos
  | .remove m id pos => s.remove m id pos
  | .setSubmenu id submenu => s.setSubmenu id submenu
  | .setMenu window m =>
    (s.updateKeys depth m (s.focusManager window)).map fun table =>
      { s with focusManager := Function.update s.focusManager window table }
  | .clearMenu _ => some s
  | .destroyMenu m => some { s with menus := Function.update s.menus m none }
  | .destroyItem id => some { s with items := Function.update s.items id none }

/-- One operation of a process that has not crashed. Setting a menu that is there crashes where no
stack is enough. -/
def Step (s : Keys) (op : Op) (t : Keys) : Prop :=
  s.crashed = false ∧
    ((∃ depth, step addSeparator s depth op = some t) ∨
      (∃ window m, op = .setMenu window m ∧ (s.menus m).isSome ∧
        (∀ depth, s.updateKeys depth m (s.focusManager window) = none) ∧
          t = { s with crashed := true }))

end Operations

/-! ## What the accelerators are to follow -/

/-- The items that a window's accelerators go to. -/
def targets (s : Keys) (window : Nat) : List Nat := (s.focusManager window).map Prod.snd

/-- The registration of an item that has a shortcut. -/
def keyOf (s : Keys) (id : Nat) : Option (Accelerator × Nat) :=
  (s.items id).bind fun item =>
    if item.enableShortcut then some (item.accelerator, id) else none

/-- The item is there and has a shortcut. -/
def HasShortcut (s : Keys) (id : Nat) : Prop :=
  ∃ item, s.items id = some item ∧ item.enableShortcut = true

/-- The entries of a menu's model with the menus whose models they show. -/
def modelKids (s : Keys) (m : Nat) : Option (List (Nat × Option Nat)) :=
  (s.menus m).map fun menu => menu.model.map fun entry => (entry.item, entry.submenu)

/-- The items of a menu's vector with their submenus; all of them have to be there. -/
def pointerKids (s : Keys) (m : Nat) : Option (List (Nat × Option Nat)) :=
  (s.menus m).bind fun menu =>
    menu.menuItems.mapM fun id => (s.items id).map fun item => (id, item.submenu_)

/-- The item is in the tree of the menu's model. -/
def InTree (s : Keys) (m id : Nat) : Prop := ∃ path, follow s.modelKids m path = some id

/-- The accelerators follow the menus: right after a menu was set the targets are the items with a
shortcut in the tree of its model, once each; right after a window's menu was taken away there are
none; and no target is gone. -/
structure Follows (op : Op) (t : Keys) : Prop where
  alive : t.crashed = false
  set : ∀ window m, op = .setMenu window m →
    (t.targets window).Nodup ∧ ∀ id, id ∈ t.targets window ↔ t.HasShortcut id ∧ t.InTree m id
  cleared : ∀ window, op = .clearMenu window → t.targets window = []
  live : ∀ window, ∀ id ∈ t.targets window, (t.items id).isSome

/-- An entry that keys hang on: its item has a shortcut, or it shows a submenu. -/
def Carries (s : Keys) : Nat × Option Nat → Bool := Matters fun id => (s.keyOf id).isSome

/-- The menus of a process, and what was set on its windows: the items that had a shortcut and were
in the tree of a menu's model when the menu was set. -/
structure Observed where
  keys : Keys := {}
  shown : Nat → Set Nat := fun _ => ∅

namespace Observed

/-- One operation, with a look at the model that is set. -/
def Step (addSeparator : List Entry → Bool) (o : Observed) (op : Op) (o' : Observed) : Prop :=
  o.keys.Step addSeparator op o'.keys ∧
    o'.shown = match op with
      | .setMenu window m => Function.update o.shown window
          (o.shown window ∪ {id | o.keys.HasShortcut id ∧ o.keys.InTree m id})
      | _ => o.shown

/-- `Insert` and `Remove` are for entries that no key hangs on, as they leave `menu_items_` alone,
and a submenu is not changed once its item is in a `menu_items_`, as the models keep the old one. A
menu is set where the pointers from it end and lead to nothing that is freed, where each item with a
shortcut has one place in the tree of its model, and on a window that has got no menu with a
shortcut so far; only from such a window a menu is taken away. An item that was shown with a
shortcut is not destroyed. -/
def StepOk (o : Observed) : Op → Prop
  | .insert _ id _ => ∀ item ∈ o.keys.items id, o.keys.Carries (id, item.submenu_) = false
  | .remove m _ pos => ∀ menu ∈ o.keys.menus m, 0 ≤ pos → ∀ entry ∈ menu.model[pos.toNat]?,
      o.keys.Carries (entry.item, entry.submenu) = false
  | .setSubmenu id submenu => ∀ item ∈ o.keys.items id,
      item.submenu_ = submenu ∨ ∀ m, ∀ menu ∈ o.keys.menus m, id ∉ menu.menuItems
  | .setMenu window m => (o.keys.menus m).isSome →
      Finite o.keys.pointerKids m ∧
      (∀ id, o.keys.HasShortcut id → ∀ path path', follow o.keys.modelKids m path = some id →
        follow o.keys.modelKids m path' = some id → path = path') ∧
      o.shown window = ∅
  | .clearMenu window => o.shown window = ∅
  | .destroyItem id => ∀ window, id ∉ o.shown window
  | _ => True

end Observed

end Keys

end NodeWebkit.Menus
