import Mathlib.Algebra.Group.Int.Defs
import Mathlib.Data.Finset.Insert
import Mathlib.Data.Finset.Erase
import NodeWebkit.Lib.JsArray
import NodeWebkit.Lib.Run
import NodeWebkit.Menus.Registry

/-!
# Menus and menu items

A `Menu` of the page keeps its `items` in an array and has a native `Menu` whose `menu_model_` holds
one entry for each of them. A `MenuItem` keeps its `submenu`; its native object has pointers to the
menu it was last put into and to its submenu, and the entries made for it copy the latter.

* `getInteger` — what `base::ListValue::GetInteger` reads from a number the page passes; where it
  reads nothing the caller's zero stays;
* `addSeparator` — whether `ui::SimpleMenuModel::AddSeparator` adds one to these entries.

Both are not part of this repository. The page collects a menu that it does not reach any more;
items it never loses, since `menuItems.objs` has them all.
-/

namespace NodeWebkit.Menus

open JsArray

/-- `option.type` of a `MenuItem`. -/
inductive ItemType where
  | normal | checkbox | separator
  deriving DecidableEq

/-- The types of a `ui::SimpleMenuModel` entry. -/
inductive EntryType where
  | command | check | separator | submenu
  deriving DecidableEq

/-- An entry of `menu_model_`: the item it was made for and the menu whose model it shows. -/
structure Entry where
  item : Nat
  type : EntryType
  submenu : Option Nat
  deriving DecidableEq

structure MenuItem where
  type : ItemType
  /-- `privates(this).submenu`. -/
  submenu : Option Nat
  menu_ : Option Nat
  submenu_ : Option Nat
  deriving DecidableEq

/-- The array of the page and the model of the native menu. -/
structure Menu where
  /-- `privates(this).items`. -/
  items : List Nat := []
  /-- `menu_model_`. -/
  model : List Entry := []
  deriving DecidableEq

/-- The type of the entry that `Append` and `Insert` make for an item. -/
def MenuItem.entryType (item : MenuItem) : EntryType :=
  if item.submenu_.isSome then .submenu
  else
    match item.type with
    | .normal => .command
    | .checkbox => .check
    | .separator => .separator

/-- The entry for the item with number `id`. -/
def MenuItem.entry (item : MenuItem) (id : Nat) : Entry :=
  ⟨id, item.entryType, item.submenu_⟩

section Model

variable (getInteger : Int → Option Int) (addSeparator : List Entry → Bool)

/-- `int pos = 0; arguments.GetInteger(1, &pos);`. -/
def readPos (i : Int) : Int := (getInteger i).getD 0

/-- `AddItem`, `AddCheckItem`, `AddSubMenu` and `AddSeparator`. -/
def addEntry (model : List Entry) (entry : Entry) : List Entry :=
  if entry.type = .separator ∧ addSeparator model = false then model else model ++ [entry]

/-- `InsertItemAt` and its siblings; a position outside the model is not accepted. -/
def insertEntryAt (model : List Entry) (entry : Entry) (pos : Int) : List Entry :=
  if 0 ≤ pos ∧ pos ≤ model.length then model.insertIdx pos.toNat entry else model

/-- `RemoveItemAt`; a position outside the model is not accepted. -/
def removeItemAt (model : List Entry) (pos : Int) : List Entry :=
  if 0 ≤ pos ∧ pos < model.length then model.eraseIdx pos.toNat else model

namespace Menu

/-- `Menu.prototype.append` and `Menu::Append`. -/
def append (self : Menu) (id : Nat) (item : MenuItem) : Menu :=
  { items := self.items ++ [id]
    model := addEntry addSeparator self.model (item.entry id) }

/-- `Menu.prototype.insert` and `Menu::Insert`. -/
def insert (self : Menu) (id : Nat) (item : MenuItem) (i : Int) : Menu :=
  { items := spliceInsert self.items i id
    model := insertEntryAt self.model (item.entry id) (readPos getInteger i) }

/-- What `remove` and `removeAt` do with the index they have. -/
def removeIndex (self : Menu) (i : Int) : Menu :=
  { items := spliceDelete self.items i
    model := removeItemAt self.model (readPos getInteger i) }

/-- `Menu.prototype.remove` and `Menu::Remove`. -/
def remove (self : Menu) (id : Nat) : Menu :=
  self.removeIndex getInteger (indexOf self.items id)

end Menu

/-! ## The page and its menus -/

structure World where
  objectsRegistry : Registry Menu := {}
  /-- All items, by number. -/
  menuItems : List MenuItem := []
  /-- The menus the code of the page holds. -/
  roots : Finset Nat := ∅

namespace World

/-- The page reaches the menu: through one of its variables or the `submenu` of an item. -/
def Reachable (w : World) (m : Nat) : Prop :=
  m ∈ w.roots ∨ ∃ item ∈ w.menuItems, item.submenu = some m

instance (w : World) (m : Nat) : Decidable (w.Reachable m) :=
  inferInstanceAs (Decidable (m ∈ w.roots ∨ ∃ item ∈ w.menuItems, item.submenu = some m))

def hold (w : World) (m : Nat) : World :=
  { w with roots := insert m w.roots }

def updateMenu (w : World) (m : Nat) (f : Menu → Menu) : World :=
  { w with
    objectsRegistry := w.objectsRegistry.modify m fun obj =>
      some { obj with object := f obj.object } }

def updateItem (w : World) (id : Nat) (f : MenuItem → MenuItem) : World :=
  { w with menuItems := w.menuItems.modify id f }

/-- `menu_item->menu_ = menu`. -/
def setMenu (w : World) (id : Nat) (menu : Option Nat) : World :=
  w.updateItem id fun item => { item with menu_ := menu }

/-- A method of the menu `m`, which the page has to reach, with the item `id`. -/
def callMenu (w : World) (m id : Nat) (menu_ : Option Nat) (f : MenuItem → Menu → Menu) :
    Option World :=
  if w.Reachable m then
    match w.menuItems[id]? with
    | some item => some ((w.updateMenu m (f item)).setMenu id menu_)
    | none => none
  else none

/-- `Menu.prototype.removeAt`: where the array has no item the call throws at `.id`. -/
def removeAt (w : World) (m : Nat) (i : Int) : Option World :=
  if w.Reachable m then
    (w.objectsRegistry.lookup m).bind fun obj =>
      match get? obj.object.items i with
      | some id => some ((w.updateMenu m (·.removeIndex getInteger i)).setMenu id none)
      | none => some w
  else none

/-- The constructor of a `MenuItem` whose options pass; a separator's are replaced. -/
def newMenuItem (w : World) (type : ItemType) (submenu : Option Nat) : Option World :=
  if ∀ m ∈ submenu, w.Reachable m then
    let submenu := if type = .separator then none else submenu
    some { w with menuItems := w.menuItems ++ [⟨type, submenu, none, submenu⟩] }
  else none

/-- `item.submenu = val`: for null the call throws at `.id`, after the field was set. -/
def setSubmenu (w : World) (id : Nat) (val : Option Nat) : Option World :=
  match val with
  | some m =>
    if w.Reachable m then
      some (w.updateItem id fun item =>
        { item with
          submenu := some m
          submenu_ := some m })
    else none
  | none => some (w.updateItem id fun item => { item with submenu := none })

/-- The finalizer of a menu that the page does not reach. -/
def destroy (w : World) (m : Nat) : Option World :=
  match w.objectsRegistry.lookup m with
  | some obj =>
    if w.Reachable m ∨ obj.pendingDestruction then none
    else some { w with objectsRegistry := w.objectsRegistry.onDeallocateObject m }
  | none => none

/-- The menu that `Popup` shows is closed. -/
def popupEnd (w : World) (m : Nat) : Option World :=
  match w.objectsRegistry.lookup m with
  | some obj =>
    if obj.delayDestruction then
      some { w with objectsRegistry := w.objectsRegistry.popupEnd m }
    else none
  | none => none

inductive Op where
  | newMenu
  | newMenuItem (type : ItemType) (submenu : Option Nat)
  | append (m id : Nat)
  | insert (m id : Nat) (i : Int)
  | remove (m id : Nat)
  | removeAt (m : Nat) (i : Int)
  | setSubmenu (id : Nat) (val : Option Nat)
  /-- The page takes the menu out of `item.submenu`. -/
  | readSubmenu (id : Nat)
  /-- The page drops its last variable with the menu. -/
  | release (m : Nat)
  | destroy (m : Nat)
  | popupBegin (m : Nat)
  | popupEnd (m : Nat)
  deriving DecidableEq

def step (w : World) : Op → Option World
  | .newMenu =>
    some ({ w with objectsRegistry := w.objectsRegistry.add {} }.hold w.objectsRegistry.nextId)
  | .newMenuItem type submenu => w.newMenuItem type submenu
  | .append m id =>
    w.callMenu m id (some m) fun item menu => menu.append addSeparator id item
  | .insert m id i =>
    w.callMenu m id (some m) fun item menu => menu.insert getInteger id item i
  | .remove m id => w.callMenu m id none fun _ menu => menu.remove getInteger id
  | .removeAt m i => w.removeAt getInteger m i
  | .setSubmenu id val => w.setSubmenu id val
  | .readSubmenu id => (w.menuItems[id]?).bind fun item => item.submenu.map w.hold
  | .release m => some { w with roots := w.roots.erase m }
  | .destroy m => w.destroy m
  | .popupBegin m =>
    if w.Reachable m then
      some { w with objectsRegistry := w.objectsRegistry.popupBegin m }
    else none
  | .popupEnd m => w.popupEnd m

/-! ## What a call has done when it returns -/

variable {getInteger} {w w' : World} {m id : Nat}

/-- **A call on a menu with an item.** The page has both in its hands, and the call changes the menu
by what the method does, and the `menu_` of the item. -/
theorem callMenu_spec {menu_ : Option Nat} {f : MenuItem → Menu → Menu}
    (h : w.callMenu m id menu_ f = some w') :
    w.Reachable m ∧ ∃ item, w.menuItems[id]? = some item ∧
      w' = (w.updateMenu m (f item)).setMenu id menu_ := by
  rw [callMenu, Option.ite_none_right_eq_some] at h
  obtain ⟨hreach, h⟩ := h
  refine ⟨hreach, ?_⟩
  split at h
  · rename_i item hitem
    exact ⟨item, hitem, (Option.some.inj h).symm⟩
  · cases h

/-- `removeAt` finds an item at the position and removes it on both sides, or finds none and does
nothing. -/
theorem removeAt_spec {i : Int} (h : w.removeAt getInteger m i = some w') :
    ∃ obj, w.objectsRegistry.lookup m = some obj ∧
      (w' = w ∨ ∃ id, get? obj.object.items i = some id ∧
        w' = (w.updateMenu m (·.removeIndex getInteger i)).setMenu id none) := by
  rw [removeAt, Option.ite_none_right_eq_some] at h
  obtain ⟨obj, hobj, h⟩ := Option.bind_eq_some_iff.mp h.2
  refine ⟨obj, hobj, ?_⟩
  split at h
  · rename_i id hget
    exact .inr ⟨id, hget, (Option.some.inj h).symm⟩
  · exact .inl (Option.some.inj h).symm

/-- A new item has the submenu that the page passes, or none if it is a separator, on both sides. It
is in no menu yet. -/
theorem newMenuItem_spec {type : ItemType} {submenu : Option Nat}
    (h : w.newMenuItem type submenu = some w') :
    (∀ m ∈ submenu, w.Reachable m) ∧
      ∃ sub, (∀ m ∈ sub, m ∈ submenu) ∧
        w' = { w with menuItems := w.menuItems ++ [⟨type, sub, none, sub⟩] } := by
  rw [newMenuItem, Option.ite_none_right_eq_some] at h
  refine ⟨h.1, if type = .separator then none else submenu, ?_, (Option.some.inj h.2).symm⟩
  intro m hm
  split at hm
  · cases hm
  · exact hm

/-- The setter of `submenu`. A menu is set on both sides; null is set in the script only, and the
native pointer stays. -/
theorem setSubmenu_spec {val : Option Nat} (h : w.setSubmenu id val = some w') :
    (∀ m ∈ val, w.Reachable m) ∧
      w' = w.updateItem id fun item =>
        { item with
          submenu := val
          submenu_ := val.or item.submenu_ } := by
  unfold setSubmenu at h
  split at h
  · rw [Option.ite_none_right_eq_some] at h
    refine ⟨?_, (Option.some.inj h.2).symm⟩
    rintro k ⟨⟩
    exact h.1
  · exact ⟨nofun, (Option.some.inj h).symm⟩

/-- The page loses a menu only when nothing reaches it any more; the native side then deletes it, or
notes that it is to be deleted when its popup is over. -/
theorem destroy_spec (h : w.destroy m = some w') :
    ¬ w.Reachable m ∧
      w' = { w with objectsRegistry := w.objectsRegistry.onDeallocateObject m } := by
  unfold destroy at h
  split at h
  · rw [Option.ite_none_left_eq_some, not_or] at h
    exact ⟨h.1.1, (Option.some.inj h.2).symm⟩
  · cases h

/-- The end of a popup deletes the menu if it was told to go meanwhile. -/
theorem popupEnd_spec (h : w.popupEnd m = some w') :
    w' = { w with objectsRegistry := w.objectsRegistry.popupEnd m } := by
  unfold popupEnd at h
  split at h
  · rw [Option.ite_none_right_eq_some] at h
    exact (Option.some.inj h.2).symm
  · cases h

end World

end Model

/-! ## The numbers and the separators of the platform -/

/-- A number that is a 32-bit integer is passed as one; any other number is no integer there. -/
def int32 (i : Int) : Option Int :=
  if -2 ^ 31 ≤ i ∧ i < 2 ^ 31 then some i else none

/-- A separator is not added to an empty model or after another separator. -/
def separates (model : List Entry) : Bool :=
  model.getLast?.any fun entry => entry.type ≠ .separator

end NodeWebkit.Menus
