import Mathlib.Data.List.InsertIdx
import NodeWebkit.Menus.MenuGraph

/-!
# The items of the page and the entries of the native model

`append`, `insert` and `removeAt` of a menu change an array of the page with `push` and `splice`,
and then call the native side with the same arguments. The two read the position in their own ways.

* **`Mirrored`** — the entries of a menu were made for its items, in their order;
* **`MirrorOk`** — the condition on a call: the position that the native side reads is the one where
  `splice` starts, and the item to remove is there.

A menu that is mirrored stays so through one call under the condition, and what happens to other
menus, items and submenus in between does not matter. `mirrors_equal` is the statement about runs.
-/

namespace NodeWebkit.Menus

open JsArray Lts

/-- The native model holds the items of the array, in order. -/
def Menu.Mirrored (menu : Menu) : Prop :=
  menu.model.map Entry.item = menu.items

theorem Menu.Mirrored.length_eq {menu : Menu} (h : menu.Mirrored) :
    menu.model.length = menu.items.length := by
  rw [← h, List.length_map]

section Model

variable {getInteger : Int → Option Int} {addSeparator : List Entry → Bool}

/-! ## One call -/

/-- `append` puts the item and its entry at the end. A separator may be refused by the native side,
which the condition rules out. -/
theorem Menu.Mirrored.append {menu : Menu} (h : menu.Mirrored) {id : Nat} {item : MenuItem}
    (hok : item.entryType = .separator → addSeparator menu.model = true) :
    (menu.append addSeparator id item).Mirrored := by
  have hadded : ¬((item.entry id).type = .separator ∧ addSeparator menu.model = false) := by
    rintro ⟨htype, hfalse⟩
    rw [hok htype] at hfalse
    cases hfalse
  show (addEntry addSeparator menu.model (item.entry id)).map Entry.item = menu.items ++ [id]
  rw [addEntry, if_neg hadded, List.map_append, show menu.model.map Entry.item = menu.items from h]
  rfl

/-- The native side inserts where `splice` does: the position is one of the model. -/
theorem Menu.Mirrored.insert {menu : Menu} (h : menu.Mirrored) {id : Nat} {item : MenuItem}
    {i : Int} (hok : readPos getInteger i = spliceStart i menu.items.length) :
    (menu.insert getInteger id item i).Mirrored := by
  have hle := spliceStart_le i menu.items.length
  have haccepted : 0 ≤ readPos getInteger i ∧ readPos getInteger i ≤ menu.model.length := by
    rw [hok, h.length_eq]
    omega
  show (insertEntryAt menu.model (item.entry id) (readPos getInteger i)).map Entry.item =
    menu.items.insertIdx (spliceStart i menu.items.length) id
  rw [insertEntryAt, if_pos haccepted, hok, Int.toNat_natCast, List.map_insertIdx,
    show menu.model.map Entry.item = menu.items from h]
  rfl

/-- Both sides remove the same position: the native side reads the position as the page has it, and
there is an item there. -/
theorem Menu.Mirrored.removeIndex {menu : Menu} (h : menu.Mirrored) {k : Nat}
    (hk : k < menu.items.length) (hok : readPos getInteger k = k) :
    (menu.removeIndex getInteger k).Mirrored := by
  have haccepted : (0 : Int) ≤ k ∧ (k : Int) < menu.model.length := by
    rw [h.length_eq]
    omega
  show (removeItemAt menu.model (readPos getInteger k)).map Entry.item =
    menu.items.eraseIdx (spliceStart k menu.items.length)
  rw [spliceStart_natCast (by omega), hok, removeItemAt, if_pos haccepted, Int.toNat_natCast,
    ← List.eraseIdx_map, show menu.model.map Entry.item = menu.items from h]

/-- A menu without items has nothing to remove on either side, whatever position is read. -/
theorem Menu.Mirrored.removeIndex_empty {menu : Menu} (h : menu.Mirrored) (hempty : menu.items = [])
    (i : Int) : menu.removeIndex getInteger i = menu := by
  obtain ⟨items, model⟩ := menu
  subst hempty
  have hmodel : model = [] := List.map_eq_nil_iff.mp h
  subst hmodel
  have hrejected : ¬(0 ≤ readPos getInteger i ∧ readPos getInteger i < (0 : Nat)) := by omega
  simp only [Menu.removeIndex, spliceDelete, List.eraseIdx_nil, removeItemAt, List.length_nil,
    if_neg hrejected]

namespace World

/-- The condition on a call, on the menu before it: `AddSeparator` adds the separator that is
appended; the index of `insert` is read as the position where `splice` starts; the item to remove is
in the menu, at an index that is read as it is, unless the menu is empty. -/
def MirrorOk (getInteger : Int → Option Int) (addSeparator : List Entry → Bool) (w : World) :
    Op → Prop
  | .append m id => ∀ obj ∈ w.objectsRegistry.lookup m, ∀ item ∈ w.menuItems[id]?,
      item.entryType = .separator → addSeparator obj.object.model = true
  | .insert m _ i => ∀ obj ∈ w.objectsRegistry.lookup m,
      readPos getInteger i = spliceStart i obj.object.items.length
  | .remove m id => ∀ obj ∈ w.objectsRegistry.lookup m,
      id ∈ obj.object.items ∧
        readPos getInteger (indexOf obj.object.items id) = indexOf obj.object.items id ∨
      obj.object.items = []
  | .removeAt m i => ∀ obj ∈ w.objectsRegistry.lookup m, (get? obj.object.items i).isSome →
      readPos getInteger i = i
  | _ => True

instance (getInteger : Int → Option Int) (addSeparator : List Entry → Bool) (w : World) :
    DecidablePred (w.MirrorOk getInteger addSeparator)
  | .append m id => inferInstanceAs (Decidable (∀ obj ∈ w.objectsRegistry.lookup m,
      ∀ item ∈ w.menuItems[id]?, item.entryType = .separator →
        addSeparator obj.object.model = true))
  | .insert m _ i => inferInstanceAs (Decidable (∀ obj ∈ w.objectsRegistry.lookup m,
      readPos getInteger i = spliceStart i obj.object.items.length))
  | .remove m id => inferInstanceAs (Decidable (∀ obj ∈ w.objectsRegistry.lookup m,
      id ∈ obj.object.items ∧
        readPos getInteger (indexOf obj.object.items id) = indexOf obj.object.items id ∨
      obj.object.items = []))
  | .removeAt m i => inferInstanceAs (Decidable (∀ obj ∈ w.objectsRegistry.lookup m,
      (get? obj.object.items i).isSome → readPos getInteger i = i))
  | .newMenu | .newMenuItem _ _ | .setSubmenu _ _ | .readSubmenu _ | .release _ | .destroy _
  | .popupBegin _ | .popupEnd _ => inferInstanceAs (Decidable True)

/-- Every registered menu is mirrored. -/
def AllMirrored (w : World) : Prop :=
  ∀ m, ∀ obj ∈ w.objectsRegistry.lookup m, obj.object.Mirrored

/-! ## All menus -/

/-- A call on one menu that keeps it mirrored; the other menus are not touched. -/
theorem AllMirrored.updateMenu {w : World} (h : w.AllMirrored) {m : Nat} {f : Menu → Menu}
    (hf : ∀ obj ∈ w.objectsRegistry.lookup m, (f obj.object).Mirrored) :
    (w.updateMenu m f).AllMirrored := by
  intro k obj hobj
  rw [World.updateMenu, Registry.lookup_modify] at hobj
  split at hobj
  · obtain ⟨old, hold, hnew⟩ := Option.bind_eq_some_iff.mp hobj
    cases hnew
    exact hf old hold
  · exact h k obj hobj

/-- A call on a menu is about this menu only, whose items and entries the method keeps alike. -/
theorem AllMirrored.callMenu {w w' : World} (h : w.AllMirrored) {m id : Nat}
    {menu_ : Option Nat} {f : MenuItem → Menu → Menu}
    (hf : ∀ item ∈ w.menuItems[id]?, ∀ obj ∈ w.objectsRegistry.lookup m,
      (f item obj.object).Mirrored)
    (hstep : w.callMenu m id menu_ f = some w') : w'.AllMirrored := by
  obtain ⟨-, item, hitem, rfl⟩ := World.callMenu_spec hstep
  exact h.updateMenu (hf item hitem)

/-- The registry loses menus, or changes what it notes about one. The menus that are still
registered are the ones that were. -/
theorem AllMirrored.registry {w : World} (h : w.AllMirrored) {r : Registry Menu}
    (hr : w.objectsRegistry.Keeps r) :
    AllMirrored { w with objectsRegistry := r } := by
  intro m obj hobj
  obtain ⟨old, hold, heq⟩ := hr m obj hobj
  rw [heq]
  exact h m old hold

/-- **Every call under `MirrorOk` keeps the menus mirrored.** The calls on a menu have their lemma
above; the others change no items and no entries. -/
theorem AllMirrored.step {w w' : World} {op : Op} (h : w.AllMirrored)
    (hok : w.MirrorOk getInteger addSeparator op)
    (hstep : w.step getInteger addSeparator op = some w') : w'.AllMirrored := by
  cases op with
  | append m id =>
    apply h.callMenu _ hstep
    intro item hitem obj hobj
    exact (h m obj hobj).append (hok obj hobj item hitem)
  | insert m id i =>
    apply h.callMenu _ hstep
    intro item hitem obj hobj
    exact (h m obj hobj).insert (hok obj hobj)
  | remove m id =>
    apply h.callMenu _ hstep
    intro item hitem obj hobj
    show (obj.object.removeIndex getInteger (indexOf obj.object.items id)).Mirrored
    -- an item that is absent is harmless only where there is nothing to take
    rcases hok obj hobj with ⟨hmem, hread⟩ | hempty
    · obtain ⟨k, hk, hlt⟩ := indexOf_of_mem hmem
      rw [hk] at hread ⊢
      exact (h m obj hobj).removeIndex hlt hread
    · rw [(h m obj hobj).removeIndex_empty hempty]
      exact h m obj hobj
  | removeAt m i =>
    obtain ⟨obj, hobj, rfl | ⟨id, hget, rfl⟩⟩ := World.removeAt_spec hstep
    · exact h
    · -- the array has an item there, so the index is a position
      obtain ⟨k, rfl, hlt⟩ := get?_eq_some hget
      show (w.updateMenu m (·.removeIndex getInteger k)).AllMirrored
      apply h.updateMenu
      intro obj' hobj'
      rw [hobj] at hobj'
      cases hobj'
      exact (h m obj hobj).removeIndex hlt (hok obj hobj (by rw [hget]; rfl))
  | newMenu =>
    cases hstep
    intro m obj hobj
    rw [World.hold, Registry.lookup_add] at hobj
    split at hobj
    · cases hobj
      rfl
    · exact h m obj hobj
  | newMenuItem type submenu =>
    obtain ⟨-, _, -, rfl⟩ := World.newMenuItem_spec hstep
    exact h
  | setSubmenu id val =>
    obtain ⟨-, rfl⟩ := World.setSubmenu_spec hstep
    exact h
  | readSubmenu id =>
    obtain ⟨item, -, hstep⟩ := Option.bind_eq_some_iff.mp hstep
    obtain ⟨m, -, rfl⟩ := Option.map_eq_some_iff.mp hstep
    exact h
  | release m =>
    cases hstep
    exact h
  | destroy m =>
    obtain ⟨-, rfl⟩ := World.destroy_spec hstep
    exact h.registry (Registry.keeps_onDeallocateObject _ m)
  | popupBegin m =>
    obtain ⟨-, hstep⟩ := Option.ite_none_right_eq_some.mp hstep
    cases hstep
    exact h.registry (Registry.keeps_popupBegin _ m)
  | popupEnd m =>
    obtain rfl := World.popupEnd_spec hstep
    exact h.registry (Registry.keeps_popupEnd _ m)

end World

end Model

/-- A 32-bit index is read as the position where `splice` starts exactly when it is neither negative
nor past the end. -/
theorem readPos_int32_iff {i : Int} (hi : -2 ^ 31 ≤ i ∧ i < 2 ^ 31) (length : Nat) :
    readPos int32 i = spliceStart i length ↔ 0 ≤ i ∧ i ≤ length := by
  rw [← spliceStart_eq_iff, readPos, int32, if_pos hi]
  exact eq_comm

namespace World

/-- **The two sides of every menu stay equal.** In every run whose calls meet `MirrorOk`, with any
other steps of the page in between, every registered menu is mirrored in every state reached. -/
theorem mirrors_equal {getInteger : Int → Option Int} {addSeparator : List Entry → Bool}
    {ops : List Op} {w : World}
    (hrun : Run (Guarded (MirrorOk getInteger addSeparator)
      (ofPartial (step getInteger addSeparator))) {} ops w) :
    w.AllMirrored := by
  apply hrun.invariant (I := AllMirrored)
  · exact fun _ _ _ h hst => h.step hst.1 hst.2
  · intro m obj hobj
    cases hobj

/-- A menu with three items, one of them twice, from which one is removed and one is taken out by
its index; a separator goes in between. -/
def edited : List Op :=
  [.newMenu, .newMenuItem .normal none, .newMenuItem .checkbox none, .newMenuItem .separator none,
    .append 0 0, .insert 0 1 0, .append 0 2, .append 0 0, .remove 0 0, .removeAt 0 7,
    .removeAt 0 1]

/-- Of the items that were put in two are left, and the native model has their entries in the page's
order. -/
theorem mirrors_equal_edited :
    ∃ w, exec (MirrorOk int32 separates) (step int32 separates) edited {} = some w ∧
      w.AllMirrored ∧ (w.objectsRegistry.lookup 0).map (·.object.items) = some [1, 0] := by
  obtain ⟨w, hw, hitems⟩ : ∃ w,
      exec (MirrorOk int32 separates) (step int32 separates) edited {} = some w ∧
        (w.objectsRegistry.lookup 0).map (·.object.items) = some [1, 0] := by
    refine ⟨_, rfl, ?_⟩
    decide
  exact ⟨w, hw, mirrors_equal (Run.of_exec hw), hitems⟩

/-- One item is in the menu, another one is removed. -/
def removedAbsent : List Op :=
  [.newMenu, .newMenuItem .normal none, .newMenuItem .normal none, .append 0 0, .remove 0 1]

/-- The item is not in the menu: `splice(-1, 1)` takes the last item of the array, the native side
takes none. -/
theorem removedAbsent_not_mirrored :
    ¬ ∀ (ops : List Op) (w : World), Run (ofPartial (step int32 separates)) {} ops w →
      w.AllMirrored := by
  intro hall
  obtain ⟨w, hw, hobj⟩ : ∃ w,
      exec (fun _ _ => True) (step int32 separates) removedAbsent {} = some w ∧
        w.objectsRegistry.lookup 0 = some { object := ⟨[], [⟨0, .command, none⟩]⟩ } := by
    refine ⟨_, rfl, ?_⟩
    decide
  have hmirrored := hall removedAbsent w (Run.of_exec hw).unguard 0 _ hobj
  cases hmirrored

end World

end NodeWebkit.Menus
