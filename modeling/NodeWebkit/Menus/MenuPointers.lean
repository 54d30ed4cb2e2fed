import Mathlib.Data.List.InsertIdx
import NodeWebkit.Menus.MenuGraph

/-!
# The pointers between menus and items

An item has a pointer to the menu it was last put into and one to its submenu, and every entry that
was made for it has a copy of the latter. Nothing clears them when a menu is deleted.

* **`NoDangling`** — `menu_` and `submenu_` of the items and the submenu models of the entries
  belong to menus that are registered;
* **`PointerOk`** — the condition on a step;
* **`PointerInv`** — the invariant. The native pointers of an item follow its script field, so the
  page reaches every menu that is somebody's submenu; only `menu_` is not covered by that.

The invariant is kept by pieces. A step changes an item (`PointerInv.setMenu`), the model of a menu
(`PointerInv.updateMenu`), the registry (`PointerInv.registry`) or what the page holds
(`PointerInv.hold`), and each call of the page is made of these. `no_dangling` is the statement
about runs.
-/

namespace NodeWebkit.Menus

open JsArray Lts

namespace World

/-- The menu is in `objects_registry_`. -/
def Live (w : World) (m : Nat) : Prop :=
  ∃ obj, w.objectsRegistry.lookup m = some obj

/-- Every native pointer to a menu belongs to one that is registered. -/
structure NoDangling (w : World) : Prop where
  menu_ : ∀ item ∈ w.menuItems, ∀ m ∈ item.menu_, w.Live m
  submenu_ : ∀ item ∈ w.menuItems, ∀ m ∈ item.submenu_, w.Live m
  entries : ∀ k, ∀ obj ∈ w.objectsRegistry.lookup k, ∀ entry ∈ obj.object.model,
    ∀ m ∈ entry.submenu, w.Live m

/-- The condition on a step, on the state before it: a submenu is set to null only where the native
item has none; it is replaced only while no entry of the item shows another menu; a menu is taken
out of the registry only when no item was last put into it. -/
def PointerOk (w : World) : Op → Prop
  | .setSubmenu id none => ∀ item ∈ w.menuItems[id]?, item.submenu_ = none
  | .setSubmenu id (some m) => ∀ slot ∈ w.objectsRegistry.slots, ∀ obj ∈ slot,
      ∀ entry ∈ obj.object.model, entry.item = id → ∀ shown ∈ entry.submenu, shown = m
  | .destroy m => ∀ obj ∈ w.objectsRegistry.lookup m, obj.delayDestruction = false →
      ∀ item ∈ w.menuItems, item.menu_ ≠ some m
  | .popupEnd m => ∀ obj ∈ w.objectsRegistry.lookup m, obj.pendingDestruction = true →
      ∀ item ∈ w.menuItems, item.menu_ ≠ some m
  | _ => True

instance (w : World) : DecidablePred w.PointerOk
  | .setSubmenu id none => inferInstanceAs (Decidable (∀ item ∈ w.menuItems[id]?,
      item.submenu_ = none))
  | .setSubmenu id (some m) => inferInstanceAs (Decidable (∀ slot ∈ w.objectsRegistry.slots,
      ∀ obj ∈ slot, ∀ entry ∈ obj.object.model, entry.item = id →
        ∀ shown ∈ entry.submenu, shown = m))
  | .destroy m => inferInstanceAs (Decidable (∀ obj ∈ w.objectsRegistry.lookup m,
      obj.delayDestruction = false → ∀ item ∈ w.menuItems, item.menu_ ≠ some m))
  | .popupEnd m => inferInstanceAs (Decidable (∀ obj ∈ w.objectsRegistry.lookup m,
      obj.pendingDestruction = true → ∀ item ∈ w.menuItems, item.menu_ ≠ some m))
  | .newMenu | .newMenuItem _ _ | .append _ _ | .insert _ _ _ | .remove _ _ | .removeAt _ _
  | .readSubmenu _ | .release _ | .popupBegin _ => inferInstanceAs (Decidable True)

/-- `privates(this).submenu` of the item with this number. -/
def submenuOf (w : World) (id : Nat) : Option Nat :=
  (w.menuItems[id]?).bind MenuItem.submenu

structure PointerInv (w : World) : Prop where
  menu_ : ∀ item ∈ w.menuItems, ∀ m ∈ item.menu_, w.Live m
  submenu_ : ∀ item ∈ w.menuItems, item.submenu_ = item.submenu
  reachable : w.objectsRegistry.Holds w.Reachable
  entries : ∀ k, ∀ obj ∈ w.objectsRegistry.lookup k, ∀ entry ∈ obj.object.model,
    ∀ m ∈ entry.submenu, w.submenuOf entry.item = some m

/-- A menu is reached from a variable of the page, or because it is the submenu of an item: items
are never lost. -/
theorem reachable_iff {w : World} {m : Nat} :
    w.Reachable m ↔ m ∈ w.roots ∨ ∃ id, w.submenuOf id = some m := by
  apply or_congr_right
  constructor
  · rintro ⟨item, hmem, hsub⟩
    obtain ⟨id, hid⟩ := List.mem_iff_getElem?.mp hmem
    refine ⟨id, ?_⟩
    rw [submenuOf, hid, Option.bind_some, hsub]
  · rintro ⟨id, hid⟩
    obtain ⟨item, hitem, hsub⟩ := Option.bind_eq_some_iff.mp hid
    exact ⟨item, List.mem_of_getElem? hitem, hsub⟩

theorem reachable_of_submenuOf {w : World} {id m : Nat} (h : w.submenuOf id = some m) :
    w.Reachable m :=
  reachable_iff.mpr (Or.inr ⟨id, h⟩)

/-- What the page reaches is registered, as nothing that is reached is collected. -/
theorem PointerInv.live {w : World} (h : w.PointerInv) {m : Nat} (hm : w.Reachable m) :
    w.Live m :=
  h.reachable.covers m hm

/-- The registry covers the menus that items were put into. This is the part that does not follow
from what the page reaches. -/
theorem PointerInv.covers {w : World} (h : w.PointerInv) :
    w.objectsRegistry.Covers fun m => ∃ item ∈ w.menuItems, item.menu_ = some m := by
  rintro m ⟨item, hmem, hm⟩
  exact h.menu_ item hmem m hm

/-- **The invariant is what was asked.** `menu_` is a clause of it, and the submenus of items and
entries are reached. -/
theorem PointerInv.noDangling {w : World} (h : w.PointerInv) : w.NoDangling := by
  refine ⟨h.menu_, ?_, ?_⟩
  · intro item hmem m hm
    rw [h.submenu_ item hmem] at hm
    exact h.live (Or.inr ⟨item, hmem, hm⟩)
  · intro k obj hobj entry hentry m hm
    exact h.live (reachable_of_submenuOf (h.entries k obj hobj entry hentry m hm))

theorem PointerInv.init : PointerInv {} := by
  refine ⟨?_, ?_, ?_, ?_⟩
  · rintro item ⟨⟩
  · rintro item ⟨⟩
  · rintro m (hm | ⟨item, hmem, -⟩)
    · cases hm
    · cases hmem
  · rintro k obj ⟨⟩

/-! ## What the pieces of a step change -/

/-- An item that is changed has the submenu that the change gives it, the others keep theirs. -/
theorem submenuOf_updateItem (w : World) (id k : Nat) (f : MenuItem → MenuItem) :
    (w.updateItem id f).submenuOf k =
      if k = id then (w.menuItems[id]?).bind (fun item => (f item).submenu)
      else w.submenuOf k := by
  unfold submenuOf updateItem
  by_cases hk : k = id
  · subst hk
    rw [if_pos rfl, List.getElem?_modify_eq]
    cases w.menuItems[k]? <;> rfl
  · rw [if_neg hk, List.getElem?_modify_ne _ _ (Ne.symm hk)]

/-- A call on one menu changes neither what is registered nor what is marked. -/
theorem lookup_updateMenu (w : World) (m k : Nat) (f : Menu → Menu) :
    (w.updateMenu m f).objectsRegistry.lookup k =
      (w.objectsRegistry.lookup k).map fun obj =>
        if k = m then { obj with object := f obj.object } else obj := by
  rw [updateMenu, Registry.lookup_modify]
  by_cases hk : k = m
  · subst hk
    simp only [if_true]
    cases w.objectsRegistry.lookup k <;> rfl
  · simp only [hk, if_false, Option.map_id']

/-- `menu_` of an item is set to a registered menu, or to null. The submenus, and with them what the
page reaches, stay as they are. -/
theorem PointerInv.setMenu {w : World} (h : w.PointerInv) (id : Nat) {menu : Option Nat}
    (hmenu : ∀ m ∈ menu, w.Live m) : (w.setMenu id menu).PointerInv := by
  -- no submenu changes
  have hsub : ∀ k, (w.setMenu id menu).submenuOf k = w.submenuOf k := by
    intro k
    rw [World.setMenu, submenuOf_updateItem]
    split
    · rename_i hk
      rw [hk]
      rfl
    · rfl
  refine ⟨?_, ?_, ?_, ?_⟩
  · intro item hmem m hm
    rcases mem_modify hmem with hold | ⟨old, -, -, rfl⟩
    · exact h.menu_ item hold m hm
    · exact hmenu m hm
  · intro item hmem
    rcases mem_modify hmem with hold | ⟨old, hold, -, rfl⟩
    · exact h.submenu_ item hold
    · exact h.submenu_ old hold
  · intro m hm
    apply h.reachable m
    rw [reachable_iff] at hm ⊢
    simp only [hsub] at hm
    exact hm
  · intro k obj hobj entry hentry m hm
    rw [hsub]
    exact h.entries k obj hobj entry hentry m hm

/-- A call on a menu whose new entries were made for items of the page. -/
theorem PointerInv.updateMenu {w : World} (h : w.PointerInv) (m : Nat) {f : Menu → Menu}
    (hf : ∀ menu, ∀ entry ∈ (f menu).model, entry ∈ menu.model ∨
      ∃ (id : Nat) (item : MenuItem), w.menuItems[id]? = some item ∧ entry = item.entry id) :
    (w.updateMenu m f).PointerInv := by
  have hlive : ∀ k, w.Live k → (w.updateMenu m f).Live k := by
    rintro k ⟨obj, hobj⟩
    exact ⟨_, by rw [lookup_updateMenu, hobj]; rfl⟩
  refine ⟨fun item hmem k hk => hlive k (h.menu_ item hmem k hk), h.submenu_, ?_, ?_⟩
  · intro k hk
    obtain ⟨obj, hobj, hpending⟩ := h.reachable k hk
    refine ⟨_, by rw [lookup_updateMenu, hobj]; rfl, ?_⟩
    split <;> exact hpending
  · intro k obj hobj entry hentry s hs
    show w.submenuOf entry.item = some s
    rw [lookup_updateMenu] at hobj
    obtain ⟨old, hold, rfl⟩ := Option.map_eq_some_iff.mp hobj
    split at hentry
    · rcases hf old.object entry hentry with hentry | ⟨id, item, hitem, rfl⟩
      · exact h.entries k old hold entry hentry s hs
      · -- a new entry shows the native submenu, which is the one the page sees
        have hsub : item.submenu = some s := by
          rw [← h.submenu_ item (List.mem_of_getElem? hitem)]
          exact hs
        show w.submenuOf id = some s
        rw [submenuOf, hitem, Option.bind_some, hsub]
    · exact h.entries k old hold entry hentry s hs

/-- The registry changes, and loses no menu that the page reaches or an item was put into. -/
theorem PointerInv.registry {w : World} (h : w.PointerInv) {r : Registry Menu}
    (hkeeps : w.objectsRegistry.Keeps r)
    (hcovers : r.Covers fun m => ∃ item ∈ w.menuItems, item.menu_ = some m)
    (hholds : r.Holds w.Reachable) : PointerInv { w with objectsRegistry := r } := by
  refine ⟨?_, h.submenu_, hholds, ?_⟩
  · intro item hmem m hm
    exact hcovers m ⟨item, hmem, hm⟩
  · intro k obj hobj entry hentry m hm
    obtain ⟨old, hold, heq⟩ := hkeeps k obj hobj
    rw [heq] at hentry
    exact h.entries k old hold entry hentry m hm

/-- The page takes up a menu it reaches, so nothing is reached that was not before. -/
theorem PointerInv.hold {w : World} (h : w.PointerInv) {m : Nat} (hm : w.Reachable m) :
    (w.hold m).PointerInv := by
  refine ⟨h.menu_, h.submenu_, ?_, h.entries⟩
  rintro k (hk | hk)
  · rcases Finset.mem_insert.mp hk with rfl | hk
    · exact h.reachable k hm
    · exact h.reachable k (Or.inl hk)
  · exact h.reachable k (Or.inr hk)

/-! ## The steps -/

/-- A new menu is registered and held by the page, and has no entries. -/
theorem PointerInv.newMenu {w : World} (h : w.PointerInv) :
    PointerInv ({ w with objectsRegistry := w.objectsRegistry.add {} }.hold
      w.objectsRegistry.nextId) := by
  refine ⟨?_, h.submenu_, ?_, ?_⟩
  · intro item hmem m hm
    exact h.covers.add {} m ⟨item, hmem, hm⟩
  · intro k hk
    apply h.reachable.add ({} : Menu) k
    rcases hk with hk | hk
    · exact (Finset.mem_insert.mp hk).imp_right Or.inl
    · exact Or.inr (Or.inr hk)
  · intro k obj hobj entry hentry m hm
    change (w.objectsRegistry.add ({} : Menu)).lookup k = some obj at hobj
    rw [Registry.lookup_add] at hobj
    split at hobj
    · cases hobj
      cases hentry
    · exact h.entries k obj hobj entry hentry m hm

/-- A new item is in no menu, and its submenu is one that the page has in its hands. Entries made
for older items are not touched, as its number is the next one. -/
theorem PointerInv.newMenuItem {w w' : World} (h : w.PointerInv) {type : ItemType}
    {submenu : Option Nat} (hstep : w.newMenuItem type submenu = some w') : w'.PointerInv := by
  obtain ⟨hreach, sub, hsub, rfl⟩ := World.newMenuItem_spec hstep
  refine ⟨?_, ?_, ?_, ?_⟩
  · intro item hmem m hm
    rcases List.mem_append.mp hmem with hmem | hmem
    · exact h.menu_ item hmem m hm
    · -- the new item is in no menu
      rw [List.mem_singleton.mp hmem] at hm
      cases hm
  · intro item hmem
    rcases List.mem_append.mp hmem with hmem | hmem
    · exact h.submenu_ item hmem
    · rw [List.mem_singleton.mp hmem]
  · rintro m (hm | ⟨item, hmem, hm⟩)
    · exact h.reachable m (Or.inl hm)
    · rcases List.mem_append.mp hmem with hmem | hmem
      · exact h.reachable m (Or.inr ⟨item, hmem, hm⟩)
      · rw [List.mem_singleton.mp hmem] at hm
        exact h.reachable m (hreach m (hsub m hm))
  · intro k obj hobj entry hentry m hm
    have hold := h.entries k obj hobj entry hentry m hm
    obtain ⟨item, hitem, -⟩ := Option.bind_eq_some_iff.mp hold
    obtain ⟨hlt, -⟩ := List.getElem?_eq_some_iff.mp hitem
    show (w.menuItems ++ _)[entry.item]?.bind MenuItem.submenu = some m
    rw [List.getElem?_append_left hlt]
    exact hold

/-- `item.submenu = null` for an item that has none. For another one the native pointer would stay
and the page would no longer reach the menu, which is what the condition leaves out. -/
theorem PointerInv.clearSubmenu {w : World} (h : w.PointerInv) {id : Nat}
    (hok : w.PointerOk (.setSubmenu id none)) :
    (w.updateItem id fun item => { item with submenu := none }).PointerInv := by
  -- the item has no submenu on either side, so nothing changes
  have hsub : ∀ k, (w.updateItem id fun item => { item with submenu := none }).submenuOf k =
      w.submenuOf k := by
    intro k
    rw [submenuOf_updateItem]
    split
    · rename_i hk
      rw [hk, submenuOf]
      cases hitem : w.menuItems[id]? with
      | none => rfl
      | some item =>
        show none = item.submenu
        rw [← h.submenu_ item (List.mem_of_getElem? hitem)]
        exact (hok item hitem).symm
    · rfl
  refine ⟨?_, ?_, ?_, ?_⟩
  · intro item hmem m hm
    rcases mem_modify hmem with hold | ⟨old, hold, -, rfl⟩
    · exact h.menu_ item hold m hm
    · exact h.menu_ old hold m hm
  · intro item hmem
    rcases mem_modify hmem with hold | ⟨old, -, hold, rfl⟩
    · exact h.submenu_ item hold
    · exact hok old hold
  · intro m hm
    apply h.reachable m
    rw [reachable_iff] at hm ⊢
    simp only [hsub] at hm
    exact hm
  · intro k obj hobj entry hentry m hm
    rw [hsub]
    exact h.entries k obj hobj entry hentry m hm

/-- An item gets a submenu that the page reaches. Entries that were made for the item have a copy of
the old pointer, and the condition says that there is none that differs. -/
theorem PointerInv.setSubmenu {w w' : World} (h : w.PointerInv) {id : Nat} {val : Option Nat}
    (hok : w.PointerOk (.setSubmenu id val)) (hstep : w.setSubmenu id val = some w') :
    w'.PointerInv := by
  cases val with
  | none =>
    cases hstep
    exact h.clearSubmenu hok
  | some m =>
    obtain ⟨hreach, rfl⟩ := World.setSubmenu_spec hstep
    refine ⟨?_, ?_, ?_, ?_⟩
    · intro item hmem k hk
      rcases mem_modify hmem with hold | ⟨old, hold, -, rfl⟩
      · exact h.menu_ item hold k hk
      · exact h.menu_ old hold k hk
    · intro item hmem
      rcases mem_modify hmem with hold | ⟨old, -, -, rfl⟩
      · exact h.submenu_ item hold
      · rfl
    · intro k hk
      apply h.reachable k
      rcases hk with hk | ⟨item, hmem, hk⟩
      · exact Or.inl hk
      · rcases mem_modify hmem with hold | ⟨old, -, -, rfl⟩
        · exact Or.inr ⟨item, hold, hk⟩
        · exact hreach k hk
    · intro k obj hobj entry hentry s hs
      have hold := h.entries k obj hobj entry hentry s hs
      rw [submenuOf_updateItem]
      split
      · rename_i hid
        -- the entry of the item shows the menu that is set again
        have hslot : w.objectsRegistry.slots[k]? = some (some obj) :=
          Option.join_eq_some_iff.mp hobj
        have hshown := hok _ (List.mem_of_getElem? hslot) obj rfl entry hentry hid s hs
        obtain ⟨item, hitem, -⟩ := Option.bind_eq_some_iff.mp hold
        rw [← hid, hitem, hshown]
        rfl
      · exact hold

/-- A menu that the page does not reach is deleted. The condition says that no item has it as its
`menu_`, unless it is only marked because its popup runs. -/
theorem PointerInv.destroy {w w' : World} (h : w.PointerInv) {m : Nat}
    (hok : w.PointerOk (.destroy m)) (hstep : w.destroy m = some w') : w'.PointerInv := by
  obtain ⟨hunreached, rfl⟩ := World.destroy_spec hstep
  apply h.registry (Registry.keeps_onDeallocateObject _ m)
  · apply h.covers.onDeallocateObject
    -- the menu of an item is only marked
    rintro ⟨item, hmem, hm⟩ obj hobj
    rw [← Bool.not_eq_false]
    exact fun hdelay => hok obj hobj hdelay item hmem hm
  · exact h.reachable.onDeallocateObject hunreached

/-- The end of a popup, with the same condition on a menu that was marked. -/
theorem PointerInv.popupEnd {w w' : World} (h : w.PointerInv) {m : Nat}
    (hok : w.PointerOk (.popupEnd m)) (hstep : w.popupEnd m = some w') : w'.PointerInv := by
  obtain rfl := World.popupEnd_spec hstep
  apply h.registry (Registry.keeps_popupEnd _ m)
  · apply h.covers.popupEnd
    -- a menu that was told to go has no item
    rintro ⟨item, hmem, hm⟩ obj hobj
    rw [← Bool.not_eq_true]
    exact fun hpending => hok obj hobj hpending item hmem hm
  · exact h.reachable.popupEnd m

section Model

variable {getInteger : Int → Option Int} {addSeparator : List Entry → Bool}

/-- The entries after a call are old ones, and the one made for the item. -/
theorem mem_append_model {menu : Menu} {id : Nat} {item : MenuItem} {entry : Entry}
    (h : entry ∈ (menu.append addSeparator id item).model) :
    entry ∈ menu.model ∨ entry = item.entry id := by
  change entry ∈ addEntry addSeparator menu.model (item.entry id) at h
  unfold addEntry at h
  split at h
  · exact Or.inl h
  · rcases List.mem_append.mp h with h | h
    · exact Or.inl h
    · exact Or.inr (List.mem_singleton.mp h)

/-- What is in a model after an `insert` was there or was made for the item. -/
theorem mem_insert_model {menu : Menu} {id : Nat} {item : MenuItem} {i : Int} {entry : Entry}
    (h : entry ∈ (menu.insert getInteger id item i).model) :
    entry ∈ menu.model ∨ entry = item.entry id := by
  change entry ∈ insertEntryAt menu.model (item.entry id) (readPos getInteger i) at h
  unfold insertEntryAt at h
  split at h
  · rename_i hpos
    rcases (List.mem_insertIdx (by omega)).mp h with h | h
    · exact Or.inr h
    · exact Or.inl h
  · exact Or.inl h

theorem mem_removeIndex_model {menu : Menu} {i : Int} {entry : Entry}
    (h : entry ∈ (menu.removeIndex getInteger i).model) : entry ∈ menu.model := by
  change entry ∈ removeItemAt menu.model (readPos getInteger i) at h
  unfold removeItemAt at h
  split at h
  · exact List.mem_of_mem_eraseIdx h
  · exact h

/-- **The calls on a menu with an item**, all in one: the entries of the menu are those it had and
one for the item, and the item is in this menu or in none. -/
theorem PointerInv.callMenu {w w' : World} (h : w.PointerInv) {m id : Nat} {menu_ : Option Nat}
    {f : MenuItem → Menu → Menu} (hmenu : ∀ k ∈ menu_, k = m)
    (hf : ∀ item menu, ∀ entry ∈ (f item menu).model, entry ∈ menu.model ∨ entry = item.entry id)
    (hstep : w.callMenu m id menu_ f = some w') : w'.PointerInv := by
  obtain ⟨hreach, item, hitem, rfl⟩ := World.callMenu_spec hstep
  have hupdated : (w.updateMenu m (f item)).PointerInv := by
    apply h.updateMenu
    intro menu entry hentry
    exact (hf item menu entry hentry).imp_right fun heq => ⟨id, item, hitem, heq⟩
  apply hupdated.setMenu
  intro k hk
  rw [hmenu k hk]
  exact hupdated.live hreach

/-- **Every step under `PointerOk` keeps the invariant.** One case for each call of the page, all
but the last two of which change what they were given only. -/
theorem PointerInv.step {w w' : World} {op : Op} (h : w.PointerInv) (hok : w.PointerOk op)
    (hstep : w.step getInteger addSeparator op = some w') : w'.PointerInv := by
  cases op with
  | newMenu =>
    cases hstep
    exact h.newMenu
  | newMenuItem type submenu => exact h.newMenuItem hstep
  | append m id =>
    apply h.callMenu (fun k hk => (Option.some.inj hk).symm) _ hstep
    exact fun item menu entry hentry => mem_append_model hentry
  | insert m id i =>
    apply h.callMenu (fun k hk => (Option.some.inj hk).symm) _ hstep
    exact fun item menu entry hentry => mem_insert_model hentry
  | remove m id =>
    apply h.callMenu (by rintro k ⟨⟩) _ hstep
    exact fun item menu entry hentry => Or.inl (mem_removeIndex_model hentry)
  | removeAt m i =>
    obtain ⟨obj, -, rfl | ⟨id, -, rfl⟩⟩ := World.removeAt_spec hstep
    · exact h
    · apply (h.updateMenu m _).setMenu
      · rintro k ⟨⟩
      · exact fun menu entry hentry => Or.inl (mem_removeIndex_model hentry)
  | setSubmenu id val => exact h.setSubmenu hok hstep
  | readSubmenu id =>
    obtain ⟨item, hitem, hstep⟩ := Option.bind_eq_some_iff.mp hstep
    obtain ⟨m, hm, rfl⟩ := Option.map_eq_some_iff.mp hstep
    exact h.hold (Or.inr ⟨item, List.mem_of_getElem? hitem, hm⟩)
  | release m =>
    cases hstep
    refine ⟨h.menu_, h.submenu_, ?_, h.entries⟩
    -- less is reached
    rintro k (hk | hk)
    · exact h.reachable k (Or.inl (Finset.mem_of_mem_erase hk))
    · exact h.reachable k (Or.inr hk)
  | destroy m => exact h.destroy hok hstep
  | popupBegin m =>
    obtain ⟨-, hstep⟩ := Option.ite_none_right_eq_some.mp hstep
    cases hstep
    exact h.registry (Registry.keeps_popupBegin _ m) (h.covers.popupBegin m)
      (h.reachable.popupBegin m)
  | popupEnd m => exact h.popupEnd hok hstep

/-- **No pointer between menus and items dangles.** In every run whose steps meet `PointerOk` every
native pointer to a menu belongs to a registered one, in every state reached. -/
theorem no_dangling {ops : List Op} {w : World}
    (hrun : Run (Guarded PointerOk (ofPartial (step getInteger addSeparator))) {} ops w) :
    w.NoDangling := by
  have hinv : w.PointerInv :=
    hrun.invariant (fun _ _ _ h hst => h.step hst.1 hst.2) PointerInv.init
  exact hinv.noDangling

end Model

/-- A submenu that is set before and after its item is appended, and a menu that is emptied and
collected while it is open. -/
def collected : List Op :=
  [.newMenu, .newMenu, .newMenuItem .normal (some 1), .newMenuItem .checkbox none, .append 0 0,
    .insert 0 1 0, .setSubmenu 1 (some 1), .release 1, .readSubmenu 0, .release 1, .remove 0 0,
    .removeAt 0 0, .popupBegin 0, .release 0, .destroy 0, .popupEnd 0]

/-- The menu that was emptied is collected when its popup is over, and nothing points to it; the
menu that is the submenu of an item is still there. -/
theorem no_dangling_collected :
    ∃ w, exec PointerOk (step int32 separates) collected {} = some w ∧ w.NoDangling ∧
      w.objectsRegistry.lookup 0 = none ∧ w.submenuOf 1 = some 1 := by
  obtain ⟨w, hw, hgone, hsub⟩ : ∃ w,
      exec PointerOk (step int32 separates) collected {} = some w ∧
        w.objectsRegistry.lookup 0 = none ∧ w.submenuOf 1 = some 1 := by
    refine ⟨_, rfl, ?_, ?_⟩ <;> decide
  exact ⟨w, hw, no_dangling (Run.of_exec hw), hgone, hsub⟩

/-- A menu with an item is collected. -/
def collectedWithItem : List Op :=
  [.newMenu, .newMenuItem .normal none, .append 0 0, .release 0, .destroy 0]

/-- The item stays, and so does the `menu_` it has, which points to the menu that was collected with
it. -/
theorem collectedWithItem_dangles :
    ¬ ∀ (ops : List Op) (w : World), Run (ofPartial (step int32 separates)) {} ops w →
      w.NoDangling := by
  intro hall
  obtain ⟨w, hw, hitems, hgone⟩ : ∃ w,
      exec (fun _ _ => True) (step int32 separates) collectedWithItem {} = some w ∧
        w.menuItems = [⟨.normal, none, some 0, none⟩] ∧ w.objectsRegistry.lookup 0 = none := by
    refine ⟨_, rfl, ?_, ?_⟩ <;> decide
  have hnone := hall collectedWithItem w (Run.of_exec hw).unguard
  obtain ⟨obj, hobj⟩ := hnone.menu_ ⟨.normal, none, some 0, none⟩ (by rw [hitems]; simp) 0 rfl
  rw [hgone] at hobj
  cases hobj

end World

end NodeWebkit.Menus
