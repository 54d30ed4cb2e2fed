import NodeWebkit.Menus.KeyUpdates
import NodeWebkit.Lib.Run

/-!
# Key updates on the menus that a page can build

`Menu::UpdateKeys` and `MenuItem::UpdateKeys` call each other along `menu_items_` and `submenu_`,
and nothing stops them at a menu that they are in already. The setters take any menu.

## What is asked

* **`BuildOp`** — what a page does to build menus;
* **`KeysFinish`** — from every menu and item the key updates come to an end;
* **`ClosesNoCycle`** — the condition on a step: a menu is not put below itself.

## How the proof goes

The menus are the nodes of a graph and the pointers from a menu through an item to a submenu are its
edges. **`Linked`** says that no pointer dangles, so the graph is that of the menus that are there;
in it `KeysFinish` is that the walk from each menu is finite (`Linked.keysFinish_iff`). A call adds
at most one kind of edges: `points_append_iff` and `points_setSubmenu_iff` say which. New edges keep
the walks finite exactly where they close no cycle (`allFinite_build_iff`), which is the rule for
one new link of the library on walks.

`key_updates_finish_iff` is the statement about runs.
-/

namespace NodeWebkit.Menus.Keys

open Lts PathWalk

/-- The calls that build menus. The setter of `submenu` always has a menu. -/
inductive BuildOp where
  | newMenu
  | newMenuItem (type : ItemType) (key : Option Accelerator) (submenu : Option Nat)
  | append (m id : Nat)
  | insert (m id : Nat) (pos : Int)
  | remove (m id : Nat) (pos : Int)
  | setSubmenu (id k : Nat)
  deriving DecidableEq

def BuildOp.toOp : BuildOp → Op
  | .newMenu => .newMenu
  | .newMenuItem type key submenu => .newMenuItem type key submenu
  | .append m id => .append m id
  | .insert m id pos => .insert m id pos
  | .remove m id pos => .remove m id pos
  | .setSubmenu id k => .setSubmenu id (some k)

/-- The menus that a call passes as submenus. -/
def BuildOp.submenu : BuildOp → Option Nat
  | .newMenuItem _ _ submenu => submenu
  | .setSubmenu _ k => some k
  | _ => none

/-- One call of the page, which passes menus that are there. -/
def build (addSeparator : List Entry → Bool) (s : Keys) (op : BuildOp) : Option Keys :=
  if ∀ k ∈ op.submenu, (s.menus k).isSome then step addSeparator s 0 op.toOp else none

/-- `MenuItem::UpdateKeys`, for a stack that takes the given number of menus. -/
def updateItemKeys (s : Keys) (depth id : Nat) (table : Table) : Option Table :=
  updateItems s (s.updateKeys depth) [id] table

/-- The key updates come to an end, and go to each item finitely often. -/
structure KeysFinish (s : Keys) : Prop where
  menu : ∀ m, (s.menus m).isSome → ∀ table, ∃ depth table',
    s.updateKeys depth m table = some table'
  item : ∀ id, (s.items id).isSome → ∀ table, ∃ depth table',
    s.updateItemKeys depth id table = some table'
  visits : ∀ m, (s.menus m).isSome → ∀ id, {path | follow s.pointerKids m path = some id}.Finite

/-- An item is put into a menu that its submenu does not lead to, and gets a submenu that does not
lead to a menu with the item. -/
def ClosesNoCycle (s : Keys) : BuildOp → Prop
  | .append m id => ∀ item ∈ s.items id, ∀ k ∈ item.submenu_, ¬ Leads s.pointerKids k m
  | .setSubmenu id k => ∀ m, ∀ menu ∈ s.menus m, id ∈ menu.menuItems → ¬ Leads s.pointerKids k m
  | _ => True

variable {s t : Keys}

/-! ## The graph -/

/-- What the pointers of a page's menus go to is there. -/
structure Linked (s : Keys) : Prop where
  items : ∀ m, ∀ menu ∈ s.menus m, ∀ id ∈ menu.menuItems, (s.items id).isSome
  submenus : ∀ id, ∀ item ∈ s.items id, ∀ k ∈ item.submenu_, (s.menus k).isSome
  menuCount : ∀ m, (s.menus m).isSome → m < s.menuCount
  itemCount : ∀ id, (s.items id).isSome → id < s.itemCount

/-- The entry of an item. -/
def kid (s : Keys) (id : Nat) : Nat × Option Nat := (id, (s.items id).bind Item.submenu_)

/-- The items of a menu that are there are found one by one. -/
theorem mapM_kid {ids : List Nat} (h : ∀ id ∈ ids, (s.items id).isSome) :
    (ids.mapM fun id => (s.items id).map fun item => (id, item.submenu_)) =
      some (ids.map s.kid) := by
  induction ids with
  | nil => rfl
  | cons id ids ih =>
    obtain ⟨item, hitem⟩ := Option.isSome_iff_exists.mp (h id (List.mem_cons_self ..))
    have hrest := ih fun id' hid' => h id' (List.mem_cons_of_mem _ hid')
    rw [List.mapM_cons, hrest, List.map_cons, kid, hitem]
    rfl

/-- Of a menu that is there, what the walk goes through are its items with their submenus. None of
the pointers dangles, so none of the lookups fails. -/
theorem Linked.pointerKids_eq (h : s.Linked) {m : Nat} {menu : NativeMenu}
    (hmenu : s.menus m = some menu) :
    s.pointerKids m = some (menu.menuItems.map s.kid) := by
  rw [pointerKids, hmenu]
  exact mapM_kid (h.items m menu hmenu)

/-- **An edge**: a menu points to another one through an item of its `menu_items_` that has it as
its submenu. -/
theorem Linked.points_iff (h : s.Linked) {m k : Nat} :
    Points s.pointerKids m k ↔ ∃ menu ∈ s.menus m, ∃ id ∈ menu.menuItems,
      ∃ item ∈ s.items id, item.submenu_ = some k := by
  constructor
  · intro ⟨entries, hkids, entry, hentry, hsub⟩
    obtain ⟨menu, hmenu, -⟩ := Option.bind_eq_some_iff.mp hkids
    rw [h.pointerKids_eq hmenu] at hkids
    cases hkids
    obtain ⟨id, hid, rfl⟩ := List.mem_map.mp hentry
    obtain ⟨item, hitem, hsub⟩ := Option.bind_eq_some_iff.mp hsub
    exact ⟨menu, hmenu, id, hid, item, hitem, hsub⟩
  · intro ⟨menu, hmenu, id, hid, item, hitem, hsub⟩
    refine ⟨_, h.pointerKids_eq hmenu, s.kid id, List.mem_map_of_mem hid, ?_⟩
    rw [kid, show s.items id = some item from hitem]
    exact hsub

/-- The keys are updated to an end from all menus exactly when all pointers are finite. -/
theorem Linked.keysFinish_iff (h : s.Linked) :
    s.KeysFinish ↔ ∀ m, (s.menus m).isSome → Finite s.pointerKids m := by
  constructor
  · intro hfinish m hm
    exact (exists_updateKeys_iff m []).mp (hfinish.menu m hm [])
  · intro hfinite
    refine ⟨fun m hm table => (exists_updateKeys_iff m table).mpr (hfinite m hm), ?_,
      fun m hm => (hfinite m hm).ways⟩
    intro id hid table
    obtain ⟨item, hitem⟩ := Option.isSome_iff_exists.mp hid
    cases hsub : item.submenu_ with
    | none =>
      refine ⟨0, if item.enableShortcut then table ++ [(item.accelerator, id)] else table, ?_⟩
      simp only [updateItemKeys, updateItems, hitem, Option.bind_some, hsub]
    | some k =>
      -- the item itself, then the submenu
      obtain ⟨depth, table', htable'⟩ := (exists_updateKeys_iff k
        (if item.enableShortcut then table ++ [(item.accelerator, id)] else table)).mpr
          (hfinite k (h.submenus id item hitem k hsub))
      refine ⟨depth, table', ?_⟩
      simp only [updateItemKeys, updateItems, hitem, Option.bind_some, hsub, htable']

/-! ## What a call changes -/

variable {addSeparator : List Entry → Bool}

/-- A call of the page is a step of the menus whose arguments are menus that are there. -/
theorem build_eq_some {op : BuildOp} (hst : build addSeparator s op = some t) :
    (∀ k ∈ op.submenu, (s.menus k).isSome) ∧ step addSeparator s 0 op.toOp = some t :=
  Option.ite_none_right_eq_some.mp hst

theorem menus_updateMenu (m k : Nat) (menu : NativeMenu) :
    (s.updateMenu m menu).menus k = if k = m then some menu else s.menus k :=
  Function.update_apply ..

theorem Linked.init : ({} : Keys).Linked := by
  constructor
  case items => exact nofun
  case submenus => exact nofun
  case menuCount => exact nofun
  case itemCount => exact nofun

/-- A menu gets items that are there. It may be a new menu, whose number is the next one, so the
count of the menus may go up with it. -/
theorem Linked.updateMenu (h : s.Linked) {m : Nat} {menu' : NativeMenu} {n : Nat} (hm : m < n)
    (hn : s.menuCount ≤ n) (hitems : ∀ id ∈ menu'.menuItems, (s.items id).isSome) :
    ({ s.updateMenu m menu' with menuCount := n } : Keys).Linked where
  items := by
    intro m' menu'' hmenu'' id hid
    rw [Option.mem_def] at hmenu''
    simp only [menus_updateMenu] at hmenu''
    split at hmenu''
    · cases hmenu''
      -- the menu that is updated
      exact hitems id hid
    · exact h.items m' menu'' hmenu'' id hid
  submenus := by
    intro id item hitem k hk
    have hthere := h.submenus id item hitem k hk
    simp only [menus_updateMenu]
    split
    · rfl
    · exact hthere
  menuCount := by
    intro m' hm'
    simp only [menus_updateMenu] at hm'
    split at hm'
    · rename_i heq
      rw [heq]
      exact hm
    · exact Nat.lt_of_lt_of_le (h.menuCount m' hm') hn
  itemCount := h.itemCount

/-- An item is made or gets another submenu, which is there. What other items and menus point to
stays. -/
theorem Linked.updateItem (h : s.Linked) {id n : Nat} {item : Item}
    (hsub : ∀ k ∈ item.submenu_, (s.menus k).isSome) (hid : id < n) (hn : s.itemCount ≤ n) :
    ({ s with items := Function.update s.items id (some item), itemCount := n } : Keys).Linked where
  items := by
    intro m menu hmenu id' hid'
    simp only [Function.update_apply]
    split
    · rfl
    · exact h.items m menu hmenu id' hid'
  submenus := by
    intro id' item' hitem' k hk
    rw [Option.mem_def] at hitem'
    simp only [Function.update_apply] at hitem'
    split at hitem'
    · cases hitem'
      -- the submenu of the item that is updated
      exact hsub k hk
    · exact h.submenus id' item' hitem' k hk
  menuCount := h.menuCount
  itemCount := by
    intro id' hid'
    simp only [Function.update_apply] at hid'
    split at hid'
    · rename_i heq
      rw [heq]
      exact hid
    · exact Nat.lt_of_lt_of_le (h.itemCount id' hid') hn

/-- Every call leaves menus whose pointers go to what is there. Nothing is destroyed while a page
builds its menus, so it is enough that each call puts in only what it was given. -/
theorem Linked.build (h : s.Linked) {op : BuildOp} (hst : build addSeparator s op = some t) :
    t.Linked := by
  obtain ⟨hpasses, hst⟩ := build_eq_some hst
  cases op with
  | newMenu =>
    cases hst
    exact h.updateMenu (Nat.lt_succ_self _) (Nat.le_succ _) nofun
  | newMenuItem type key submenu =>
    cases hst
    refine h.updateItem ?_ (Nat.lt_succ_self _) (Nat.le_succ _)
    -- a separator has no submenu; another item has the one it is given, which exists
    intro k hk
    have hsub : (if type = .separator then (none, none) else (key, submenu)).2 = some k := hk
    split at hsub
    · cases hsub
    · exact hpasses k hsub
  | append m id =>
    obtain ⟨⟨menu, item⟩, hcalled, rfl⟩ := Option.map_eq_some_iff.mp hst
    obtain ⟨hmenu, hitem⟩ := called_eq_some hcalled
    refine h.updateMenu (h.menuCount m (by rw [hmenu]; rfl)) (Nat.le_refl _) ?_
    intro id' hid'
    -- the items that were there, and the one that is appended
    rcases List.mem_append.mp hid' with hold | hnew
    · exact h.items m menu hmenu id' hold
    · rw [List.mem_singleton.mp hnew, hitem]
      rfl
  | insert m id pos =>
    obtain ⟨⟨menu, item⟩, hcalled, rfl⟩ := Option.map_eq_some_iff.mp hst
    obtain ⟨hmenu, -⟩ := called_eq_some hcalled
    exact h.updateMenu (h.menuCount m (by rw [hmenu]; rfl)) (Nat.le_refl _) (h.items m menu hmenu)
  | remove m id pos =>
    obtain ⟨menu, hmenu, hst⟩ := Option.bind_eq_some_iff.mp hst
    obtain ⟨item, -, rfl⟩ := Option.map_eq_some_iff.mp hst
    exact h.updateMenu (h.menuCount m (by rw [hmenu]; rfl)) (Nat.le_refl _) (h.items m menu hmenu)
  | setSubmenu id k =>
    obtain ⟨item, hitem, rfl⟩ := Option.map_eq_some_iff.mp hst
    refine h.updateItem ?_ (h.itemCount id (by rw [hitem]; rfl)) (Nat.le_refl _)
    intro k' hk'
    cases hk'
    exact hpasses k rfl

/-! ## New pointers -/

/-- Finite pointers start at menus that are there: the walk from a menu that is not has no entries
to begin with. -/
theorem isSome_of_finite {m : Nat} (h : Finite s.pointerKids m) : (s.menus m).isSome := by
  obtain ⟨entries, hkids, -⟩ := h
  obtain ⟨menu, hmenu, -⟩ := Option.bind_eq_some_iff.mp hkids
  rw [hmenu]
  rfl

theorem Linked.isSome_pointerKids (h : s.Linked) {m : Nat} (hm : (s.menus m).isSome) :
    (s.pointerKids m).isSome := by
  obtain ⟨menu, hmenu⟩ := Option.isSome_iff_exists.mp hm
  rw [h.pointerKids_eq hmenu]
  rfl

/-- Where the calls add no pointer between menus, the pointers stay finite. The walk from a menu
visits what it visited before, or less. -/
theorem Linked.finite_keep (ht : t.Linked)
    (hmenus : ∀ m, (s.menus m).isSome → (t.menus m).isSome)
    (hpoints : ∀ m k, Points t.pointerKids m k → Points s.pointerKids m k) {n : Nat}
    (hn : Finite s.pointerKids n) : Finite t.pointerKids n :=
  hn.redirect (fun _ hm => ht.isSome_pointerKids (hmenus _ (isSome_of_finite (hn.of_leads hm))))
    fun m k _ hk => Or.inl (hpoints m k hk)

/-- The pointers of a menu that was changed in its model only are the same, because `UpdateKeys`
goes through `menu_items_` and never through the model. -/
theorem pointerKids_updateMenu {m : Nat} {menu menu' : NativeMenu} (hmenu : s.menus m = some menu)
    (hitems : menu'.menuItems = menu.menuItems) :
    (s.updateMenu m menu').pointerKids = s.pointerKids := by
  funext k
  unfold pointerKids
  rw [menus_updateMenu]
  split
  · rename_i heq
    rw [heq, hmenu, Option.bind_some, Option.bind_some, hitems]
    rfl
  · rfl

/-- The item of an `append` adds the pointer to its submenu, from this menu and from no other one.
-/
theorem points_append_iff (ht : t.Linked) (h : s.Linked) {m id : Nat} {menu : NativeMenu}
    {item : Item} {model : List Entry} (hmenu : s.menus m = some menu)
    (hitem : s.items id = some item)
    (heq : t = s.updateMenu m { model := model, menuItems := menu.menuItems ++ [id] })
    (n k : Nat) : Points t.pointerKids n k ↔
      Points s.pointerKids n k ∨ (n = m ∧ item.submenu_ = some k) := by
  rw [ht.points_iff, h.points_iff, heq]
  simp only [menus_updateMenu, Option.mem_def]
  by_cases hn : n = m
  · rw [if_pos hn, hn, hmenu]
    constructor
    · intro ⟨menu', hmenu', id', hid', item', hitem', hsub⟩
      cases hmenu'
      -- an item that was there, or the one that is appended
      rcases List.mem_append.mp hid' with hold | hnew
      · exact Or.inl ⟨menu, rfl, id', hold, item', hitem', hsub⟩
      · rw [List.mem_singleton.mp hnew] at hitem'
        cases hitem.symm.trans hitem'
        exact Or.inr ⟨rfl, hsub⟩
    · rintro (⟨menu', hmenu', id', hid', item', hitem', hsub⟩ | ⟨-, hsub⟩)
      · cases hmenu'
        exact ⟨_, rfl, id', List.mem_append_left _ hid', item', hitem', hsub⟩
      · exact ⟨_, rfl, id, List.mem_append_right _ (List.mem_singleton_self id), item, hitem, hsub⟩
  · rw [if_neg hn]
    exact (or_iff_left fun hand => hn hand.1).symm

/-- The menu has the item in its vector. -/
def HoldsItem (s : Keys) (id m : Nat) : Prop := ∃ menu ∈ s.menus m, id ∈ menu.menuItems

/-- A new submenu replaces what the menus with the item pointed to through it. -/
theorem points_setSubmenu_iff (ht : t.Linked) {id k : Nat} {item : Item}
    (heq : t =
      { s with items := Function.update s.items id (some { item with submenu_ := some k }) })
    (n m : Nat) : Points t.pointerKids n m ↔
      (∃ menu ∈ s.menus n, ∃ id' ∈ menu.menuItems, id' ≠ id ∧
        ∃ item' ∈ s.items id', item'.submenu_ = some m) ∨ (m = k ∧ s.HoldsItem id n) := by
  rw [ht.points_iff, heq]
  simp only [Option.mem_def, Function.update_apply]
  constructor
  · intro ⟨menu, hmenu, id', hid', item', hitem', hsub⟩
    split at hitem'
    · rename_i hid
      cases hitem'
      cases hsub
      exact Or.inr ⟨rfl, menu, hmenu, hid ▸ hid'⟩
    · rename_i hid
      exact Or.inl ⟨menu, hmenu, id', hid', hid, item', hitem', hsub⟩
  · rintro (⟨menu, hmenu, id', hid', hne, item', hitem', hsub⟩ | ⟨rfl, menu, hmenu, hid⟩)
    · exact ⟨menu, hmenu, id', hid', item', by rw [if_neg hne]; exact hitem', hsub⟩
    · exact ⟨menu, hmenu, id, hid, _, if_pos rfl, rfl⟩

/-! ## One call -/

/-- From every menu the pointers are finite. -/
def AllFinite (s : Keys) : Prop := ∀ m, (s.menus m).isSome → Finite s.pointerKids m

/-- A new menu has no items. It points nowhere, nothing points to it, and the walks from the others
are what they were. -/
theorem AllFinite.newMenu (hfinite : s.AllFinite) (ht : t.Linked) (h : s.Linked)
    (heq : t = { s.updateMenu s.menuCount {} with menuCount := s.menuCount + 1 }) :
    t.AllFinite := by
  have hmenus : ∀ m, t.menus m = if m = s.menuCount then some {} else s.menus m := by
    intro m
    rw [heq]
    exact menus_updateMenu ..
  -- the new menu has no items to point through
  have hpoints : ∀ m k, Points t.pointerKids m k → Points s.pointerKids m k := by
    intro m k hpoints
    obtain ⟨menu, hmenu, id, hid, item, hitem, hsub⟩ := ht.points_iff.mp hpoints
    rw [Option.mem_def, hmenus] at hmenu
    split at hmenu
    · cases hmenu
      cases hid
    · rw [heq] at hitem
      exact h.points_iff.mpr ⟨menu, hmenu, id, hid, item, hitem, hsub⟩
  have hkeep : ∀ m, (s.menus m).isSome → (t.menus m).isSome := by
    intro m hm
    rw [hmenus]
    split
    · rfl
    · exact hm
  intro m hm
  rw [hmenus] at hm
  split at hm
  · -- the new menu has no items
    rename_i hnew
    have hempty : t.menus m = some {} := by rw [hmenus, if_pos hnew]
    have hkids : t.pointerKids m = some [] := ht.pointerKids_eq hempty
    exact .intro [] hkids fun entry hentry => absurd hentry List.not_mem_nil
  · exact ht.finite_keep hkeep hpoints (hfinite m hm)

/-- A new item is in no menu, so it adds no pointer between menus, whatever its submenu is. -/
theorem AllFinite.newMenuItem (hfinite : s.AllFinite) (ht : t.Linked) (h : s.Linked)
    {item : Item} (heq : t = { s with
      items := Function.update s.items s.itemCount (some item), itemCount := s.itemCount + 1 }) :
    t.AllFinite := by
  have hpoints : ∀ m k, Points t.pointerKids m k → Points s.pointerKids m k := by
    intro m k hpoints
    obtain ⟨menu, hmenu, id, hid, item', hitem', hsub⟩ := ht.points_iff.mp hpoints
    rw [heq] at hmenu hitem'
    have hlt := h.itemCount id (h.items m menu hmenu id hid)
    simp only [Option.mem_def, Function.update_of_ne (Nat.ne_of_lt hlt)] at hitem'
    exact h.points_iff.mpr ⟨menu, hmenu, id, hid, item', hitem', hsub⟩
  intro m hm
  have hm : (s.menus m).isSome := by
    rw [heq] at hm
    exact hm
  refine ht.finite_keep (fun m hm => ?_) hpoints (hfinite m hm)
  rw [heq]
  exact hm

/-- **`append`** puts the submenu of the item below the menu. The walks stay finite exactly where
the submenu does not lead back to the menu: if it does, its walk comes around to itself; if it does
not, its walk is what it was and is now a part of the walks through the menu. -/
theorem AllFinite.append_iff (hfinite : s.AllFinite) (ht : t.Linked) (h : s.Linked) {m id : Nat}
    {menu : NativeMenu} {item : Item} {model : List Entry} (hmenu : s.menus m = some menu)
    (hitem : s.items id = some item)
    (heq : t = s.updateMenu m { model := model, menuItems := menu.menuItems ++ [id] }) :
    t.AllFinite ↔ ∀ k ∈ item.submenu_, ¬ Leads s.pointerKids k m := by
  have hpoints := points_append_iff ht h hmenu hitem heq
  have hsame : ∀ n, (t.menus n).isSome = (s.menus n).isSome := by
    intro n
    rw [heq, menus_updateMenu]
    split
    · rename_i hn
      rw [hn, hmenu]
      rfl
    · rfl
  have hkids : ∀ n, Finite s.pointerKids n → (t.pointerKids n).isSome := by
    intro n hn
    refine ht.isSome_pointerKids ?_
    rw [hsame]
    exact isSome_of_finite hn
  constructor
  · -- from the submenu back to the menu, and through the new item to the submenu again
    intro hall k hk hleads
    refine not_finite_of_link (· = m) (fun n n' _ hold => ?_) (fun n hn => ?_) rfl hleads
      (hall k ?_)
    · exact (hpoints n n').mpr (Or.inl hold)
    · exact (hpoints n k).mpr (Or.inr ⟨hn, hk⟩)
    · rw [hsame]
      exact h.submenus id item hitem k hk
  · intro hcycle n hn
    rw [hsame] at hn
    cases hsub : item.submenu_ with
    | none =>
      refine ht.finite_keep (fun n hn => by rw [hsame]; exact hn) (fun n n' hnew => ?_)
        (hfinite n hn)
      refine ((hpoints n n').mp hnew).resolve_right fun hand => ?_
      rw [hsub] at hand
      cases hand.2
    | some k =>
      -- the item's submenu does not lead back to the menu
      refine Finite.link (· = m) (hfinite k (h.submenus id item hitem k hsub)) hkids
        (fun n n' hnew => ?_) (fun n hn => ?_) (hfinite n hn)
      · rcases (hpoints n n').mp hnew with hold | ⟨hn, hk⟩
        · exact Or.inl hold
        · rw [hsub] at hk
          exact Or.inr ⟨(Option.some.inj hk).symm, hn⟩
      · rw [hn]
        exact hcycle k hsub

/-- **`SetSubmenu`** puts a menu below every menu that holds the item. The walks stay finite exactly
where the new submenu leads to none of them. -/
theorem AllFinite.setSubmenu_iff (hfinite : s.AllFinite) (ht : t.Linked) (h : s.Linked)
    {id k : Nat} {item : Item} (hitem : s.items id = some item) (hk : (s.menus k).isSome)
    (heq : t =
      { s with items := Function.update s.items id (some { item with submenu_ := some k }) }) :
    t.AllFinite ↔ ∀ m, s.HoldsItem id m → ¬ Leads s.pointerKids k m := by
  have hpoints := points_setSubmenu_iff ht heq
  have hmenus : t.menus = s.menus := by rw [heq]
  -- the menus without this item point where they pointed
  have hold : ∀ n n', ¬ s.HoldsItem id n → Points s.pointerKids n n' →
      Points t.pointerKids n n' := by
    intro n n' hnot hpoint
    obtain ⟨menu, hmenu, id', hid', item', hitem', hsub⟩ := h.points_iff.mp hpoint
    refine (hpoints n n').mpr (Or.inl ⟨menu, hmenu, id', hid', ?_, item', hitem', hsub⟩)
    rintro rfl
    exact hnot ⟨menu, hmenu, hid'⟩
  constructor
  · intro hall m hm hleads
    refine not_finite_of_link _ hold (fun n hn => (hpoints n k).mpr (Or.inr ⟨rfl, hn⟩)) hm hleads
      (hall k ?_)
    rw [hmenus]
    exact hk
  · intro hcycle n hn
    rw [hmenus] at hn
    refine Finite.link _ (hfinite k hk) (fun n hn => ?_) (fun n n' hnew => ?_) hcycle (hfinite n hn)
    · refine ht.isSome_pointerKids ?_
      rw [hmenus]
      exact isSome_of_finite hn
    · rcases (hpoints n n').mp hnew with ⟨menu, hmenu, id', hid', -, item', hitem', hsub⟩ | hlink
      · exact Or.inl (h.points_iff.mpr ⟨menu, hmenu, id', hid', item', hitem', hsub⟩)
      · exact Or.inr hlink

/-- A call that changes a model only. `insert` and `remove` are such calls, which leave
`menu_items_` as it was. -/
theorem AllFinite.updateModel (hfinite : s.AllFinite) {m : Nat} {menu menu' : NativeMenu}
    (hmenu : s.menus m = some menu) (hitems : menu'.menuItems = menu.menuItems) :
    (s.updateMenu m menu').AllFinite := by
  intro n hn
  rw [menus_updateMenu] at hn
  rw [pointerKids_updateMenu hmenu hitems]
  split at hn
  · rename_i heq
    rw [heq]
    exact hfinite m (by rw [hmenu]; rfl)
  · exact hfinite n hn

/-- **One call.** The pointers stay finite exactly where the call closes no cycle. `append` and
`SetSubmenu` are the calls that add pointers, the others keep what is there. -/
theorem allFinite_build_iff (hfinite : s.AllFinite) (h : s.Linked) {op : BuildOp}
    (hst : build addSeparator s op = some t) : t.AllFinite ↔ ClosesNoCycle s op := by
  -- only Append and SetSubmenu add a link between two menus
  have ht := h.build hst
  obtain ⟨hpasses, hst⟩ := build_eq_some hst
  cases op with
  | newMenu => exact iff_of_true (hfinite.newMenu ht h (Option.some.inj hst).symm) trivial
  | newMenuItem type key submenu =>
    exact iff_of_true (hfinite.newMenuItem ht h (Option.some.inj hst).symm) trivial
  | append m id =>
    obtain ⟨⟨menu, item⟩, hcalled, heq⟩ := Option.map_eq_some_iff.mp hst
    obtain ⟨hmenu, hitem⟩ := called_eq_some hcalled
    rw [hfinite.append_iff ht h hmenu hitem heq.symm]
    simp only [ClosesNoCycle, hitem, Option.mem_def, Option.some.injEq, forall_eq']
  | insert m id pos =>
    obtain ⟨⟨menu, item⟩, hcalled, rfl⟩ := Option.map_eq_some_iff.mp hst
    obtain ⟨hmenu, -⟩ := called_eq_some hcalled
    exact iff_of_true (hfinite.updateModel hmenu rfl) trivial
  | remove m id pos =>
    obtain ⟨menu, hmenu, hst⟩ := Option.bind_eq_some_iff.mp hst
    obtain ⟨item, -, rfl⟩ := Option.map_eq_some_iff.mp hst
    exact iff_of_true (hfinite.updateModel hmenu rfl) trivial
  | setSubmenu id k =>
    obtain ⟨item, hitem, heq⟩ := Option.map_eq_some_iff.mp hst
    rw [hfinite.setSubmenu_iff ht h hitem (hpasses k rfl) heq.symm]
    constructor
    · exact fun hall m menu hmenu hid => hall m ⟨menu, hmenu, hid⟩
    · exact fun hall m ⟨menu, hmenu, hid⟩ => hall m menu hmenu hid

/-! ## Whole runs -/

/-- **Key updates finish.** In a run of the calls that build menus the key updates finish from every
menu and item after each call exactly when no call puts a menu below itself. -/
theorem key_updates_finish_iff (addSeparator : List Entry → Bool) (ops : List BuildOp) (s : Keys) :
    Run (Guarded (fun s op => ∀ t, build addSeparator s op = some t → t.KeysFinish)
        (ofPartial (build addSeparator))) {} ops s ↔
      Run (Guarded ClosesNoCycle (ofPartial (build addSeparator))) {} ops s := by
  refine Run.owed_iff (I := fun s => s.Linked ∧ s.AllFinite) ?_ ?_ ?_ ⟨Linked.init, nofun⟩
  · intro s op t ⟨h, hfinite⟩ hok hst
    exact ⟨h.build hst, (allFinite_build_iff hfinite h hst).mpr hok⟩
  · exact fun s ⟨h, hfinite⟩ => h.keysFinish_iff.mpr hfinite
  · intro s op t ⟨h, hfinite⟩ hst hfinish
    exact (allFinite_build_iff hfinite h hst).mp ((h.build hst).keysFinish_iff.mp hfinish)

/-- A menu gets an item, and the item gets the menu as its submenu. -/
def menuInItself : List BuildOp :=
  [.newMenu, .newMenuItem .normal none none, .append 0 0, .setSubmenu 0 0]

/-- No stack is enough for the key updates of a menu that is its own submenu. -/
theorem menuInItself_not_finish : ¬ ∀ (ops : List BuildOp) (s : Keys),
    Run (ofPartial (build separates)) {} ops s → s.KeysFinish := by
  intro hall
  obtain ⟨s, hs, hmenu, hleads⟩ : ∃ s,
      exec (fun _ _ => True) (build separates) menuInItself {} = some s ∧
      (s.menus 0).isSome ∧ s.pointerKids 0 = some [(0, some 0)] := ⟨_, rfl, rfl, rfl⟩
  obtain ⟨depth, table, htable⟩ := (hall _ s (Run.of_exec hs).unguard).menu 0 hmenu []
  have hpoints : Points s.pointerKids 0 0 := ⟨_, hleads, _, List.mem_singleton_self _, rfl⟩
  exact ((exists_updateKeys_iff 0 []).mp ⟨depth, table, htable⟩).not_leads hpoints .refl

end NodeWebkit.Menus.Keys
