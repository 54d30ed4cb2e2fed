import NodeWebkit.Lib.ListEdits
import NodeWebkit.Menus.KeyUpdates

/-!
# The vector and the model of a menu

`UpdateKeys` follows `menu_items_` and `submenu_`, what is shown is `menu_model_`, and no operation
looks at both. This module says in what they agree, and that the operations of a page keep it.

## The agreement

`Agrees` is about the entries that keys hang on (`Carries`): an item with a shortcut, or a submenu.
For every menu whose items are all there, these entries of the model are those of the vector, in the
same order. Plain entries may differ: an inserted one is in the model alone, a removed one in the
vector alone. A menu with an item that is gone is not spoken of: setting it crashes, whatever its
model says.

## How the operations keep it

`Append` adds to both lists at the end (`Agrees.append`); the only entry that it may leave out of a
model is a separator, which has no key. `Insert` and `Remove` change the model alone, so under
`StepOk` they move plain entries (`Agrees.updateModel`). A changed submenu is seen through the
vector alone, so under `StepOk` the item is in none. Items that go or come are no matter of the
models: numbers are not used twice (`Agrees.items`).

**`walk_modelKids`** is what all this is for: `UpdateKeys` registers what a walk through the models
would.
-/

namespace NodeWebkit.Menus.Keys

open PathWalk ListEdits

/-- The vectors and the models agree in the entries that keys hang on. -/
structure Agrees (s : Keys) : Prop where
  menu : ∀ m menu entries, s.menus m = some menu → s.pointerKids m = some entries →
    (menu.model.map fun entry => (entry.item, entry.submenu)).filter s.Carries =
      entries.filter s.Carries
  /-- An item that is in a menu was made. -/
  model : ∀ m menu, s.menus m = some menu → ∀ entry ∈ menu.model, entry.item < s.itemCount
  menuItems : ∀ m menu, s.menus m = some menu → ∀ id ∈ menu.menuItems, id < s.itemCount
  items : ∀ id, (s.items id).isSome → id < s.itemCount
  /-- A separator has no key. -/
  separator : ∀ id item, s.items id = some item → item.type = .separator →
    item.enableShortcut = false

variable {s t : Keys}

theorem Agrees.init : ({} : Keys).Agrees := by
  constructor
  case menu => intro m menu entries hm; cases hm
  case model => intro m menu hm; cases hm
  case menuItems => intro m menu hm; cases hm
  case items => intro id hid; cases hid
  case separator => intro id item hid; cases hid

/-! ## The pointers of a menu -/

/-- The entries of a vector. -/
def kidsOf (s : Keys) (ids : List Nat) : Option (List (Nat × Option Nat)) :=
  ids.mapM fun id => (s.items id).map fun item => (id, item.submenu_)

theorem pointerKids_eq {m : Nat} {menu : NativeMenu} (hm : s.menus m = some menu) :
    s.pointerKids m = s.kidsOf menu.menuItems := by
  rw [pointerKids, hm]
  rfl

theorem kidsOf_nil : s.kidsOf [] = some [] := rfl

/-- The entry of the first item comes before those of the rest, if all of them are there. -/
theorem kidsOf_cons (id : Nat) (ids : List Nat) :
    s.kidsOf (id :: ids) = (s.items id).bind fun item =>
      (s.kidsOf ids).map fun entries => (id, item.submenu_) :: entries := by
  rw [kidsOf, List.mapM_cons]
  cases s.items id with
  | none => rfl
  | some item =>
    show (s.kidsOf ids).bind _ = _
    cases s.kidsOf ids with
    | none => rfl
    | some entries => rfl

/-- The entries are there exactly when the items are, and then they are about the items of the
vector in their order. -/
theorem mem_of_kidsOf {ids : List Nat} {entries : List (Nat × Option Nat)}
    (h : s.kidsOf ids = some entries) :
    entries.map Prod.fst = ids ∧ ∀ id ∈ ids, (s.items id).isSome := by
  induction ids generalizing entries with
  | nil =>
    cases h
    exact ⟨rfl, fun id hid => absurd hid List.not_mem_nil⟩
  | cons id ids ih =>
    rw [kidsOf_cons] at h
    obtain ⟨item, hitem, h⟩ := Option.bind_eq_some_iff.mp h
    obtain ⟨rest, hrest, rfl⟩ := Option.map_eq_some_iff.mp h
    obtain ⟨hfst, hthere⟩ := ih hrest
    rw [List.map_cons, hfst, List.forall_mem_cons, hitem]
    exact ⟨rfl, rfl, hthere⟩

/-- Entries depend on the items of the vector only, and of these only on the submenus. So whatever
happens to other items, or to the keys, is not seen. -/
theorem kidsOf_congr {ids : List Nat}
    (h : ∀ id ∈ ids, (t.items id).map Item.submenu_ = (s.items id).map Item.submenu_) :
    t.kidsOf ids = s.kidsOf ids := by
  induction ids with
  | nil => rfl
  | cons id ids ih =>
    rw [List.forall_mem_cons] at h
    rw [kidsOf_cons, kidsOf_cons, ih h.2]
    have hid := h.1
    cases hs : s.items id with
    | none =>
      rw [hs, Option.map_none, Option.map_eq_none_iff] at hid
      rw [hid]
    | some item =>
      rw [hs] at hid
      obtain ⟨item', hitem', hsub⟩ := Option.map_eq_some_iff.mp hid
      rw [hitem', Option.bind_some, Option.bind_some, hsub]

/-- The entries of a longer vector are those of its two parts, if both are there. -/
theorem kidsOf_append (ids ids' : List Nat) :
    s.kidsOf (ids ++ ids') = (s.kidsOf ids).bind fun entries =>
      (s.kidsOf ids').map fun entries' => entries ++ entries' := by
  induction ids with
  | nil =>
    show s.kidsOf ids' = (s.kidsOf ids').map fun entries' => [] ++ entries'
    simp
  | cons id ids ih =>
    rw [List.cons_append, kidsOf_cons, kidsOf_cons, ih]
    cases s.items id with
    | none => rfl
    | some item =>
      cases s.kidsOf ids with
      | none => rfl
      | some entries =>
        cases s.kidsOf ids' with
        | none => rfl
        | some entries' => rfl

/-! ## The operations -/

variable {addSeparator : List Entry → Bool}

/-- Only one menu is another, and what is in it is there. This is the step lemma of the operations
on a menu: what they put into the vector and the model has to agree, and the rest agrees as before.
-/
theorem Agrees.updateMenu (h : s.Agrees) {m n : Nat} {menu' : NativeMenu}
    (hmenu : ∀ entries, s.kidsOf menu'.menuItems = some entries →
      (menu'.model.map fun entry => (entry.item, entry.submenu)).filter s.Carries =
        entries.filter s.Carries)
    (hmodel : ∀ entry ∈ menu'.model, entry.item < s.itemCount)
    (hitems : ∀ id ∈ menu'.menuItems, id < s.itemCount) :
    ({ s.updateMenu m menu' with menuCount := n } : Keys).Agrees := by
  -- a menu is the new one or one that was there before
  have hget : ∀ m' menu, Function.update s.menus m (some menu') m' = some menu →
      menu = menu' ∨ s.menus m' = some menu := by
    intro m' menu hmenu
    rw [Function.update_apply] at hmenu
    split at hmenu
    · exact Or.inl (Option.some.inj hmenu).symm
    · exact Or.inr hmenu
  constructor
  case menu =>
    intro m' menu entries hm hkids
    rw [pointerKids_eq hm] at hkids
    rcases hget m' menu hm with rfl | hm
    · exact hmenu entries hkids
    · exact h.menu m' menu entries hm ((pointerKids_eq hm).trans hkids)
  case model =>
    intro m' menu hm
    rcases hget m' menu hm with rfl | hm
    · exact hmodel
    · exact h.model m' menu hm
  case menuItems =>
    intro m' menu hm
    rcases hget m' menu hm with rfl | hm
    · exact hitems
    · exact h.menuItems m' menu hm
  case items => exact h.items
  case separator => exact h.separator

theorem carries_eq_false_iff (entry : Nat × Option Nat) :
    s.Carries entry = false ↔ s.keyOf entry.1 = none ∧ entry.2 = none := by
  simp [Carries, Matters]

/-- `Append` adds the same entry to both lists. A separator that the model does not take has no
key. -/
theorem Agrees.append (h : s.Agrees) {m id : Nat} (hst : s.append addSeparator m id = some t) :
    t.Agrees := by
  obtain ⟨⟨menu, item⟩, hcalled, rfl⟩ := Option.map_eq_some_iff.mp hst
  obtain ⟨hm, hitem⟩ := called_eq_some hcalled
  have hid : id < s.itemCount := h.items id (by rw [hitem]; rfl)
  -- the model has its old entries, and the new one unless it is a separator
  have hadd : addEntry addSeparator menu.model (item.entry id) = menu.model ++ [item.entry id] ∨
      (addEntry addSeparator menu.model (item.entry id) = menu.model ∧
        s.Carries (id, item.submenu_) = false) := by
    unfold addEntry
    split
    · rename_i hsep
      refine Or.inr ⟨rfl, (carries_eq_false_iff _).mpr ?_⟩
      -- only a separator is left out, and that has no submenu and no key
      have htype : item.submenu_ = none ∧ item.type = .separator := by
        have hkind := hsep.1
        simp only [Item.entry, MenuItem.entry, MenuItem.entryType] at hkind
        split at hkind
        · cases hkind
        · rename_i hnone
          refine ⟨by simpa using hnone, ?_⟩
          split at hkind
          · cases hkind
          · cases hkind
          · assumption
      refine ⟨?_, htype.1⟩
      rw [keyOf, hitem, Option.bind_some, h.separator id item hitem htype.2]
      rfl
    · exact Or.inl rfl
  refine h.updateMenu ?_ ?_ ?_
  · intro entries hkids
    rw [kidsOf_append] at hkids
    obtain ⟨old, hold, hkids⟩ := Option.bind_eq_some_iff.mp hkids
    obtain ⟨new, hnew, rfl⟩ := Option.map_eq_some_iff.mp hkids
    rw [kidsOf_cons, hitem, Option.bind_some, kidsOf_nil, Option.map_some,
      Option.some.injEq] at hnew
    subst hnew
    have hagree := h.menu m menu old hm ((pointerKids_eq hm).trans hold)
    rw [List.filter_append, ← hagree]
    rcases hadd with heq | ⟨heq, hplain⟩
    · rw [heq, List.map_append, List.filter_append]
      rfl
    · -- the entry that is left out would have been filtered out
      rw [heq, List.filter_cons_of_neg (by rw [hplain]; exact Bool.false_ne_true), List.filter_nil,
        List.append_nil]
  · intro entry hentry
    have hmem : entry ∈ menu.model ++ [item.entry id] := by
      rcases hadd with heq | ⟨heq, -⟩
      · exact heq ▸ hentry
      · exact List.mem_append_left _ (heq ▸ hentry)
    rcases List.mem_append.mp hmem with hold | hnew
    · exact h.model m menu hm entry hold
    · rw [List.mem_singleton.mp hnew]
      exact hid
  · intro id' hid'
    rcases List.mem_append.mp hid' with hold | hnew
    · exact h.menuItems m menu hm id' hold
    · rw [List.mem_singleton.mp hnew]
      exact hid

/-- A model that differs in plain entries only, so that what is left when these are passed over is
the same. -/
theorem Agrees.updateModel (h : s.Agrees) {m : Nat} {menu : NativeMenu} {model : List Entry}
    (hm : s.menus m = some menu)
    (hsame : (model.map fun entry => (entry.item, entry.submenu)).filter s.Carries =
      (menu.model.map fun entry => (entry.item, entry.submenu)).filter s.Carries)
    (hmodel : ∀ entry ∈ model, entry.item < s.itemCount) :
    (s.updateMenu m { menu with model := model }).Agrees := by
  refine h.updateMenu ?_ hmodel (h.menuItems m menu hm)
  intro entries hkids
  rw [hsame]
  exact h.menu m menu entries hm ((pointerKids_eq hm).trans hkids)

/-- **`Insert`** puts an entry into the model and nothing into the vector. Under the condition it is
a plain one, and the entries that carry keys stay in their order. -/
theorem Agrees.insert (h : s.Agrees) {m id : Nat} {pos : Int} (hst : s.insert m id pos = some t)
    (hplain : ∀ item, s.items id = some item → s.Carries (id, item.submenu_) = false) :
    t.Agrees := by
  obtain ⟨⟨menu, item⟩, hcalled, rfl⟩ := Option.map_eq_some_iff.mp hst
  obtain ⟨hm, hitem⟩ := called_eq_some hcalled
  have hplain := hplain item hitem
  refine h.updateModel hm ?_ ?_
  · unfold insertEntryAt
    split
    · rw [List.filter_map, List.filter_map, filter_insertIdx]
      exact hplain
    · rfl
  · intro entry hentry
    unfold insertEntryAt at hentry
    split at hentry
    · rename_i hpos
      rcases (List.mem_insertIdx (by omega)).mp hentry with rfl | hold
      · exact h.items id (by rw [hitem]; rfl)
      · exact h.model m menu hm entry hold
    · exact h.model m menu hm entry hentry

/-- **`Remove`** takes an entry out of the model and nothing out of the vector, a plain one under
the condition. -/
theorem Agrees.remove (h : s.Agrees) {m id : Nat} {pos : Int} (hst : s.remove m id pos = some t)
    (hplain : ∀ menu, s.menus m = some menu → 0 ≤ pos → ∀ entry,
      menu.model[pos.toNat]? = some entry → s.Carries (entry.item, entry.submenu) = false) :
    t.Agrees := by
  obtain ⟨menu, hm, hst⟩ := Option.bind_eq_some_iff.mp hst
  obtain ⟨item, -, rfl⟩ := Option.map_eq_some_iff.mp hst
  have hplain := hplain menu hm
  refine h.updateModel hm ?_ ?_
  · unfold removeItemAt
    split
    · rename_i hpos
      rw [List.filter_map, List.filter_map, filter_eraseIdx]
      exact fun entry hentry => hplain hpos.1 entry hentry
    · rfl
  · intro entry hentry
    unfold removeItemAt at hentry
    split at hentry
    · exact h.model m menu hm entry (List.mem_of_mem_eraseIdx hentry)
    · exact h.model m menu hm entry hentry

/-- Other items. A vector that is there now was there before, and the same keys hang on the entries
of its menu. -/
theorem Agrees.updateItems (h : s.Agrees) (hmenus : t.menus = s.menus)
    (hkids : ∀ m menu entries, s.menus m = some menu →
      t.kidsOf menu.menuItems = some entries →
      s.kidsOf menu.menuItems = some entries ∧
        (∀ entry ∈ entries, t.Carries entry = s.Carries entry) ∧
        ∀ entry ∈ menu.model, t.Carries (entry.item, entry.submenu) =
          s.Carries (entry.item, entry.submenu))
    (hcount : s.itemCount ≤ t.itemCount) (hitems : ∀ id, (t.items id).isSome → id < t.itemCount)
    (hsep : ∀ id item, t.items id = some item → item.type = .separator →
      item.enableShortcut = false) : t.Agrees := by
  constructor
  case menu =>
    intro m menu entries hm hentries
    rw [pointerKids_eq hm] at hentries
    rw [hmenus] at hm
    -- the entries of both trees count as they did before
    obtain ⟨hold, hsame, hmodel⟩ := hkids m menu entries hm hentries
    rw [List.filter_congr hsame, ← h.menu m menu entries hm ((pointerKids_eq hm).trans hold)]
    refine List.filter_congr ?_
    rw [List.forall_mem_map]
    exact hmodel
  case model =>
    intro m menu hm entry hentry
    rw [hmenus] at hm
    exact Nat.lt_of_lt_of_le (h.model m menu hm entry hentry) hcount
  case menuItems =>
    intro m menu hm id hid
    rw [hmenus] at hm
    exact Nat.lt_of_lt_of_le (h.menuItems m menu hm id hid) hcount
  case items => exact hitems
  case separator => exact hsep

/-- Keys hang on an entry by its item's key and by its own submenu. -/
theorem carries_congr {entry : Nat × Option Nat} (h : t.keyOf entry.1 = s.keyOf entry.1) :
    t.Carries entry = s.Carries entry := by
  simp only [Carries, Matters, h]

theorem keyOf_congr {id : Nat} (h : t.items id = s.items id) : t.keyOf id = s.keyOf id := by
  rw [keyOf, keyOf, h]

/-- A new item is in no menu: its number is the next one, and the numbers in vectors and models are
below it. So the entries there carry what they carried. -/
theorem Agrees.newMenuItem (h : s.Agrees) (type : ItemType) (key : Option Accelerator)
    (submenu : Option Nat) : (s.newMenuItem type key submenu).Agrees := by
  have hold : ∀ id, id < s.itemCount → (s.newMenuItem type key submenu).items id = s.items id :=
    fun id hid => Function.update_of_ne (Nat.ne_of_lt hid) ..
  -- a separator has no shortcut, whatever key it is made with
  have hnew : ∀ id item, (s.newMenuItem type key submenu).items id = some item →
      (id = s.itemCount ∧ item.type = type ∧ (type = .separator → item.enableShortcut = false)) ∨
        s.items id = some item := by
    intro id item hitem
    simp only [Keys.newMenuItem, Function.update_apply] at hitem
    split at hitem
    · rename_i hid
      cases hitem
      refine Or.inl ⟨hid, rfl, fun htype => ?_⟩
      rw [if_pos htype]
      rfl
    · exact Or.inr hitem
  refine h.updateItems rfl ?_ (Nat.le_succ _) ?_ ?_
  · intro m menu entries hm hentries
    have hsame : (s.newMenuItem type key submenu).kidsOf menu.menuItems =
        s.kidsOf menu.menuItems :=
      kidsOf_congr fun id hid => by rw [hold id (h.menuItems m menu hm id hid)]
    rw [hsame] at hentries
    refine ⟨hentries, fun entry hentry => carries_congr (keyOf_congr (hold _ ?_)),
      fun entry hentry => carries_congr (keyOf_congr (hold _ (h.model m menu hm entry hentry)))⟩
    refine h.menuItems m menu hm _ ?_
    rw [← (mem_of_kidsOf hentries).1]
    exact List.mem_map_of_mem hentry
  · intro id hid
    obtain ⟨item, hitem⟩ := Option.isSome_iff_exists.mp hid
    rcases hnew id item hitem with ⟨heq, -⟩ | hitem
    · exact heq ▸ Nat.lt_succ_self _
    · exact Nat.lt_succ_of_lt (h.items id (by rw [hitem]; rfl))
  · intro id item hitem htype
    rcases hnew id item hitem with ⟨-, heq, hsep⟩ | hitem
    · exact hsep (heq ▸ htype)
    · exact h.separator id item hitem htype

/-- A submenu is changed where no vector has the item. A vector would follow the new submenu, while
the models keep the entries that were made with the old one. -/
theorem Agrees.setSubmenu (h : s.Agrees) {id : Nat} {submenu : Option Nat}
    (hst : s.setSubmenu id submenu = some t)
    (hfree : ∀ item, s.items id = some item →
      item.submenu_ = submenu ∨ ∀ m menu, s.menus m = some menu → id ∉ menu.menuItems) :
    t.Agrees := by
  obtain ⟨item, hitem, ht⟩ := Option.map_eq_some_iff.mp hst
  have hmenus : t.menus = s.menus := by rw [← ht]
  have hcount : t.itemCount = s.itemCount := by rw [← ht]
  have hget : ∀ i, t.items i =
      if i = id then some { item with submenu_ := submenu } else s.items i := by
    intro i
    rw [← ht]
    exact Function.update_apply ..
  -- the keys of the items stay, the item itself included
  have hkey : ∀ i, t.keyOf i = s.keyOf i := by
    intro i
    rw [keyOf, keyOf, hget]
    split
    · rename_i hi
      rw [hi, hitem]
      rfl
    · rfl
  refine h.updateItems hmenus ?_ hcount.ge ?_ ?_
  · intro m menu entries hm hentries
    refine ⟨?_, fun entry _ => carries_congr (hkey _), fun entry _ => carries_congr (hkey _)⟩
    rw [← hentries]
    refine (kidsOf_congr fun i hi => ?_).symm
    rw [hget]
    split
    · rename_i hid
      rw [hid, hitem]
      rcases hfree item hitem with hsub | hnone
      · rw [Option.map_some, Option.map_some, hsub]
      · exact absurd (hid ▸ hi) (hnone m menu hm)
    · rfl
  · intro i hi
    rw [hcount]
    rw [hget] at hi
    split at hi
    · rename_i hid
      exact h.items i (by rw [hid, hitem]; rfl)
    · exact h.items i hi
  · intro i item' hitem' htype
    rw [hget] at hitem'
    split at hitem'
    · cases hitem'
      exact h.separator id item hitem htype
    · exact h.separator i item' hitem' htype

/-- An item goes. A vector that is still there does not have it, so no key hung on an entry for it
in the model. -/
theorem Agrees.destroyItem (h : s.Agrees) (id : Nat) :
    ({ s with items := Function.update s.items id none } : Keys).Agrees := by
  have hother : ∀ i, i ≠ id →
      ({ s with items := Function.update s.items id none } : Keys).items i = s.items i :=
    fun i hi => Function.update_of_ne hi ..
  refine h.updateItems rfl ?_ (Nat.le_refl _) ?_ ?_
  · intro m menu entries hm hentries
    obtain ⟨hfst, hthere⟩ := mem_of_kidsOf hentries
    have hnot : id ∉ menu.menuItems := by
      intro hid
      have hsome := hthere id hid
      simp only [Function.update_self] at hsome
      cases hsome
    have hne : ∀ i ∈ menu.menuItems, i ≠ id := fun i hi heq => hnot (heq ▸ hi)
    have hsame : ({ s with items := Function.update s.items id none } : Keys).kidsOf
        menu.menuItems = s.kidsOf menu.menuItems :=
      kidsOf_congr fun i hi => by rw [hother i (hne i hi)]
    rw [hsame] at hentries
    refine ⟨hentries, fun entry hentry => ?_, fun entry hentry => ?_⟩
    · refine carries_congr (keyOf_congr (hother _ (hne _ ?_)))
      rw [← hfst]
      exact List.mem_map_of_mem hentry
    · by_cases hid : entry.item = id
      · -- were it to carry keys, the vector would have it too
        have hplain : s.Carries (entry.item, entry.submenu) = false := by
          rw [← Bool.not_eq_true]
          intro hcarries
          have hmem : (entry.item, entry.submenu) ∈ entries.filter s.Carries := by
            rw [← h.menu m menu entries hm ((pointerKids_eq hm).trans hentries), List.mem_filter]
            exact ⟨List.mem_map_of_mem hentry, hcarries⟩
          refine hnot ?_
          rw [← hfst, ← hid]
          exact List.mem_map_of_mem (List.mem_filter.mp hmem).1
        rw [hplain, carries_eq_false_iff]
        refine ⟨?_, ((carries_eq_false_iff _).mp hplain).2⟩
        show keyOf _ entry.item = none
        rw [keyOf, hid]
        simp only [Function.update_self, Option.bind_none]
      · exact carries_congr (keyOf_congr (hother _ hid))
  · intro i hi
    simp only [Function.update_apply] at hi
    split at hi
    · cases hi
    · exact h.items i hi
  · intro i item hitem
    simp only [Function.update_apply] at hitem
    split at hitem
    · cases hitem
    · exact h.separator i item hitem

/-- A menu goes, and its lists with it. Pointers to it dangle, but the agreement is about the lists
of the menus that are there. -/
theorem Agrees.destroyMenu (h : s.Agrees) (m : Nat) :
    ({ s with menus := Function.update s.menus m none } : Keys).Agrees := by
  have hget : ∀ m' menu, Function.update s.menus m none m' = some menu →
      s.menus m' = some menu := by
    intro m' menu hm
    rw [Function.update_apply] at hm
    split at hm
    · cases hm
    · exact hm
  constructor
  case menu =>
    intro m' menu entries hm hkids
    rw [pointerKids_eq hm] at hkids
    exact h.menu m' menu entries (hget m' menu hm) ((pointerKids_eq (hget m' menu hm)).trans hkids)
  case model => exact fun m' menu hm => h.model m' menu (hget m' menu hm)
  case menuItems => exact fun m' menu hm => h.menuItems m' menu (hget m' menu hm)
  case items => exact h.items
  case separator => exact h.separator

/-- **Every operation under the condition keeps the agreement.** Setting and clearing a menu are
only about windows; each of the others is a lemma above. -/
theorem Agrees.step {o : Observed} (h : o.keys.Agrees) {op : Op} {depth : Nat}
    (hok : o.StepOk op) (hst : Keys.step addSeparator o.keys depth op = some t) : t.Agrees := by
  cases op with
  | newMenu =>
    cases hst
    refine h.updateMenu ?_ ?_ ?_
    · intro entries hkids
      cases hkids
      rfl
    · exact fun entry hentry => absurd hentry List.not_mem_nil
    · exact fun id hid => absurd hid List.not_mem_nil
  | newMenuItem type key submenu =>
    cases hst
    exact h.newMenuItem type key submenu
  | append m id => exact h.append hst
  | insert m id pos => exact h.insert hst hok
  | remove m id pos => exact h.remove hst hok
  | setSubmenu id submenu => exact h.setSubmenu hst hok
  | setMenu window m =>
    -- a menu bar changes the tables of the windows only
    obtain ⟨table, -, rfl⟩ := Option.map_eq_some_iff.mp hst
    exact ⟨h.menu, h.model, h.menuItems, h.items, h.separator⟩
  | clearMenu window =>
    cases hst
    exact h
  | destroyMenu m =>
    cases hst
    exact h.destroyMenu m
  | destroyItem id =>
    cases hst
    exact h.destroyItem id

/-! ## Walks through the models -/

/-- **`UpdateKeys` sees the models.** Under the agreement a walk along the pointers and one through
the models find the same items with a shortcut, in the same order. -/
theorem Agrees.walk_modelKids (h : s.Agrees) {depth m : Nat} {visits : List (List Nat × Nat)}
    (hwalk : walk s.pointerKids depth m = some visits) :
    ∃ visits', walk s.modelKids depth m = some visits' ∧
      counted (fun id => (s.keyOf id).isSome) visits' =
        counted (fun id => (s.keyOf id).isSome) visits := by
  have hfound : (walk s.pointerKids depth m).map (counted fun id => (s.keyOf id).isSome) =
      some (counted (fun id => (s.keyOf id).isSome) visits) := by
    rw [hwalk]
    rfl
  refine Option.map_eq_some_iff.mp (walk_agree (fun m' entries hkids => ?_) hfound)
  obtain ⟨menu, hm, -⟩ := Option.bind_eq_some_iff.mp hkids
  refine ⟨menu.model.map fun entry => (entry.item, entry.submenu), ?_, ?_⟩
  · rw [modelKids, hm]
    rfl
  · exact h.menu m' menu entries hm hkids

end NodeWebkit.Menus.Keys
