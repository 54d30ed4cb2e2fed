import NodeWebkit.Menus.Accelerators

/-!
# What `UpdateKeys` registers

`Menu::UpdateKeys` goes through the items of a menu and for each one registers its accelerator and
goes on into its submenu, so its recursion and the walk of the library on walks have the same shape.

* **`updateKeys_eq`** — `updateKeys` is a walk along the pointers `menu_items_` and `submenu_` that
  registers the items it visits, in the order of the visits;
* **`exists_updateKeys_iff`** — so a stack that is deep enough exists exactly when the pointers are
  finite;
* **`keysOf_eq_counted`** — and what is registered is a matter of the items of the visits alone:
  their paths play no part. This is what lets the vectors be compared with the models, in which the
  same items may stand at other places.
-/

namespace NodeWebkit.Menus.Keys

open PathWalk

variable {s : Keys}

/-- The registrations for the visits of a walk. -/
def keysOf (s : Keys) (visits : List (List Nat × Nat)) : Table :=
  visits.filterMap fun visit => s.keyOf visit.2

theorem keysOf_append (visits visits' : List (List Nat × Nat)) :
    s.keysOf (visits ++ visits') = s.keysOf visits ++ s.keysOf visits' :=
  List.filterMap_append

/-- **The loop over the items of a menu.** Where the recursion into a submenu is a walk, so is the
loop: an item gives its own visit, then those of its submenu, then those of the items after it. The
induction is on the items, and the position `k` of the first one only counts along. -/
theorem updateItems_eq {updateSubmenu : Nat → Table → Option Table}
    {below : Nat → Option (List (List Nat × Nat))}
    (h : ∀ m table, updateSubmenu m table = (below m).map fun visits => table ++ s.keysOf visits)
    (k : Nat) (ids : List Nat) (table : Table) :
    updateItems s updateSubmenu ids table =
      ((ids.mapM fun id => (s.items id).map fun item => (id, item.submenu_)).bind
        (walkList below k)).map fun visits => table ++ s.keysOf visits := by
  induction ids generalizing k table with
  | nil => simp [updateItems, walkList, keysOf]
  | cons id ids ih =>
    rw [updateItems, List.mapM_cons]
    cases hitem : s.items id with
    | none => rfl
    | some item =>
      -- the visit of the item itself comes before those of its submenu
      have hkey : ∀ rest : List (List Nat × Nat), table ++ s.keysOf (([k], id) :: rest) =
          (if item.enableShortcut then table ++ [(item.accelerator, id)] else table) ++
            s.keysOf rest := by
        intro rest
        unfold keysOf
        rw [List.filterMap_cons]
        cases henabled : item.enableShortcut with
        | true => simp [keyOf, hitem, henabled]
        | false => simp [keyOf, hitem, henabled]
      simp only [Option.bind_some, Option.map_some]
      generalize (if item.enableShortcut then table ++ [(item.accelerator, id)] else table) = table'
        at hkey ⊢
      cases hsub : item.submenu_ with
      | none =>
        -- the item alone, then the items after it
        simp only [Option.bind_some, ih (k + 1)]
        cases ids.mapM fun id => (s.items id).map fun item => (id, item.submenu_) with
        | none => rfl
        | some entries =>
          show _ = (walkList below k ((id, none) :: entries)).map _
          rw [walkList, Option.bind_some, Option.bind_some]
          cases walkList below (k + 1) entries with
          | none => rfl
          | some others => exact congrArg some (hkey others).symm
      | some submenu =>
        simp only [h]
        cases hinner : below submenu with
        | none =>
          cases ids.mapM fun id => (s.items id).map fun item => (id, item.submenu_) with
          | none => rfl
          | some entries =>
            show _ = (walkList below k ((id, some submenu) :: entries)).map _
            rw [walkList]
            simp only [hinner]
            rfl
        | some inner =>
          -- the item, its submenu, then the items after it
          simp only [Option.map_some, Option.bind_some, ih (k + 1)]
          cases ids.mapM fun id => (s.items id).map fun item => (id, item.submenu_) with
          | none => rfl
          | some entries =>
            show _ = (walkList below k ((id, some submenu) :: entries)).map _
            rw [walkList, Option.bind_some]
            simp only [hinner, Option.bind_some]
            cases walkList below (k + 1) entries with
            | none => rfl
            | some others =>
              have hunder : s.keysOf (inner.map (under k)) = s.keysOf inner := by
                rw [keysOf, List.filterMap_map]
                rfl
              rw [Option.map_some, Option.map_some, Option.map_some, hkey, keysOf_append, hunder,
                List.append_assoc]

/-- `UpdateKeys` registers the visits of a walk along the pointers, behind what the table has. The
induction is on the depth of the stack. -/
theorem updateKeys_eq (depth m : Nat) (table : Table) :
    s.updateKeys depth m table =
      (walk s.pointerKids depth m).map fun visits => table ++ s.keysOf visits := by
  induction depth generalizing m table with
  | zero => rfl
  | succ depth ih =>
    rw [updateKeys, walk, pointerKids]
    cases s.menus m with
    | none => rfl
    | some menu => exact updateItems_eq (fun m table => ih m table) 0 menu.menuItems table

/-- Setting a menu takes some depth exactly when its pointers are finite. What the table holds
before plays no part in how deep the recursion goes. -/
theorem exists_updateKeys_iff (m : Nat) (table : Table) :
    (∃ depth table', s.updateKeys depth m table = some table') ↔ Finite s.pointerKids m := by
  rw [finite_iff]
  constructor
  · rintro ⟨depth, table', h⟩
    rw [updateKeys_eq] at h
    obtain ⟨visits, hvisits, -⟩ := Option.map_eq_some_iff.mp h
    exact ⟨depth, visits, hvisits⟩
  · rintro ⟨depth, visits, hvisits⟩
    exact ⟨depth, _, by rw [updateKeys_eq, hvisits]; rfl⟩

/-- The items that are registered for the visits of a walk: those with a shortcut. -/
theorem keysOf_eq_counted (visits : List (List Nat × Nat)) :
    (s.keysOf visits).map Prod.snd = counted (fun id => (s.keyOf id).isSome) visits := by
  induction visits with
  | nil => rfl
  | cons visit visits ih =>
    rw [keysOf, counted] at ih ⊢
    rw [List.filterMap_cons, List.map_cons, List.filter_cons]
    cases hkey : s.keyOf visit.2 with
    | none => exact ih
    | some key =>
      have hsnd : key.2 = visit.2 := by
        obtain ⟨item, -, hkey⟩ := Option.bind_eq_some_iff.mp hkey
        split at hkey
        · cases hkey
          rfl
        · cases hkey
      simp only [Option.isSome_some, if_true, List.map_cons, ih, hsnd]

theorem isSome_keyOf_iff (id : Nat) : (s.keyOf id).isSome = true ↔ s.HasShortcut id := by
  unfold keyOf HasShortcut
  cases s.items id with
  | none => simp
  | some item => simp

end NodeWebkit.Menus.Keys
