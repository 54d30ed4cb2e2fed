import NodeWebkit.Lib.JsArray
import NodeWebkit.Options.MenuItemOptions

/-!
# The Edit menu of the Mac

When a menu becomes the main menu of the application, the Edit menu in it may have items that were
not made by the page. `NWChangeAppMenu` makes a `MenuItem` object for each of them and tells the
page its options and its index, and the `menu` setter (`api_nw_window.js`) inserts a JavaScript item
with these options at that index.

* **`adopt`** — the objects `NWChangeAppMenu` makes, and the patches it returns;
* **`applyPatch`** — the JavaScript item of a patch;
* **`Adopted`** — the items of the submenu are its native items;
* **`NSMenuItem.Adoptable`** — the condition on native items.
-/

namespace NodeWebkit.Options

open JsArray

/-! ## Native items -/

/-- The modifiers of a key equivalent. `others` are the bits without a name here. -/
structure ModifierMask where
  command : Bool := false
  control : Bool := false
  alternate : Bool := false
  shift : Bool := false
  others : Bool := false
  deriving DecidableEq

def ModifierMask.names (mask : ModifierMask) : List String :=
  (if mask.command then ["cmd"] else []) ++ (if mask.control then ["ctrl"] else []) ++
    (if mask.alternate then ["alt"] else []) ++ (if mask.shift then ["shift"] else [])

structure NSMenuItem where
  pointer : Nat
  isSeparatorItem : Bool := false
  /-- `state == NSOnState`. -/
  on : Bool := false
  title : String := ""
  /-- Whether the image is a template, for an item with an image. -/
  image : Option Bool := none
  toolTip : String := ""
  isEnabled : Bool := true
  keyEquivalentModifierMask : ModifierMask := {}
  keyEquivalent : Option String := none
  /-- The id of the `MenuItem` object of the item. -/
  associatedObject : Option Int := none
  deriving DecidableEq

namespace NSMenuItem

/-- The item without its object. -/
def native (item : NSMenuItem) : NSMenuItem := { item with associatedObject := none }

def type (item : NSMenuItem) : String :=
  -- the test of the state is not an `else`
  if item.on then "checkbox" else if item.isSeparatorItem then "separator" else "normal"

/-- The text of `modifiers`, if any; `none` where the last `+` is to be erased from no text. -/
def modifiers (item : NSMenuItem) : Option (Option String) :=
  let mask := item.keyEquivalentModifierMask
  if mask = {} then some none
  else if mask.names = [] then none
  else some (some ("+".intercalate mask.names))

/-- What `MenuItem::CreateFromNative` tells the page. -/
def options (item : NSMenuItem) (modifiers : Option String) (id : Int) : OptionObject
  | .native => some (.bool true)
  | .type => some (.str item.type)
  | .checked => some (.bool item.on)
  | .label => some (.str item.title)
  | .icon => item.image.map fun _ => .str "<native>"
  | .iconIsTemplate => item.image.map .bool
  | .tooltip => some (.str item.toolTip)
  | .enabled => some (.bool item.isEnabled)
  | .modifiers => modifiers.map .str
  | .key => item.keyEquivalent.map .str
  | .id => some (.num id)
  | _ => none

/-- An item of the page, or one that is no separator and whose modifiers have a text. -/
def Adoptable (item : NSMenuItem) : Prop :=
  item.associatedObject.isSome ∨ (item.type ≠ "separator" ∧ item.modifiers.isSome)

end NSMenuItem

/-! ## `NWChangeAppMenu` -/

/-- The ids that were given out, and the native items of the `MenuItem` objects. -/
structure ObjectManager where
  nextObjectId : Int
  menuItem : Int → Option Nat

structure Patch where
  index : Nat
  option : OptionObject

namespace ObjectManager

def allocate (self : ObjectManager) (pointer : Nat) : ObjectManager :=
  { nextObjectId := self.nextObjectId + 1
    menuItem := Function.update self.menuItem (self.nextObjectId + 1) (some pointer) }

/-- `MenuItem::CreateFromNative`. -/
def createFromNative (self : ObjectManager) (item : NSMenuItem) :
    Option (OptionObject × NSMenuItem × ObjectManager) :=
  item.modifiers.map fun modifiers =>
    let id := self.nextObjectId + 1
    (item.options modifiers id, { item with associatedObject := some id },
      self.allocate item.pointer)

/-- The items of the Edit menu from an index on. -/
def adopt (self : ObjectManager) (i : Nat) :
    List NSMenuItem → Option (List Patch × List NSMenuItem × ObjectManager)
  | [] => some ([], [], self)
  | item :: rest =>
    if item.associatedObject.isSome then
      (self.adopt (i + 1) rest).map fun (patches, rest, self) => (patches, item :: rest, self)
    else do
      let (option, item, self) ← self.createFromNative item
      let (patches, rest, self) ← self.adopt (i + 1) rest
      some (⟨i, option⟩ :: patches, item :: rest, self)

end ObjectManager

/-! ## The `menu` setter -/

/-- A menu of the page: the native one, and its `items`. -/
structure Submenu where
  native : List NSMenuItem
  items : List Made

structure Page where
  objects : ObjectManager
  /-- How many native items were made. -/
  pointers : Nat
  submenu : Submenu

/-- `[NSMenuItem separatorItem]` for a `MenuItem` object. -/
def separatorItem (pointer : Nat) (id : Int) : NSMenuItem :=
  { pointer := pointer, isSeparatorItem := true, associatedObject := some id }

/-- `submenu.insert(new nw.MenuItem(patch.option), itemIndex)`. Of the items of patches only a
separator has lost its `native`: it is created, and inserted natively as well. -/
def applyPatch (env : Env) (s : Page) (patch : Patch) : Option Page :=
  let id := s.objects.nextObjectId + 1
  match (MenuItem.construct env id patch.option).2 with
  | .error _ => none
  | .ok made =>
    let items := spliceInsert s.submenu.items patch.index made
    match made.created with
    | none => some { s with submenu := { s.submenu with items := items } }
    | some _ => some
      { objects := s.objects.allocate s.pointers
        pointers := s.pointers + 1
        submenu :=
          { native := s.submenu.native.insertIdx patch.index (separatorItem s.pointers id)
            items := items } }

/-- An item of the menu that becomes the main menu. -/
structure MainMenuItem where
  title : String
  submenu : Option Submenu

structure Application where
  objects : ObjectManager
  pointers : Nat
  mainMenu : List MainMenuItem

namespace Application

/-- The index of the Edit menu. -/
def editMenuIndex (s : Application) (editMenuTitle : String) : Option Nat :=
  s.mainMenu.findIdx? fun item => item.title = editMenuTitle

def submenu (s : Application) (k : Nat) : Option Submenu :=
  (s.mainMenu[k]?).bind MainMenuItem.submenu

/-- `win.menu = menu`; `none` where the browser crashes or the page gets an error. -/
def setMenu (env : Env) (editMenuTitle : String) (s : Application) : Option Application :=
  match s.editMenuIndex editMenuTitle with
  | none => some s
  | some k =>
    match s.submenu k with
    | none => some s
    | some submenu => do
      let (patches, native, objects) ← s.objects.adopt 0 submenu.native
      let page ← patches.foldlM (applyPatch env)
        { objects := objects, pointers := s.pointers, submenu := { submenu with native := native } }
      some
        { objects := page.objects
          pointers := page.pointers
          mainMenu := s.mainMenu.modify k fun item => { item with submenu := some page.submenu } }

end Application

/-! ## Adoption -/

/-- The id of an item names the native one. -/
def Names (objects : ObjectManager) (made : Made) (item : NSMenuItem) : Prop :=
  ∃ id, made.id = .num id ∧ item.associatedObject = some id ∧
    objects.menuItem id = some item.pointer

/-- The items of the page are those of the native menu that it made, in their order. -/
structure InSync (objects : ObjectManager) (submenu : Submenu) : Prop where
  items : submenu.items.map Made.id =
    submenu.native.filterMap fun item => item.associatedObject.map .num
  named : ∀ item ∈ submenu.native, ∀ id, item.associatedObject = some id →
    objects.menuItem id = some item.pointer
  allocated : ∀ id, (objects.menuItem id).isSome → id ≤ objects.nextObjectId
  nonneg : 0 ≤ objects.nextObjectId

/-- The native menu is as before, and the items are its items. -/
structure Adopted (before after : Submenu) (objects : ObjectManager) : Prop where
  native : after.native.map NSMenuItem.native = before.native.map NSMenuItem.native
  items : List.Forall₂ (Names objects) after.items after.native

/-! ## One item -/

/-- What an item that is no separator is made of. -/
def NSMenuItem.itemOptions (item : NSMenuItem) (modifiers : Option String) (id : Int) :
    ItemOptions where
  type := some (if item.on then .checkbox else .normal)
  label := item.title
  icon := item.image.map fun _ => "<native>"
  iconIsTemplate := item.image
  tooltip := some item.toolTip
  enabled := some item.isEnabled
  checked := some item.on
  key := item.keyEquivalent
  modifiers := modifiers
  native := some id

/-- The option object of a native item is that of documented options, if it is no separator: the
names and the values are those that a page would write. -/
theorem options_eq_toObject {item : NSMenuItem} (h : item.type ≠ "separator")
    (modifiers : Option String) (id : Int) :
    item.options modifiers id = (item.itemOptions modifiers id).toObject := by
  funext k
  cases k
  case type =>
    unfold NSMenuItem.type at h
    simp only [NSMenuItem.options, ItemOptions.toObject, NSMenuItem.itemOptions, NSMenuItem.type]
    cases hon : item.on with
    | true => rfl
    | false =>
      cases hseparator : item.isSeparatorItem with
      | true => simp [hon, hseparator] at h
      | false => rfl
  case icon => cases himage : item.image <;> simp [NSMenuItem.options, ItemOptions.toObject,
    NSMenuItem.itemOptions, himage]
  all_goals rfl

/-- The item of a patch takes the place of its index. The page's script makes it with the id of the
object that `NWChangeAppMenu` has made, and inserts it in front of what is at the index. -/
theorem applyPatch_options (env : Env) {item : NSMenuItem} (h : item.type ≠ "separator")
    (modifiers : Option String) {id : Int} (hid : id ≠ 0) :
    ∃ made : Made, made.id = .num id ∧ ∀ (s : Page) (i : Nat),
      applyPatch env s ⟨i, item.options modifiers id⟩ =
        some { s with submenu :=
          { s.submenu with items := spliceInsert s.submenu.items i made } } := by
  -- the id is not one that is allocated for the page
  have hmade : ∀ allocated, (item.itemOptions modifiers id).made env allocated =
      (item.itemOptions modifiers id).made env 0 := by
    intro allocated
    simp only [ItemOptions.made, NSMenuItem.itemOptions, if_pos hid]
  refine ⟨(item.itemOptions modifiers id).made env 0, if_pos hid, fun s i => ?_⟩
  unfold applyPatch
  simp only [options_eq_toObject h, ItemOptions.construct_options, hmade]
  rfl

/-- Inserting behind the items that are done puts the item in front of the rest. -/
theorem spliceInsert_length {α : Type} (done rest : List α) (a : α) :
    spliceInsert (done ++ rest) (done.length : Int) a = done ++ a :: rest := by
  unfold spliceInsert
  rw [spliceStart_natCast (by simp)]
  induction done with
  | nil => rfl
  | cons b done ih => exact congrArg (b :: ·) ih

/-! ## All items -/

/-- The objects stay, and others may come. -/
def Extends (objects objects' : ObjectManager) : Prop :=
  ∀ id pointer, objects.menuItem id = some pointer → objects'.menuItem id = some pointer

/-- The ids of the objects were given out. -/
def Allocated (objects : ObjectManager) : Prop :=
  0 ≤ objects.nextObjectId ∧ ∀ id, (objects.menuItem id).isSome → id ≤ objects.nextObjectId

/-- A new object takes the next id, so none that was allocated before is lost, and all ids are still
below the counter. -/
theorem Allocated.allocate {objects : ObjectManager} (h : Allocated objects) (pointer : Nat) :
    Allocated (objects.allocate pointer) ∧ Extends objects (objects.allocate pointer) := by
  refine ⟨⟨by have := h.1; simp only [ObjectManager.allocate]; omega, fun id hid => ?_⟩,
    fun id p hp => ?_⟩
  · simp only [ObjectManager.allocate] at hid ⊢
    by_cases heq : id = objects.nextObjectId + 1
    · omega
    · rw [Function.update_of_ne heq] at hid
      have hle := h.2 id hid
      omega
  · have hle := h.2 id (by rw [hp]; rfl)
    simp only [ObjectManager.allocate]
    rw [Function.update_of_ne (by omega)]
    exact hp

/-- **The patches of adoptable items put the items in their places.** The induction is on the native
items from an index on; before it the items are in their places. -/
theorem adopt_adoptable (env : Env) {native : List NSMenuItem} {objects : ObjectManager} (i : Nat)
    (halloc : Allocated objects) (hadopt : ∀ item ∈ native, item.Adoptable)
    (hnamed : ∀ item ∈ native, ∀ id, item.associatedObject = some id →
      objects.menuItem id = some item.pointer)
    {rest : List Made}
    (hrest : rest.map Made.id = native.filterMap fun item => item.associatedObject.map .num) :
    ∃ patches native' objects' items, objects.adopt i native = some (patches, native', objects') ∧
      Extends objects objects' ∧
      native'.map NSMenuItem.native = native.map NSMenuItem.native ∧
      List.Forall₂ (Names objects') items native' ∧
      ∀ (s : Page) (done : List Made), done.length = i → s.submenu.items = done ++ rest →
        patches.foldlM (applyPatch env) s =
          some { s with submenu := { s.submenu with items := done ++ items } } := by
  -- induction on the native items; `done` are the items in front of them
  induction native generalizing objects i rest with
  | nil =>
    refine ⟨[], [], objects, [], rfl, fun _ _ h => h, rfl, .nil, fun s done _ hitems => ?_⟩
    rw [List.map_eq_nil_iff.mp hrest] at hitems
    rw [← hitems]
    rfl
  | cons item native ih =>
    have hadopt' := fun item' hmem => hadopt item' (List.mem_cons_of_mem item hmem)
    cases hobject : item.associatedObject with
    | some id =>
      -- an item of the page is in its place
      rw [List.filterMap_cons, hobject, Option.map_some] at hrest
      obtain ⟨made, rest, rfl⟩ := List.exists_cons_of_ne_nil
        (show rest ≠ [] from fun hnil => by rw [hnil] at hrest; cases hrest)
      obtain ⟨hid, hrest⟩ := List.cons.inj hrest
      obtain ⟨patches, native', objects', items, hadopts, hextends, hnative, hnames, hpatches⟩ :=
        ih (i + 1) halloc hadopt' (fun item' hmem => hnamed item' (List.mem_cons_of_mem _ hmem))
          hrest
      refine ⟨patches, item :: native', objects', made :: items, ?_, hextends, ?_, ?_, ?_⟩
      · simp only [ObjectManager.adopt, hobject, Option.isSome_some, if_true, hadopts,
          Option.map_some]
      · rw [List.map_cons, List.map_cons, hnative]
      · refine .cons ⟨id, hid, hobject, ?_⟩ hnames
        exact hextends id _ (hnamed item (List.mem_cons_self ..) id hobject)
      · intro s done hlength hitems
        rw [hpatches s (done ++ [made]) (by rw [List.length_append, hlength]; rfl)
          (by rw [hitems, List.append_assoc]; rfl), List.append_assoc]
        rfl
    | none =>
      rw [List.filterMap_cons, hobject, Option.map_none] at hrest
      obtain ⟨htype, hmodifiers⟩ : item.type ≠ "separator" ∧ item.modifiers.isSome := by
        refine (hadopt item (List.mem_cons_self ..)).resolve_left ?_
        rw [hobject]
        exact nofun
      obtain ⟨modifiers, hmodifiers⟩ := Option.isSome_iff_exists.mp hmodifiers
      -- a foreign item gets an object, and a patch that makes the item of the page
      obtain ⟨halloc', hextends⟩ := halloc.allocate item.pointer
      have hid : objects.nextObjectId + 1 ≠ 0 := by
        have hnonneg := halloc.1
        omega
      obtain ⟨made, hmade, hpatch⟩ := applyPatch_options env htype modifiers hid
      obtain ⟨patches, native', objects', items, hadopts, hextends', hnative, hnames, hpatches⟩ :=
        ih (i + 1) halloc' hadopt' (fun item' hmem id hid =>
          hextends id _ (hnamed item' (List.mem_cons_of_mem _ hmem) id hid)) hrest
      refine ⟨⟨i, item.options modifiers (objects.nextObjectId + 1)⟩ :: patches,
        { item with associatedObject := some (objects.nextObjectId + 1) } :: native', objects',
        made :: items, ?_, fun id p hp => hextends' id p (hextends id p hp), ?_, ?_, ?_⟩
      · simp only [ObjectManager.adopt, hobject, Option.isSome_none, Bool.false_eq_true, if_false,
          ObjectManager.createFromNative, hmodifiers, Option.map_some, hadopts, Option.bind_eq_bind,
          Option.bind_some]
      · rw [List.map_cons, List.map_cons, hnative]
        rfl
      · refine .cons ⟨_, hmade, rfl, hextends' _ _ ?_⟩ hnames
        exact Function.update_self ..
      · intro s done hlength hitems
        rw [List.foldlM_cons, hpatch, Option.bind_eq_bind, Option.bind_some, hitems, ← hlength,
          spliceInsert_length]
        rw [hpatches _ (done ++ [made]) (by rw [List.length_append, hlength]; rfl)
          (List.append_cons done made rest), List.append_assoc]
        rfl

/-- There is a patch for every item that the page did not make, and its index is one of the menu. -/
theorem adopt_some {native native' : List NSMenuItem} {objects objects' : ObjectManager} {i : Nat}
    {patches : List Patch} (h : objects.adopt i native = some (patches, native', objects')) :
    native'.length = native.length ∧ (∀ patch ∈ patches, patch.index < native.length + i) ∧
      ∀ item ∈ native, item.associatedObject = none → item.modifiers.isSome ∧
        ∃ patch ∈ patches, patch.option .type = some (.str item.type) := by
  induction native generalizing objects i patches native' with
  | nil =>
    cases h
    exact ⟨rfl, fun _ hmem => absurd hmem List.not_mem_nil,
      fun _ hmem => absurd hmem List.not_mem_nil⟩
  | cons item native ih =>
    rw [ObjectManager.adopt] at h
    split at h
    · -- an item that has an object already is passed over
      rename_i hobject
      obtain ⟨⟨patches', rest, after⟩, hrest, heq⟩ := Option.map_eq_some_iff.mp h
      cases heq
      obtain ⟨hlength, hindex, hforeign⟩ := ih hrest
      refine ⟨congrArg (· + 1) hlength, fun patch hmem => ?_, fun item' hmem hnone => ?_⟩
      · have hlt := hindex patch hmem
        rw [List.length_cons]
        omega
      · rcases List.mem_cons.mp hmem with rfl | hmem
        · rw [hnone] at hobject
          cases hobject
        · exact hforeign item' hmem hnone
    · -- an item of the system gets an object and a patch with its index
      obtain ⟨⟨option, item', mid⟩, hcreate, h⟩ := Option.bind_eq_some_iff.mp h
      obtain ⟨⟨patches', rest, after⟩, hrest, h⟩ := Option.bind_eq_some_iff.mp h
      cases h
      obtain ⟨modifiers, hmodifiers, heq⟩ := Option.map_eq_some_iff.mp hcreate
      cases heq
      obtain ⟨hlength, hindex, hforeign⟩ := ih hrest
      refine ⟨congrArg (· + 1) hlength, fun patch hmem => ?_, fun item' hmem hnone => ?_⟩
      · rw [List.length_cons]
        rcases List.mem_cons.mp hmem with rfl | hmem
        · show i < _
          omega
        · have hlt := hindex patch hmem
          omega
      · rcases List.mem_cons.mp hmem with rfl | hmem
        · rw [hmodifiers]
          exact ⟨rfl, _, List.mem_cons_self .., rfl⟩
        · obtain ⟨hsome, patch, hpatch, htype⟩ := hforeign item' hmem hnone
          exact ⟨hsome, patch, List.mem_cons_of_mem _ hpatch, htype⟩

/-- A patch adds no native item, or one: for a separator it adds one. -/
theorem applyPatch_length {env : Env} {s t : Page} {patch : Patch}
    (h : applyPatch env s patch = some t) (hindex : patch.index ≤ s.submenu.native.length) :
    s.submenu.native.length ≤ t.submenu.native.length ∧
      (patch.option .type = some (.str "separator") →
        s.submenu.native.length < t.submenu.native.length) := by
  unfold applyPatch at h
  by_cases htype : patch.option .type = some (.str "separator")
  · simp only [construct_separator env _ htype, Option.some.injEq] at h
    subst h
    simp only [List.length_insertIdx_of_le_length hindex]
    exact ⟨by omega, fun _ => by omega⟩
  · refine ⟨?_, fun heq => absurd heq htype⟩
    dsimp only at h
    split at h
    · cases h
    · split at h
      · cases h
        exact Nat.le_refl _
      · cases h
        simp only [List.length_insertIdx_of_le_length hindex]
        omega

/-- The patches never make a menu shorter, and a separator among them makes it longer: the page's
script makes a native item of its own for a separator. -/
theorem applyPatches_length {env : Env} {patches : List Patch} {s t : Page}
    (h : patches.foldlM (applyPatch env) s = some t)
    (hindex : ∀ patch ∈ patches, patch.index ≤ s.submenu.native.length) :
    s.submenu.native.length ≤ t.submenu.native.length ∧
      ((∃ patch ∈ patches, patch.option .type = some (.str "separator")) →
        s.submenu.native.length < t.submenu.native.length) := by
  induction patches generalizing s with
  | nil =>
    cases h
    exact ⟨Nat.le_refl _, by rintro ⟨_, hmem, -⟩; cases hmem⟩
  | cons patch patches ih =>
    rw [List.foldlM_cons] at h
    obtain ⟨u, hpatch, hrest⟩ := Option.bind_eq_some_iff.mp h
    obtain ⟨hle, hlt⟩ := applyPatch_length hpatch (hindex patch (List.mem_cons_self ..))
    obtain ⟨hle', hlt'⟩ := ih hrest fun patch' hmem =>
      Nat.le_trans (hindex patch' (List.mem_cons_of_mem _ hmem)) hle
    refine ⟨Nat.le_trans hle hle', ?_⟩
    rintro ⟨patch', hmem, htype⟩
    rcases List.mem_cons.mp hmem with rfl | hmem
    · exact Nat.lt_of_lt_of_le (hlt htype) hle'
    · exact Nat.lt_of_le_of_lt hle (hlt' ⟨patch', hmem, htype⟩)

/-! ## The setter -/

/-- **Adoption.** Where the items of the Edit menu that the page has are those it made, setting the
menu gives it all of them, and leaves the native menu as it is, exactly when every native item is
one of the page or adoptable. -/
theorem edit_menu_adopted_iff (env : Env) (editMenuTitle : String) (s : Application) (k : Nat)
    (submenu : Submenu) (hindex : s.editMenuIndex editMenuTitle = some k)
    (hsubmenu : s.submenu k = some submenu) (hsync : InSync s.objects submenu) :
    (∃ t after, s.setMenu env editMenuTitle = some t ∧ t.submenu k = some after ∧
      Adopted submenu after t.objects) ↔
    ∀ item ∈ submenu.native, item.Adoptable := by
  -- the edit menu is the one that is replaced
  have hafter : ∀ (objects : ObjectManager) (pointers : Nat) (after : Submenu),
      Application.submenu
        { objects := objects
          pointers := pointers
          mainMenu := s.mainMenu.modify k fun item => { item with submenu := some after } } k =
        some after := by
    intro objects pointers after
    obtain ⟨item, hitem, -⟩ := Option.bind_eq_some_iff.mp hsubmenu
    simp only [Application.submenu, List.getElem?_modify, hitem]
    simp
  unfold Application.setMenu
  simp only [hindex, hsubmenu]
  constructor
  · rintro ⟨t, after, hset, hsub, hadopted⟩
    obtain ⟨⟨patches, native, objects⟩, hadopt, hset⟩ := Option.bind_eq_some_iff.mp hset
    obtain ⟨page, hpatches, hset⟩ := Option.bind_eq_some_iff.mp hset
    cases hset
    rw [hafter, Option.some.injEq] at hsub
    subst hsub
    obtain ⟨hlength, hindices, hforeign⟩ := adopt_some hadopt
    have hgrows := applyPatches_length hpatches fun patch hmem => by
      have hlt := hindices patch hmem
      show patch.index ≤ native.length
      omega
    have hsame := congrArg List.length hadopted.native
    rw [List.length_map, List.length_map] at hsame
    intro item hitem
    cases hobject : item.associatedObject with
    | some id => exact .inl (by rw [hobject]; rfl)
    | none =>
      obtain ⟨hmodifiers, patch, hpatch, htype⟩ := hforeign item hitem hobject
      refine .inr ⟨fun hseparator => ?_, hmodifiers⟩
      rw [hseparator] at htype
      -- the native menu would have one item more
      have hlt := hgrows.2 ⟨patch, hpatch, htype⟩
      simp only at hlt
      omega
  · intro hadoptable
    obtain ⟨patches, native, objects, items, hadopt, -, hnative, hnames, hpatches⟩ :=
      adopt_adoptable env 0 ⟨hsync.nonneg, hsync.allocated⟩ hadoptable hsync.named hsync.items
    have hpage := hpatches
      { objects := objects, pointers := s.pointers, submenu := { submenu with native := native } }
      [] rfl rfl
    simp only [hadopt, Option.bind_eq_bind, Option.bind_some, hpage]
    exact ⟨_, _, rfl, hafter .., hnative, hnames⟩

/-- Other values are of no use here, and paths are absolute. -/
def plainEnv : Env where
  truthy _ := true
  string _ := "[object Object]"
  equals _ _ := false
  isFunction _ := false
  isMenu _ := false
  id _ := .undefined
  absolutePath path := path

/-- An Edit menu with an item of the page and one that is not. -/
def undoAnd (item : NSMenuItem) : Submenu where
  native := [{ pointer := 0, title := "Undo", associatedObject := some 1 }, item]
  items := [ItemOptions.made plainEnv { label := "Undo" } 1]

def withEditMenu (submenu : Submenu) : Application where
  objects := { nextObjectId := 1, menuItem := fun id => if id = 1 then some 0 else none }
  pointers := 2
  mainMenu := [⟨"Edit", some submenu⟩]

/-- The Undo item is the page's, and the other one nobody has an object for yet. -/
theorem inSync_undoAnd {item : NSMenuItem} (h : item.associatedObject = none) (submenu : Submenu) :
    InSync (withEditMenu submenu).objects (undoAnd item) := by
  refine ⟨?items, ?named, ?allocated, ?nonneg⟩
  case items =>
    simp only [undoAnd, List.filterMap_cons, h]
    rfl
  case named =>
    intro item' hmem id hid
    rcases List.mem_cons.mp hmem with rfl | hmem
    · cases hid
      rfl
    · rw [List.mem_singleton.mp hmem, h] at hid
      cases hid
  case allocated =>
    intro id hid
    simp only [withEditMenu] at hid
    split at hid
    · rename_i heq
      exact Int.le_of_eq heq
    · cases hid
  case nonneg => simp [withEditMenu]

/-- The item for emoji, which the system adds to the Edit menu, is adopted. -/
theorem edit_menu_adopted_emoji :
    let emoji : NSMenuItem :=
      { pointer := 1, title := "Emoji", keyEquivalentModifierMask := { command := true } }
    ∃ t after, (withEditMenu (undoAnd emoji)).setMenu plainEnv "Edit" = some t ∧
      t.submenu 0 = some after ∧ Adopted (undoAnd emoji) after t.objects := by
  refine (edit_menu_adopted_iff plainEnv "Edit" _ 0 _ rfl rfl (inSync_undoAnd rfl _)).mpr ?_
  intro item hmem
  rcases List.mem_cons.mp hmem with rfl | hmem
  · exact .inl rfl
  · rw [List.mem_singleton.mp hmem]
    refine .inr ⟨?_, ?_⟩
    · simp [NSMenuItem.type]
    · simp [NSMenuItem.modifiers, ModifierMask.names]

/-- A separator that the page did not make is there twice: its item is a new one. -/
theorem separator_not_adopted :
    ¬ ∀ (s : Application) (k : Nat) (submenu : Submenu), s.editMenuIndex "Edit" = some k →
      s.submenu k = some submenu → InSync s.objects submenu →
        ∃ t after, s.setMenu plainEnv "Edit" = some t ∧ t.submenu k = some after ∧
          Adopted submenu after t.objects := by
  intro hall
  obtain ⟨t, after, hset, hsub, hadopted⟩ :=
    hall (withEditMenu (undoAnd { pointer := 1, isSeparatorItem := true })) 0 _ rfl rfl
      (inSync_undoAnd rfl _)
  cases hset
  cases hsub
  cases hadopted.native

end NodeWebkit.Options
