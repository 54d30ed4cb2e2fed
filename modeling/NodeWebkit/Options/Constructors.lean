import NodeWebkit.Options.MenuItemOptions

/-!
# Constructors and setters

`Tray` and `Menu` (`api_nw_tray.js`, `api_nw_menu.js`) bring the option object they are passed to a
normal form and keep it, as `MenuItem` does, and the setters of the properties write to the object
that is kept.

* **`Class.stmts`** — what a constructor does to the option object;
* **`Class.setter`**, **`Class.getter`** — what a setter does to it, and what a getter reads;
* **`construct_eq_self_iff`**, **`setter_eq_self_iff`** — the object is left as it was exactly when
  every property that is set has the value already.

A constructor may set a property that it has set before: a default comes after the conversion of the
same property. Such a default never changes anything, because the conversion has left a value there.
That a statement makes a later one idle in this way is `Covers`, and `pairwise_stmts` says that the
statements of every constructor cover each other; then each statement can be judged on the object
that was passed, whatever the ones before it do.
-/

namespace NodeWebkit.Options

open JsObject

/-- `v.constructor.name == 'Menu'`. -/
def JsVal.isMenu (env : Env) : JsVal → Except String Bool
  | .undefined => .error "TypeError: Cannot read property 'constructor' of undefined"
  | .null => .error "TypeError: Cannot read property 'constructor' of null"
  | .other k => .ok (env.isMenu k)
  | _ => .ok false

section Env

variable (env : Env)

/-! ## `Tray` -/

namespace Tray

def checkOption : OptionStmt :=
  ⟨.title, fun o =>
    if (o .title).isSome || (o .icon).isSome then .ok none
    else .error "TypeError: Must set 'title' or 'icon' field in option"⟩

def convertStmts : List OptionStmt :=
  [convertOr .title (toStr env) (.str ""),
    shadow env .icon .shadowIcon,
    convert .icon (JsVal.absolutePath env),
    shadow env .alticon .shadowAlticon,
    convert .alticon (JsVal.absolutePath env),
    convertOr .iconsAreTemplates (toBool env) (.bool true),
    convert .tooltip (toStr env),
    checkClick env,
    ⟨.menu, fun o =>
      match o .menu with
      | none => .ok none
      | some menu =>
        match menu.isMenu env with
        | .error error => .error error
        | .ok false => .error "TypeError: 'menu' must be a valid Menu"
        | .ok true => (menu.id env).map some⟩]

/-- `All properties must be set after initialization.` -/
def defaultStmts : List OptionStmt :=
  [default .icon .shadowIcon (.str ""),
    default .alticon .shadowAlticon (.str ""),
    default .tooltip .tooltip (.str "")]

def stmts : List OptionStmt := checkOption :: (convertStmts env ++ defaultStmts)

/-- `new Tray(option)`, where `GetNextContextMenuId` gives `allocated`. -/
def construct (allocated : Int) (o : OptionObject) : OptionObject × Except String Made :=
  match exec o (stmts env) with
  | (o, some error) => (o, .error error)
  | (option, none) =>
    (option, .ok
      { id := .num allocated
        store := option
        own := false
        -- taken before its id replaces it
        menu := o .menu
        click := o .click
        created := some option })

end Tray

/-! ## `Menu` -/

namespace Menu

def stmts (allocated : Int) : List OptionStmt :=
  [⟨.type, fun o =>
      if ["contextmenu", "menubar"].any ((get o .type).equals env) then .ok none
      else .error ("TypeError: Invalid menu type: " ++ (get o .type).string env)⟩,
    ⟨.generatedId, fun _ => .ok (some (.num allocated))⟩]

/-- `{ type: 'contextmenu' }`. -/
def contextmenu : OptionObject := set (fun _ => none) .type (.str "contextmenu")

/-- `new Menu(option)`, where `nw.Obj.allocateId` gives `allocated`. -/
def construct (allocated : Int) (o : OptionObject) : OptionObject × Except String Made :=
  match exec o (stmts env allocated) with
  | (o, some error) => (o, .error error)
  | (option, none) =>
    (option, .ok
      { id := .num allocated
        store := option
        own := false
        menu := none
        click := none
        created := some option })

end Menu

end Env

/-! ## All classes -/

inductive Class where
  | menuItem | tray | menu
  deriving DecidableEq

namespace Class

def stmts (env : Env) (allocated : Int) (o : OptionObject) : Class → List OptionStmt
  | .menuItem => MenuItem.stmts env o
  | .tray => Tray.stmts env
  | .menu => Menu.stmts env allocated

def construct (env : Env) (allocated : Int) :
    Class → OptionObject → OptionObject × Except String Made
  | .menuItem => MenuItem.construct env allocated
  | .tray => Tray.construct env allocated
  | .menu => Menu.construct env allocated

/-- The constructor without an object: only a menu is made, with an object of its own. -/
def constructAbsent (env : Env) (allocated : Int) (error : String) : Class → Except String Made
  | .menu =>
    (Menu.construct env allocated Menu.contextmenu).2.map fun made => { made with own := true }
  | _ => .error error

/-- `o.k = v`. -/
def put (k : Key) (v : JsVal) : OptionStmt := ⟨k, fun _ => .ok (some v)⟩

/-- `val == '' ? '' : nwNative.getAbsolutePath(val)`. -/
def realPath (env : Env) (v : JsVal) : JsVal :=
  if v.equals env "" then .str "" else v.absolutePath env

/-- What the setter of a property does to the object that is kept. -/
def setter (env : Env) (cls : Class) (k : Key) (v : JsVal) : List OptionStmt :=
  match cls, k with
  | .menuItem, .type => [⟨.type, fun _ => .error "Error: 'type' is immutable at runtime"⟩]
  | .menuItem, .label | .menuItem, .tooltip | .menuItem, .key | .menuItem, .modifiers
  | .tray, .title | .tray, .tooltip => [put k (toStr env v)]
  | .menuItem, .icon | .tray, .icon => [put .shadowIcon (toStr env v), put .icon (realPath env v)]
  | .tray, .alticon => [put .shadowAlticon (toStr env v), put .alticon (realPath env v)]
  | .menuItem, .iconIsTemplate | .menuItem, .enabled
  | .tray, .iconsAreTemplates => [put k (toBool env v)]
  | .menuItem, .checked =>
    [⟨.checked, fun o =>
      if (get o .type).equals env "checkbox" then .ok (some (toBool env v))
      else .error "TypeError: 'checked' property is only available for checkbox"⟩]
  | .menuItem, .submenu => [⟨.submenu, fun _ => (v.id env).map fun _ => none⟩]
  | .tray, .menu =>
    [⟨.menu, fun _ =>
      match v.isMenu env with
      | .error error => .error error
      | .ok false => .error "TypeError: 'menu' property requries a valid Menu"
      | .ok true => .ok none⟩]
  | _, _ => []

/-- The properties that are accessors. -/
def accessors : Class → List Key
  | .menuItem => [.type, .label, .icon, .iconIsTemplate, .tooltip, .key, .modifiers, .checked,
      .enabled, .submenu, .native]
  | .tray => [.title, .icon, .alticon, .iconsAreTemplates, .tooltip, .menu]
  | .menu => [.other "items"]

/-- The getter of a property: `store` is the object that is kept, `menu` the private one, `checked`
what `GetChecked` answers, and `props` has the object's own properties. -/
def getter (env : Env) (cls : Class) (store : OptionObject) (menu : Option JsVal)
    (checked : Option Bool) (props : OptionObject) (k : Key) : JsVal :=
  match cls, k with
  | .menuItem, .icon | .tray, .icon => get store .shadowIcon
  | .tray, .alticon => get store .shadowAlticon
  | .menuItem, .checked =>
    if (get store .type).equals env "checkbox" then checked.elim .undefined .bool else .undefined
  | .menuItem, .submenu | .tray, .menu => menu.getD .undefined
  | cls, k => if k ∈ cls.accessors then get store k else get props k

end Class

/-! ## Statements that cover others -/

/-- A statement that only checks. -/
def Checks (s : OptionStmt) : Prop := ∀ o v, s.value o ≠ .ok (some v)

/-- A check sets nothing, so there is nothing that a later statement could meet. -/
theorem Checks.covers {s : OptionStmt} (h : Checks s) (s' : OptionStmt) : Covers s s' :=
  fun _ o v _ hvalue => absurd hvalue (h o v)

theorem Checks.covered {s' : OptionStmt} (h : Checks s') (s : OptionStmt) : Covers s s' :=
  fun _ _ _ o' _ _ => h o'

/-- A default is idle behind a statement that leaves a value in its property. -/
theorem covers_default {s : OptionStmt} {k target : Key} {v : JsVal}
    (h : ∀ o v, s.value o = .ok (some v) → (set o s.key v k).isSome) :
    Covers s (default k target v) := by
  intro _ o v' o' hvalue hgrows v'' hset
  have hsome := hgrows k (h o v' hvalue)
  simp only [default, hsome, if_true] at hset
  cases hset

theorem covers_convert_default (k : Key) (f : JsVal → JsVal) (v : JsVal) :
    Covers (convert k f) (default k k v) := by
  refine covers_default fun o v' _ => ?_
  rw [show (convert k f).key = k from rfl, set_self]
  rfl

/-- The shadow of a property is set only where the property has a value, which keeps the default of
the property idle. -/
theorem covers_shadow_default (env : Env) (k target : Key) (v : JsVal) :
    Covers (shadow env k target) (default k target v) := by
  refine covers_default fun o v' hvalue => ?_
  have hsome : (o k).isSome := by
    cases hk : o k with
    | none =>
      simp only [shadow, hk, Option.map_none] at hvalue
      cases hvalue
    | some _ => rfl
  exact (Grows.refl o).set _ _ k hsome

theorem checks_ite (k : Key) (p : OptionObject → Prop) [DecidablePred p]
    (error : OptionObject → String) :
    Checks ⟨k, fun o => if p o then .ok none else .error (error o)⟩ := by
  intro o v hvalue
  dsimp only at hvalue
  split at hvalue <;> cases hvalue

/-! ## Constructors and setters keep what is settled -/

/-- **The statements of `MenuItem`.** The check of the type is no assignment, the conversions are of
different properties, and so are the defaults; of a conversion and a default those of the same
property are `covers_convert_default` and `covers_shadow_default`. -/
theorem MenuItem.pairwise_stmts (env : Env) (o : OptionObject) :
    (MenuItem.stmts env o).Pairwise Covers := by
  have htype : (MenuItem.typeStmts env).Pairwise Covers :=
    List.pairwise_pair.mpr ((checks_ite _ _ _).covered _)
  have hitems : (MenuItem.itemStmts env).Pairwise Covers :=
    pairwise_covers (by decide : [Key.checked, .label, .shadowIcon, .icon, .iconIsTemplate,
      .tooltip, .enabled, .submenu, .click].Nodup)
  have hdefaults : MenuItem.defaultStmts.Pairwise Covers :=
    pairwise_covers (by decide : [Key.shadowIcon, .tooltip, .enabled, .key, .modifiers].Nodup)
  unfold MenuItem.stmts
  split
  · rw [List.append_nil]
    exact htype
  · refine List.pairwise_append.mpr ⟨htype, List.pairwise_append.mpr ⟨hitems, hdefaults, ?_⟩, ?_⟩
    · -- an item that has set its property has it
      simp only [MenuItem.itemStmts, MenuItem.defaultStmts, List.forall_mem_cons]
      refine ⟨?_, ?_, ?_, ?_, ?_, ?_, ?_, ?_, ?_, nofun⟩
      all_goals refine ⟨?_, ?_, ?_, ?_, ?_, nofun⟩
      all_goals first
        | exact covers_shadow_default _ _ _ _
        | exact covers_convert_default _ _ _
        | exact covers_of_ne nofun
    · intro s hs s' hs'
      have hkey : s.key = .type := by
        simp only [MenuItem.typeStmts, List.mem_cons, List.not_mem_nil, or_false] at hs
        rcases hs with rfl | rfl <;> rfl
      have hkey' : s'.key ∈ [Key.checked, .label, .shadowIcon, .icon, .iconIsTemplate, .tooltip,
          .enabled, .submenu, .click, .shadowIcon, .tooltip, .enabled, .key, .modifiers] :=
        List.mem_map_of_mem hs'
      refine covers_of_ne fun heq => ?_
      rw [heq, hkey] at hkey'
      exact absurd hkey' (by decide)

/-- The statements of `Tray`, in the same two groups behind a check. -/
theorem Tray.pairwise_stmts (env : Env) : (Tray.stmts env).Pairwise Covers := by
  have hconvert : (Tray.convertStmts env).Pairwise Covers :=
    pairwise_covers (by decide : [Key.title, .shadowIcon, .icon, .shadowAlticon, .alticon,
      .iconsAreTemplates, .tooltip, .click, .menu].Nodup)
  have hdefaults : Tray.defaultStmts.Pairwise Covers :=
    pairwise_covers (by decide : [Key.shadowIcon, .shadowAlticon, .tooltip].Nodup)
  refine List.pairwise_cons.mpr ⟨fun s _ => (checks_ite _ _ _).covers s, ?_⟩
  refine List.pairwise_append.mpr ⟨hconvert, hdefaults, ?_⟩
  simp only [Tray.convertStmts, Tray.defaultStmts, List.forall_mem_cons]
  refine ⟨?_, ?_, ?_, ?_, ?_, ?_, ?_, ?_, ?_, nofun⟩
  all_goals refine ⟨?_, ?_, ?_, nofun⟩
  all_goals first
    | exact covers_shadow_default _ _ _ _
    | exact covers_convert_default _ _ _
    | exact covers_of_ne nofun

namespace Class

variable (env : Env)

theorem pairwise_stmts (allocated : Int) (o : OptionObject) (cls : Class) :
    (cls.stmts env allocated o).Pairwise Covers := by
  cases cls with
  | menuItem => exact MenuItem.pairwise_stmts env o
  | tray => exact Tray.pairwise_stmts env
  | menu => exact pairwise_covers (by decide : [Key.type, .generatedId].Nodup)

/-- What a constructor leaves of the option object is what its statements leave of it. -/
theorem construct_fst (allocated : Int) (o : OptionObject) (cls : Class) :
    (cls.construct env allocated o).1 = (exec o (cls.stmts env allocated o)).1 := by
  cases cls with
  | menuItem =>
    change (MenuItem.construct env allocated o).1 = (exec o (MenuItem.stmts env o)).1
    unfold MenuItem.construct
    split <;> rename_i h <;> rw [h]
  | tray =>
    change (Tray.construct env allocated o).1 = (exec o (Tray.stmts env)).1
    unfold Tray.construct
    split <;> rename_i h <;> rw [h]
  | menu =>
    change (Menu.construct env allocated o).1 = (exec o (Menu.stmts env allocated)).1
    unfold Menu.construct
    split <;> rename_i h <;> rw [h]

/-- **A constructor leaves the option object as it was exactly when it is settled.** -/
theorem construct_eq_self_iff (allocated : Int) (o : OptionObject) (cls : Class) :
    (cls.construct env allocated o).1 = o ↔ Settled o (cls.stmts env allocated o) := by
  rw [construct_fst]
  exact exec_eq_self_iff (cls.pairwise_stmts env allocated o) o

theorem pairwise_setter (cls : Class) (k : Key) (v : JsVal) :
    (cls.setter env k v).Pairwise Covers := by
  cases cls <;> cases k <;> first
    | exact .nil
    | exact List.pairwise_singleton ..
    | exact List.pairwise_pair.mpr (covers_of_ne nofun)

/-- **A setter leaves the object as it was exactly when it is settled**, which means that every
property it sets has that value already. -/
theorem setter_eq_self_iff (cls : Class) (k : Key) (v : JsVal) (o : OptionObject) :
    (exec o (cls.setter env k v)).1 = o ↔ Settled o (cls.setter env k v) :=
  exec_eq_self_iff (cls.pairwise_setter env k v) o

/-- No setter changes the type; the property has none. -/
theorem exec_setter_type (cls : Class) (k : Key) (v : JsVal) (o : OptionObject) :
    (exec o (cls.setter env k v)).1 .type = o .type := by
  by_cases h : cls = .menuItem ∧ k = .type
  · obtain ⟨rfl, rfl⟩ := h
    rfl
  · refine exec_of_not_mem (fun s hs => ?_) o
    cases cls <;> cases k <;> simp only [setter, List.mem_cons, List.not_mem_nil, or_false] at hs
    all_goals first
      | exact absurd ⟨rfl, rfl⟩ h
      | (rcases hs with rfl | rfl <;> nofun)

end Class

end NodeWebkit.Options
