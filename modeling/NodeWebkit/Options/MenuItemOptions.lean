import NodeWebkit.Lib.JsObject

/-!
# The options of menu items

The constructor of `MenuItem` (`api_nw_menuitem.js`) brings the option object it is passed to a
normal form, keeps it as the store of the item's properties, and gives it to the native side. A
separator gets an object of its own.

* **`MenuItem.stmts`** — what the constructor does to the option object, statement by statement;
* **`construct`** — the item it makes, or the error it throws;
* **`ItemOptions`** — options as they are documented, and as `NWChangeAppMenu` makes them;
* **`construct_options`** — the item that is made of them.

`env` describes the values that are not listed here (objects, functions, other numbers) and the
paths of the page. Option objects are plain: they inherit no property that is named here.
-/

namespace NodeWebkit.Options

open JsObject

/-- JavaScript values; `other` are those that `Env` describes. -/
inductive JsVal where
  | undefined
  | null
  | bool (b : Bool)
  | num (n : Int)
  | str (s : String)
  | other (k : Nat)
  deriving DecidableEq

structure Env where
  /-- `Boolean(v)`. -/
  truthy : Nat → Bool
  /-- `String(v)`. -/
  string : Nat → String
  /-- `v == s`. -/
  equals : Nat → String → Bool
  isFunction : Nat → Bool
  /-- `v.constructor.name == 'Menu'`. -/
  isMenu : Nat → Bool
  /-- `v.id`. -/
  id : Nat → JsVal
  /-- `nwNative.getAbsolutePath(s)`. -/
  absolutePath : String → String

/-- The properties of option objects that the constructors name, and the others. -/
inductive Key where
  | type | label | icon | shadowIcon | iconIsTemplate | tooltip | enabled | key | modifiers
  | checked | submenu | click | native | id
  | title | alticon | shadowAlticon | iconsAreTemplates | menu
  | generatedId
  | other (name : String)
  deriving DecidableEq

namespace JsVal

section Env

variable (env : Env)

/-- `Boolean(v)`. -/
def truthy : JsVal → Bool
  | .undefined | .null => false
  | .bool b => b
  | .num n => n ≠ 0
  | .str s => s ≠ ""
  | .other k => env.truthy k

/-- `String(v)`. -/
def string : JsVal → String
  | .undefined => "undefined"
  | .null => "null"
  | .bool b => if b then "true" else "false"
  | .num n => toString n
  | .str s => s
  | .other k => env.string k

/-- `v == s` for a string that is not a number, or is empty. -/
def equals (v : JsVal) (s : String) : Bool :=
  match v with
  | .undefined | .null => false
  | .bool b => s = "" ∧ b = false
  | .num n => s = "" ∧ n = 0
  | .str t => t = s
  | .other k => env.equals k s

/-- `v.id`; `undefined` and `null` have no properties. -/
def id : JsVal → Except String JsVal
  | .undefined => .error "TypeError: Cannot read property 'id' of undefined"
  | .null => .error "TypeError: Cannot read property 'id' of null"
  | .bool _ | .num _ | .str _ => .ok .undefined
  | .other k => .ok (env.id k)

def isFunction : JsVal → Bool
  | .other k => env.isFunction k
  | _ => false

/-- `nwNative.getAbsolutePath(v)`. -/
def absolutePath (v : JsVal) : JsVal := .str (env.absolutePath (v.string env))

end Env

end JsVal

abbrev OptionObject := Object Key JsVal

/-- `option[k]`. -/
def get (o : OptionObject) (k : Key) : JsVal := (o k).getD .undefined

abbrev OptionStmt := Stmt Key JsVal String

/-! ## Kinds of statements -/

/-- `if (option.hasOwnProperty(k)) option.k = f(option.k)`. -/
def convert (k : Key) (f : JsVal → JsVal) : OptionStmt :=
  ⟨k, fun o => .ok ((o k).map f)⟩

/-- `option.k = f(option.k)`, or what an option without the property gets. -/
def convertOr (k : Key) (f : JsVal → JsVal) (v : JsVal) : OptionStmt :=
  ⟨k, fun o => .ok (some ((o k).elim v f))⟩

/-- `if (!option.hasOwnProperty(k)) option.target = v`. -/
def default (k target : Key) (v : JsVal) : OptionStmt :=
  ⟨target, fun o => .ok (if (o k).isSome then none else some v)⟩

/-- `option.shadow = String(option.k)` for an own property `k`. -/
def shadow (env : Env) (k target : Key) : OptionStmt :=
  ⟨target, fun o => .ok ((o k).map fun v => .str (v.string env))⟩

/-- `'click' must be a valid Function`. -/
def checkClick (env : Env) : OptionStmt :=
  ⟨.click, fun o =>
    if (o .click).all (JsVal.isFunction env) then .ok none
    else .error "TypeError: 'click' must be a valid Function"⟩

section Env

variable (env : Env)

/-- `String(v)`, as a value. -/
def toStr (v : JsVal) : JsVal := .str (v.string env)

/-- `Boolean(v)`, as a value. -/
def toBool (v : JsVal) : JsVal := .bool (v.truthy env)

/-! ## `MenuItem` -/

namespace MenuItem

/-- The type is `normal` unless the option has one, and is checked. -/
def typeStmts : List OptionStmt :=
  [default .type .type (.str "normal"),
    ⟨.type, fun o =>
      if ["normal", "checkbox", "separator"].any ((get o .type).equals env) then .ok none
      else .error ("TypeError: Invalid MenuItem type: " ++ (get o .type).string env)⟩]

/-- Normal items and checkboxes. -/
def itemStmts : List OptionStmt :=
  [⟨.checked, fun o => .ok
      (if (get o .type).equals env "checkbox" then some (toBool env (get o .checked)) else none)⟩,
    ⟨.label, fun o =>
      match o .label with
      | none => .error "TypeError: A normal MenuItem must have a label"
      | some label => .ok (some (toStr env label))⟩,
    shadow env .icon .shadowIcon,
    convert .icon (JsVal.absolutePath env),
    convertOr .iconIsTemplate (toBool env) (.bool true),
    convert .tooltip (toStr env),
    convert .enabled (toBool env),
    ⟨.submenu, fun o =>
      match o .submenu with
      | none => .ok none
      | some submenu => (submenu.id env).map some⟩,
    checkClick env]

/-- `All properties must be set after initialization.` -/
def defaultStmts : List OptionStmt :=
  [default .icon .shadowIcon (.str ""),
    default .tooltip .tooltip (.str ""),
    default .enabled .enabled (.bool true),
    default .key .key (.str ""),
    default .modifiers .modifiers (.str "")]

/-- The option that is passed is that of a separator. -/
def isSeparator (o : OptionObject) : Bool := ((o .type).any fun type =>
  type.equals env "separator" && !type.equals env "normal" && !type.equals env "checkbox")

/-- What the constructor does to the object it is passed: for a separator it goes on with
`{ type: 'separator' }`. -/
def stmts (o : OptionObject) : List OptionStmt :=
  typeStmts env ++ if isSeparator env o then [] else itemStmts env ++ defaultStmts

/-- `{ type: 'separator' }`. -/
def separator : OptionObject := set (fun _ => none) .type (.str "separator")

end MenuItem

end Env

/-- What a constructor has made. -/
structure Made where
  id : JsVal
  /-- `privates(this).option`. -/
  store : OptionObject
  /-- The store is not the object that was passed. -/
  own : Bool
  /-- `privates(this).submenu`, or `privates(this).menu`. -/
  menu : Option JsVal
  click : Option JsVal
  /-- What `nw.Obj.create` was given; `none` for an item that is there natively. -/
  created : Option OptionObject

/-- `new MenuItem(option)`, where `nw.Obj.allocateId` would give `allocated`: what becomes of the
option object, and the item or an error. -/
def MenuItem.construct (env : Env) (allocated : Int) (o : OptionObject) :
    OptionObject × Except String Made :=
  match exec o (MenuItem.stmts env o) with
  | (o, some error) => (o, .error error)
  | (option, none) =>
    let own := MenuItem.isSeparator env o
    let store := if own then (exec MenuItem.separator MenuItem.defaultStmts).1 else option
    (option, .ok
      { id := if (get store .id).truthy env then get store .id else .num allocated
        store := store
        own := own
        -- taken before its id replaces it
        menu := if own then none else o .submenu
        click := if own then none else o .click
        created := if (get store .native).truthy env then none else some store })

/-- **A separator is made without the options it was passed.** The check of the type is all that the
options are used for, and the item gets an object with the defaults of a separator instead. -/
theorem construct_separator (env : Env) (allocated : Int) {o : OptionObject}
    (h : o .type = some (.str "separator")) :
    MenuItem.construct env allocated o =
      (o, .ok
        { id := .num allocated
          store := (exec MenuItem.separator MenuItem.defaultStmts).1
          own := true
          menu := none
          click := none
          created := some (exec MenuItem.separator MenuItem.defaultStmts).1 }) := by
  have hseparator : MenuItem.isSeparator env o = true := by
    rw [MenuItem.isSeparator, h]
    rfl
  have hexec : exec o (MenuItem.stmts env o) = (o, none) := by
    rw [MenuItem.stmts, hseparator, if_pos rfl, List.append_nil, MenuItem.typeStmts]
    simp only [exec, default, get, h, Option.isSome_some, if_true, Option.getD_some]
    rfl
  unfold MenuItem.construct
  rw [hexec]
  simp only [hseparator, if_true]
  rfl

/-! ## Documented options -/

inductive ItemKind where
  | normal | checkbox
  deriving DecidableEq

def ItemKind.string : ItemKind → String
  | .normal => "normal"
  | .checkbox => "checkbox"

/-- The options of a normal item or a checkbox. A menu is one of the other values. -/
structure ItemOptions where
  type : Option ItemKind := none
  label : String
  icon : Option String := none
  iconIsTemplate : Option Bool := none
  tooltip : Option String := none
  enabled : Option Bool := none
  checked : Option Bool := none
  submenu : Option Nat := none
  key : Option String := none
  modifiers : Option String := none
  /-- The item is there natively, and has an id. -/
  native : Option Int := none
  deriving DecidableEq

namespace ItemOptions

def kind (options : ItemOptions) : ItemKind := options.type.getD .normal

/-- The options as an object. -/
def toObject (options : ItemOptions) : OptionObject
  | .type => options.type.map fun kind => .str kind.string
  | .label => some (.str options.label)
  | .icon => options.icon.map .str
  | .iconIsTemplate => options.iconIsTemplate.map .bool
  | .tooltip => options.tooltip.map .str
  | .enabled => options.enabled.map .bool
  | .checked => options.checked.map .bool
  | .submenu => options.submenu.map .other
  | .key => options.key.map .str
  | .modifiers => options.modifiers.map .str
  | .native => options.native.map fun _ => .bool true
  | .id => options.native.map .num
  | _ => none

/-- The store of the item before the defaults are set. -/
def converted (env : Env) (options : ItemOptions) : OptionObject
  | .type => some (.str options.kind.string)
  | .icon => options.icon.map fun icon => .str (env.absolutePath icon)
  | .shadowIcon => options.icon.map .str
  | .iconIsTemplate => some (.bool (options.iconIsTemplate.getD true))
  | .checked =>
    match options.kind with
    | .normal => options.checked.map .bool
    | .checkbox => some (.bool (options.checked.getD false))
  | .submenu => options.submenu.map env.id
  | k => options.toObject k

/-- The store of the item. -/
def store (env : Env) (options : ItemOptions) : OptionObject
  | .shadowIcon => some (.str (options.icon.getD ""))
  | .tooltip => some (.str (options.tooltip.getD ""))
  | .enabled => some (.bool (options.enabled.getD true))
  | .key => some (.str (options.key.getD ""))
  | .modifiers => some (.str (options.modifiers.getD ""))
  | k => options.converted env k

variable (env : Env) (options : ItemOptions)

theorem isSeparator_toObject : MenuItem.isSeparator env options.toObject = false := by
  unfold MenuItem.isSeparator toObject
  cases options.type with
  | none => rfl
  | some kind => cases kind <;> rfl

/-- Every statement brings its property to what it is before the defaults are set. -/
theorem stages_itemStmts :
    Stages options.toObject (options.converted env) []
      (MenuItem.typeStmts env ++ MenuItem.itemStmts env) := by
  obtain ⟨type, label, icon, isTemplate, tooltip, enabled, checked, submenu, key, modifiers,
    native⟩ := options
  refine ⟨?type, ?check, ?checked, ⟨_, rfl, rfl⟩, ?shadowIcon, ?icon, ?isTemplate, ?tooltip,
    ?enabled, ?submenu, ⟨none, rfl, rfl⟩, trivial⟩
  -- without a type the item is a normal one
  case type =>
    refine ⟨_, rfl, ?_⟩
    cases type with
    | none => rfl
    | some kind => cases kind <;> rfl
  case check =>
    refine ⟨none, ?_, rfl⟩
    cases type with
    | none => rfl
    | some kind => cases kind <;> rfl
  -- `checked` is for checkboxes only
  case checked =>
    refine ⟨_, rfl, ?_⟩
    cases type with
    | none => cases checked <;> rfl
    | some kind => cases kind <;> cases checked <;> rfl
  case shadowIcon =>
    refine ⟨_, rfl, ?_⟩
    cases icon <;> rfl
  case icon =>
    refine ⟨_, rfl, ?_⟩
    cases icon <;> rfl
  case isTemplate =>
    refine ⟨_, rfl, ?_⟩
    cases isTemplate <;> rfl
  case tooltip =>
    refine ⟨_, rfl, ?_⟩
    cases tooltip <;> rfl
  case enabled =>
    refine ⟨_, rfl, ?_⟩
    cases enabled <;> rfl
  case submenu =>
    cases submenu with
    | none => exact ⟨none, rfl, rfl⟩
    | some menu => exact ⟨_, rfl, rfl⟩

/-- The conversions of documented options throw nothing and leave the converted values, property by
property. -/
theorem exec_itemStmts :
    exec options.toObject (MenuItem.typeStmts env ++ MenuItem.itemStmts env) =
      (options.converted env, none) := by
  refine exec_stages (stages_itemStmts env options) fun k hk => ?_
  have hkeys : k ∉ [Key.type, .type, .checked, .label, .shadowIcon, .icon, .iconIsTemplate,
      .tooltip, .enabled, .submenu, .click] := by
    intro hmem
    have hmap : k ∈ (MenuItem.typeStmts env ++ MenuItem.itemStmts env).map Stmt.key := hmem
    obtain ⟨s, hs, heq⟩ := List.mem_map.mp hmap
    exact hk s hs heq
  cases k <;> first | rfl | exact absurd (by decide) hkeys

/-- The defaults come after the conversions and fill in what the page has left out. -/
theorem exec_defaultStmts :
    exec (options.converted env) MenuItem.defaultStmts = (options.store env, none) := by
  obtain ⟨type, label, icon, isTemplate, tooltip, enabled, checked, submenu, key, modifiers,
    native⟩ := options
  refine exec_stages ⟨?icon, ?tooltip, ?enabled, ?key, ?modifiers, trivial⟩ fun k hk => ?_
  case icon => cases icon <;> exact ⟨_, rfl, rfl⟩
  case tooltip => cases tooltip <;> exact ⟨_, rfl, rfl⟩
  case enabled => cases enabled <;> exact ⟨_, rfl, rfl⟩
  case key => cases key <;> exact ⟨_, rfl, rfl⟩
  case modifiers => cases modifiers <;> exact ⟨_, rfl, rfl⟩
  have hkeys : k ∉ [Key.shadowIcon, .tooltip, .enabled, .key, .modifiers] := by
    intro hmem
    have hmap : k ∈ MenuItem.defaultStmts.map Stmt.key := hmem
    obtain ⟨s, hs, heq⟩ := List.mem_map.mp hmap
    exact hk s hs heq
  cases k <;> first | rfl | exact absurd (by decide) hkeys

/-- The item that is made of the options. -/
def made (allocated : Int) : Made where
  id :=
    match options.native with
    | some id => if id ≠ 0 then .num id else .num allocated
    | none => .num allocated
  store := options.store env
  own := false
  menu := options.submenu.map .other
  click := none
  created := if options.native.isSome then none else some (options.store env)

/-- **The item that is made of documented options.** Its store has the converted values and the
defaults, and it has a native item unless `native` says that there is one already. -/
theorem construct_options (allocated : Int) :
    MenuItem.construct env allocated options.toObject =
      (options.store env, .ok (options.made env allocated)) := by
  have hexec : exec options.toObject (MenuItem.stmts env options.toObject) =
      (options.store env, none) := by
    unfold MenuItem.stmts
    rw [isSeparator_toObject, if_neg nofun, ← List.append_assoc, exec_append (exec_itemStmts ..),
      exec_defaultStmts]
  unfold MenuItem.construct
  rw [hexec]
  simp only [isSeparator_toObject, Bool.false_eq_true, if_false]
  obtain ⟨type, label, icon, isTemplate, tooltip, enabled, checked, submenu, key, modifiers,
    native⟩ := options
  cases native with
  | none => rfl
  | some id =>
    by_cases hid : id = 0
    · subst hid
      rfl
    · simp [made, get, store, converted, toObject, hid, JsVal.truthy]

end ItemOptions

end NodeWebkit.Options
