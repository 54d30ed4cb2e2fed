import NodeWebkit.Menus.MenuGraph
import NodeWebkit.Options.Constructors

/-!
# Native menu items

On Windows and Linux a `MenuItem` of the page has a native one (`menuitem_views.cc`), which reads
the options it is created with (`create`), and is called by the setters (`call`). The model of a
menu has an entry for each of its items (`entry`).

* **`getKeycodeFromText`** — the key code of an option `key`;
* **`NativeItem`** — the native item, `create` and `call`;
* **`PageItem`** — the item of the page with its native one: `construct`, `assign` and `getter`.

`Platform` stands for what is not in the repository. `Menu::UpdateStates`, which setters call, is
empty. The menu that an id names is there natively.
-/

namespace NodeWebkit.Options

open JsObject
open NodeWebkit.Menus (EntryType)

structure Platform (Image : Type) where
  /-- `DomCodeToUsLayoutKeyboardCode(CodeStringToDomCode(name))`; `VKEY_UNKNOWN` is 0. -/
  keyboardCode : String → Nat
  /-- The resized image of a file. -/
  getImage : String → Option Image

/-! ## Keys -/

def keymap : String → Option String
  | "`" => some "Backquote"
  | "\\" => some "Backslash"
  | "[" => some "BracketLeft"
  | "]" => some "BracketRight"
  | "," => some "Comma"
  | "=" => some "Equal"
  | "-" => some "Minus"
  | "." => some "Period"
  | "'" => some "Quote"
  | ";" => some "Semicolon"
  | "/" => some "Slash"
  | "\n" => some "Enter"
  | "\t" => some "Tab"
  | "UP" => some "ArrowUp"
  | "DOWN" => some "ArrowDown"
  | "LEFT" => some "ArrowLeft"
  | "RIGHT" => some "ArrowRight"
  | "ESC" => some "Escape"
  | "MEDIANEXTTRACK" => some "MediaTrackNext"
  | "MEDIAPREVTRACK" => some "MediaTrackPrevious"
  | _ => none

/-- The name of the key of a text. -/
def keyName (text : String) : String :=
  let upperText := text.map Char.toUpper
  match upperText.toList with
  | [key] =>
    if '0' ≤ key ∧ key ≤ '9' then "Digit" ++ upperText
    else if 'A' ≤ key ∧ key ≤ 'Z' then "Key" ++ upperText
    else (keymap upperText).getD text
  | _ => (keymap upperText).getD text

structure Modifiers where
  control : Bool := false
  shift : Bool := false
  alt : Bool := false
  command : Bool := false
  deriving DecidableEq

structure Accelerator where
  keyCode : Nat := 0
  modifiers : Modifiers := {}
  deriving DecidableEq

/-- `text.find(pattern) != std::string::npos`. -/
def finds (text pattern : String) : Bool := decide (pattern.toList <:+: text.toList)

def readModifiers (modifiers : String) : Modifiers where
  control := finds modifiers "ctrl"
  shift := finds modifiers "shift"
  alt := finds modifiers "alt"
  command := finds modifiers "super" || finds modifiers "cmd" || finds modifiers "command"

/-! ## Values of a dictionary -/

def getString : Option JsVal → Option String
  | some (.str s) => some s
  | _ => none

def getBoolean : Option JsVal → Option Bool
  | some (.bool b) => some b
  | _ => none

def getInteger : Option JsVal → Option Int
  | some (.num n) => some n
  | _ => none

/-! ## The native item -/

structure NativeItem (Image : Type) where
  /-- `is_modified_`: the model shows `label_`, and not the label of the entry. -/
  isModified : Bool := false
  isChecked : Bool := false
  isEnabled : Bool := true
  icon_ : Option Image := none
  type_ : String := "normal"
  label_ : String := ""
  tooltip_ : String := ""
  /-- The id of the submenu. -/
  submenu_ : Option Int := none
  enableShortcut : Bool := false
  accelerator_ : Accelerator := {}
  metaDownFlag : Bool := false

/-- The methods that setters call. -/
inductive Method where
  | setLabel | setIcon | setIconIsTemplate | setTooltip | setEnabled | setChecked | setSubmenu
  | setKey | setModifiers
  deriving DecidableEq

/-- An entry of `menu_model_`, its command apart. -/
structure LabelledEntry where
  type : EntryType
  label : String
  submenu : Option Int
  deriving DecidableEq

section Platform

variable {Image : Type} (platform : Platform Image)

def getKeycodeFromText (text : String) : Nat :=
  if text = "" then 0 else platform.keyboardCode (keyName text)

namespace NativeItem

def setIcon (self : NativeItem Image) (icon : String) : NativeItem Image :=
  let self := { self with isModified := true }
  if icon = "" then { self with icon_ := none }
  else
    match platform.getImage icon with
    | some image => { self with icon_ := some image }
    | none => self

/-- The shortcut of the options `key` and `modifiers`. -/
def createShortcut (self : NativeItem Image) (key modifiers : String) : NativeItem Image :=
  let keyval := getKeycodeFromText platform key
  if keyval = 0 then { self with enableShortcut := false }
  else
    { self with
      enableShortcut := true
      accelerator_ := ⟨keyval, readModifiers modifiers⟩
      metaDownFlag := self.metaDownFlag || finds modifiers "meta" }

/-- `MenuItem::Create`. -/
def create (option : OptionObject) : NativeItem Image :=
  let self : NativeItem Image :=
    { type_ := (getString (option .type)).getD "normal"
      label_ := (getString (option .label)).getD ""
      tooltip_ := (getString (option .tooltip)).getD ""
      isChecked := (getBoolean (option .checked)).getD false
      isEnabled := (getBoolean (option .enabled)).getD true }
  let self := self.createShortcut platform ((getString (option .key)).getD "")
    ((getString (option .modifiers)).getD "")
  let self :=
    match getString (option .icon) with
    | none => self
    | some icon => if icon = "" then self else self.setIcon platform icon
  match getInteger (option .submenu) with
  | none => self
  | some menuId => { self with submenu_ := some menuId }

/-- `MenuItem::Call`. -/
def call (self : NativeItem Image) (method : Method) (argument : JsVal) : NativeItem Image :=
  match method with
  | .setLabel =>
    { self with isModified := true, label_ := (getString (some argument)).getD "" }
  | .setIcon => self.setIcon platform ((getString (some argument)).getD "")
  | .setIconIsTemplate => self
  | .setTooltip =>
    { self with isModified := true, tooltip_ := (getString (some argument)).getD "" }
  | .setEnabled => { self with isEnabled := (getBoolean (some argument)).getD true }
  | .setChecked => { self with isChecked := (getBoolean (some argument)).getD false }
  | .setSubmenu => { self with submenu_ := some ((getInteger (some argument)).getD 0) }
  -- only on Mac; here the call is not known
  | .setKey | .setModifiers => self

/-- The item, but for the flag. -/
def unmodified (self : NativeItem Image) : NativeItem Image := { self with isModified := false }

/-- The entry that `Menu::Append` and `Menu::Insert` make. -/
def entry (self : NativeItem Image) : Option LabelledEntry :=
  if self.submenu_.isSome then some ⟨.submenu, self.label_, self.submenu_⟩
  else if self.type_ = "normal" then some ⟨.command, self.label_, none⟩
  else if self.type_ = "checkbox" then some ⟨.check, self.label_, none⟩
  else if self.type_ = "separator" then some ⟨.separator, "", none⟩
  else none

/-- The label that the model shows for an entry of the item: `IsItemForCommandIdDynamic` and
`GetLabelForCommandId`. -/
def shownLabel (self : NativeItem Image) (entry : LabelledEntry) : String :=
  if self.isModified then self.label_ else entry.label

end NativeItem

/-! ## The item of the page -/

structure PageItem (Image : Type) where
  /-- `privates(this).option`. -/
  store : OptionObject
  /-- `privates(this).submenu`. -/
  submenu : Option JsVal
  native : NativeItem Image

namespace PageItem

variable (env : Env)

/-- `new MenuItem(option)` for an item that is created natively; its id plays no part. -/
def construct (o : OptionObject) : Except String (PageItem Image) :=
  (MenuItem.construct env 1 o).2.map fun made =>
    { store := made.store
      submenu := made.menu
      native := NativeItem.create platform (made.created.getD made.store) }

/-- The call of a setter that does not throw. -/
def setterCall (k : Key) (v : JsVal) : Option (Method × JsVal) :=
  match k with
  | .label => some (.setLabel, toStr env v)
  | .icon => some (.setIcon, Class.realPath env v)
  | .iconIsTemplate => some (.setIconIsTemplate, toBool env v)
  | .tooltip => some (.setTooltip, toStr env v)
  | .key => some (.setKey, toStr env v)
  | .modifiers => some (.setModifiers, toStr env v)
  | .checked => some (.setChecked, toBool env v)
  | .enabled => some (.setEnabled, toBool env v)
  | .submenu => some (.setSubmenu, ((v.id env).toOption).getD .undefined)
  | _ => none

/-- `item.k = v`. -/
def assign (self : PageItem Image) (k : Key) (v : JsVal) : PageItem Image :=
  let (store, thrown) := exec self.store (Class.setter env .menuItem k v)
  { store := store
    -- set before a value without an id throws
    submenu := if k = .submenu then some v else self.submenu
    native :=
      match thrown, setterCall env k v with
      | none, some (method, argument) => self.native.call platform method argument
      | _, _ => self.native }

/-- `item.k`; the item has no properties of its own. -/
def getter (self : PageItem Image) (k : Key) : JsVal :=
  Class.getter env .menuItem self.store self.submenu (some self.native.isChecked) (fun _ => none) k

end PageItem

end Platform

end NodeWebkit.Options
