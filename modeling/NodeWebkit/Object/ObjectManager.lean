import Mathlib.Algebra.Group.Int.Defs
import Mathlib.Logic.Function.Basic
import Mathlib.Data.Finset.Erase
import Mathlib.Data.Finset.Insert

/-!
# nw.Obj — the object registry and the constructors that feed it

`ObjectManager` keeps one static registry for the objects of every browser context and every
class. A JavaScript constructor takes an id from somewhere, asks the manager of its own context
to create the native object under that id, and binds a finalizer that destroys the id:

* `Menu` and `MenuItem` take their id from `ObjectManager::AllocateId`, a `MenuItem` only where
  its option object brings none;
* `Tray` and `MediaRecorder` take theirs from `contextMenuNatives.GetNextContextMenuId`, a
  counter of its own that is not part of this repository and is a parameter here.

A JavaScript object is named by the number of the constructor call that made it. A call that
throws makes nothing; only the checks on the option object are written out.
-/

namespace NodeWebkit.Object

/-! ## The JavaScript constructors -/

/-- The classes the constructors pass to `nw.Obj.create`. -/
inductive ObjectType where
  | menu | menuItem | tray | mediaRecorder
  deriving DecidableEq

/-- Where a constructor takes its id from. -/
inductive IdSource where
  | allocateId
  | getNextContextMenuId
  | option (id : Int)
  deriving DecidableEq

/-- `typeof`. -/
inductive JsType where
  | undefined | object | boolean | number | string | symbol | function
  deriving DecidableEq

structure MenuOption where
  type : Option String

structure MenuItemOption where
  type : Option String := none
  label : Option String := none
  click : Option JsType := none
  /-- Zero where the option has no id: both are false for `||`. -/
  id : Int := 0
  native : Bool := false

structure TrayOption where
  title : Option String := none
  icon : Option String := none
  click : Option JsType := none
  /-- `option.menu.constructor.name`. -/
  menu : Option String := none

/-- What a constructor does once its option object has passed: the class it creates, the id it
takes and whether it leaves `nw.Obj.create` out. -/
structure Creation where
  type : ObjectType
  idSource : IdSource
  native : Bool

/-- `'Invalid menu type: ' + option.type`: an absent property prints as `undefined`. -/
def typeText (type : Option String) : String := type.getD "undefined"

def menu (option : Option MenuOption) : Except String Creation :=
  let type := match option with
    | none => some "contextmenu"
    | some option => option.type
  if type ≠ some "contextmenu" ∧ type ≠ some "menubar" then
    .error ("Invalid menu type: " ++ typeText type)
  else .ok ⟨.menu, .allocateId, false⟩

def menuItem (option : Option MenuItemOption) : Except String Creation :=
  match option with
  | none => .error "Invalid option."
  | some option =>
    let type := option.type.getD "normal"
    if type ≠ "normal" ∧ type ≠ "checkbox" ∧ type ≠ "separator" then
      .error ("Invalid MenuItem type: " ++ type)
    else if type = "separator" then
      -- a separator replaces the option object: its id and its native mark are gone
      .ok ⟨.menuItem, .allocateId, false⟩
    else if option.label = none then .error "A normal MenuItem must have a label"
    else if ∃ click ∈ option.click, click ≠ .function then
      .error "'click' must be a valid Function"
    else .ok ⟨.menuItem, if option.id = 0 then .allocateId else .option option.id, option.native⟩

def tray (option : Option TrayOption) : Except String Creation :=
  match option with
  | none => .error "Invalid option."
  | some option =>
    if option.title = none ∧ option.icon = none then
      .error "Must set 'title' or 'icon' field in option"
    else if ∃ click ∈ option.click, click ≠ .function then
      .error "'click' must be a valid Function"
    else if ∃ menu ∈ option.menu, menu ≠ "Menu" then .error "'menu' must be a valid Menu"
    else .ok ⟨.tray, .getNextContextMenuId, false⟩

def mediaRecorder : Creation := ⟨.mediaRecorder, .getNextContextMenuId, false⟩

/-- A call of one of the four constructors. -/
inductive Constructor where
  | menu (option : Option MenuOption)
  | menuItem (option : Option MenuItemOption)
  | tray (option : Option TrayOption)
  | mediaRecorder

def Constructor.run : Constructor → Except String Creation
  | .menu option => Object.menu option
  | .menuItem option => Object.menuItem option
  | .tray option => Object.tray option
  | .mediaRecorder => .ok Object.mediaRecorder

/-! ## The native side -/

/-- A native object. `owner` is the JavaScript object it was created for and `idSource` where
that one took the id; the code reads neither. -/
structure Base where
  type : ObjectType
  objectManager : Nat
  delayDestruction : Bool
  pendingDestruction : Bool
  owner : Nat
  idSource : IdSource
  deriving DecidableEq

/-- A JavaScript object that has not been collected. -/
structure JsObject where
  id : Int
  type : ObjectType
  context : Nat
  native : Bool
  deriving DecidableEq

/-- The static members of `ObjectManager`, the managers of all contexts, and the JavaScript
objects that hold ids. -/
structure World where
  nextObjectId : Int := 0
  objectsRegistry : Int → Option Base := fun _ => none
  /-- `objects_` of the manager of each context. -/
  objects : Nat → Finset Int := fun _ => ∅
  /-- How many values `GetNextContextMenuId` has returned. -/
  contextMenuIds : Nat := 0
  owners : Nat → Option JsObject := fun _ => none
  /-- How many JavaScript objects were made. -/
  made : Nat := 0

namespace World

/-- `GetApiObject`. -/
def getApiObject (self : World) (id : Int) : Option Base := self.objectsRegistry id

/-- `AddWithID`: an object already there is displaced and from then on reached by no id. -/
def addWithID (self : World) (id : Int) (object : Base) : World :=
  { self with objectsRegistry := Function.update self.objectsRegistry id (some object) }

def onAllocateObject (self : World) (manager : Nat) (id : Int) (object : Base) : World :=
  let self := self.addWithID id object
  { self with objects := Function.update self.objects manager (insert id (self.objects manager)) }

def onDeallocateObject (self : World) (manager : Nat) (id : Int) : World :=
  match self.getApiObject id with
  | some obj =>
    if obj.delayDestruction then
      self.addWithID id { obj with pendingDestruction := true }
    else
      { self with
        objectsRegistry := Function.update self.objectsRegistry id none
        objects := Function.update self.objects manager ((self.objects manager).erase id) }
  | none =>
    { self with objects := Function.update self.objects manager ((self.objects manager).erase id) }

/-- `~ObjectManager`, together with the context it belongs to: the context's JavaScript objects
go with it, without their finalizers. -/
def shutdown (self : World) (manager : Nat) : World :=
  { self with
    objectsRegistry := fun id =>
      if id ∈ self.objects manager then none else self.objectsRegistry id
    objects := Function.update self.objects manager ∅
    owners := fun p => (self.owners p).filter fun o => o.context ≠ manager }

/-! ## Operations of the JavaScript objects -/

section Operations

-- The values of `contextMenuNatives.GetNextContextMenuId`, in the order of the calls.
variable (contextMenuId : Nat → Int)

/-- The id the next constructor call gets from a source. -/
def nextId (self : World) : IdSource → Int
  | .allocateId => self.nextObjectId + 1
  | .getNextContextMenuId => contextMenuId self.contextMenuIds
  | .option id => id

/-- Taking an id. `++next_object_id_` has no defined value at the end of `int`, so there is no
step there. -/
def takeId (self : World) : IdSource → Option World
  | .allocateId =>
    if self.nextObjectId + 1 < 2 ^ 31 then
      some { self with nextObjectId := self.nextObjectId + 1 }
    else none
  | .getNextContextMenuId => some { self with contextMenuIds := self.contextMenuIds + 1 }
  | .option _ => some self

/-- The end of a constructor: takes the id, creates the native object unless the option says it
is native already, and binds the finalizer. -/
def create (self : World) (context : Nat) (c : Creation) : Option World :=
  let id := self.nextId contextMenuId c.idSource
  (self.takeId c.idSource).map fun self =>
    let owner := self.made
    let self := { self with
      owners := Function.update self.owners owner (some ⟨id, c.type, context, c.native⟩)
      made := owner + 1 }
    if c.native then self
    else self.onAllocateObject context id ⟨c.type, context, false, false, owner, c.idSource⟩

/-- The object is collected and the finalizer bound by `BindToGC` destroys its id. -/
def destroy (self : World) (owner : Nat) : World :=
  match self.owners owner with
  | some obj =>
    let self := { self with owners := Function.update self.owners owner none }
    self.onDeallocateObject obj.context obj.id
  | none => self

/-- `Menu::Popup` up to the nested message loop. -/
def popupBegin (self : World) (owner : Nat) : World :=
  match (self.owners owner).bind fun obj =>
      (self.getApiObject obj.id).map fun b => (obj.id, b) with
  | some (id, b) =>
    if b.type = .menu then self.addWithID id { b with delayDestruction := true } else self
  | none => self

/-- `Menu::Popup` after the nested message loop, for the menu registered under the id. -/
def popupEnd (self : World) (id : Int) : Option World :=
  match self.getApiObject id with
  | some b =>
    if b.delayDestruction then
      let self := self.addWithID id { b with delayDestruction := false }
      some (if b.pendingDestruction then self.onDeallocateObject b.objectManager id else self)
    else none
  | none => none

/-- What happens to the registry, in any context. -/
inductive Op where
  | construct (context : Nat) (c : Constructor)
  /-- `nw.Obj.callObjectMethod(this.id, ...)` by the object; the method itself works on the
  native object it reaches. -/
  | callObjectMethod (owner : Nat)
  | popupBegin (owner : Nat)
  | popupEnd (id : Int)
  | destroy (owner : Nat)
  | shutdown (manager : Nat)

def step (self : World) : Op → Option World
  | .construct context c =>
    match c.run with
    | .ok c => self.create contextMenuId context c
    | .error _ => some self
  | .callObjectMethod _ => some self
  | .popupBegin owner => some (self.popupBegin owner)
  | .popupEnd id => self.popupEnd id
  | .destroy owner => some (self.destroy owner)
  | .shutdown manager => some (self.shutdown manager)

end Operations

end World

end NodeWebkit.Object
