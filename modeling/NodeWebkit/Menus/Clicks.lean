import NodeWebkit.Lib.Run
import Mathlib.Data.List.Basic
import Mathlib.Logic.Function.Basic

/-!
# Clicks on menu items

A click reaches a native `MenuItem` through the menu that shows it or by its accelerator. It flips a
checkbox and is sent as an event to every script context of the extension that made the item; each
context takes its events in turn, looks the id up among the items it has made itself, and calls the
item's `click` and its listeners.

An item is found by its id, on both sides. A constructor takes the `id` of its option where there is
one, and with `native` it leaves the native side alone, so nothing in the code keeps two contexts
from having items with one id. `FreshId` asks that of the constructor calls.

* **`World.onClick`** — the native side of a click;
* **`Context.deliver`** — the script's side;
* **`clicks_delivered`** — in whatever order scripts, clicks and events come, a context that is
  still there has handled the clicks on its own items, each one once and in their order, but for
  those that wait in its queue; no other context handles them; and an item is checked by what was
  assigned to it last and the clicks since.

## The invariant

An event carries the id of its item and nothing about who made it, so what makes it find the right
item is that no id is used twice. **`World.Inv`** keeps the ids that were ever used, and says of
each place where an id stands (the items, the queues, the objects of the contexts, the clicks)
that it is one of them. `Delivered` is the equation between what a context has handled, what waits
in its queue, and the clicks on its own items; `Flipped` that between an item and its clicks.
-/

namespace NodeWebkit.Menus

open Lts

namespace Clicks

/-- The types that the constructor lets pass. -/
inductive ItemType where
  | normal | checkbox | separator
  deriving DecidableEq

/-- What the constructor is given of an item. -/
structure ItemOption where
  type : ItemType
  checked : Option Bool := none
  enabled : Option Bool := none
  /-- There is a key code for the `key`. -/
  hasKey : Bool := false
  /-- `meta` is among the `modifiers`. -/
  hasMeta : Bool := false
  /-- Zero where the option has no id: both are false for `||`. -/
  id : Int := 0
  native : Bool := false
  deriving DecidableEq

/-- The native item. -/
structure Item where
  type : ItemType
  isChecked : Bool
  isEnabled : Bool
  enableShortcut : Bool
  metaDownFlag : Bool
  extensionId : String
  /-- What `checked` was when the item was made or assigned last; the code has no such field. -/
  assigned : Bool
  /-- The clicks since then; the code has no such field. -/
  clicks : Nat := 0
  deriving DecidableEq

/-- Of the option of a separator the script keeps the type only. -/
def ItemOption.kept (option : ItemOption) : ItemOption :=
  if option.type = .separator then { type := .separator } else option

/-- `MenuItem::Create`; the modifiers are read where there is a key. -/
def Item.create (extensionId : String) (option : ItemOption) : Item :=
  { type := option.type
    isChecked := option.checked.getD false
    isEnabled := option.enabled.getD true
    enableShortcut := option.hasKey
    metaDownFlag := option.hasKey && option.hasMeta
    extensionId := extensionId
    assigned := option.checked.getD false }

/-- The flip of `MenuItem::OnClick`. -/
def Item.flip (self : Item) : Item :=
  { self with
    isChecked := if self.type = .checkbox then !self.isChecked else self.isChecked
    clicks := self.clicks + 1 }

/-- `SetChecked` -/
def Item.setChecked (self : Item) (checked : Bool) : Item :=
  { self with isChecked := checked, assigned := checked, clicks := 0 }

def Item.setEnabled (self : Item) (enabled : Bool) : Item :=
  { self with isEnabled := enabled }

/-- A script context that has loaded `nw.Menu`. -/
structure Context where
  extensionId : String
  /-- The keys of `menuItems.objs`. -/
  objs : List Int := []
  /-- The events that were sent and not yet taken. -/
  queue : List Int := []
  /-- The items whose `click` was called, and whose listeners were. -/
  handled : List Int := []
  deriving DecidableEq

/-- The listener of `NWObjectclick`, with the first event of the queue. -/
def Context.deliver (self : Context) : Option Context :=
  match self.queue with
  | [] => none
  | id :: queue =>
    some { self with
      queue := queue
      handled := if id ∈ self.objs then self.handled ++ [id] else self.handled }

structure World where
  items : Int → Option Item := fun _ => none
  /-- `next_object_id_` -/
  nextObjectId : Int := 0
  contexts : Nat → Option Context := fun _ => none
  /-- The ids of all objects that were made; the code has no such field. -/
  used : List Int := []
  /-- The ids of all clicks; the code has no such field. -/
  clicked : List Int := []

inductive Op where
  | load (context : Nat) (extensionId : String)
  | unload (context : Nat)
  | create (context : Nat) (option : ItemOption)
  /-- An object of another class takes an id, from `AllocateId` or from elsewhere. -/
  | createOther (id : Option Int)
  | setChecked (context : Nat) (id : Int) (checked : Bool)
  | setEnabled (context : Nat) (id : Int) (enabled : Bool)
  | executeCommand (commandId : Int)
  /-- `appsDown`: the key `VK_APPS` is down. -/
  | acceleratorPressed (id : Int) (appsDown : Bool)
  | deliver (context : Nat)
  deriving DecidableEq

namespace World

/-- `SendEvent` -/
def sendEvent (self : World) (extensionId : String) (id : Int) : World :=
  { self with
    contexts := fun context => (self.contexts context).map fun c =>
      if c.extensionId = extensionId then { c with queue := c.queue ++ [id] } else c }

/-- `MenuItem::OnClick` -/
def onClick (self : World) (id : Int) (item : Item) : World :=
  let self :=
    { self with
      items := Function.update self.items id (some item.flip)
      clicked := self.clicked ++ [id] }
  self.sendEvent item.extensionId id

/-- `option.id || nw.Obj.allocateId()` -/
def newId (self : World) (option : ItemOption) : Int :=
  if option.kept.id = 0 then self.nextObjectId + 1 else option.kept.id

/-- `new nw.MenuItem(option)`: the item is entered in `menuItems.objs`, and `nw.Obj.create` makes
the native one, displacing one with the same id, unless the option says that it is native. -/
def create (self : World) (context : Nat) (option : ItemOption) : Option World :=
  (self.contexts context).map fun c =>
    let id := self.newId option
    { self with
      nextObjectId := if option.kept.id = 0 then self.nextObjectId + 1 else self.nextObjectId
      items :=
        if option.kept.native then self.items
        else Function.update self.items id (some (Item.create c.extensionId option.kept))
      used := self.used ++ [id]
      contexts := Function.update self.contexts context (some { c with objs := c.objs ++ [id] }) }

/-- `OnAllocateObject` for an object that is no menu item. -/
def createOther (self : World) (id : Option Int) : World :=
  let newId := id.getD (self.nextObjectId + 1)
  { self with
    nextObjectId := if id.isNone then self.nextObjectId + 1 else self.nextObjectId
    items := Function.update self.items newId none
    used := self.used ++ [newId] }

/-- A setter of an item that the context has made; without a native item it does nothing. -/
def assign (self : World) (context : Nat) (id : Int) (set : Item → Item) : Option World :=
  (self.contexts context).bind fun c =>
    if id ∈ c.objs then
      match self.items id with
      | some item => some { self with items := Function.update self.items id (some (set item)) }
      | none => some self
    else none

/-- The setter of `checked` throws for an item that is no checkbox. -/
def setChecked (checked : Bool) (item : Item) : Item :=
  if item.type = .checkbox then item.setChecked checked else item

/-- `MenuDelegate::ExecuteCommand` -/
def executeCommand (self : World) (commandId : Int) : World :=
  if commandId < 0 then self
  else (self.items commandId).elim self (self.onClick commandId)

section Step

-- The process runs on Windows, where `AcceleratorPressed` looks at `meta_down_flag_`.
variable (isWin : Bool)

/-- The accelerator of an item that can handle it, by `CanHandleAccelerators`; one with `meta` is
dropped while `VK_APPS` is up. -/
def acceleratorPressed (self : World) (id : Int) (appsDown : Bool) : Option World :=
  (self.items id).bind fun item =>
    if item.enableShortcut ∧ item.isEnabled then
      if isWin ∧ item.metaDownFlag ∧ ¬ appsDown then some self else some (self.onClick id item)
    else none

def step (s : World) : Op → Option World
  | .load context extensionId =>
    some { s with
      contexts := Function.update s.contexts context (some { extensionId := extensionId }) }
  | .unload context => some { s with contexts := Function.update s.contexts context none }
  | .create context option => s.create context option
  | .createOther id => some (s.createOther id)
  | .setChecked context id checked => s.assign context id (setChecked checked)
  | .setEnabled context id enabled => s.assign context id (·.setEnabled enabled)
  | .executeCommand commandId => some (s.executeCommand commandId)
  | .acceleratorPressed id appsDown => s.acceleratorPressed isWin id appsDown
  | .deliver context =>
    (s.contexts context).bind fun c => c.deliver.map fun c =>
      { s with contexts := Function.update s.contexts context (some c) }

end Step

/-- A constructor gets an id that no object was made with. -/
def FreshId (s : World) : Op → Prop
  | .create _ option => s.newId option ∉ s.used
  | .createOther id => id.getD (s.nextObjectId + 1) ∉ s.used
  | _ => True

instance (s : World) : DecidablePred s.FreshId
  | .create _ option => inferInstanceAs (Decidable (s.newId option ∉ s.used))
  | .createOther id => inferInstanceAs (Decidable (id.getD (s.nextObjectId + 1) ∉ s.used))
  | .load .. | .unload _ | .setChecked .. | .setEnabled .. | .executeCommand _
  | .acceleratorPressed .. | .deliver _ => inferInstanceAs (Decidable True)

/-! ## What every step keeps -/

/-- The clicks on the items of a context are handled or wait, each one once and in order. -/
def Delivered (s : World) (c : Context) : Prop :=
  c.handled ++ c.queue.filter (· ∈ c.objs) = s.clicked.filter (· ∈ c.objs)

/-- An item is checked by its last assignment and the clicks since. -/
def Flipped (item : Item) : Prop :=
  item.isChecked = (item.assigned ^^ (decide (item.type = .checkbox) && item.clicks % 2 == 1))

structure Inv (s : World) : Prop where
  items : ∀ id item, s.items id = some item → id ∈ s.used
  clicked : ∀ id ∈ s.clicked, id ∈ s.used
  queued : ∀ context c, s.contexts context = some c → ∀ id ∈ c.queue, id ∈ s.used
  objs : ∀ context c, s.contexts context = some c → ∀ id ∈ c.objs, id ∈ s.used
  /-- The events of a context's items are sent to its extension. -/
  made : ∀ context c, s.contexts context = some c → ∀ id ∈ c.objs,
    ∀ item, s.items id = some item → item.extensionId = c.extensionId
  apart : ∀ context context' c c', context ≠ context' → s.contexts context = some c →
    s.contexts context' = some c' → ∀ id ∈ c.objs, id ∉ c'.objs
  delivered : ∀ context c, s.contexts context = some c → s.Delivered c
  flipped : ∀ id item, s.items id = some item → Flipped item

variable {s t : World}

/-- Of what a context has handled it has made all: what is handled is a part of the clicks on its
own items. -/
theorem Delivered.mem_objs {c : Context} (h : s.Delivered c) {id : Int} (hmem : id ∈ c.handled) :
    id ∈ c.objs := by
  have hfilter : id ∈ s.clicked.filter (· ∈ c.objs) := h ▸ List.mem_append_left _ hmem
  exact of_decide_eq_true (List.mem_filter.mp hfilter).2

theorem flipped_create (extensionId : String) (option : ItemOption) :
    Flipped (Item.create extensionId option) := by
  unfold Flipped
  show _ = (_ ^^ (_ && false))
  rw [Bool.and_false, Bool.xor_false]
  rfl

theorem odd_succ (n : Nat) : ((n + 1) % 2 == 1) = !(n % 2 == 1) := by
  rcases Nat.mod_two_eq_zero_or_one n with h | h
  · rw [Nat.add_mod, h]
    rfl
  · rw [Nat.add_mod, h]
    rfl

/-- A click flips a checkbox, and leaves an item of another type checked as it was. Both sides of
the equation change together. -/
theorem Flipped.flip {item : Item} (h : Flipped item) : Flipped item.flip := by
  unfold Flipped at h ⊢
  show (if item.type = .checkbox then !item.isChecked else item.isChecked) =
    (item.assigned ^^ (decide (item.type = .checkbox) && (item.clicks + 1) % 2 == 1))
  rw [odd_succ, h]
  by_cases htype : item.type = .checkbox
  · rw [if_pos htype, decide_eq_true htype, Bool.true_and, Bool.true_and, Bool.xor_not]
  · rw [if_neg htype, decide_eq_false htype, Bool.false_and, Bool.false_and]

/-- An assignment starts the count of the clicks anew: the item is checked as was assigned, whatever
was clicked before. -/
theorem flipped_setChecked (checked : Bool) (item : Item) : Flipped (item.setChecked checked) := by
  unfold Flipped
  show checked = (checked ^^ (_ && false))
  rw [Bool.and_false, Bool.xor_false]

/-- A context that is put in for another one: what is found afterwards is the new one under its own
number, and the old ones under the others. -/
theorem contexts_update {context context' : Nat} {o : Option Context} {c : Context}
    (h : Function.update s.contexts context o context' = some c) :
    (context' = context ∧ o = some c) ∨ (context' ≠ context ∧ s.contexts context' = some c) := by
  by_cases heq : context' = context
  · subst heq
    rw [Function.update_self] at h
    exact .inl ⟨rfl, h⟩
  · rw [Function.update_of_ne heq] at h
    exact .inr ⟨heq, h⟩

/-! ## One step -/

/-- What a context may become without new items of its own. Its queue holds used ids, it still has
handled what it should, and its items are those it had, or it has none. -/
theorem Inv.updateContext (h : s.Inv) {context : Nat} {o : Option Context}
    (hnew : ∀ c, o = some c → (∀ id ∈ c.queue, id ∈ s.used) ∧ s.Delivered c ∧
      (c.objs = [] ∨ ∃ c₀, s.contexts context = some c₀ ∧ c.objs = c₀.objs ∧
        c.extensionId = c₀.extensionId)) :
    Inv { s with contexts := Function.update s.contexts context o } := by
  -- a context has no items, or those of a context from before
  have hold : ∀ {context' c}, Function.update s.contexts context o context' = some c →
      ∀ id ∈ c.objs, ∃ c₀, s.contexts context' = some c₀ ∧ c.objs = c₀.objs ∧
        c.extensionId = c₀.extensionId := by
    intro context' c hc id hmem
    rcases contexts_update hc with ⟨rfl, ho⟩ | ⟨-, hc⟩
    · rcases (hnew c ho).2.2 with hempty | hc₀
      · rw [hempty] at hmem
        cases hmem
      · exact hc₀
    · exact ⟨c, hc, rfl, rfl⟩
  constructor
  case items => exact h.items
  case clicked => exact h.clicked
  case queued =>
    intro context' c hc
    rcases contexts_update hc with ⟨-, ho⟩ | ⟨-, hc⟩
    · exact (hnew c ho).1
    · exact h.queued context' c hc
  case objs =>
    intro context' c hc id hmem
    obtain ⟨c₀, hc₀, hobjs, -⟩ := hold hc id hmem
    exact h.objs context' c₀ hc₀ id (hobjs ▸ hmem)
  case made =>
    intro context' c hc id hmem
    obtain ⟨c₀, hc₀, hobjs, hext⟩ := hold hc id hmem
    rw [hext]
    exact h.made context' c₀ hc₀ id (hobjs ▸ hmem)
  case apart =>
    intro context₁ context₂ c₁ c₂ hne hc₁ hc₂ id hmem₁ hmem₂
    obtain ⟨d₁, hd₁, hobjs₁, -⟩ := hold hc₁ id hmem₁
    obtain ⟨d₂, hd₂, hobjs₂, -⟩ := hold hc₂ id hmem₂
    exact h.apart context₁ context₂ d₁ d₂ hne hd₁ hd₂ id (hobjs₁ ▸ hmem₁) (hobjs₂ ▸ hmem₂)
  case delivered =>
    intro context' c hc
    rcases contexts_update hc with ⟨-, ho⟩ | ⟨-, hc⟩
    · exact (hnew c ho).2.1
    · exact h.delivered context' c hc
  case flipped => exact h.flipped

/-- A page that is loaded has made no items, so of the clicks of the past none is on its own and it
has nothing to handle. -/
theorem Inv.load (h : s.Inv) (context : Nat) (extensionId : String) :
    Inv { s with
      contexts := Function.update s.contexts context (some { extensionId := extensionId }) } := by
  refine h.updateContext fun c hc => ?_
  cases hc
  refine ⟨fun id hmem => absurd hmem List.not_mem_nil, ?_, Or.inl rfl⟩
  exact (List.filter_eq_nil_iff.mpr fun _ _ => by simp).symm

/-- A context that is gone owes nothing, and its items stay on the native side. -/
theorem Inv.unload (h : s.Inv) (context : Nat) :
    Inv { s with contexts := Function.update s.contexts context none } :=
  h.updateContext fun _ hc => nomatch hc

/-- An item that is replaced by one of the same extension, which a click and an assignment do. The
contexts and their queues stay, and the extension is all that they know of an item. -/
theorem Inv.updateItem (h : s.Inv) {id : Int} {item item' : Item} (hitem : s.items id = some item)
    (hextension : item'.extensionId = item.extensionId) (hflipped : Flipped item') :
    Inv { s with items := Function.update s.items id (some item') } := by
  -- under the id is the new item, under the others what was there
  have hget : ∀ {id' i}, Function.update s.items id (some item') id' = some i →
      (id' = id ∧ i = item') ∨ s.items id' = some i := by
    intro id' i hi
    rw [Function.update_apply] at hi
    split at hi
    · rename_i heq
      exact Or.inl ⟨heq, (Option.some.inj hi).symm⟩
    · exact Or.inr hi
  constructor
  case items =>
    intro id' i hi
    rcases hget hi with ⟨rfl, -⟩ | hi
    · exact h.items _ item hitem
    · exact h.items id' i hi
  case clicked => exact h.clicked
  case queued => exact h.queued
  case objs => exact h.objs
  case made =>
    intro context c hc id' hmem i hi
    rcases hget hi with ⟨rfl, rfl⟩ | hi
    · exact hextension.trans (h.made context c hc _ hmem item hitem)
    · exact h.made context c hc id' hmem i hi
  case apart => exact h.apart
  case delivered => exact h.delivered
  case flipped =>
    intro id' i hi
    rcases hget hi with ⟨-, rfl⟩ | hi
    · exact hflipped
    · exact h.flipped id' i hi

/-- The contexts of an extension after an event: each has it at the end of its queue, and the
contexts of other extensions are what they were. -/
theorem contexts_sendEvent {extensionId : String} {id : Int} {context : Nat} {c : Context}
    (h : (s.sendEvent extensionId id).contexts context = some c) :
    ∃ c₀, s.contexts context = some c₀ ∧
      ((c₀.extensionId = extensionId ∧ c = { c₀ with queue := c₀.queue ++ [id] }) ∨
        (c₀.extensionId ≠ extensionId ∧ c = c₀)) := by
  obtain ⟨c₀, hc₀, rfl⟩ := Option.map_eq_some_iff.mp h
  refine ⟨c₀, hc₀, ?_⟩
  by_cases hext : c₀.extensionId = extensionId
  · rw [if_pos hext]
    exact .inl ⟨hext, rfl⟩
  · rw [if_neg hext]
    exact .inr ⟨hext, rfl⟩

/-- An event of an item is sent to the context that has made it, and that is where it counts. -/
theorem Inv.sendEvent (h : s.Inv) {id : Int} {item : Item} (hitem : s.items id = some item) :
    Inv (World.sendEvent { s with clicked := s.clicked ++ [id] } item.extensionId id) := by
  have hused := h.items id item hitem
  -- a context keeps its items, and gets the event or not
  have hold : ∀ {context c}, (World.sendEvent { s with clicked := s.clicked ++ [id] }
      item.extensionId id).contexts context = some c →
      ∃ c₀, s.contexts context = some c₀ ∧ c.objs = c₀.objs ∧ c.extensionId = c₀.extensionId ∧
        ∀ id' ∈ c.queue, id' ∈ c₀.queue ∨ id' = id := by
    intro context c hc
    obtain ⟨c₀, hc₀, ⟨-, rfl⟩ | ⟨-, rfl⟩⟩ := contexts_sendEvent hc
    · refine ⟨c₀, hc₀, rfl, rfl, fun id' hmem => ?_⟩
      exact (List.mem_append.mp hmem).imp_right List.mem_singleton.mp
    · exact ⟨c, hc₀, rfl, rfl, fun _ hmem => Or.inl hmem⟩
  constructor
  case items => exact h.items
  case clicked =>
    intro id' hmem
    rcases List.mem_append.mp hmem with hmem | hmem
    · exact h.clicked id' hmem
    · rw [List.mem_singleton.mp hmem]
      exact hused
  case queued =>
    intro context c hc id' hmem
    obtain ⟨c₀, hc₀, -, -, hqueue⟩ := hold hc
    rcases hqueue id' hmem with hmem | rfl
    · exact h.queued context c₀ hc₀ id' hmem
    · exact hused
  case objs =>
    intro context c hc
    obtain ⟨c₀, hc₀, hobjs, -⟩ := hold hc
    rw [hobjs]
    exact h.objs context c₀ hc₀
  case made =>
    intro context c hc
    obtain ⟨c₀, hc₀, hobjs, hext, -⟩ := hold hc
    rw [hobjs, hext]
    exact h.made context c₀ hc₀
  case apart =>
    intro context context' c c' hne hc hc'
    obtain ⟨c₀, hc₀, hobjs, -⟩ := hold hc
    obtain ⟨c₀', hc₀', hobjs', -⟩ := hold hc'
    rw [hobjs, hobjs']
    exact h.apart context context' c₀ c₀' hne hc₀ hc₀'
  case delivered =>
    intro context c hc
    obtain ⟨c₀, hc₀, ⟨-, rfl⟩ | ⟨hext, rfl⟩⟩ := contexts_sendEvent hc
    · show c₀.handled ++ (c₀.queue ++ [id]).filter _ = (s.clicked ++ [id]).filter _
      rw [List.filter_append, List.filter_append, ← List.append_assoc]
      exact congrArg (· ++ _) (h.delivered context c₀ hc₀)
    · -- the item is not one of this context
      have hnot : id ∉ c.objs := fun hmem => hext (h.made context c hc₀ id hmem item hitem).symm
      show _ = (s.clicked ++ [id]).filter _
      rw [List.filter_append, List.filter_singleton, decide_eq_false hnot]
      exact (h.delivered context c hc₀).trans (List.append_nil _).symm
  case flipped => exact h.flipped

/-- **A click** flips the item and sends the event, in this order. The event goes to the extension
of the item, which flipping does not change. -/
theorem Inv.onClick (h : s.Inv) {id : Int} {item : Item} (hitem : s.items id = some item) :
    Inv (s.onClick id item) := by
  have hflipped : Flipped item.flip := (h.flipped id item hitem).flip
  have hflip : Inv { s with items := Function.update s.items id (some item.flip) } :=
    h.updateItem hitem rfl hflipped
  show Inv (World.sendEvent _ item.flip.extensionId id)
  apply hflip.sendEvent
  exact Function.update_self ..

/-- A new id: what is under it on the native side is of the extension of the context that gets it,
if one does. -/
theorem Inv.newObject (h : s.Inv) {id : Int} (next : Int) (items : Int → Option Item)
    (hfresh : id ∉ s.used)
    (hitems : ∀ id' item, items id' = some item →
      (id' = id ∧ Flipped item) ∨ (id' ≠ id ∧ s.items id' = some item)) :
    Inv { s with nextObjectId := next, items := items, used := s.used ++ [id] } := by
  have hsub : ∀ id' ∈ s.used, id' ∈ s.used ++ [id] := fun _ hmem => List.mem_append_left _ hmem
  constructor
  case items =>
    intro id' item hitem
    rcases hitems id' item hitem with ⟨rfl, -⟩ | ⟨-, hold⟩
    · exact List.mem_append_right _ (List.mem_singleton_self _)
    · exact hsub _ (h.items id' item hold)
  case clicked => exact fun id' hmem => hsub _ (h.clicked id' hmem)
  case queued => exact fun context c hc id' hmem => hsub _ (h.queued context c hc id' hmem)
  case objs => exact fun context c hc id' hmem => hsub _ (h.objs context c hc id' hmem)
  case made =>
    intro context c hc id' hmem item hitem
    rcases hitems id' item hitem with ⟨rfl, -⟩ | ⟨-, hold⟩
    · -- no context has made an item with a fresh id
      exact absurd (h.objs context c hc _ hmem) hfresh
    · exact h.made context c hc id' hmem item hold
  case apart => exact h.apart
  case delivered => exact h.delivered
  case flipped =>
    intro id' item hitem
    rcases hitems id' item hitem with ⟨-, hnew⟩ | ⟨-, hold⟩
    · exact hnew
    · exact h.flipped id' item hold

/-- An object of another kind takes its id from the same counter or from its option. It is no menu
item, so there is only one more used id. -/
theorem Inv.createOther (h : s.Inv) {id : Option Int}
    (hfresh : id.getD (s.nextObjectId + 1) ∉ s.used) : Inv (s.createOther id) := by
  refine h.newObject _ _ hfresh fun id' item hitem => Or.inr ?_
  rw [Function.update_apply] at hitem
  split at hitem
  · cases hitem
  · exact ⟨‹_›, hitem⟩

/-- A context enters an item that nobody has, under an id that was not clicked yet. -/
theorem Inv.enter (h : s.Inv) {context : Nat} {c₀ : Context} (hc₀ : s.contexts context = some c₀)
    {id : Int} (hused : id ∈ s.used)
    (hfree : ∀ context c, s.contexts context = some c → id ∉ c.objs)
    (hclicked : id ∉ s.clicked) (hqueue : id ∉ c₀.queue)
    (hext : ∀ item, s.items id = some item → item.extensionId = c₀.extensionId) :
    Inv { s with
      contexts := Function.update s.contexts context
        (some { c₀ with objs := c₀.objs ++ [id] }) } := by
  -- what a context was before the item was entered
  have hold : ∀ {context' c}, Function.update s.contexts context
      (some { c₀ with objs := c₀.objs ++ [id] }) context' = some c →
      ∃ d, s.contexts context' = some d ∧ c.queue = d.queue ∧ c.extensionId = d.extensionId ∧
        ((context' = context ∧ c.objs = d.objs ++ [id]) ∨
          (context' ≠ context ∧ c.objs = d.objs)) := by
    intro context' c hc
    rcases contexts_update hc with ⟨rfl, hnew⟩ | ⟨hne, hc⟩
    · cases hnew
      exact ⟨c₀, hc₀, rfl, rfl, Or.inl ⟨rfl, rfl⟩⟩
    · exact ⟨c, hc, rfl, rfl, Or.inr ⟨hne, rfl⟩⟩
  -- the new id is in one context only
  have hobjs : ∀ {context' c}, Function.update s.contexts context
      (some { c₀ with objs := c₀.objs ++ [id] }) context' = some c → ∀ id' ∈ c.objs,
      (context' = context ∧ id' = id) ∨ ∃ d, s.contexts context' = some d ∧ id' ∈ d.objs ∧
        c.extensionId = d.extensionId := by
    intro context' c hc id' hmem
    obtain ⟨d, hd, -, hext, ⟨heq, hobjs⟩ | ⟨-, hobjs⟩⟩ := hold hc
    · rw [hobjs] at hmem
      rcases List.mem_append.mp hmem with hmem | hmem
      · exact Or.inr ⟨d, hd, hmem, hext⟩
      · exact Or.inl ⟨heq, List.mem_singleton.mp hmem⟩
    · exact Or.inr ⟨d, hd, hobjs ▸ hmem, hext⟩
  constructor
  case items => exact h.items
  case clicked => exact h.clicked
  case queued =>
    intro context' c hc
    obtain ⟨d, hd, hq, -⟩ := hold hc
    rw [hq]
    exact h.queued context' d hd
  case objs =>
    intro context' c hc id' hmem
    rcases hobjs hc id' hmem with ⟨-, rfl⟩ | ⟨d, hd, hmem, -⟩
    · exact hused
    · exact h.objs context' d hd id' hmem
  case made =>
    intro context' c hc id' hmem item hitem
    rcases hobjs hc id' hmem with ⟨rfl, rfl⟩ | ⟨d, hd, hmem, heq⟩
    · obtain ⟨d, hd, -, heq, -⟩ := hold hc
      rw [hc₀] at hd
      cases hd
      rw [heq]
      exact hext item hitem
    · rw [heq]
      exact h.made context' d hd id' hmem item hitem
  case apart =>
    intro context₁ context₂ c₁ c₂ hne hc₁ hc₂ id' hmem₁ hmem₂
    rcases hobjs hc₁ id' hmem₁ with ⟨rfl, rfl⟩ | ⟨d₁, hd₁, hmem₁, -⟩
    · rcases hobjs hc₂ _ hmem₂ with ⟨heq, -⟩ | ⟨d₂, hd₂, hmem₂, -⟩
      · exact hne heq.symm
      · exact hfree context₂ d₂ hd₂ hmem₂
    · rcases hobjs hc₂ _ hmem₂ with ⟨-, rfl⟩ | ⟨d₂, hd₂, hmem₂, -⟩
      · exact hfree context₁ d₁ hd₁ hmem₁
      · exact h.apart context₁ context₂ d₁ d₂ hne hd₁ hd₂ id' hmem₁ hmem₂
  case delivered =>
    intro context' c hc
    rcases contexts_update hc with ⟨-, hnew⟩ | ⟨-, hc⟩
    · cases hnew
      -- the new item was not clicked yet
      have hfilter : ∀ ids : List Int, id ∉ ids →
          ids.filter (· ∈ c₀.objs ++ [id]) = ids.filter (· ∈ c₀.objs) := by
        intro ids hnot
        apply List.filter_congr
        intro id' hmem
        rw [decide_eq_decide, List.mem_append, List.mem_singleton]
        exact or_iff_left fun heq => hnot (heq ▸ hmem)
      show c₀.handled ++ c₀.queue.filter _ = s.clicked.filter _
      rw [hfilter _ hqueue, hfilter _ hclicked]
      exact h.delivered context c₀ hc₀
    · exact h.delivered context' c hc
  case flipped => exact h.flipped

/-- **A new item.** Its id has not been used, so no event that waits and no click of the past is
about it, and the context that makes it is the only one that has it. -/
theorem Inv.create (h : s.Inv) {context : Nat} {option : ItemOption}
    (hfresh : s.newId option ∉ s.used) (hcreate : s.create context option = some t) : Inv t := by
  obtain ⟨c₀, hc₀, rfl⟩ := Option.map_eq_some_iff.mp hcreate
  -- first the native object, then the entry in the table of the context
  have hobject := h.newObject
    (if option.kept.id = 0 then s.nextObjectId + 1 else s.nextObjectId)
    (if option.kept.native then s.items
      else Function.update s.items (s.newId option)
        (some (Item.create c₀.extensionId option.kept))) hfresh ?_
  · refine hobject.enter hc₀ (List.mem_append_right _ (List.mem_singleton_self _)) ?_ ?_ ?_ ?_
    · exact fun context' c hc hmem => hfresh (h.objs context' c hc _ hmem)
    · exact fun hmem => hfresh (h.clicked _ hmem)
    · exact fun hmem => hfresh (h.queued context c₀ hc₀ _ hmem)
    · intro item hitem
      simp only at hitem
      split at hitem
      · -- a native item with this id would have used it
        exact absurd (h.items _ item hitem) hfresh
      · rw [Function.update_self] at hitem
        cases hitem
        rfl
  · intro id item hitem
    split at hitem
    · refine Or.inr ⟨fun heq => hfresh (heq ▸ h.items id item hitem), hitem⟩
    · rw [Function.update_apply] at hitem
      split at hitem
      · cases hitem
        exact Or.inl ⟨‹_›, flipped_create c₀.extensionId option.kept⟩
      · exact Or.inr ⟨‹_›, hitem⟩

/-- **A context takes its next event.** The event leaves the queue; if the id is that of an item of
the context it is handled now, and otherwise it never counted. -/
theorem Inv.deliver (h : s.Inv) {context : Nat} {c c' : Context}
    (hc : s.contexts context = some c) (hdeliver : c.deliver = some c') :
    Inv { s with contexts := Function.update s.contexts context (some c') } := by
  obtain ⟨id, queue, hqueue, rfl⟩ : ∃ id queue, c.queue = id :: queue ∧
      c' = { c with
        queue := queue
        handled := if id ∈ c.objs then c.handled ++ [id] else c.handled } := by
    unfold Context.deliver at hdeliver
    split at hdeliver
    · cases hdeliver
    · cases hdeliver
      exact ⟨_, _, ‹_›, rfl⟩
  refine h.updateContext fun d hd => ?_
  cases hd
  refine ⟨fun id' hmem => ?_, ?_, Or.inr ⟨c, hc, rfl, rfl⟩⟩
  · exact h.queued context c hc id' (hqueue ▸ List.mem_cons_of_mem _ hmem)
  · -- the event leaves the queue, and is handled if the item is one of the context
    have hdelivered : c.handled ++ c.queue.filter _ = s.clicked.filter _ := h.delivered _ c hc
    show (if id ∈ c.objs then c.handled ++ [id] else c.handled) ++ queue.filter _ = _
    rw [hqueue, List.filter_cons] at hdelivered
    by_cases hmem : id ∈ c.objs
    · rw [decide_eq_true hmem, if_pos rfl] at hdelivered
      rw [if_pos hmem, List.append_assoc]
      exact hdelivered
    · rw [decide_eq_false hmem, if_neg (by decide)] at hdelivered
      rw [if_neg hmem]
      exact hdelivered

/-- An assignment to `checked` or to a field that clicks do not look at. An id that has no native
item, as with `native`, is dropped there and changes nothing. -/
theorem Inv.assign (h : s.Inv) {context : Nat} {id : Int} {set : Item → Item}
    (hset : ∀ item, (set item).extensionId = item.extensionId ∧
      (Flipped item → Flipped (set item)))
    (hassign : s.assign context id set = some t) : Inv t := by
  obtain ⟨c, -, hassign⟩ := Option.bind_eq_some_iff.mp hassign
  split at hassign
  · cases hitem : s.items id with
    | none =>
      rw [hitem] at hassign
      cases hassign
      exact h
    | some item =>
      rw [hitem] at hassign
      cases hassign
      exact h.updateItem hitem (hset item).1 ((hset item).2 (h.flipped id item hitem))
  · cases hassign

/-- **One step.** Whatever happens keeps the invariant, as long as ids are fresh. One case for each
operation, each of them a lemma above. -/
theorem Inv.step {isWin : Bool} (h : s.Inv) {op : Op} (hfresh : s.FreshId op)
    (hstep : s.step isWin op = some t) : Inv t := by
  cases op with
  | load context extensionId =>
    cases hstep
    exact h.load context extensionId
  | unload context =>
    cases hstep
    exact h.unload context
  | create context option => exact h.create hfresh hstep
  | createOther id =>
    cases hstep
    exact h.createOther hfresh
  | setChecked context id checked =>
    refine h.assign (fun item => ?_) hstep
    unfold World.setChecked
    split
    · exact ⟨rfl, fun _ => flipped_setChecked checked item⟩
    · exact ⟨rfl, fun hitem => hitem⟩
  | setEnabled context id enabled =>
    refine h.assign (fun item => ?_) hstep
    exact ⟨rfl, fun hitem => hitem⟩
  | executeCommand commandId =>
    cases hstep
    unfold executeCommand
    split
    · exact h
    · cases hitem : s.items commandId with
      | none => exact h
      | some item => exact h.onClick hitem
  | acceleratorPressed id appsDown =>
    obtain ⟨item, hitem, hstep⟩ := Option.bind_eq_some_iff.mp hstep
    split at hstep
    · -- the click may be dropped
      split at hstep
      · cases hstep
        exact h
      · cases hstep
        exact h.onClick hitem
    · cases hstep
  | deliver context =>
    obtain ⟨c, hc, hstep⟩ := Option.bind_eq_some_iff.mp hstep
    obtain ⟨c', hdeliver, rfl⟩ := Option.map_eq_some_iff.mp hstep
    exact h.deliver hc hdeliver

/-! ## Runs -/

theorem Inv.init : Inv {} :=
  ⟨by nofun, by nofun, by nofun, by nofun, by nofun, by nofun, by nofun, by nofun⟩

/-- **Clicks.** In every run in which each new object gets an id that no object had before, a
context that is there has handled the clicks on the items that it has made, but for those that wait
in its queue, each one once and in the order of the clicks, and no other context has handled them.
An item is checked by what was assigned to it last, flipped by every click since if it is a
checkbox. -/
theorem clicks_delivered (isWin : Bool) {ops : List Op}
    (hrun : Run (Guarded FreshId (ofPartial (World.step isWin))) {} ops t) :
    (∀ context c, t.contexts context = some c →
      c.handled ++ c.queue.filter (· ∈ c.objs) = t.clicked.filter (· ∈ c.objs)) ∧
    (∀ context context' c c', context ≠ context' → t.contexts context = some c →
      t.contexts context' = some c' → ∀ id ∈ c.objs, id ∉ c'.handled) ∧
    ∀ id item, t.items id = some item → item.isChecked =
      (item.assigned ^^ (decide (item.type = .checkbox) && item.clicks % 2 == 1)) := by
  have h : t.Inv :=
    hrun.invariant (I := Inv) (fun _ _ _ h hstep => Inv.step h hstep.1 hstep.2) Inv.init
  refine ⟨h.delivered, fun context context' c c' hne hc hc' id hmem hhandled => ?_, h.flipped⟩
  have hmade := Delivered.mem_objs (h.delivered context' c' hc') hhandled
  exact h.apart context context' c c' hne hc hc' id hmem hmade

/-- Two contexts of an extension on Windows: a menu and a checkbox with an id of its own are made in
the first one, a native item in the second one. The accelerator is dropped while its key `meta` is
up; a click in the menu is not, and the second context takes its event and does nothing. -/
def twoContexts : List Op :=
  [.load 0 "a", .load 1 "a", .createOther none,
    .create 0 { type := .checkbox, hasKey := true, hasMeta := true, id := 7 },
    .create 1 { type := .normal, native := true }, .acceleratorPressed 7 false,
    .executeCommand 7, .executeCommand 2, .deliver 1, .deliver 0]

/-- The click in the menu checks the box. The page that made it handles the click, the other page of
the extension takes the same event and has no item with its id. -/
theorem clicks_delivered_two :
    ∃ t : World, (t.items 7).map (·.isChecked) = some true ∧
      (t.contexts 0).map (·.handled) = some [7] ∧ (t.contexts 1).map (·.handled) = some [] ∧
      ∀ id item, t.items id = some item → item.isChecked =
        (item.assigned ^^ (decide (item.type = .checkbox) && item.clicks % 2 == 1)) := by
  obtain ⟨t, hexec, hchecked, hfirst, hsecond⟩ : ∃ t : World,
      exec FreshId (World.step true) twoContexts {} = some t ∧
      (t.items 7).map (·.isChecked) = some true ∧
      (t.contexts 0).map (·.handled) = some [7] ∧ (t.contexts 1).map (·.handled) = some [] :=
    ⟨_, rfl, rfl, rfl, rfl⟩
  exact ⟨t, hchecked, hfirst, hsecond, (clicks_delivered true (Run.of_exec hexec)).2.2⟩

end World

end Clicks

end NodeWebkit.Menus
