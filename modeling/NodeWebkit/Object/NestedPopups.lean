import NodeWebkit.Lib.Run
import NodeWebkit.Object.ObjectIdRuns
import Mathlib.Data.Finset.Union

/-!
# Menus under nested popups

`Menu::Popup` runs a nested message loop, in which further popups can start, on the same menu too,
and in which `OnDeallocateObject` can be called. While the loop runs `delay_destruction` keeps a
deallocation from being carried out; the end of `Popup` carries it out. Popups end in the reverse
order of their starts.

## The model

The registry and the managers are those of `World`. An id says nothing for good about the object
under it: a constructor takes its id from `AllocateId`, from `GetNextContextMenuId` or from its
option object, and `AddWithID` displaces what is there. So a *menu* is here a pair of an id and
the number of the constructor call that made it (`Registered` is the same pair looked up), and
`running`, `requested` and `removals` are about such pairs. `popupEnd` works on the object that
its `Popup` was called on: where that one has left the registry there is no step.

* **`Safe`** — no menu with a running popup is out of the registry; a requested deallocation waits
  only while a popup runs; nothing is removed twice or without a request; `objects_` is the
  registry's share of each manager.
* **`StepOk`** — what the flags cannot tell (a popup that ends inside another one on the same menu
  must not find a request, and a request must not come after such an end), and what nothing
  checks: that an id is fresh, and that a request comes from the manager of the object.

This module has the model, one lemma for what each operation does to the registry, and `Tidy`, the
part of the invariant that popups have nothing to do with: `objects_` and the registry agree.
-/

namespace NodeWebkit.Object

open Lts World

/-- The managers, the popups that run, and a record of what was asked for and done. -/
structure Popups where
  world : World := {}
  /-- The menus whose `Popup` has not returned, the innermost one first. -/
  running : List (Int × Nat) := []
  /-- The objects whose removal was asked for, by a call of `OnDeallocateObject` or by the end of
  their manager. -/
  requested : Finset (Int × Nat) := ∅
  /-- How often an object was taken out of the registry. -/
  removals : Int × Nat → Nat := fun _ => 0

/-- The object that the constructor call `k.2` made is registered under the id `k.1`. -/
def World.Holds (self : World) (k : Int × Nat) : Prop :=
  (self.getApiObject k.1).map Base.owner = some k.2

instance (w : World) (k : Int × Nat) : Decidable (w.Holds k) :=
  inferInstanceAs (Decidable (_ = _))

namespace Popups

section Operations

-- The values of `contextMenuNatives.GetNextContextMenuId`, in the order of the calls.
variable (contextMenuId : Nat → Int)

/-- Replaces the managers' state and records what is gone from the registry. -/
def setWorld (self : Popups) (world : World) : Popups :=
  { self with
    world := world
    removals := fun k => self.removals k + if self.world.Holds k ∧ ¬ world.Holds k then 1 else 0 }

/-- A constructor call in the context of a manager, up to `OnAllocateObject`. -/
def construct (self : Popups) (manager : Nat) (c : Constructor) : Option Popups :=
  (self.world.step contextMenuId (.construct manager c)).map self.setWorld

/-- `Menu::Popup` up to the nested message loop; a call for an id without a menu does nothing. -/
def popup (self : Popups) (id : Int) : Popups :=
  match self.world.getApiObject id with
  | some b =>
    if b.type = .menu then
      { self.setWorld (self.world.addWithID id { b with delayDestruction := true }) with
        running := (id, b.owner) :: self.running }
    else self
  | none => self

/-- `Menu::Popup` behind the nested message loop of the innermost popup. Where the menu is gone it
would go on with an object that was freed or displaced: there is no step. -/
def popupEnd (self : Popups) : Option Popups :=
  match self.running with
  | [] => none
  | (id, p) :: running =>
    ((self.world.getApiObject id).filter fun b => b.owner = p).map fun b =>
      let world := self.world.addWithID id { b with delayDestruction := false }
      { self.setWorld
          (if b.pendingDestruction then world.onDeallocateObject b.objectManager id else world) with
        running := running }

/-- A call of `OnDeallocateObject` on any manager for any id: what is under the id is asked to go,
whoever allocated it. -/
def deallocate (self : Popups) (manager : Nat) (id : Int) : Popups :=
  { self.setWorld (self.world.onDeallocateObject manager id) with
    requested := match self.world.getApiObject id with
      | some b => insert (id, b.owner) self.requested
      | none => self.requested }

/-- The objects that `~ObjectManager` asks to go: what is registered under the ids of its set. -/
def owned (world : World) (manager : Nat) : Finset (Int × Nat) :=
  (world.objects manager).biUnion fun id =>
    match world.getApiObject id with
    | some b => {(id, b.owner)}
    | none => ∅

/-- The end of a manager. -/
def shutdown (self : Popups) (manager : Nat) : Popups :=
  { self.setWorld (self.world.shutdown manager) with
    requested := self.requested ∪ owned self.world manager }

inductive Op where
  | construct (manager : Nat) (c : Constructor)
  | popup (id : Int)
  | popupEnd
  | deallocate (manager : Nat) (id : Int)
  | shutdown (manager : Nat)

def step (self : Popups) : Op → Option Popups
  | .construct manager c => self.construct contextMenuId manager c
  | .popup id => some (self.popup id)
  | .popupEnd => self.popupEnd
  | .deallocate manager id => some (self.deallocate manager id)
  | .shutdown manager => some (self.shutdown manager)

/-- The menu is in the registry. -/
def Registered (s : Popups) (k : Int × Nat) : Prop := s.world.Holds k

/-- A deallocation waits for the popups of its menu and for nothing else. -/
structure Safe (s : Popups) : Prop where
  /-- No menu leaves the registry under a running popup. -/
  running : ∀ k ∈ s.running, s.Registered k
  /-- A request that is not carried out yet is one for a menu with a running popup. -/
  carriedOut : ∀ k ∈ s.requested, s.Registered k → k ∈ s.running
  /-- A request is carried out once. -/
  once : ∀ k ∈ s.requested,
    (s.Registered k ∧ s.removals k = 0) ∨ (¬ s.Registered k ∧ s.removals k = 1)
  onRequest : ∀ k, s.removals k ≠ 0 → k ∈ s.requested
  /-- `objects_` of a manager has the ids of the live objects that the manager allocated. -/
  objects : ∀ m id, id ∈ s.world.objects m ↔
    ∃ b, s.world.getApiObject id = some b ∧ b.objectManager = m

/-- The manager has a say in what the step does to the registry: a constructor that registers an
object draws a fresh id, and an object is taken out by the manager that allocated it. -/
def Own (s : Popups) : Op → Prop
  | .construct _ c => ∀ k, c.run = .ok k → k.native = false →
      s.world.getApiObject (s.world.nextId contextMenuId k.idSource) = none
  | .deallocate m id => ∀ b, s.world.getApiObject id = some b → b.delayDestruction = false →
      b.objectManager = m
  | _ => True

/-- `Own`; and a popup that ends while another one runs on the same menu finds no request; a
request for a menu with a running popup finds the flag set; a manager ends when no popup of its
menus runs. -/
def StepOk (s : Popups) (op : Op) : Prop :=
  Own contextMenuId s op ∧ match op with
  | .popupEnd => ∀ k ∈ s.running.head?, k ∈ s.running.tail →
      ∀ b, s.world.getApiObject k.1 = some b → b.pendingDestruction = false
  | .deallocate _ id => ∀ b, s.world.getApiObject id = some b → (id, b.owner) ∈ s.running →
      b.delayDestruction = true
  | .shutdown m => ∀ k ∈ s.running, k.1 ∉ s.world.objects m
  | _ => True

/-- Every state the step can lead to is safe. -/
def StepSafe (s : Popups) (op : Op) : Prop := ∀ t, step contextMenuId s op = some t → t.Safe

end Operations

variable {contextMenuId : Nat → Int}

/-! ## Which objects are registered

An operation of the managers does one of three things to the registry: it puts a new object under
an id, it changes the flags of one object, or it takes objects out. Each is one lemma about
`Holds`. -/

/-- An object that is found under an id is registered under it with its own number. -/
theorem holds_of_get {w : World} {id : Int} {b : Base} (h : w.getApiObject id = some b) :
    w.Holds (id, b.owner) := by
  rw [Holds, h]
  rfl

theorem get_of_holds {w : World} {k : Int × Nat} (h : w.Holds k) :
    ∃ b, w.getApiObject k.1 = some b ∧ b.owner = k.2 := by
  exact Option.map_eq_some_iff.mp h

/-- Other flags on one object leave every object where it is, the one with the flags included. -/
theorem holds_mark {w w' : World} {id : Int} {b b' : Base} (hb : w.getApiObject id = some b)
    (hget : ∀ i, w'.getApiObject i = if i = id then some b' else w.getApiObject i)
    (howner : b'.owner = b.owner) (k : Int × Nat) : w'.Holds k ↔ w.Holds k := by
  rw [Holds, Holds, hget]
  split
  · rename_i hk
    rw [hk, hb, Option.map_some, Option.map_some, howner]
  · rfl

/-- What is registered after everything under some ids was taken out: a single id, or all those of a
manager that shuts down. -/
theorem holds_remove {w w' : World} {gone : Int → Prop} [DecidablePred gone]
    (hget : ∀ i, w'.getApiObject i = if gone i then none else w.getApiObject i) (k : Int × Nat) :
    w'.Holds k ↔ w.Holds k ∧ ¬ gone k.1 := by
  rw [Holds, Holds, hget]
  split
  · rename_i hk
    exact iff_of_false (fun h => nomatch h) (fun h => h.2 hk)
  · rename_i hk
    exact (and_iff_left hk).symm

/-- What is registered after a construction under a free id: the new object is the youngest. -/
theorem holds_insert {w w' : World} {id : Int} {b : Base} (hfree : w.getApiObject id = none)
    (hget : ∀ i, w'.getApiObject i = if i = id then some b else w.getApiObject i)
    (k : Int × Nat) : w'.Holds k ↔ w.Holds k ∨ k = (id, b.owner) := by
  rw [Holds, Holds, hget]
  split
  · rename_i hk
    rw [hk, hfree, Option.map_some, Option.map_none, Option.some_inj, Prod.ext_iff]
    exact ⟨fun h => Or.inr ⟨hk, h.symm⟩, fun h => (h.resolve_left nofun).2.symm⟩
  · rename_i hk
    rw [Prod.ext_iff]
    exact (or_iff_left fun h => hk h.1).symm

/-- An object is counted as removed when it is registered before a step and not after it. -/
theorem setWorld_removals (s : Popups) (w : World) (k : Int × Nat) :
    (s.setWorld w).removals k =
      s.removals k + if s.world.Holds k ∧ ¬ w.Holds k then 1 else 0 := rfl

/-! ## The managers' sets

`Tidy` is the part of the invariant that popups have nothing to do with. -/

/-- The managers' sets and the registry agree, and no registered object is from a constructor call
that is still to come. -/
structure Tidy (w : World) : Prop where
  made : ∀ k, w.Holds k → k.2 < w.made
  objects : ∀ m id, id ∈ w.objects m ↔ ∃ b, w.getApiObject id = some b ∧ b.objectManager = m

variable {w w' : World}

theorem Tidy.init : Tidy {} := by
  constructor
  case made => intro k hk; cases hk
  case objects =>
    intro m id
    refine iff_of_false (Finset.notMem_empty id) ?_
    rintro ⟨b, hb, -⟩
    cases hb

/-- One object changed its flags, which no set of a manager knows. -/
theorem Tidy.mark (h : Tidy w) {id : Int} {b b' : Base} (hb : w.getApiObject id = some b)
    (hget : ∀ i, w'.getApiObject i = if i = id then some b' else w.getApiObject i)
    (howner : b'.owner = b.owner) (hmanager : b'.objectManager = b.objectManager)
    (hobjects : w'.objects = w.objects) (hmade : w'.made = w.made) : Tidy w' := by
  constructor
  case made =>
    intro k hk
    rw [hmade]
    exact h.made k ((holds_mark hb hget howner k).mp hk)
  case objects =>
    intro m i
    rw [hobjects, h.objects, hget]
    split
    · -- the object has the manager it had
      rename_i hi
      rw [hi, hb]
      simp only [Option.some.injEq, exists_eq_left', hmanager]
    · rfl

/-- One object left the registry and the set of its manager. Without the second a manager would
later take out what has come under the id meanwhile. -/
theorem Tidy.remove (h : Tidy w) {id : Int} {m : Nat}
    (hm : ∀ b, w.getApiObject id = some b → b.objectManager = m)
    (hget : ∀ i, w'.getApiObject i = if i = id then none else w.getApiObject i)
    (hobjects : w'.objects = Function.update w.objects m ((w.objects m).erase id))
    (hmade : w'.made = w.made) : Tidy w' := by
  constructor
  case made =>
    intro k hk
    rw [hmade]
    exact h.made k ((holds_remove hget k).mp hk).1
  case objects =>
    intro m' i
    rw [hobjects, hget, Function.update_apply]
    by_cases hi : i = id
    · rw [if_pos hi]
      refine iff_of_false ?_ (fun ⟨b, hb, _⟩ => nomatch hb)
      split
      · rw [hi]
        exact Finset.notMem_erase id _
      · -- no other manager has the id in its set
        rename_i hne
        intro hmem
        obtain ⟨b, hb, heq⟩ := (h.objects m' i).mp hmem
        exact hne (heq.symm.trans (hm b (hi ▸ hb)))
    · rw [if_neg hi, ← h.objects]
      split
      · rename_i heq
        rw [Finset.mem_erase, heq]
        exact and_iff_right hi
      · rfl

/-- A manager went with the objects of its set, which are all of its own, and none of another one's.
-/
theorem Tidy.shutdown (h : Tidy w) (m : Nat) : Tidy (w.shutdown m) := by
  constructor
  case made =>
    intro k hk
    exact h.made k ((holds_remove (getApiObject_shutdown w m) k).mp hk).1
  case objects =>
    intro m' i
    show i ∈ Function.update w.objects m ∅ m' ↔ _
    rw [getApiObject_shutdown, Function.update_apply]
    split
    · rename_i hm
      refine iff_of_false (Finset.notMem_empty i) ?_
      rintro ⟨b, hb, heq⟩
      split at hb
      · cases hb
      · rename_i hnot
        exact hnot ((h.objects m i).mpr ⟨b, hb, heq.trans hm⟩)
    · rename_i hm
      rw [h.objects]
      split
      · rename_i hmem
        refine iff_of_false ?_ (fun ⟨b, hb, _⟩ => nomatch hb)
        -- the object under the id is one of the manager that goes
        rintro ⟨b, hb, heq⟩
        obtain ⟨b', hb', heq'⟩ := (h.objects m i).mp hmem
        rw [hb, Option.some.injEq] at hb'
        exact hm (heq.symm.trans (hb' ▸ heq'))
      · rfl

/-- A new object was put under a free id. It is in the set of its manager and has the next number,
so it is none of those that were there. -/
theorem Tidy.insert (h : Tidy w) {id : Int} {b : Base} (hfree : w.getApiObject id = none)
    (hget : ∀ i, w'.getApiObject i = if i = id then some b else w.getApiObject i)
    (howner : b.owner = w.made)
    (hobjects : w'.objects = Function.update w.objects b.objectManager
      (insert id (w.objects b.objectManager)))
    (hmade : w'.made = w.made + 1) : Tidy w' := by
  constructor
  case made =>
    intro k hk
    rw [hmade]
    rcases (holds_insert hfree hget k).mp hk with hk | rfl
    · exact Nat.lt_succ_of_lt (h.made k hk)
    · exact Nat.lt_succ_of_le howner.le
  case objects =>
    intro m i
    rw [hobjects, hget, Function.update_apply]
    by_cases hi : i = id
    · rw [if_pos hi]
      simp only [Option.some.injEq, exists_eq_left']
      split
      · rename_i hm
        exact iff_of_true (hi ▸ Finset.mem_insert_self _ _) hm.symm
      · rename_i hm
        refine iff_of_false (fun hmem => ?_) (fun heq => hm heq.symm)
        -- no manager had the id before
        obtain ⟨b', hb', -⟩ := (h.objects m i).mp hmem
        rw [hi, hfree] at hb'
        cases hb'
    · rw [if_neg hi, ← h.objects]
      split
      · rename_i hm
        rw [Finset.mem_insert, ← hm]
        exact or_iff_right hi
      · rfl

/-! ## What the operations do

One lemma an operation, for the callers below. -/

/-- A construction either leaves the registry and the sets as they are, or puts a new object under
the id that it drew. -/
theorem construct_cases {m : Nat} {c : Constructor}
    (hst : w.step contextMenuId (.construct m c) = some w') :
    (w'.getApiObject = w.getApiObject ∧ w'.objects = w.objects ∧ w.made ≤ w'.made) ∨
    ∃ k, c.run = .ok k ∧ k.native = false ∧
      (∀ i, w'.getApiObject i = if i = w.nextId contextMenuId k.idSource then
        some ⟨k.type, m, false, false, w.made, k.idSource⟩ else w.getApiObject i) ∧
      w'.objects = Function.update w.objects m
        (insert (w.nextId contextMenuId k.idSource) (w.objects m)) ∧
      w'.made = w.made + 1 := by
  rw [World.step] at hst
  cases hrun : c.run with
  | error e =>
    rw [hrun] at hst
    cases hst
    exact Or.inl ⟨rfl, rfl, Nat.le_refl _⟩
  | ok k =>
    rw [hrun] at hst
    have hget := getApiObject_create hst
    obtain ⟨w1, htake, rfl⟩ := create_spec hst
    obtain ⟨hreg, hobjects, -, hmade, -⟩ := @takeId_spec contextMenuId _ _ _ htake
    cases hn : k.native with
    | true =>
      -- the option says that the object is there already
      refine Or.inl ⟨hreg, hobjects, ?_⟩
      show w.made ≤ w1.made + 1
      omega
    | false =>
      refine Or.inr ⟨k, rfl, hn, ?_, ?_, ?_⟩
      · intro i
        rw [hn] at hget
        simpa using hget i
      · simp only [Bool.false_eq_true, if_false, onAllocateObject, addWithID, hobjects]
      · simp only [Bool.false_eq_true, if_false, onAllocateObject, addWithID, hmade]

/-- What a request does to the object under the id: a delayed one is marked, any other one is
gone. -/
theorem onDeallocateObject_cases (w : World) (m : Nat) (id : Int) :
    (∃ b, w.getApiObject id = some b ∧ b.delayDestruction = true ∧
      w.onDeallocateObject m id = w.addWithID id { b with pendingDestruction := true }) ∨
    ((∀ b, w.getApiObject id = some b → b.delayDestruction = false) ∧
      (∀ i, (w.onDeallocateObject m id).getApiObject i =
        if i = id then none else w.getApiObject i) ∧
      (w.onDeallocateObject m id).objects =
        Function.update w.objects m ((w.objects m).erase id) ∧
      (w.onDeallocateObject m id).made = w.made) := by
  by_cases hdelay : ∃ b, w.getApiObject id = some b ∧ b.delayDestruction = true
  · obtain ⟨b, hb, hdelay⟩ := hdelay
    exact Or.inl ⟨b, hb, hdelay, onDeallocateObject_delayed m hb hdelay⟩
  · have hnot : ∀ b, w.getApiObject id = some b → b.delayDestruction = false := by
      intro b hb
      rw [← Bool.not_eq_true]
      exact fun hd => hdelay ⟨b, hb, hd⟩
    refine Or.inr ⟨hnot, fun i => ?_, ?_, ?_⟩
    · rw [onDeallocateObject_removed m hnot]
      simp only [getApiObject, Function.update_apply]
    · rw [onDeallocateObject_removed m hnot]
    · rw [onDeallocateObject_removed m hnot]

variable {s t : Popups}

/-- The start of a popup, which sets the flag of the object and counts the popup. Under an id with
no object nothing happens. -/
theorem popup_cases (s : Popups) (id : Int) :
    (∃ b, s.world.getApiObject id = some b ∧
      s.popup id = { s.setWorld (s.world.addWithID id { b with delayDestruction := true }) with
        running := (id, b.owner) :: s.running }) ∨
    s.popup id = s := by
  unfold popup
  cases hb : s.world.getApiObject id with
  | none => exact Or.inr rfl
  | some b =>
    simp only
    split
    · exact Or.inl ⟨b, rfl, rfl⟩
    · exact Or.inr rfl

/-- The end of the innermost popup: the menu is still the one that it was called on; with a
request it goes now, without one it only loses its flag. -/
theorem popupEnd_spec (hst : s.popupEnd = some t) :
    ∃ id b, s.running = (id, b.owner) :: t.running ∧ s.world.getApiObject id = some b ∧
      t.requested = s.requested ∧ t.removals = (s.setWorld t.world).removals ∧
      t.world.made = s.world.made ∧
      ((b.pendingDestruction = true ∧
        (∀ i, t.world.getApiObject i = if i = id then none else s.world.getApiObject i) ∧
        t.world.objects = Function.update s.world.objects b.objectManager
          ((s.world.objects b.objectManager).erase id)) ∨
      (b.pendingDestruction = false ∧
        (∀ i, t.world.getApiObject i =
          if i = id then some { b with delayDestruction := false } else s.world.getApiObject i) ∧
        t.world.objects = s.world.objects)) := by
  unfold popupEnd at hst
  split at hst
  · cases hst
  · rename_i id p running hrunning
    obtain ⟨b, hfilter, rfl⟩ := Option.map_eq_some_iff.mp hst
    obtain ⟨hb, hp⟩ := Option.filter_eq_some_iff.mp hfilter
    have hp : b.owner = p := by simpa using hp
    subst hp
    -- the flag is cleared first; a request that was marked is then carried out at once
    by_cases hpending : b.pendingDestruction = true
    · -- no popup keeps the object any more
      have hnot : ∀ b', (s.world.addWithID id { b with delayDestruction := false }).getApiObject
          id = some b' → b'.delayDestruction = false := by
        intro b' hb'
        rw [getApiObject_addWithID, if_pos rfl] at hb'
        cases hb'
        rfl
      refine ⟨id, b, hrunning, hb, rfl, rfl, ?_, Or.inl ⟨hpending, ?_, ?_⟩⟩
      all_goals
        simp only [if_pos hpending, Popups.setWorld]
        rw [onDeallocateObject_removed _ hnot]
      · rfl
      · intro i
        simp only [getApiObject, addWithID, Function.update_apply]
        split <;> rfl
      · rfl
    · refine ⟨id, b, hrunning, hb, rfl, rfl, ?_, Or.inr ⟨by simpa using hpending, ?_, ?_⟩⟩
      all_goals simp only [if_neg hpending, Popups.setWorld]
      · rfl
      · exact fun i => getApiObject_addWithID s.world id i _
      · rfl

/-- **The sets stay right** as long as ids are fresh and requests come from the manager of the
object, whatever popups run. -/
theorem Tidy.step (h : Tidy s.world) {op : Op} (hown : Own contextMenuId s op)
    (hst : step contextMenuId s op = some t) : Tidy t.world := by
  cases op with
  | construct m c =>
    obtain ⟨w, hw, rfl⟩ := Option.map_eq_some_iff.mp hst
    -- a constructor that throws or makes no object has drawn an id at most
    rcases construct_cases hw with ⟨hreg, hobjects, hmade⟩ | ⟨k, hrun, hn, hget, hobjects, hmade⟩
    · constructor
      case made =>
        intro k hk
        have hk : w.Holds k := hk
        rw [Holds, hreg] at hk
        exact Nat.lt_of_lt_of_le (h.made k hk) hmade
      case objects =>
        intro m' i
        show i ∈ w.objects m' ↔ ∃ b, w.getApiObject i = some b ∧ _
        rw [hobjects, hreg]
        exact h.objects m' i
    · exact h.insert (hown k hrun hn) hget rfl hobjects hmade
  | popup id =>
    cases hst
    rcases popup_cases s id with ⟨b, hb, heq⟩ | heq
    · rw [heq]
      exact h.mark hb (getApiObject_addWithID s.world id · _) rfl rfl rfl rfl
    · rw [heq]
      exact h
  | popupEnd =>
    obtain ⟨id, b, -, hb, -, -, hmade, ⟨-, hget, hobjects⟩ | ⟨-, hget, hobjects⟩⟩ :=
      popupEnd_spec hst
    · refine h.remove (fun b' hb' => ?_) hget hobjects hmade
      rw [hb, Option.some.injEq] at hb'
      rw [hb']
    · exact h.mark hb hget rfl rfl hobjects hmade
  | deallocate m id =>
    cases hst
    show Tidy (s.world.onDeallocateObject m id)
    rcases onDeallocateObject_cases s.world m id with
      ⟨b, hb, -, heq⟩ | ⟨hnot, hget, hobjects, hmade⟩
    · rw [heq]
      exact h.mark hb (getApiObject_addWithID s.world id · _) rfl rfl rfl rfl
    · exact h.remove (fun b hb => hown b hb (hnot b hb)) hget hobjects hmade
  | shutdown m =>
    cases hst
    exact h.shutdown m

end Popups

end NodeWebkit.Object
