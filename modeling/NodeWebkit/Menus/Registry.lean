import Mathlib.Data.List.Basic

/-!
# The registry of native objects and their deferred destruction

`ObjectManager::OnDeallocateObject` takes an object out of `objects_registry_`, unless a nested
message loop is running on its behalf: `Menu::Popup` marks the menu with `delay_destruction` for as
long as the menu is open, and destroys it at the end if it was told to meanwhile.

Objects of one class are registered under the number of the constructor call that made them, so a
number is never given out twice and the registry is a list with holes.

* **`lookup_modify`**, **`lookup_add`**, **`lookup_popupEnd`** — what each operation does to a
  lookup, which is all that the modules on menus use of it;
* **`Covers`**, **`Holds`** — that what something points to, or what a page reaches, is registered;
  one lemma says for each operation what it needs to keep them;
* **`Keeps`** — that the objects themselves stay what they were.
-/

namespace NodeWebkit.Menus

structure Registered (α : Type) where
  object : α
  delayDestruction : Bool := false
  pendingDestruction : Bool := false
  deriving DecidableEq

structure Registry (α : Type) where
  slots : List (Option (Registered α)) := []
  deriving DecidableEq

namespace Registry

variable {α : Type}

/-- `objects_registry_.Lookup`. -/
def lookup (r : Registry α) (id : Nat) : Option (Registered α) :=
  r.slots[id]?.join

/-- The id the next object gets. -/
def nextId (r : Registry α) : Nat := r.slots.length

/-- A new object under the next id. -/
def add (r : Registry α) (object : α) : Registry α :=
  ⟨r.slots ++ [some { object := object }]⟩

def modify (r : Registry α) (id : Nat) (f : Registered α → Option (Registered α)) : Registry α :=
  ⟨r.slots.modify id fun slot => slot.bind f⟩

def onDeallocateObject (r : Registry α) (id : Nat) : Registry α :=
  r.modify id fun obj =>
    if obj.delayDestruction then some { obj with pendingDestruction := true } else none

/-- `Menu::Popup` up to the nested message loop. -/
def popupBegin (r : Registry α) (id : Nat) : Registry α :=
  r.modify id fun obj => some { obj with delayDestruction := true }

/-- `Menu::Popup` after the nested message loop. -/
def popupEnd (r : Registry α) (id : Nat) : Registry α :=
  let closed := r.modify id fun obj => some { obj with delayDestruction := false }
  match r.lookup id with
  | some obj => if obj.pendingDestruction then closed.onDeallocateObject id else closed
  | none => closed

/-- Changing what is registered under one id leaves the other ids alone. -/
theorem lookup_modify (r : Registry α) (id k : Nat)
    (f : Registered α → Option (Registered α)) :
    (r.modify id f).lookup k = if k = id then (r.lookup id).bind f else r.lookup k := by
  unfold lookup modify
  rw [List.getElem?_modify]
  by_cases hk : k = id
  · subst hk
    simp only [if_true]
    cases r.slots[k]? with
    | none => rfl
    | some slot => rfl
  · simp only [hk, Ne.symm hk, if_false, id_map']

theorem lookup_add (r : Registry α) (object : α) (k : Nat) :
    (r.add object).lookup k =
      if k = r.nextId then some { object := object } else r.lookup k := by
  unfold lookup add nextId
  rcases Nat.lt_trichotomy k r.slots.length with hlt | rfl | hgt
  · rw [List.getElem?_append_left hlt, if_neg (by omega)]
  · simp
  · have hnone : r.slots[k]? = none := List.getElem?_eq_none (by omega)
    rw [if_neg (by omega), hnone, List.getElem?_eq_none (by simp; omega)]

theorem lookup_nextId (r : Registry α) : r.lookup r.nextId = none := by
  unfold lookup nextId
  rw [List.getElem?_eq_none (Nat.le_refl _)]
  rfl

theorem lookup_add_of_lookup {r : Registry α} {k : Nat} {obj : Registered α}
    (h : r.lookup k = some obj) (object : α) : (r.add object).lookup k = some obj := by
  have hne : k ≠ r.nextId := by
    rintro rfl
    rw [lookup_nextId] at h
    cases h
  rw [lookup_add, if_neg hne, h]

/-- What `Popup` leaves of the menu: nothing if it was told to go while it was open, otherwise the
menu without the mark. -/
theorem lookup_popupEnd (r : Registry α) (id k : Nat) :
    (r.popupEnd id).lookup k =
      if k = id then
        (r.lookup id).bind fun obj =>
          if obj.pendingDestruction then none else some { obj with delayDestruction := false }
      else r.lookup k := by
  unfold popupEnd onDeallocateObject
  cases hobj : r.lookup id with
  | none =>
    simp only [lookup_modify, hobj]
    rfl
  | some obj =>
    dsimp only
    split
    · simp only [lookup_modify, hobj]
      split <;> simp [*]
    · simp only [lookup_modify, hobj]
      split <;> simp [*]

/-! ## What stays registered

Code that can still reach an object relies on two things: that the object is registered, and, for
what a page reaches, that nobody told it to go. -/

/-- Every object that something points to is registered. -/
def Covers (r : Registry α) (P : Nat → Prop) : Prop :=
  ∀ k, P k → ∃ obj, r.lookup k = some obj

/-- Every object that a page reaches is registered and was not told to go. -/
def Holds (r : Registry α) (R : Nat → Prop) : Prop :=
  ∀ k, R k → ∃ obj, r.lookup k = some obj ∧ obj.pendingDestruction = false

variable {r : Registry α} {P R : Nat → Prop} {id : Nat}

/-- What is registered and was not told to go is registered. -/
theorem Holds.covers (h : r.Holds R) : r.Covers R := by
  intro k hk
  obtain ⟨obj, hobj, -⟩ := h k hk
  exact ⟨obj, hobj⟩

/-- A new object takes nothing out of the registry. -/
theorem Covers.add (h : r.Covers P) (object : α) : (r.add object).Covers P := by
  intro k hk
  obtain ⟨obj, hobj⟩ := h k hk
  exact ⟨obj, lookup_add_of_lookup hobj object⟩

/-- The new object is reached, too, and nobody has told it to go. -/
theorem Holds.add (h : r.Holds R) (object : α) :
    (r.add object).Holds fun k => k = r.nextId ∨ R k := by
  rintro k (hk | hk)
  · refine ⟨{ object := object }, ?_, rfl⟩
    rw [lookup_add, if_pos hk]
  · obtain ⟨obj, hobj, hpending⟩ := h k hk
    exact ⟨obj, lookup_add_of_lookup hobj object, hpending⟩

/-- Only the object itself goes, unless a popup keeps it. So either nothing points to it, or the
popup that is running leaves it in the registry for now. -/
theorem Covers.onDeallocateObject (h : r.Covers P)
    (hdelay : P id → ∀ obj ∈ r.lookup id, obj.delayDestruction = true) :
    (r.onDeallocateObject id).Covers P := by
  intro k hk
  obtain ⟨obj, hobj⟩ := h k hk
  rw [Registry.onDeallocateObject, lookup_modify]
  split
  · rename_i hid
    subst hid
    rw [hobj, Option.bind_some, hdelay hk obj hobj]
    exact ⟨_, rfl⟩
  · exact ⟨obj, hobj⟩

/-- What a page reaches is not collected, so the object that goes or is marked is another one. -/
theorem Holds.onDeallocateObject (h : r.Holds R) (hid : ¬R id) :
    (r.onDeallocateObject id).Holds R := by
  intro k hk
  have hne : k ≠ id := by
    rintro rfl
    exact hid hk
  rw [Registry.onDeallocateObject, lookup_modify, if_neg hne]
  exact h k hk

/-- An object keeps its mark for destruction while it is opened and, unless it is told to go, while
it is closed. -/
theorem exists_lookup_popupBegin {k : Nat} {obj : Registered α} (h : r.lookup k = some obj)
    (id : Nat) :
    ∃ obj', (r.popupBegin id).lookup k = some obj' ∧
      obj'.pendingDestruction = obj.pendingDestruction := by
  rw [popupBegin, lookup_modify]
  split
  · rename_i hk
    rw [← hk, h]
    exact ⟨_, rfl, rfl⟩
  · exact ⟨obj, h, rfl⟩

/-- The end of a popup keeps every object that was not told to go, and the marks of all others. -/
theorem exists_lookup_popupEnd {k : Nat} {obj : Registered α} (h : r.lookup k = some obj)
    (hpending : k = id → obj.pendingDestruction = false) :
    ∃ obj', (r.popupEnd id).lookup k = some obj' ∧
      obj'.pendingDestruction = obj.pendingDestruction := by
  rw [lookup_popupEnd]
  split
  · rename_i hk
    rw [← hk, h, Option.bind_some, hpending hk]
    exact ⟨_, rfl, rfl⟩
  · exact ⟨obj, h, rfl⟩

theorem Covers.popupBegin (h : r.Covers P) (id : Nat) : (r.popupBegin id).Covers P := by
  intro k hk
  obtain ⟨obj, hobj⟩ := h k hk
  obtain ⟨obj', hobj', -⟩ := exists_lookup_popupBegin hobj id
  exact ⟨obj', hobj'⟩

theorem Holds.popupBegin (h : r.Holds R) (id : Nat) : (r.popupBegin id).Holds R := by
  intro k hk
  obtain ⟨obj, hobj, hpending⟩ := h k hk
  obtain ⟨obj', hobj', heq⟩ := exists_lookup_popupBegin hobj id
  exact ⟨obj', hobj', heq.trans hpending⟩

/-- Closing a menu takes it out of the registry only if it was told to go, which nothing that is
pointed to may have been. -/
theorem Covers.popupEnd (h : r.Covers P)
    (hpending : P id → ∀ obj ∈ r.lookup id, obj.pendingDestruction = false) :
    (r.popupEnd id).Covers P := by
  intro k hk
  obtain ⟨obj, hobj⟩ := h k hk
  have hkept : k = id → obj.pendingDestruction = false := by
    rintro rfl
    exact hpending hk obj hobj
  obtain ⟨obj', hobj', -⟩ := exists_lookup_popupEnd hobj hkept
  exact ⟨obj', hobj'⟩

/-- What a page reaches was not told to go, so it stays when its popup ends. -/
theorem Holds.popupEnd (h : r.Holds R) (id : Nat) : (r.popupEnd id).Holds R := by
  intro k hk
  obtain ⟨obj, hobj, hpending⟩ := h k hk
  obtain ⟨obj', hobj', heq⟩ := exists_lookup_popupEnd hobj fun _ => hpending
  exact ⟨obj', hobj', heq.trans hpending⟩

/-! ## What happens to the registered objects themselves -/

/-- Every object of `r'` was there in `r`; only its marks may differ. -/
def Keeps (r r' : Registry α) : Prop :=
  ∀ k, ∀ obj ∈ r'.lookup k, ∃ old ∈ r.lookup k, obj.object = old.object

theorem keeps_modify (r : Registry α) (id : Nat) {f : Registered α → Option (Registered α)}
    (hf : ∀ old, ∀ obj ∈ f old, obj.object = old.object) : r.Keeps (r.modify id f) := by
  intro k obj hobj
  rw [lookup_modify] at hobj
  split at hobj
  · rename_i hk
    obtain ⟨old, hold, hobj⟩ := Option.bind_eq_some_iff.mp hobj
    exact ⟨old, hk ▸ hold, hf old obj hobj⟩
  · exact ⟨obj, hobj, rfl⟩

theorem keeps_onDeallocateObject (r : Registry α) (id : Nat) :
    r.Keeps (r.onDeallocateObject id) := by
  apply keeps_modify
  intro old obj hobj
  split at hobj
  · cases hobj
    rfl
  · cases hobj

theorem keeps_popupBegin (r : Registry α) (id : Nat) : r.Keeps (r.popupBegin id) := by
  apply keeps_modify
  rintro old obj ⟨⟩
  rfl

/-- The end of a popup removes the object or changes its marks. -/
theorem keeps_popupEnd (r : Registry α) (id : Nat) : r.Keeps (r.popupEnd id) := by
  intro k obj hobj
  rw [lookup_popupEnd] at hobj
  split at hobj
  · rename_i hk
    obtain ⟨old, hold, hobj⟩ := Option.bind_eq_some_iff.mp hobj
    split at hobj
    · cases hobj
    · cases hobj
      exact ⟨old, hk ▸ hold, rfl⟩
  · exact ⟨obj, hobj, rfl⟩

end Registry

end NodeWebkit.Menus
