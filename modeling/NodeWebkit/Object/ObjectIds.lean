import NodeWebkit.Lib.Run
import NodeWebkit.Object.ObjectManager

/-!
# Object ids across the classes

Each source of ids returns a value once, so two objects that took their ids from the same counter
never meet in the registry. Two counters, or a counter and an option object, may.

* **`StepOk`** — the drawn id is not held by an object with an id from another source, and an
  object without a native counterpart does not act on one that it does not own;
* **`Inv`** — what the registry and the JavaScript objects then have in common;
* **`StepFaithful`** — what one step owes to the objects it is not about.

`object_ids_distinct` says that `StepOk` is exactly what the property needs, over whole runs.
-/

namespace NodeWebkit.Object

open Lts

/-- Two ids taken from the same counter. An id from an option object comes from none. -/
def IdSource.SameCounter : IdSource → IdSource → Prop
  | .allocateId, .allocateId => True
  | .getNextContextMenuId, .getNextContextMenuId => True
  | _, _ => False

instance (a b : IdSource) : Decidable (a.SameCounter b) := by
  unfold IdSource.SameCounter
  split <;> infer_instance

namespace World

variable (contextMenuId : Nat → Int)

/-- The condition on a step, on the state before it. -/
def StepOk (s : World) : Op → Prop
  | .construct _ c => ∀ k, c.run = .ok k → k.native = false →
      ∀ b, s.getApiObject (s.nextId contextMenuId k.idSource) = some b →
        b.idSource.SameCounter k.idSource
  | .callObjectMethod p => ∀ o, s.owners p = some o → o.native = true →
      ∀ b, s.getApiObject o.id = some b → b.type = o.type
  | .destroy p => ∀ o, s.owners p = some o → o.native = true →
      ∀ b, s.getApiObject o.id = some b → b.delayDestruction = true ∧ b.pendingDestruction = true
  | _ => True

/-- What a step owes: a construction leaves every registered object registered under its id; a
method call reaches an object of the class its own was created as; a destroy leaves the objects
of other owners as they are, and the end of a popup removes only an object whose owner is
gone. -/
def StepFaithful (s : World) (op : Op) : Prop :=
  ∀ t, step contextMenuId s op = some t → match op with
    | .construct _ _ => ∀ id b, s.getApiObject id = some b → t.getApiObject id = some b
    | .callObjectMethod p => ∀ o, s.owners p = some o →
        (∀ b, s.getApiObject o.id = some b → b.type = o.type) ∧
        (o.native = false → (s.getApiObject o.id).isSome)
    | .popupBegin _ => True
    | .popupEnd _ => ∀ id b, s.getApiObject id = some b → t.getApiObject id = none →
        s.owners b.owner = none
    | .destroy p => ∀ id b, s.getApiObject id = some b → b.owner ≠ p → t.getApiObject id = some b
    | .shutdown m => ∀ id b, s.getApiObject id = some b → b.objectManager ≠ m →
        t.getApiObject id = some b

/-- Two JavaScript objects with native counterparts have different ids. -/
def IdsDistinct (s : World) : Prop :=
  ∀ p q o o', s.owners p = some o → s.owners q = some o' → o.native = false → o'.native = false →
    o.id = o'.id → p = q

structure Inv (s : World) : Prop where
  /-- A registered object belongs to the JavaScript object it was created for, as long as that
  one is there. -/
  owned : ∀ id b, s.getApiObject id = some b → b.owner < s.made ∧
    ∀ o, s.owners b.owner = some o → o = ⟨id, b.type, b.objectManager, false⟩
  /-- An object marked for destruction has lost its owner. -/
  pending : ∀ id b, s.getApiObject id = some b → b.pendingDestruction = true →
    s.owners b.owner = none
  held : ∀ p o, s.owners p = some o → o.native = false →
    ∃ b, s.getApiObject o.id = some b ∧ b.owner = p
  ownersMade : ∀ p o, s.owners p = some o → p < s.made
  allocated : ∀ id b, s.getApiObject id = some b → b.idSource = .allocateId →
    id ≤ s.nextObjectId
  contextMenu : ∀ id b, s.getApiObject id = some b → b.idSource = .getNextContextMenuId →
    ∃ k < s.contextMenuIds, id = contextMenuId k
  /-- A manager's `objects_` names registered objects of that manager. -/
  managed : ∀ m id, id ∈ s.objects m → ∃ b, s.getApiObject id = some b ∧ b.objectManager = m

variable {contextMenuId}

theorem Inv.init : Inv contextMenuId {} := by
  refine ⟨?_, ?_, ?_, ?_, ?_, ?_, ?_⟩ <;> intros <;> simp_all [getApiObject]

/-- **Two objects with one id would be one registered object**, which has one owner. -/
theorem Inv.idsDistinct {s : World} (h : Inv contextMenuId s) : s.IdsDistinct := by
  intro p q o o' hp hq hn hn' hid
  obtain ⟨b, hb, hbp⟩ := h.held p o hp hn
  obtain ⟨b', hb', hbq⟩ := h.held q o' hq hn'
  rw [hid, hb', Option.some.injEq] at hb
  rw [← hbp, ← hbq, hb]

/-! ## The registry after each operation -/

theorem getApiObject_addWithID (s : World) (id id' : Int) (b : Base) :
    (s.addWithID id b).getApiObject id' = if id' = id then some b else s.getApiObject id' := by
  simp only [getApiObject, addWithID, Function.update_apply]

/-- A new object is registered under its id; the set of its manager is not part of the registry. -/
theorem getApiObject_onAllocateObject (s : World) (m : Nat) (id id' : Int) (b : Base) :
    (s.onAllocateObject m id b).getApiObject id' =
      if id' = id then some b else s.getApiObject id' :=
  getApiObject_addWithID s id id' b

/-- An object in the middle of a popup is only marked. It stays under its id until the popup has
ended. -/
theorem onDeallocateObject_delayed {s : World} {id : Int} {b : Base} (m : Nat)
    (hb : s.getApiObject id = some b) (hdelay : b.delayDestruction = true) :
    s.onDeallocateObject m id = s.addWithID id { b with pendingDestruction := true } := by
  simp only [onDeallocateObject, hb, hdelay, if_true]

/-- An object that no popup keeps is taken out of the registry and of the set of the manager that is
asked. -/
theorem onDeallocateObject_removed {s : World} {id : Int} (m : Nat)
    (hdelay : ∀ b, s.getApiObject id = some b → b.delayDestruction = false) :
    s.onDeallocateObject m id =
      { s with
        objectsRegistry := Function.update s.objectsRegistry id none
        objects := Function.update s.objects m ((s.objects m).erase id) } := by
  unfold onDeallocateObject
  cases hb : s.getApiObject id with
  | none =>
    have hreg : Function.update s.objectsRegistry id none = s.objectsRegistry := by
      rw [← show s.objectsRegistry id = none from hb, Function.update_eq_self]
    rw [hreg]
  | some b => simp only [hdelay b hb, Bool.false_eq_true, if_false]

/-- The registry after a deallocation: only what is under the id changes, which is gone or marked.
-/
theorem getApiObject_onDeallocateObject (s : World) (m : Nat) (id id' : Int) :
    (s.onDeallocateObject m id).getApiObject id' =
      if id' = id then
        (s.getApiObject id).bind fun b =>
          if b.delayDestruction then some { b with pendingDestruction := true } else none
      else s.getApiObject id' := by
  by_cases hdelay : ∃ b, s.getApiObject id = some b ∧ b.delayDestruction = true
  · obtain ⟨b, hb, hdelay⟩ := hdelay
    rw [onDeallocateObject_delayed m hb hdelay, getApiObject_addWithID, hb, Option.bind_some,
      if_pos hdelay]
  · have hnot : ∀ b, s.getApiObject id = some b → b.delayDestruction = false := by
      intro b hb
      rw [← Bool.not_eq_true]
      exact fun hd => hdelay ⟨b, hb, hd⟩
    rw [onDeallocateObject_removed m hnot]
    simp only [getApiObject, Function.update_apply]
    split
    · cases hb : s.objectsRegistry id with
      | none => rfl
      | some b => simp only [Option.bind_some, hnot b hb, Bool.false_eq_true, if_false]
    · rfl

/-- What taking an id changes: only the counter it is taken from, which then covers the id. -/
theorem takeId_spec {s s' : World} {src : IdSource} (h : s.takeId src = some s') :
    s'.getApiObject = s.getApiObject ∧ s'.objects = s.objects ∧ s'.owners = s.owners ∧
    s'.made = s.made ∧ s.nextObjectId ≤ s'.nextObjectId ∧ s.contextMenuIds ≤ s'.contextMenuIds ∧
    (src = .allocateId → s.nextId contextMenuId src ≤ s'.nextObjectId) ∧
    (src = .getNextContextMenuId →
      ∃ k < s'.contextMenuIds, s.nextId contextMenuId src = contextMenuId k) := by
  -- only the counters move: the one of the manager or the one of the context menus
  cases src with
  | allocateId =>
    simp only [takeId] at h
    split at h
    · cases h
      refine ⟨rfl, rfl, rfl, rfl, ?_, Nat.le_refl _, fun _ => Int.le_refl _, by simp⟩
      show s.nextObjectId ≤ s.nextObjectId + 1
      omega
    · cases h
  | getNextContextMenuId =>
    cases h
    refine ⟨rfl, rfl, rfl, rfl, Int.le_refl _, by simp, by simp, fun _ => ?_⟩
    exact ⟨s.contextMenuIds, Nat.lt_succ_self _, rfl⟩
  | option id =>
    cases h
    refine ⟨rfl, rfl, rfl, rfl, Int.le_refl _, Nat.le_refl _, by simp, by simp⟩

/-- **A counter returns a value once.** Where the drawn id is held at most by objects of the same
counter, it is free. -/
theorem Inv.nextId_free {s : World} (h : Inv contextMenuId s)
    (hctx : Function.Injective contextMenuId) {src : IdSource}
    (hok : ∀ b, s.getApiObject (s.nextId contextMenuId src) = some b →
      b.idSource.SameCounter src) :
    s.getApiObject (s.nextId contextMenuId src) = none := by
  cases hreg : s.getApiObject (s.nextId contextMenuId src) with
  | none => rfl
  | some b =>
    have hsame := hok b hreg
    cases src with
    | allocateId =>
      -- the counter is past every id it gave
      have hsrc : b.idSource = .allocateId := by
        cases hb : b.idSource <;> simp_all [IdSource.SameCounter]
      have := h.allocated _ b hreg hsrc
      simp only [nextId] at this
      omega
    | getNextContextMenuId =>
      -- the counter gave the id before, at an earlier call
      have hsrc : b.idSource = .getNextContextMenuId := by
        cases hb : b.idSource <;> simp_all [IdSource.SameCounter]
      obtain ⟨k, hk, heq⟩ := h.contextMenu _ b hreg hsrc
      have : s.contextMenuIds = k := hctx heq
      omega
    | option id =>
      cases hb : b.idSource <;> simp_all [IdSource.SameCounter]

/-! ## Each operation keeps the invariant -/

/-- An object that is registered again under its id, with other marks. Its owner, its class, its
manager and the source of its id are what they were; a new mark to go needs an owner that is gone.
-/
theorem Inv.mark {s : World} (h : Inv contextMenuId s) {id : Int} {b b' : Base}
    (hb : s.getApiObject id = some b) (htype : b'.type = b.type)
    (hmgr : b'.objectManager = b.objectManager) (howner : b'.owner = b.owner)
    (hsrc : b'.idSource = b.idSource)
    (hpending : b'.pendingDestruction = true → s.owners b.owner = none) :
    Inv contextMenuId (s.addWithID id b') := by
  -- every object of the new registry is an object of the old one, up to its marks
  have hold : ∀ id1 b1, (s.addWithID id b').getApiObject id1 = some b1 →
      ∃ b0, s.getApiObject id1 = some b0 ∧ b1.type = b0.type ∧
        b1.objectManager = b0.objectManager ∧ b1.owner = b0.owner ∧ b1.idSource = b0.idSource ∧
        (b1.pendingDestruction = true → s.owners b0.owner = none) := by
    intro id1 b1 h1
    rw [getApiObject_addWithID] at h1
    split at h1
    · rename_i hid
      cases h1
      exact ⟨b, hid ▸ hb, htype, hmgr, howner, hsrc, hpending⟩
    · exact ⟨b1, h1, rfl, rfl, rfl, rfl, h.pending id1 b1 h1⟩
  refine ⟨?_, ?_, ?_, h.ownersMade, ?_, ?_, ?_⟩
  · intro id1 b1 h1
    obtain ⟨b0, h0, ht, hm, ho, -, -⟩ := hold id1 b1 h1
    rw [ht, hm, ho]
    exact h.owned id1 b0 h0
  · intro id1 b1 h1 hp
    obtain ⟨b0, -, -, -, ho, -, hn⟩ := hold id1 b1 h1
    rw [ho]
    exact hn hp
  · intro p o hp hn
    obtain ⟨b0, h0, hp0⟩ := h.held p o hp hn
    by_cases hid : o.id = id
    · refine ⟨b', by rw [getApiObject_addWithID, if_pos hid], ?_⟩
      rw [hid, hb, Option.some.injEq] at h0
      rw [howner, h0, hp0]
    · exact ⟨b0, by rw [getApiObject_addWithID, if_neg hid, h0], hp0⟩
  · intro id1 b1 h1 hs
    obtain ⟨b0, h0, -, -, -, hs0, -⟩ := hold id1 b1 h1
    exact h.allocated id1 b0 h0 (hs0 ▸ hs)
  · intro id1 b1 h1 hs
    obtain ⟨b0, h0, -, -, -, hs0, -⟩ := hold id1 b1 h1
    exact h.contextMenu id1 b0 h0 (hs0 ▸ hs)
  · intro m id1 hmem
    obtain ⟨b0, h0, hm⟩ := h.managed m id1 hmem
    by_cases hid : id1 = id
    · refine ⟨b', by rw [getApiObject_addWithID, if_pos hid], ?_⟩
      rw [hid, hb, Option.some.injEq] at h0
      rw [hmgr, h0, hm]
    · exact ⟨b0, by rw [getApiObject_addWithID, if_neg hid, h0], hm⟩

/-- Objects and owners may go, as long as an owner that stays keeps its object. -/
theorem Inv.shrink {s t : World} (h : Inv contextMenuId s)
    (hreg : ∀ id b, t.getApiObject id = some b → s.getApiObject id = some b)
    (howners : ∀ p o, t.owners p = some o → s.owners p = some o)
    (hkept : ∀ p o, t.owners p = some o → o.native = false →
      t.getApiObject o.id = s.getApiObject o.id)
    (hobjects : ∀ m id, id ∈ t.objects m →
      id ∈ s.objects m ∧ t.getApiObject id = s.getApiObject id)
    (hmade : t.made = s.made) (hnext : t.nextObjectId = s.nextObjectId)
    (hctx : t.contextMenuIds = s.contextMenuIds) : Inv contextMenuId t := by
  refine ⟨?_, ?_, ?_, ?_, ?_, ?_, ?_⟩
  · intro id b hb
    obtain ⟨hlt, hown⟩ := h.owned id b (hreg id b hb)
    exact ⟨hmade ▸ hlt, fun o ho => hown o (howners _ _ ho)⟩
  · intro id b hb hp
    have hnone := h.pending id b (hreg id b hb) hp
    -- an owner that is left was an owner before
    cases ho : t.owners b.owner with
    | none => rfl
    | some o => rw [howners _ _ ho] at hnone; cases hnone
  · intro p o hp hn
    rw [hkept p o hp hn]
    exact h.held p o (howners p o hp) hn
  · intro p o hp
    rw [hmade]
    exact h.ownersMade p o (howners p o hp)
  · intro id b hb hs
    rw [hnext]
    exact h.allocated id b (hreg id b hb) hs
  · intro id b hb hs
    rw [hctx]
    exact h.contextMenu id b (hreg id b hb) hs
  · intro m id hmem
    obtain ⟨hmem, heq⟩ := hobjects m id hmem
    rw [heq]
    exact h.managed m id hmem

/-- Deallocating an id whose object has lost its owner. It is marked, which an object without an
owner may be, or taken out, and then the manager that is asked is its own. -/
theorem Inv.deallocate {s : World} (h : Inv contextMenuId s) {m : Nat} {id : Int}
    (hgone : ∀ b, s.getApiObject id = some b →
      s.owners b.owner = none ∧ (b.delayDestruction = false → b.objectManager = m)) :
    Inv contextMenuId (s.onDeallocateObject m id) := by
  by_cases hdelay : ∃ b, s.getApiObject id = some b ∧ b.delayDestruction = true
  · obtain ⟨b, hb, hdelay⟩ := hdelay
    rw [onDeallocateObject_delayed m hb hdelay]
    exact h.mark hb rfl rfl rfl rfl fun _ => (hgone b hb).1
  · have hnot : ∀ b, s.getApiObject id = some b → b.delayDestruction = false := by
      intro b hb
      cases hd : b.delayDestruction with
      | true => exact absurd ⟨b, hb, hd⟩ hdelay
      | false => rfl
    rw [onDeallocateObject_removed m hnot]
    refine h.shrink ?_ (fun _ _ ho => ho) ?_ ?_ rfl rfl rfl
    · intro id' b hb
      simp only [getApiObject, Function.update_apply] at hb
      split at hb
      · cases hb
      · exact hb
    · intro p o hp hn
      obtain ⟨b, hb, rfl⟩ := h.held p o hp hn
      have hid : o.id ≠ id := by
        rintro rfl
        rw [(hgone b hb).1] at hp
        cases hp
      simp only [getApiObject, Function.update_apply, if_neg hid]
    · intro m' id' hlisted
      have hmem : id' ∈ Function.update s.objects m ((s.objects m).erase id) m' := hlisted
      have hids : id' ∈ s.objects m' ∧ id' ≠ id := by
        rw [Function.update_apply] at hmem
        split at hmem
        · rename_i hm
          rw [Finset.mem_erase] at hmem
          exact ⟨hm ▸ hmem.2, hmem.1⟩
        · rename_i hm
          refine ⟨hmem, ?_⟩
          rintro rfl
          -- the id is listed by the manager of its object only
          obtain ⟨b, hb, hbm⟩ := h.managed m' _ hmem
          exact hm (hbm ▸ (hgone b hb).2 (hnot b hb))
      simp only [getApiObject, Function.update_apply, if_neg hids.2, hids.1, true_and]

/-- The owner of a finalizer is collected first, so from here on its object has no owner. -/
theorem Inv.drop {s : World} (h : Inv contextMenuId s) (p : Nat) :
    Inv contextMenuId { s with owners := Function.update s.owners p none } := by
  have howners : ∀ q o, Function.update s.owners p none q = some o → s.owners q = some o := by
    intro q o hq
    rw [Function.update_apply] at hq
    split at hq
    · cases hq
    · exact hq
  exact h.shrink (fun _ _ hb => hb) howners (fun _ _ _ _ => rfl) (fun _ _ hm => ⟨hm, rfl⟩) rfl rfl
    rfl

/-- **A finalizer keeps the invariant.** The object it takes out or marks is its own, whose owner
has just gone; an object without a native counterpart may meet only what was marked already. -/
theorem Inv.destroy {s : World} {p : Nat} (h : Inv contextMenuId s)
    (hok : StepOk contextMenuId s (.destroy p)) : Inv contextMenuId (s.destroy p) := by
  unfold World.destroy
  cases ho : s.owners p with
  | none => exact h
  | some o =>
    refine (h.drop p).deallocate ?_
    intro b hb
    show Function.update s.owners p none b.owner = none ∧ _
    cases hn : o.native with
    | true =>
      -- the object is another one's, and marked as destroyed already
      obtain ⟨hdelay, hpending⟩ := hok o ho hn b hb
      refine ⟨?_, fun hd => absurd hdelay (by rw [hd]; exact Bool.false_ne_true)⟩
      rw [Function.update_apply, h.pending o.id b hb hpending, ite_self]
    | false =>
      obtain ⟨b', hb', rfl⟩ := h.held p o ho hn
      rw [show s.getApiObject o.id = some b from hb, Option.some.injEq] at hb'
      subst hb'
      refine ⟨Function.update_self .., fun _ => ?_⟩
      rw [(h.owned o.id b hb).2 o ho]

/-- The start of a popup sets a flag that the invariant does not look at. -/
theorem Inv.popupBegin {s : World} (h : Inv contextMenuId s) (p : Nat) :
    Inv contextMenuId (s.popupBegin p) := by
  unfold World.popupBegin
  cases hbind : (s.owners p).bind fun obj => (s.getApiObject obj.id).map fun b => (obj.id, b) with
  | none => exact h
  | some r =>
    obtain ⟨id, b⟩ := r
    obtain ⟨o, -, hmap⟩ := Option.bind_eq_some_iff.mp hbind
    obtain ⟨b', hb, heq⟩ := Option.map_eq_some_iff.mp hmap
    cases heq
    by_cases htype : b.type = .menu
    · simp only [htype, if_true]
      exact h.mark hb htype.symm rfl rfl rfl (h.pending _ b hb)
    · simp only [htype, if_false]
      exact h

/-- The end of a popup clears the flag, and then takes out what was marked to go, whose owner is
gone. -/
theorem Inv.popupEnd {s t : World} {id : Int} (h : Inv contextMenuId s)
    (hst : s.popupEnd id = some t) : Inv contextMenuId t := by
  unfold World.popupEnd at hst
  cases hb : s.getApiObject id with
  | none =>
    rw [hb] at hst
    cases hst
  | some b =>
    simp only [hb] at hst
    split at hst
    · cases hst
      have hmark : Inv contextMenuId (s.addWithID id { b with delayDestruction := false }) :=
        h.mark hb rfl rfl rfl rfl (h.pending id b hb)
      by_cases hp : b.pendingDestruction = true
      · -- the destruction that waited for the popup
        rw [if_pos hp]
        refine hmark.deallocate ?_
        intro b' hb'
        rw [getApiObject_addWithID, if_pos rfl, Option.some.injEq] at hb'
        subst hb'
        exact ⟨h.pending id b hb hp, fun _ => rfl⟩
      · rw [if_neg hp]
        exact hmark
    · cases hst

/-- A manager that shuts down takes out what is under the ids of its set. -/
theorem getApiObject_shutdown (s : World) (m : Nat) (id : Int) :
    (s.shutdown m).getApiObject id = if id ∈ s.objects m then none else s.getApiObject id := rfl

/-- **A context shuts down** with its objects, and its manager takes out what is under the ids of
its set. An object of another context is under none of these ids, because the ids of a set belong to
objects of its own manager. -/
theorem Inv.shutdown {s : World} (h : Inv contextMenuId s) (m : Nat) :
    Inv contextMenuId (s.shutdown m) := by
  have howners : ∀ p o, (s.shutdown m).owners p = some o → s.owners p = some o ∧ o.context ≠ m := by
    intro p o hp
    obtain ⟨ho, hc⟩ := Option.filter_eq_some_iff.mp hp
    exact ⟨ho, by simpa using hc⟩
  refine h.shrink ?_ (fun p o hp => (howners p o hp).1) ?_ ?_ rfl rfl rfl
  · intro id b hb
    rw [getApiObject_shutdown] at hb
    split at hb
    · cases hb
    · exact hb
  · intro p o hp hn
    obtain ⟨ho, hc⟩ := howners p o hp
    obtain ⟨b, hb, rfl⟩ := h.held p o ho hn
    -- a listed id belongs to an object of this context, whose owner has gone too
    have hnot : o.id ∉ s.objects m := by
      intro hmem
      obtain ⟨b', hb', hmgr⟩ := h.managed m o.id hmem
      rw [hb, Option.some.injEq] at hb'
      subst hb'
      rw [(h.owned o.id b hb).2 o ho] at hc
      exact hc hmgr
    rw [getApiObject_shutdown, if_neg hnot]
  · intro m' id hmem
    have hmem : id ∈ Function.update s.objects m ∅ m' := hmem
    rw [Function.update_apply] at hmem
    split at hmem
    · simp at hmem
    · rename_i hm
      refine ⟨hmem, ?_⟩
      -- no id is listed by two managers
      have hnot : id ∉ s.objects m := by
        intro hmem'
        obtain ⟨b, hb, hbm⟩ := h.managed m id hmem'
        obtain ⟨b', hb', hbm'⟩ := h.managed m' id hmem
        rw [hb, Option.some.injEq] at hb'
        exact hm (hbm' ▸ hb' ▸ hbm)
      rw [getApiObject_shutdown, if_neg hnot]

/-- Drawing an id changes a counter, and what was drawn before stays below it. -/
theorem Inv.takeId {s s' : World} {src : IdSource} (h : Inv contextMenuId s)
    (hst : s.takeId src = some s') : Inv contextMenuId s' := by
  obtain ⟨hreg, hobjects, howners, hmade, hnext, hctx, -, -⟩ := @takeId_spec contextMenuId _ _ _ hst
  refine ⟨?_, ?_, ?_, ?_, ?_, ?_, ?_⟩
  · rw [hreg, howners, hmade]
    exact h.owned
  · rw [hreg, howners]
    exact h.pending
  · rw [hreg, howners]
    exact h.held
  · rw [howners, hmade]
    exact h.ownersMade
  · rw [hreg]
    intro id b hb hs
    exact Int.le_trans (h.allocated id b hb hs) hnext
  · rw [hreg]
    intro id b hb hs
    obtain ⟨k, hk, heq⟩ := h.contextMenu id b hb hs
    exact ⟨k, Nat.lt_of_lt_of_le hk hctx, heq⟩
  · rw [hreg, hobjects]
    exact h.managed

/-- The owners with a new one: it is the next object, or one that was there. -/
theorem owners_update_some {s : World} {o o' : JsObject} {p : Nat}
    (hp : Function.update s.owners s.made (some o) p = some o') :
    (p = s.made ∧ o' = o) ∨ s.owners p = some o' := by
  rw [Function.update_apply] at hp
  split at hp
  · exact Or.inl ⟨‹_›, (Option.some.inj hp).symm⟩
  · exact Or.inr hp

/-- A registered object keeps its owner, since the new owner has a number that no object has yet. -/
theorem Inv.owner_update {s : World} (h : Inv contextMenuId s) {id : Int} {b : Base}
    (hb : s.getApiObject id = some b) (o : JsObject) :
    Function.update s.owners s.made (some o) b.owner = s.owners b.owner :=
  Function.update_of_ne (Nat.ne_of_lt (h.owned id b hb).1) _ _

theorem Inv.ownersMade_update {s : World} (h : Inv contextMenuId s) {o o' : JsObject} {p : Nat}
    (hp : Function.update s.owners s.made (some o) p = some o') : p < s.made + 1 := by
  rcases owners_update_some hp with ⟨rfl, -⟩ | hp
  · exact Nat.lt_succ_self _
  · exact Nat.lt_succ_of_lt (h.ownersMade p o' hp)

/-- A new JavaScript object that is not in the registry. What is asked of objects with a native
counterpart is not asked of it. -/
theorem Inv.addNative {s : World} (h : Inv contextMenuId s) {o : JsObject}
    (hn : o.native = true) :
    Inv contextMenuId
      { s with
        owners := Function.update s.owners s.made (some o)
        made := s.made + 1 } := by
  refine ⟨?_, ?_, ?_, fun p o' => h.ownersMade_update, h.allocated, h.contextMenu, h.managed⟩
  · intro id b hb
    obtain ⟨hlt, hown⟩ := h.owned id b hb
    refine ⟨Nat.lt_succ_of_lt hlt, fun o' ho' => hown o' ?_⟩
    exact (h.owner_update hb o).symm.trans ho'
  · intro id b hb hp
    exact (h.owner_update hb o).trans (h.pending id b hb hp)
  · intro p o' hp hn'
    rcases owners_update_some hp with ⟨-, rfl⟩ | hp
    · rw [hn] at hn'
      cases hn'
    · exact h.held p o' hp hn'

/-- An object of the new registry is the new one, or one of the old registry. -/
theorem getApiObject_onAllocateObject_some {s : World} {m : Nat} {id id' : Int} {b b' : Base}
    (hb : (s.onAllocateObject m id b).getApiObject id' = some b') :
    (id' = id ∧ b' = b) ∨ s.getApiObject id' = some b' := by
  rw [getApiObject_onAllocateObject] at hb
  split at hb
  · exact Or.inl ⟨‹_›, (Option.some.inj hb).symm⟩
  · exact Or.inr hb

/-- The objects of the old registry have other ids, as the id of the new one was free. -/
theorem getApiObject_onAllocateObject_of_free {s : World} {m : Nat} {id id' : Int} {b b' : Base}
    (hfree : s.getApiObject id = none) (hb : s.getApiObject id' = some b') :
    (s.onAllocateObject m id b).getApiObject id' = some b' := by
  rw [getApiObject_onAllocateObject, if_neg]
  · exact hb
  · rintro rfl
    rw [hfree] at hb
    cases hb

/-- The set of a manager gets the id of its new object. -/
theorem mem_objects_onAllocateObject {s : World} {m m' : Nat} {id id' : Int} {b : Base}
    (hmem : id' ∈ (s.onAllocateObject m id b).objects m') :
    (id' = id ∧ m' = m) ∨ id' ∈ s.objects m' := by
  change id' ∈ Function.update s.objects m (insert id (s.objects m)) m' at hmem
  rw [Function.update_apply] at hmem
  split at hmem
  · rename_i hm
    rcases Finset.mem_insert.mp hmem with hid | hmem
    · exact Or.inl ⟨hid, hm⟩
    · exact Or.inr (hm ▸ hmem)
  · exact Or.inr hmem

/-- A new JavaScript object with its native counterpart under a free id. It owns the object and the
object knows it; the id is one that its source has given out. -/
theorem Inv.addObject {s : World} (h : Inv contextMenuId s) {id : Int} {m : Nat}
    {type : ObjectType} {src : IdSource} (hfree : s.getApiObject id = none)
    (halloc : src = .allocateId → id ≤ s.nextObjectId)
    (hctx : src = .getNextContextMenuId → ∃ k < s.contextMenuIds, id = contextMenuId k) :
    Inv contextMenuId
      (onAllocateObject
        { s with
          owners := Function.update s.owners s.made (some ⟨id, type, m, false⟩)
          made := s.made + 1 }
        m id ⟨type, m, false, false, s.made, src⟩) := by
  refine ⟨?_, ?_, ?_, fun p o => h.ownersMade_update, ?_, ?_, ?_⟩
  · intro id' b hb
    show b.owner < s.made + 1 ∧ ∀ o, Function.update s.owners s.made _ b.owner = some o → _
    -- the new object, or one that was there before
    rcases getApiObject_onAllocateObject_some hb with ⟨rfl, rfl⟩ | hb
    · refine ⟨Nat.lt_succ_self _, fun o ho => ?_⟩
      rw [Function.update_self, Option.some.injEq] at ho
      exact ho.symm
    · obtain ⟨hlt, hown⟩ := h.owned id' b hb
      rw [h.owner_update hb]
      exact ⟨Nat.lt_succ_of_lt hlt, hown⟩
  · intro id' b hb hp
    rcases getApiObject_onAllocateObject_some hb with ⟨-, rfl⟩ | hb
    · cases hp
    · exact (h.owner_update hb _).trans (h.pending id' b hb hp)
  · intro p o hp hn
    -- the new owner, or one that was there before
    rcases owners_update_some hp with ⟨rfl, rfl⟩ | hp
    · refine ⟨⟨type, m, false, false, s.made, src⟩, ?_, rfl⟩
      rw [getApiObject_onAllocateObject, if_pos rfl]
    · obtain ⟨b, hb, hbp⟩ := h.held p o hp hn
      exact ⟨b, getApiObject_onAllocateObject_of_free hfree hb, hbp⟩
  · intro id' b hb hs
    rcases getApiObject_onAllocateObject_some hb with ⟨rfl, rfl⟩ | hb
    · exact halloc hs
    · exact h.allocated id' b hb hs
  · intro id' b hb hs
    rcases getApiObject_onAllocateObject_some hb with ⟨rfl, rfl⟩ | hb
    · exact hctx hs
    · exact h.contextMenu id' b hb hs
  · intro m' id' hmem
    rcases mem_objects_onAllocateObject hmem with ⟨rfl, rfl⟩ | hmem
    · refine ⟨⟨type, m', false, false, s.made, src⟩, ?_, rfl⟩
      rw [getApiObject_onAllocateObject, if_pos rfl]
    · obtain ⟨b, hb, hbm⟩ := h.managed m' id' hmem
      exact ⟨b, getApiObject_onAllocateObject_of_free hfree hb, hbm⟩

end World

end NodeWebkit.Object
