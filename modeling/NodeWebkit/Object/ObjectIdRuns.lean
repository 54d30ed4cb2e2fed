import NodeWebkit.Object.ObjectIds

/-!
# Runs of the object registry

Every operation under `StepOk` keeps `Inv` (`Inv.step`), and in a state with `Inv` a step meets
`StepOk` exactly when it is faithful to the other objects (`stepOk_iff_faithful`). One lemma for
each operation says what being faithful comes to there: a construction displaces nothing
(`faithful_construct_iff`), a call reaches the object it is meant for (`faithful_call_iff`), and a
finalizer takes out nothing but its own object (`faithful_destroy_iff`).

`object_ids_distinct` puts the two together for whole runs. The induction carries `Inv` from step to
step, and the two directions of the equivalence turn one guard into the other at each of them.
-/

namespace NodeWebkit.Object

open Lts

namespace World

variable {contextMenuId : Nat → Int}

/-- A constructor that passes its checks: the id is taken, and a native object is registered
under it unless the option says it is native. -/
theorem create_spec {s t : World} {m : Nat} {k : Creation}
    (hst : s.create contextMenuId m k = some t) :
    ∃ s1, s.takeId k.idSource = some s1 ∧
      t = (let s2 := { s1 with
            owners := Function.update s1.owners s1.made
              (some ⟨s.nextId contextMenuId k.idSource, k.type, m, k.native⟩)
            made := s1.made + 1 }
          if k.native then s2
          else s2.onAllocateObject m (s.nextId contextMenuId k.idSource)
            ⟨k.type, m, false, false, s1.made, k.idSource⟩) := by
  obtain ⟨s1, h1, h2⟩ := Option.map_eq_some_iff.mp hst
  exact ⟨s1, h1, h2.symm⟩

/-- The registry after a construction: the new object is under the id that was drawn, unless it is
one without a native counterpart, and under the other ids is what was there. -/
theorem getApiObject_create {s t : World} {m : Nat} {k : Creation}
    (hst : s.create contextMenuId m k = some t) (id : Int) :
    t.getApiObject id =
      if k.native = false ∧ id = s.nextId contextMenuId k.idSource then
        some ⟨k.type, m, false, false, s.made, k.idSource⟩
      else s.getApiObject id := by
  obtain ⟨s1, h1, rfl⟩ := create_spec hst
  obtain ⟨hreg, -, -, hmade, -⟩ := @takeId_spec contextMenuId _ _ _ h1
  cases hn : k.native with
  | true =>
    simp only [if_true, Bool.true_eq_false, false_and, if_false]
    exact congrFun hreg id
  | false =>
    simp only [Bool.false_eq_true, if_false, true_and, getApiObject_onAllocateObject, hmade]
    split
    · rfl
    · exact congrFun hreg id

/-- **A construction keeps the invariant.** The drawn id is not held by an object from another
source, and from its own source it is new; so it is free, and nothing is displaced. -/
theorem Inv.create {s t : World} (h : Inv contextMenuId s)
    (hctx : Function.Injective contextMenuId) {m : Nat} {k : Creation}
    (hok : k.native = false → ∀ b,
      s.getApiObject (s.nextId contextMenuId k.idSource) = some b →
        b.idSource.SameCounter k.idSource)
    (hst : s.create contextMenuId m k = some t) : Inv contextMenuId t := by
  obtain ⟨s1, h1, rfl⟩ := create_spec hst
  have hs1 := h.takeId h1
  obtain ⟨hreg, -, -, hmade, -, -, halloc, hmenu⟩ := @takeId_spec contextMenuId _ _ _ h1
  cases hn : k.native with
  | true => exact hs1.addNative rfl
  | false =>
    have hfree := h.nextId_free hctx (hok hn)
    exact hs1.addObject (by rw [hreg]; exact hfree) halloc hmenu

/-- **Every operation keeps the invariant.** One case for each operation, with its lemma in the
module on the ids. -/
theorem Inv.step {s t : World} {op : Op} (h : Inv contextMenuId s)
    (hctx : Function.Injective contextMenuId) (hok : StepOk contextMenuId s op)
    (hst : World.step contextMenuId s op = some t) : Inv contextMenuId t := by
  cases op with
  | construct m c =>
    rw [World.step] at hst
    cases hrun : c.run with
    | error e =>
      rw [hrun] at hst
      cases hst
      exact h
    | ok k =>
      rw [hrun] at hst
      exact h.create hctx (hok k hrun) hst
  | callObjectMethod p => cases hst; exact h
  | popupBegin p => cases hst; exact h.popupBegin p
  | popupEnd id => exact h.popupEnd hst
  | destroy p => cases hst; exact h.destroy hok
  | shutdown m => cases hst; exact h.shutdown m

/-! ## Faithful steps -/

/-- A construction is faithful exactly where it displaces nothing. If the id was held by an object
from another source, that object is what is displaced. -/
theorem faithful_construct_iff {s t : World} {m : Nat} {c : Constructor}
    (h : Inv contextMenuId s) (hctx : Function.Injective contextMenuId)
    (hst : World.step contextMenuId s (.construct m c) = some t) :
    StepOk contextMenuId s (.construct m c) ↔
      ∀ id b, s.getApiObject id = some b → t.getApiObject id = some b := by
  rw [World.step] at hst
  cases hrun : c.run with
  | error e =>
    rw [hrun] at hst
    cases hst
    refine ⟨fun _ _ _ hb => hb, fun _ k hk => ?_⟩
    rw [hrun] at hk
    cases hk
  | ok k =>
    rw [hrun] at hst
    have hreg := getApiObject_create hst
    constructor
    · intro hok id b hb
      rw [hreg]
      by_cases hnew : k.native = false ∧ id = s.nextId contextMenuId k.idSource
      · -- the drawn id is free, so it is not `id`
        have hfree := h.nextId_free hctx (hok k hrun hnew.1)
        rw [← hnew.2, hb] at hfree
        cases hfree
      · rw [if_neg hnew, hb]
    · intro hkept k' hk' hn b hb
      rw [hrun, Except.ok.injEq] at hk'
      subst hk'
      have hnew := hkept _ b hb
      rw [hreg, if_pos ⟨hn, rfl⟩, Option.some.injEq] at hnew
      -- the new object is younger than every registered one
      have hlt := (h.owned _ b hb).1
      rw [← hnew] at hlt
      exact absurd hlt (Nat.lt_irrefl _)

/-- A call is faithful exactly where it reaches an object of its own kind. For an object with a
native counterpart this is so by the invariant, so the condition is about the others. -/
theorem faithful_call_iff {s : World} {p : Nat} (h : Inv contextMenuId s) :
    StepOk contextMenuId s (.callObjectMethod p) ↔
      ∀ o, s.owners p = some o →
        (∀ b, s.getApiObject o.id = some b → b.type = o.type) ∧
        (o.native = false → (s.getApiObject o.id).isSome) := by
  constructor
  · intro hok o ho
    cases hn : o.native with
    | true => exact ⟨hok o ho hn, fun hf => by cases hf⟩
    | false =>
      obtain ⟨b, hb, rfl⟩ := h.held p o ho hn
      refine ⟨fun b' hb' => ?_, fun _ => by rw [hb]; rfl⟩
      rw [hb, Option.some.injEq] at hb'
      rw [← hb', (h.owned o.id b hb).2 o ho]
  · intro hall o ho _
    exact (hall o ho).1

/-- The end of a popup is always faithful: what it takes out was marked by a finalizer, so its owner
is gone already. -/
theorem faithful_popupEnd {s t : World} {id : Int} (h : Inv contextMenuId s)
    (hst : s.popupEnd id = some t) {id' : Int} {b : Base} (hb : s.getApiObject id' = some b)
    (hgone : t.getApiObject id' = none) : s.owners b.owner = none := by
  unfold World.popupEnd at hst
  cases hid : s.getApiObject id with
  | none =>
    rw [hid] at hst
    cases hst
  | some b0 =>
    simp only [hid] at hst
    split at hst
    · cases hst
      by_cases hp : b0.pendingDestruction = true
      · by_cases heq : id' = id
        · rw [heq, hid, Option.some.injEq] at hb
          -- what was pending had lost its owner
          exact hb ▸ h.pending id b0 hid hp
        · rw [if_pos hp, getApiObject_onDeallocateObject, if_neg heq, getApiObject_addWithID,
            if_neg heq, hb] at hgone
          cases hgone
      · rw [if_neg hp, getApiObject_addWithID] at hgone
        split at hgone
        · cases hgone
        · rw [hb] at hgone
          cases hgone
    · cases hst

/-- A finalizer is faithful exactly where it leaves the objects of others alone. It takes out what
is under the id of its object, and that is its own unless it had none. -/
theorem faithful_destroy_iff {s : World} {p : Nat} (h : Inv contextMenuId s) :
    StepOk contextMenuId s (.destroy p) ↔
      ∀ id b, s.getApiObject id = some b → b.owner ≠ p →
        (s.destroy p).getApiObject id = some b := by
  cases ho : s.owners p with
  | none =>
    rw [World.destroy, ho]
    refine ⟨fun _ _ _ hb _ => hb, fun _ o ho' => ?_⟩
    rw [ho] at ho'
    cases ho'
  | some o =>
    -- what a finalizer does to the registry is about one id
    have hreg : ∀ id, (s.destroy p).getApiObject id =
        if id = o.id then
          (s.getApiObject o.id).bind fun b =>
            if b.delayDestruction then some { b with pendingDestruction := true } else none
        else s.getApiObject id := by
      intro id
      rw [World.destroy, ho]
      exact getApiObject_onDeallocateObject _ o.context o.id id
    constructor
    · intro hok id b hb hbp
      rw [hreg]
      by_cases hid : id = o.id
      · subst hid
        cases hn : o.native with
        | true =>
          -- the object is marked once more, which changes nothing
          obtain ⟨hdelay, hpending⟩ := hok o ho hn b hb
          rw [if_pos rfl, hb, Option.bind_some, if_pos hdelay, ← hpending]
        | false =>
          obtain ⟨b', hb', rfl⟩ := h.held p o ho hn
          rw [hb, Option.some.injEq] at hb'
          exact absurd (congrArg Base.owner hb') hbp
      · rw [if_neg hid, hb]
    · intro hkept o' ho' hn b hb
      rw [ho, Option.some.injEq] at ho'
      subst ho'
      have hbp : b.owner ≠ p := by
        rintro rfl
        rw [(h.owned o.id b hb).2 o ho] at hn
        cases hn
      -- an object that is still the same after `destroy` had both marks
      have hsame := hkept o.id b hb hbp
      rw [hreg, if_pos rfl, hb, Option.bind_some] at hsame
      split at hsame
      · rename_i hdelay
        rw [Option.some.injEq] at hsame
        exact ⟨hdelay, by rw [← hsame]⟩
      · cases hsame

/-- **A step under `Inv` is faithful exactly when it meets `StepOk`.** The operations without a
clause in the condition are faithful in every such state. -/
theorem stepOk_iff_faithful {s t : World} {op : Op} (h : Inv contextMenuId s)
    (hctx : Function.Injective contextMenuId) (hst : World.step contextMenuId s op = some t) :
    StepOk contextMenuId s op ↔ StepFaithful contextMenuId s op := by
  -- the step is a function, so `t` is the only state to look at
  have hstep : StepFaithful contextMenuId s op ↔ _ :=
    ⟨fun hf => hf t hst, fun hf t' ht' => by
      rw [hst, Option.some.injEq] at ht'
      exact ht' ▸ hf⟩
  rw [hstep]
  cases op with
  | construct m c => exact faithful_construct_iff h hctx hst
  | callObjectMethod p => exact faithful_call_iff h
  | popupBegin p => exact Iff.rfl
  | popupEnd id => exact iff_of_true trivial fun id' b => faithful_popupEnd h hst
  | destroy p =>
    cases hst
    exact faithful_destroy_iff h
  | shutdown m =>
    cases hst
    refine iff_of_true trivial fun id b hb hbm => ?_
    have hnot : id ∉ s.objects m := by
      intro hmem
      obtain ⟨b', hb', hm⟩ := h.managed m id hmem
      rw [hb, Option.some.injEq] at hb'
      exact hbm (hb' ▸ hm)
    rw [getApiObject_shutdown, if_neg hnot, hb]

/-! ## Whole runs -/

/-- **Object ids across all classes.** A run keeps the ids of its objects apart, registers every
object under an id that was free, reaches by every call an object of the caller's class and
touches in every destroy nothing but the owner's object, exactly when all its steps meet
`StepOk`. -/
theorem object_ids_distinct (hctx : Function.Injective contextMenuId) (ops : List Op) (s : World) :
    (Run (Guarded (StepFaithful contextMenuId) (ofPartial (step contextMenuId))) {} ops s ∧
      s.IdsDistinct) ↔
    Run (Guarded (StepOk contextMenuId) (ofPartial (step contextMenuId))) {} ops s := by
  have hiff : Run (Guarded (StepOk contextMenuId) (ofPartial (step contextMenuId))) {} ops s ↔
      Run (Guarded (StepFaithful contextMenuId) (ofPartial (step contextMenuId))) {} ops s :=
    Run.guarded_iff (fun _ _ _ (h : Inv contextMenuId _) hok hst => h.step hctx hok hst)
      (fun _ _ _ h hst => stepOk_iff_faithful h hctx hst) Inv.init
  rw [← hiff]
  refine ⟨fun h => h.1, fun hrun => ⟨hrun, ?_⟩⟩
  have hinv : Inv contextMenuId s :=
    hrun.invariant (fun _ _ _ h hst => h.step hctx hst.1 hst.2) Inv.init
  exact hinv.idsDistinct

instance (s : World) : (op : Op) → Decidable (StepOk contextMenuId s op)
  | .construct _ c =>
    match hc : c.run with
    | .error _ => isTrue fun _ hk => nomatch hc.symm.trans hk
    | .ok k =>
      decidable_of_iff (k.native = false →
          ∀ b ∈ s.getApiObject (s.nextId contextMenuId k.idSource),
            b.idSource.SameCounter k.idSource)
        ⟨fun h _ hk => Except.ok.inj (hc.symm.trans hk) ▸ h, fun h => h k hc⟩
  | .callObjectMethod p =>
    inferInstanceAs (Decidable (∀ o ∈ s.owners p, o.native = true →
      ∀ b ∈ s.getApiObject o.id, b.type = o.type))
  | .destroy p =>
    inferInstanceAs (Decidable (∀ o ∈ s.owners p, o.native = true →
      ∀ b ∈ s.getApiObject o.id, b.delayDestruction = true ∧ b.pendingDestruction = true))
  | .popupBegin _ => inferInstanceAs (Decidable True)
  | .popupEnd _ => inferInstanceAs (Decidable True)
  | .shutdown _ => inferInstanceAs (Decidable True)

/-- A counter that starts at 1, as `GetNextContextMenuId` does, never gives a value twice. -/
theorem counterFromOne_injective : Function.Injective fun k : Nat => (k : Int) + 1 := by
  intro a b h
  have h : (a : Int) + 1 = b + 1 := h
  omega

/-- A menu is destroyed in the middle of its popup, and a tray icon then gets the same id from the
other counter. -/
def popupScript : List Op :=
  [.construct 0 (.menu none), .popupBegin 0, .destroy 0, .popupEnd 1,
    .construct 1 (.tray (some ⟨some "", none, none, none⟩)),
    .construct 0 (.menuItem (some ⟨none, some "Quit", some .function, 0, false⟩)),
    .callObjectMethod 1, .shutdown 0]

/-- The menu is gone when the tray icon gets its id from the other counter, and the item draws an id
of its own: the ids are distinct after every step. -/
theorem object_ids_distinct_popup :
    ∃ s, Run (Guarded (StepFaithful fun k => (k : Int) + 1)
        (ofPartial (step fun k => (k : Int) + 1))) {} popupScript s ∧ s.IdsDistinct := by
  obtain ⟨s, hs⟩ := Option.isSome_iff_exists.mp
    (show (exec (StepOk fun k => (k : Int) + 1) (step fun k => (k : Int) + 1)
      popupScript {}).isSome from by decide)
  exact ⟨s, (object_ids_distinct counterFromOne_injective _ _).mpr (Run.of_exec hs)⟩

/-- `new nw.Menu()` and `new nw.Tray({title: ''})` in a fresh process both get id 1: the tray icon
displaces the menu, and a method call on the menu reaches the tray icon. -/
theorem menu_tray_share_id :
    ¬ (∀ contextMenuId : Nat → Int, Function.Injective contextMenuId → ∀ ops s,
      Run (ofPartial (step contextMenuId)) {} ops s →
        Run (Guarded (StepFaithful contextMenuId) (ofPartial (step contextMenuId))) {} ops s ∧
          s.IdsDistinct) := by
  intro h
  have hrun := h (fun k => (k : Int) + 1) counterFromOne_injective
    [.construct 0 (.menu none), .construct 0 (.tray (some ⟨some "", none, none, none⟩))] _
    (.cons rfl (.cons rfl (.nil _)))
  have hdist := hrun.2 0 1 ⟨1, .menu, 0, false⟩ ⟨1, .tray, 0, false⟩ (by decide) (by decide) rfl rfl
    rfl
  cases hdist

end World

end NodeWebkit.Object
