import NodeWebkit.Object.NestedPopups

/-!
# Runs of nested popups

What the flags `delay_destruction` and `pending_destruction` know about the popups and the requests
of a menu, over whole runs.

## How the proof goes

The invariant has three parts that are kept one by one. `Tidy` ties `objects_` to the registry; it
needs less than `StepOk`, so it has a guard of its own (`Own`). `Ledger` ties the record of requests
and removals to the registry: the crux is that a step may only take out what was asked to go, and
that what comes is new (`Ledger.setWorld`), so an object that is gone does not come back and is not
removed a second time. `Waits` says of one object that a set flag means a running popup and that a
request that was not carried out is marked; only the object a step is about can change there
(`Inv.mark`, `Inv.remove`).

`Inv.stepOk` is the way back: each clause of `StepOk` is what a safe state after the step shows.
**`menus_outlive_popups`** puts the two together for whole runs.
-/

namespace NodeWebkit.Object

open Lts World

namespace Popups

variable {contextMenuId : Nat → Int} {s t : Popups}

/-! ## The record of requests and removals -/

/-- A requested object is there, and then it was never removed, or it was removed once; nothing
else was. -/
structure Ledger (s : Popups) : Prop where
  once : ∀ k ∈ s.requested,
    (s.Registered k ∧ s.removals k = 0) ∨ (¬ s.Registered k ∧ s.removals k = 1)
  onRequest : ∀ k, s.removals k ≠ 0 → k ∈ s.requested
  made : ∀ k ∈ s.requested, k.2 < s.world.made

theorem Ledger.init : ({} : Popups).Ledger := by
  constructor
  case onRequest => exact fun k hk => absurd rfl hk
  all_goals exact fun k hk => absurd hk (Finset.notMem_empty k)

/-- **What a step may do to the registry.** Objects that come are new ones, and objects that go
were asked to. -/
theorem Ledger.setWorld (h : s.Ledger) (hsame : t.removals = (s.setWorld t.world).removals)
    (hcome : ∀ k, t.Registered k → s.Registered k ∨ s.world.made ≤ k.2)
    (hgo : ∀ k, s.Registered k → ¬ t.Registered k → k ∈ t.requested)
    (hsub : s.requested ⊆ t.requested)
    (hnew : ∀ k ∈ t.requested, k ∈ s.requested ∨ s.Registered k)
    (hmade : s.world.made ≤ t.world.made) (hlive : ∀ k, s.Registered k → k.2 < s.world.made) :
    t.Ledger := by
  constructor
  case once =>
    intro k hk
    rw [hsame, setWorld_removals]
    -- an object that is registered has not been removed so far
    have hcount : (s.Registered k ∧ s.removals k = 0) ∨
        (k ∈ s.requested ∧ ¬ s.Registered k ∧ s.removals k = 1) := by
      by_cases hold : k ∈ s.requested
      · exact (h.once k hold).imp_right fun hgone => ⟨hold, hgone⟩
      · refine Or.inl ⟨(hnew k hk).resolve_left hold, ?_⟩
        by_contra hne
        exact hold (h.onRequest k hne)
    rcases hcount with ⟨hreg, hzero⟩ | ⟨hold, hgone, hone⟩
    · by_cases ht : t.Registered k
      · refine Or.inl ⟨ht, ?_⟩
        rw [hzero, if_neg fun hand => hand.2 ht]
      · refine Or.inr ⟨ht, ?_⟩
        rw [hzero, if_pos ⟨hreg, ht⟩]
    · -- it does not come back: a new object has another number
      have ht : ¬ t.Registered k := by
        intro ht
        have hlt := h.made k hold
        have hle := (hcome k ht).resolve_left hgone
        omega
      refine Or.inr ⟨ht, ?_⟩
      rw [hone, if_neg fun hand => hgone hand.1]
  case onRequest =>
    intro k hk
    rw [hsame, setWorld_removals] at hk
    split at hk
    · rename_i hand
      exact hgo k hand.1 hand.2
    · exact hsub (h.onRequest k hk)
  case made =>
    intro k hk
    refine Nat.lt_of_lt_of_le ?_ hmade
    rcases hnew k hk with hk | hk
    · exact h.made k hk
    · exact hlive k hk

/-- The objects of a manager are those under the ids of its set. Each id has one object at most, so
the pairs are determined by the ids. -/
theorem mem_owned {w : World} {m : Nat} {k : Int × Nat} :
    k ∈ owned w m ↔ k.1 ∈ w.objects m ∧ w.Holds k := by
  rw [owned, Finset.mem_biUnion]
  constructor
  · rintro ⟨id, hid, hk⟩
    split at hk
    · rename_i b hb
      rw [Finset.mem_singleton] at hk
      rw [hk]
      exact ⟨hid, holds_of_get hb⟩
    · exact absurd hk (Finset.notMem_empty k)
  · rintro ⟨hid, hk⟩
    obtain ⟨b, hb, howner⟩ := get_of_holds hk
    refine ⟨k.1, hid, ?_⟩
    rw [hb, Finset.mem_singleton, howner]

/-- The objects asked to go by a request for an id: whichever object is registered under it now, and
nothing where there is none. -/
theorem mem_requested_deallocate {m : Nat} {id : Int} {k : Int × Nat} :
    k ∈ (s.deallocate m id).requested ↔ k ∈ s.requested ∨ k.1 = id ∧ s.Registered k := by
  unfold deallocate
  cases hb : s.world.getApiObject id with
  | none =>
    refine (or_iff_left ?_).symm
    rintro ⟨hid, hk⟩
    rw [Registered, Holds, hid, hb] at hk
    cases hk
  | some b =>
    rw [Finset.mem_insert, or_comm]
    refine or_congr_right ?_
    constructor
    · rintro rfl
      exact ⟨rfl, holds_of_get hb⟩
    · rintro ⟨hid, hk⟩
      rw [Registered, Holds, hid, hb, Option.map_some, Option.some_inj] at hk
      exact Prod.ext hid hk.symm

/-- **The record stays right** in every step that draws a fresh id. What leaves the registry was
asked to go before or is asked in this step, and what comes is an object that was never there. -/
theorem Ledger.step (h : s.Ledger) (htidy : Tidy s.world) {op : Op}
    (hown : Own contextMenuId s op) (hmarked : ∀ id b, s.world.getApiObject id = some b →
      b.pendingDestruction = true → (id, b.owner) ∈ s.requested)
    (hst : Popups.step contextMenuId s op = some t) : t.Ledger := by
  cases op with
  | construct m c =>
    obtain ⟨w, hw, rfl⟩ := Option.map_eq_some_iff.mp hst
    rcases construct_cases hw with ⟨hreg, -, hmade⟩ | ⟨k, hrun, hn, hget, -, hmade⟩
    · have hsame : ∀ k, w.Holds k ↔ s.world.Holds k := fun k => by rw [Holds, Holds, hreg]
      exact h.setWorld rfl (fun k hk => Or.inl ((hsame k).mp hk))
        (fun k hk hnot => absurd ((hsame k).mpr hk) hnot) subset_rfl (fun _ => Or.inl) hmade
        htidy.made
    · have hholds := holds_insert (hown k hrun hn) hget
      refine h.setWorld rfl (fun k' hk' => ?_) (fun k' hk' hnot => ?_) subset_rfl (fun _ => Or.inl)
        (Nat.le_of_lt (Nat.lt_of_lt_of_eq (Nat.lt_succ_self _) hmade.symm)) htidy.made
      · refine ((hholds k').mp hk').imp_right ?_
        rintro rfl
        exact Nat.le_refl _
      · exact absurd ((hholds k').mpr (Or.inl hk')) hnot
  | popup id =>
    cases hst
    rcases popup_cases s id with ⟨b, hb, heq⟩ | heq
    · rw [heq]
      have hsame : ∀ k, (s.world.addWithID id { b with delayDestruction := true }).Holds k ↔
          s.world.Holds k := holds_mark hb (getApiObject_addWithID s.world id · _) rfl
      exact h.setWorld rfl (fun k hk => Or.inl ((hsame k).mp hk))
        (fun k hk hnot => absurd ((hsame k).mpr hk) hnot) subset_rfl (fun _ => Or.inl)
        (Nat.le_refl _) htidy.made
    · rw [heq]
      exact h
  | popupEnd =>
    obtain ⟨id, b, -, hb, hrequested, hremovals, hmade, ⟨hp, hget, -⟩ | ⟨-, hget, -⟩⟩ :=
      popupEnd_spec hst
    · have hholds := holds_remove hget
      refine h.setWorld hremovals (fun k hk => Or.inl ((hholds k).mp hk).1) ?_
        (hrequested ▸ subset_rfl) (fun k hk => Or.inl (hrequested ▸ hk)) hmade.ge htidy.made
      -- what goes is the object of the popup, which was asked to
      intro k hk hnot
      have hid : k.1 = id := by
        by_contra hne
        exact hnot ((hholds k).mpr ⟨hk, hne⟩)
      obtain ⟨b', hb', howner⟩ := get_of_holds hk
      rw [hid, hb, Option.some.injEq] at hb'
      have hmem := hmarked id b hb hp
      rw [hrequested, show k = (id, b.owner) from Prod.ext hid (hb' ▸ howner.symm)]
      exact hmem
    · have hsame := holds_mark hb hget rfl
      exact h.setWorld hremovals (fun k hk => Or.inl ((hsame k).mp hk))
        (fun k hk hnot => absurd ((hsame k).mpr hk) hnot) (hrequested ▸ subset_rfl)
        (fun k hk => Or.inl (hrequested ▸ hk)) hmade.ge htidy.made
  | deallocate m id =>
    cases hst
    have hsub : s.requested ⊆ (s.deallocate m id).requested :=
      fun k hk => mem_requested_deallocate.mpr (Or.inl hk)
    have hnew : ∀ k ∈ (s.deallocate m id).requested, k ∈ s.requested ∨ s.Registered k :=
      fun k hk => (mem_requested_deallocate.mp hk).imp_right And.right
    rcases onDeallocateObject_cases s.world m id with ⟨b, hb, -, heq⟩ | ⟨-, hget, -, hmade⟩
    · -- the object is only marked
      have hsame : ∀ k, (s.deallocate m id).Registered k ↔ s.Registered k := by
        intro k
        show (s.world.onDeallocateObject m id).Holds k ↔ _
        rw [heq]
        refine holds_mark hb (getApiObject_addWithID s.world id · _) ?_ k
        rfl
      exact h.setWorld rfl (fun k hk => Or.inl ((hsame k).mp hk))
        (fun k hk hnot => absurd ((hsame k).mpr hk) hnot) hsub hnew (congrArg World.made heq).ge
        htidy.made
    · have hholds := holds_remove hget
      refine h.setWorld rfl (fun k hk => Or.inl ((hholds k).mp hk).1) (fun k hk hnot => ?_) hsub
        hnew hmade.ge htidy.made
      refine mem_requested_deallocate.mpr (Or.inr ⟨?_, hk⟩)
      by_contra hne
      exact hnot ((hholds k).mpr ⟨hk, hne⟩)
  | shutdown m =>
    cases hst
    have hholds := holds_remove (getApiObject_shutdown s.world m)
    refine h.setWorld rfl (fun k hk => Or.inl ((hholds k).mp hk).1) (fun k hk hnot => ?_)
      Finset.subset_union_left (fun k hk => ?_) (Nat.le_refl _) htidy.made
    · refine Finset.mem_union_right _ (mem_owned.mpr ⟨?_, hk⟩)
      by_contra hne
      exact hnot ((hholds k).mpr ⟨hk, hne⟩)
    · exact (Finset.mem_union.mp hk).imp_right fun hk => (mem_owned.mp hk).2

/-! ## Waiting deallocations -/

/-- What the flags of a registered object say about its popups and requests. -/
structure Waits (b : Base) (running requested : Prop) : Prop where
  delay : b.delayDestruction = true → running
  pending : b.pendingDestruction = true → b.delayDestruction = true ∧ requested
  asked : requested → b.pendingDestruction = true

section Waits

variable {b : Base} {running running' requested : Prop}

/-- A popup starts on the object, which sets the flag that it is now entitled to. -/
theorem Waits.popup (h : Waits b running requested) (hrunning : running') :
    Waits { b with delayDestruction := true } running' requested := by
  constructor
  case delay => exact fun _ => hrunning
  case pending => exact fun hp => ⟨rfl, (h.pending hp).2⟩
  case asked => exact h.asked

/-- A popup ends on the object and finds no request. Whether another one still runs on it plays no
part, because what is asked of a cleared flag is about requests only. -/
theorem Waits.popupEnd (h : Waits b running requested) (hp : b.pendingDestruction = false) :
    Waits { b with delayDestruction := false } running' requested := by
  have hnot : ¬ b.pendingDestruction = true := by
    rw [hp]
    exact Bool.false_ne_true
  constructor
  case delay => exact fun hd => nomatch hd
  case pending => exact fun hp' => absurd hp' hnot
  case asked => exact h.asked

/-- A request for an object in the middle of a popup. It is marked now, and waits because a popup
runs. -/
theorem Waits.deallocate (h : Waits b running requested) (hdelay : b.delayDestruction = true) :
    Waits { b with pendingDestruction := true } running True := by
  constructor
  case delay => exact h.delay
  case pending => exact fun _ => ⟨hdelay, trivial⟩
  case asked => exact fun _ => rfl

end Waits

/-! ## The invariant -/

structure Inv (s : Popups) : Prop where
  tidy : Tidy s.world
  ledger : s.Ledger
  live : ∀ k ∈ s.running, s.Registered k
  waits : ∀ id b, s.world.getApiObject id = some b →
    Waits b ((id, b.owner) ∈ s.running) ((id, b.owner) ∈ s.requested)

/-- **The invariant is safe.** A running popup is on a registered object, and a request that was not
carried out is marked and waits for a flag that is set, which means that a popup runs. -/
theorem Inv.safe (h : s.Inv) : s.Safe := by
  constructor
  case running => exact h.live
  case carriedOut =>
    intro k hk hreg
    obtain ⟨b, hb, howner⟩ := get_of_holds hreg
    have hwaits := h.waits k.1 b hb
    rw [howner] at hwaits
    exact hwaits.delay (hwaits.pending (hwaits.asked hk)).1
  case once => exact h.ledger.once
  case onRequest => exact h.ledger.onRequest
  case objects => exact h.tidy.objects

theorem Inv.init : ({} : Popups).Inv := by
  constructor
  case tidy => exact Tidy.init
  case ledger => exact Ledger.init
  case live => exact fun k hk => absurd hk List.not_mem_nil
  case waits =>
    intro id b hb
    cases hb

/-- Other flags on one object, other popups and other requests of its own. What is to show is
`Waits` for this object; every other one has the popups, the requests and the flags it had. -/
theorem Inv.mark (h : s.Inv) (htidy : Tidy t.world) (hledger : t.Ledger) {id : Int} {b b' : Base}
    (hb : s.world.getApiObject id = some b) (howner : b'.owner = b.owner)
    (hget : ∀ i, t.world.getApiObject i = if i = id then some b' else s.world.getApiObject i)
    (hrunning : ∀ k, k ∈ t.running → k ∈ s.running ∨ k = (id, b.owner))
    (hkept : ∀ k, k ≠ (id, b.owner) → (k ∈ t.running ↔ k ∈ s.running))
    (hrequested : ∀ k, k ≠ (id, b.owner) → (k ∈ t.requested ↔ k ∈ s.requested))
    (hwaits : Waits b' ((id, b.owner) ∈ t.running) ((id, b.owner) ∈ t.requested)) : t.Inv := by
  refine ⟨htidy, hledger, fun k hk => ?_, fun i c hc => ?_⟩
  · refine (holds_mark hb hget howner k).mpr ?_
    rcases hrunning k hk with hk | rfl
    · exact h.live k hk
    · exact holds_of_get hb
  · rw [hget] at hc
    split at hc
    · rename_i hi
      cases hc
      rw [hi, howner]
      exact hwaits
    · rename_i hi
      -- another id is another popup, whoever made the object
      have hne : (i, c.owner) ≠ (id, b.owner) := fun heq => hi (congrArg Prod.fst heq)
      rw [propext (hkept _ hne), propext (hrequested _ hne)]
      exact h.waits i c hc

/-- Objects without popups are gone. The popups that run are on other objects, and these keep their
flags and their requests. -/
theorem Inv.remove (h : s.Inv) (htidy : Tidy t.world) (hledger : t.Ledger) (gone : Int → Prop)
    [DecidablePred gone]
    (hget : ∀ i, t.world.getApiObject i = if gone i then none else s.world.getApiObject i)
    (hrunning : ∀ k ∈ t.running, k ∈ s.running ∧ ¬ gone k.1)
    (hkept : ∀ k, ¬ gone k.1 → k ∈ s.running → k ∈ t.running)
    (hrequested : ∀ k, ¬ gone k.1 → (k ∈ t.requested ↔ k ∈ s.requested)) : t.Inv := by
  refine ⟨htidy, hledger, fun k hk => ?_, fun i c hc => ?_⟩
  · obtain ⟨hk, hnot⟩ := hrunning k hk
    exact (holds_remove hget k).mpr ⟨h.live k hk, hnot⟩
  · rw [hget] at hc
    split at hc
    · cases hc
    · rename_i hi
      have hiff : (i, c.owner) ∈ t.running ↔ (i, c.owner) ∈ s.running :=
        ⟨fun hk => (hrunning _ hk).1, hkept _ hi⟩
      rw [propext hiff, propext (hrequested _ hi)]
      exact h.waits i c hc

/-- **A step that meets the condition keeps the invariant.** One case an operation: what it does
to the object it is about, and that the other objects wait as before. -/
theorem Inv.step (h : s.Inv) {op : Op} (hok : StepOk contextMenuId s op)
    (hst : step contextMenuId s op = some t) : t.Inv := by
  have htidy := h.tidy.step hok.1 hst
  have hledger := h.ledger.step h.tidy hok.1
    (fun id b hb hp => ((h.waits id b hb).pending hp).2) hst
  obtain ⟨hown, hok⟩ := hok
  cases op with
  | construct m c =>
    obtain ⟨w, hw, rfl⟩ := Option.map_eq_some_iff.mp hst
    rcases construct_cases hw with ⟨hreg, -, -⟩ | ⟨k, hrun, hn, hget, -, -⟩
    · refine h.remove htidy hledger (fun _ => False) (fun i => ?_)
        (fun k hk => ⟨hk, id⟩) (fun _ _ hk => hk) (fun _ _ => Iff.rfl)
      rw [if_neg id]
      exact congrFun hreg i
    · have hfree := hown k hrun hn
      refine ⟨htidy, hledger, fun k' hk' => ?_, fun i c hc => ?_⟩
      · exact (holds_insert hfree hget k').mpr (Or.inl (h.live k' hk'))
      · -- a new object has no flag set, and nobody asked for its removal
        rw [show (s.setWorld w).world.getApiObject i = w.getApiObject i from rfl, hget] at hc
        split at hc
        · cases hc
          constructor
          case delay => exact fun hd => nomatch hd
          case pending => exact fun hp => nomatch hp
          case asked =>
            intro hr
            exact absurd (h.ledger.made _ hr) (Nat.lt_irrefl _)
        · exact h.waits i c hc
  | popup id =>
    cases hst
    rcases popup_cases s id with ⟨b, hb, heq⟩ | heq
    · rw [heq] at htidy hledger ⊢
      have hget := (getApiObject_addWithID s.world id · { b with delayDestruction := true })
      refine h.mark htidy hledger hb ?_ hget ?_ ?_ (fun _ _ => Iff.rfl)
        ((h.waits id b hb).popup List.mem_cons_self)
      · rfl
      · exact fun k hk => (List.mem_cons.mp hk).symm
      · exact fun k hne => List.mem_cons.trans (or_iff_right hne)
    · rw [heq]
      exact h
  | popupEnd =>
    obtain ⟨id, b, hrunning, hb, hrequested, -, -, ⟨hp, hget, -⟩ | ⟨hp, hget, -⟩⟩ :=
      popupEnd_spec hst
    · refine h.remove htidy hledger _ hget (fun k hk => ?_) (fun k hne hk => ?_)
        (fun _ _ => by rw [hrequested])
      · refine ⟨hrunning ▸ List.mem_cons_of_mem _ hk, fun hid => ?_⟩
        -- another popup on the menu would have had to find no request
        obtain ⟨b', hb', howner⟩ := get_of_holds (h.live k (hrunning ▸ List.mem_cons_of_mem _ hk))
        rw [hid, hb, Option.some.injEq] at hb'
        have hmem : (id, b.owner) ∈ s.running.tail := by
          rw [hrunning, show (id, b.owner) = k from Prod.ext hid.symm (hb' ▸ howner)]
          exact hk
        have hnone := hok (id, b.owner) (by rw [hrunning]; rfl) hmem b hb
        rw [hp] at hnone
        cases hnone
      · rw [hrunning] at hk
        exact (List.mem_cons.mp hk).resolve_left fun heq => hne (congrArg Prod.fst heq)
    · refine h.mark htidy hledger hb ?_ hget ?_ ?_ (fun _ _ => by rw [hrequested]) ?_
      · rfl
      · exact fun k hk => Or.inl (hrunning ▸ List.mem_cons_of_mem _ hk)
      · intro k hne
        rw [hrunning, List.mem_cons, or_iff_right hne]
      · rw [hrequested]
        exact (h.waits id b hb).popupEnd hp
  | deallocate m id =>
    cases hst
    rcases onDeallocateObject_cases s.world m id with ⟨b, hb, hdelay, heq⟩ | ⟨hnot, hget, -, -⟩
    · have hmem : (id, b.owner) ∈ (s.deallocate m id).requested :=
        mem_requested_deallocate.mpr (Or.inr ⟨rfl, holds_of_get hb⟩)
      have hget : ∀ i, (s.deallocate m id).world.getApiObject i =
          if i = id then some { b with pendingDestruction := true }
          else s.world.getApiObject i := by
        intro i
        show (s.world.onDeallocateObject m id).getApiObject i = _
        rw [heq, getApiObject_addWithID]
      refine h.mark htidy hledger hb ?_ hget (fun _ => Or.inl) (fun _ _ => Iff.rfl)
        (fun k hne => ?_) ?_
      · rfl
      · rw [mem_requested_deallocate]
        refine or_iff_left ?_
        rintro ⟨hid, hk⟩
        obtain ⟨b', hb', howner⟩ := get_of_holds hk
        rw [hid, hb, Option.some.injEq] at hb'
        exact hne (Prod.ext hid (hb' ▸ howner.symm))
      · rw [propext (iff_true_intro hmem)]
        exact (h.waits id b hb).deallocate hdelay
    · refine h.remove htidy hledger _ hget (fun k hk => ⟨hk, fun hid => ?_⟩) (fun _ _ hk => hk)
        (fun k hne => ?_)
      · -- a popup on the object would have found the flag set
        obtain ⟨b, hb, howner⟩ := get_of_holds (h.live k hk)
        rw [hid] at hb
        have hmem : (id, b.owner) ∈ s.running := by
          rw [show (id, b.owner) = k from Prod.ext hid.symm howner]
          exact hk
        have hdelay := hok b hb hmem
        rw [hnot b hb] at hdelay
        cases hdelay
      · rw [mem_requested_deallocate]
        exact or_iff_left fun hand => hne hand.1
  | shutdown m =>
    cases hst
    refine h.remove htidy hledger _ (getApiObject_shutdown s.world m) (fun k hk => ⟨hk, hok k hk⟩)
      (fun _ _ hk => hk) (fun k hne => ?_)
    refine Finset.mem_union.trans (or_iff_left ?_)
    exact fun hmem => hne (mem_owned.mp hmem).1

/-- **A step to a safe state meets the condition.** What the condition asks is what the step would
otherwise break: a displaced object is gone without a request, an object taken out by another
manager stays in its own manager's set, and a menu without its flag goes under its popup. -/
theorem Inv.stepOk (h : s.Inv) {op : Op} (hsafe : t.Safe)
    (hst : Popups.step contextMenuId s op = some t) : StepOk contextMenuId s op := by
  cases op with
  | construct m c =>
    refine ⟨fun k hrun hn => ?_, trivial⟩
    obtain ⟨w, hw, rfl⟩ := Option.map_eq_some_iff.mp hst
    have hw : World.step contextMenuId s.world (.construct m c) = some w := hw
    rw [World.step, hrun] at hw
    have hget := getApiObject_create hw
    by_contra hfree
    obtain ⟨b, hb⟩ := Option.ne_none_iff_exists'.mp hfree
    have hold := holds_of_get hb
    -- the new object has another number, so the old one is gone
    have hgone : ¬ w.Holds (s.world.nextId contextMenuId k.idSource, b.owner) := by
      rw [Holds, hget, if_pos ⟨hn, rfl⟩, Option.map_some, Option.some_inj]
      exact fun heq => absurd (h.tidy.made _ hold) (heq ▸ Nat.lt_irrefl _)
    have hremoved : (s.setWorld w).removals (s.world.nextId contextMenuId k.idSource, b.owner) ≠
        0 := by
      rw [setWorld_removals, if_pos ⟨hold, hgone⟩]
      exact Nat.succ_ne_zero _
    have hmem := hsafe.onRequest _ hremoved
    -- it was asked to go, so it waited for a popup, which has lost its menu now
    have hrunning := h.safe.carriedOut _ hmem hold
    exact hgone (hsafe.running _ hrunning)
  | popup id => exact ⟨trivial, trivial⟩
  | popupEnd =>
    refine ⟨trivial, fun k hk hmem b hb => ?_⟩
    obtain ⟨id, b', hrunning, hb', -, -, -, hcases⟩ := popupEnd_spec hst
    rw [hrunning] at hk hmem
    cases hk
    rw [show s.world.getApiObject (id, b'.owner).1 = some b' from hb', Option.some.injEq] at hb
    rw [← hb]
    rcases hcases with ⟨-, hget, -⟩ | ⟨hp, -⟩
    · -- the menu of the other popup is gone
      exact absurd rfl ((holds_remove hget _).mp (hsafe.running _ hmem)).2
    · exact hp
  | deallocate m id =>
    cases hst
    rcases onDeallocateObject_cases s.world m id with ⟨b, hb, hdelay, -⟩ | ⟨hnot, hget, hobjects, -⟩
    · refine ⟨fun b' hb' hd => ?_, fun b' hb' _ => ?_⟩
      all_goals rw [hb, Option.some.injEq] at hb'
      · rw [← hb', hdelay] at hd
        cases hd
      · exact hb' ▸ hdelay
    · refine ⟨fun b hb _ => ?_, fun b hb hmem => ?_⟩
      · -- the id is in no set afterwards, so it was in that of the manager that was called
        by_contra hne
        have hmem : id ∈ (s.deallocate m id).world.objects b.objectManager := by
          show id ∈ (s.world.onDeallocateObject m id).objects b.objectManager
          rw [hobjects, Function.update_apply, if_neg hne]
          exact (h.tidy.objects _ _).mpr ⟨b, hb, rfl⟩
        obtain ⟨b', hb', -⟩ := (hsafe.objects _ _).mp hmem
        rw [show (s.deallocate m id).world.getApiObject id = _ from hget id, if_pos rfl] at hb'
        cases hb'
      · exact absurd rfl ((holds_remove hget _).mp (hsafe.running _ hmem)).2
  | shutdown m =>
    cases hst
    refine ⟨trivial, fun k hk => ?_⟩
    exact ((holds_remove (getApiObject_shutdown s.world m) k).mp (hsafe.running k hk)).2

/-! ## Whole runs -/

/-- **Menus outlive their popups.** In a run every state reached is safe exactly when every step
meets `StepOk`. What the managers' sets say is right already where ids are fresh and requests come
from the manager of the object, whatever popups run meanwhile. -/
theorem menus_outlive_popups (contextMenuId : Nat → Int) (ops : List Op) (s : Popups) :
    (Run (Guarded (StepSafe contextMenuId) (ofPartial (step contextMenuId))) {} ops s ↔
      Run (Guarded (StepOk contextMenuId) (ofPartial (step contextMenuId))) {} ops s) ∧
    (Run (Guarded (Own contextMenuId) (ofPartial (step contextMenuId))) {} ops s →
      ∀ m id, id ∈ s.world.objects m ↔
        ∃ b, s.world.getApiObject id = some b ∧ b.objectManager = m) := by
  constructor
  · refine Run.owed_iff (fun _ _ _ h hok hst => Inv.step h hok hst) (fun _ h => h.safe) ?_ Inv.init
    exact fun s op t h hst hsafe => h.stepOk hsafe hst
  · intro hrun
    have htidy : Tidy s.world :=
      hrun.invariant (I := fun s => Tidy s.world) (fun _ _ _ h hst => h.step hst.1 hst.2) Tidy.init
    exact htidy.objects

/-- A popup inside a popup on the same menu, and a request before the inner one ends. -/
def nestedPopups : List Op :=
  [.construct 0 (.menu none), .popup 1, .popup 1, .deallocate 0 1, .popupEnd]

/-- The inner popup removes the menu under the outer one: it ends first, finds the request and
carries it out, since one flag cannot count two popups. -/
theorem nestedPopups_not_safe :
    ¬ ∀ (contextMenuId : Nat → Int) (ops : List Op) (s : Popups),
      Run (ofPartial (step contextMenuId)) {} ops s → s.Safe := by
  intro hall
  obtain ⟨s, hs, hrunning, hgone⟩ : ∃ s,
      exec (fun _ _ => True) (step fun k => (k : Int) + 1) nestedPopups {} = some s ∧
      (1, 0) ∈ s.running ∧ ¬ s.world.Holds (1, 0) := by
    refine ⟨_, rfl, ?_, ?_⟩ <;> decide
  have hsafe := hall _ nestedPopups s (Run.of_exec hs).unguard
  exact hgone (hsafe.running (1, 0) hrunning)

end Popups

end NodeWebkit.Object
