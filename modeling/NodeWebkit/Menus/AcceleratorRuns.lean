import NodeWebkit.Menus.ModelAgreement
import NodeWebkit.Lib.Run

/-!
# Accelerators over whole runs

That the accelerators of a window are the shortcuts of the menu model it shows is a property of
three structures that no operation updates together: the models, the vectors `menu_items_` and the
tables of the focus managers.

## How the proof goes

The vectors and the models agree in every state that a run under `StepOk` reaches (`Agrees`), and
the targets of a window are then what was shown in it: `SetMenu` registers what is in the tree of
the model, and nothing else touches a table (`Inv`). From these two what the three operations that
the property is about leave behind is read off exactly: `setMenu_follows_iff`,
`clearMenu_follows_iff` and `destroyItem_follows_iff`. **`accelerators_follow_menus`** is the
statement about runs.
-/

namespace NodeWebkit.Menus.Keys

open Lts PathWalk

variable {s : Keys} {addSeparator : List Entry → Bool}

/-! ## Steps -/

/-- Only the setting of a menu changes focus managers, and only its destructor takes an item
away. -/
theorem step_frame {depth : Nat} {op : Op} {t : Keys}
    (hst : step addSeparator s depth op = some t) (hop : ∀ window m, op ≠ .setMenu window m) :
    t.focusManager = s.focusManager ∧ t.crashed = s.crashed ∧
      ∀ id, (s.items id).isSome → op ≠ .destroyItem id → (t.items id).isSome := by
  cases op with
  | newMenu =>
    cases hst
    exact ⟨rfl, rfl, fun _ hid _ => hid⟩
  | newMenuItem type key submenu =>
    cases hst
    refine ⟨rfl, rfl, fun id hid _ => ?_⟩
    simp only [newMenuItem, Function.update_apply]
    split
    · rfl
    · exact hid
  | append m id =>
    obtain ⟨called, -, rfl⟩ := Option.map_eq_some_iff.mp hst
    exact ⟨rfl, rfl, fun _ hid _ => hid⟩
  | insert m id pos =>
    obtain ⟨called, -, rfl⟩ := Option.map_eq_some_iff.mp hst
    exact ⟨rfl, rfl, fun _ hid _ => hid⟩
  | remove m id pos =>
    obtain ⟨menu, -, hst⟩ := Option.bind_eq_some_iff.mp hst
    obtain ⟨item, -, rfl⟩ := Option.map_eq_some_iff.mp hst
    exact ⟨rfl, rfl, fun _ hid _ => hid⟩
  | setSubmenu id submenu =>
    obtain ⟨item, -, rfl⟩ := Option.map_eq_some_iff.mp hst
    refine ⟨rfl, rfl, fun i hi _ => ?_⟩
    simp only [Function.update_apply]
    split
    · rfl
    · exact hi
  | setMenu window m => exact absurd rfl (hop window m)
  | clearMenu window =>
    cases hst
    exact ⟨rfl, rfl, fun _ hid _ => hid⟩
  | destroyMenu m =>
    cases hst
    exact ⟨rfl, rfl, fun _ hid _ => hid⟩
  | destroyItem id =>
    cases hst
    -- only the item itself goes
    refine ⟨rfl, rfl, fun i hi hne => ?_⟩
    simp only [Function.update_apply]
    split
    · rename_i heq
      exact absurd (by rw [heq]) hne
    · exact hi

/-- A menu that was set: its walk adds to the targets of the window, behind those that are there. No
model, vector or item changes. -/
theorem setMenu_spec {depth window m : Nat} {t : Keys}
    (hst : step addSeparator s depth (.setMenu window m) = some t) :
    ∃ visits, walk s.pointerKids depth m = some visits ∧ t.crashed = s.crashed ∧
      t.items = s.items ∧ t.menus = s.menus ∧
      (∀ w, t.targets w = if w = window then s.targets window ++ (s.keysOf visits).map Prod.snd
        else s.targets w) := by
  obtain ⟨table, htable, rfl⟩ := Option.map_eq_some_iff.mp hst
  rw [updateKeys_eq] at htable
  obtain ⟨visits, hvisits, rfl⟩ := Option.map_eq_some_iff.mp htable
  refine ⟨visits, hvisits, rfl, rfl, rfl, fun w => ?_⟩
  simp only [targets, Function.update_apply]
  split
  · rw [List.map_append]
  · rfl

/-- A walk begins at a menu that is there, the others have no entries to go through. -/
theorem isSome_of_walk {depth m : Nat} {visits : List (List Nat × Nat)}
    (h : walk s.pointerKids depth m = some visits) : (s.menus m).isSome := by
  obtain ⟨entries, hkids, -⟩ := finite_iff.mpr ⟨depth, visits, h⟩
  obtain ⟨menu, hmenu, -⟩ := Option.bind_eq_some_iff.mp hkids
  rw [hmenu]
  rfl

namespace Observed

variable {o o' : Observed}

/-- What holds in every state of a run under `StepOk`. -/
structure Inv (o : Observed) : Prop where
  agrees : o.keys.Agrees
  /-- The targets of a window are what was shown in it. -/
  targets : ∀ window id, id ∈ o.keys.targets window ↔ id ∈ o.shown window
  live : ∀ window, ∀ id ∈ o.keys.targets window, (o.keys.items id).isSome

/-- At the start there are no menus and no targets, and nothing was shown. -/
theorem Inv.init : ({} : Observed).Inv := by
  constructor
  case agrees => exact Agrees.init
  case targets => exact fun _ id => iff_of_false List.not_mem_nil (Set.notMem_empty id)
  case live => exact fun _ _ hid => absurd hid List.not_mem_nil

/-- A window in which nothing was shown has no targets, as the targets of a window are what was
shown in it. -/
theorem Inv.targets_eq_nil_iff (h : o.Inv) (window : Nat) :
    o.keys.targets window = [] ↔ o.shown window = ∅ := by
  rw [List.eq_nil_iff_forall_not_mem, Set.eq_empty_iff_forall_notMem]
  exact forall_congr' fun id => not_congr (h.targets window id)

/-! ## What the three operations leave behind -/

/-- The registrations of a menu that is set are the items with a shortcut in the tree of its model,
and each is made once exactly when it has one place there. -/
theorem Inv.registered (h : o.Inv) {depth m : Nat} {visits : List (List Nat × Nat)}
    (hwalk : walk o.keys.pointerKids depth m = some visits) :
    (∀ id, id ∈ (o.keys.keysOf visits).map Prod.snd ↔
      o.keys.HasShortcut id ∧ o.keys.InTree m id) ∧
    (((o.keys.keysOf visits).map Prod.snd).Nodup ↔
      ∀ id, o.keys.HasShortcut id → ∀ path path', follow o.keys.modelKids m path = some id →
        follow o.keys.modelKids m path' = some id → path = path') := by
  -- the walk through the models finds the same
  obtain ⟨visits', hwalk', hsame⟩ := h.agrees.walk_modelKids hwalk
  rw [keysOf_eq_counted, ← hsame]
  constructor
  · intro id
    rw [mem_counted_iff hwalk', isSome_keyOf_iff]
    exact Iff.rfl
  · rw [counted_nodup_iff hwalk']
    exact forall_congr' fun id => imp_congr_left (isSome_keyOf_iff id)

/-- **A menu that was set** is followed exactly where its items have one place each in the tree of
its model and nothing was shown in the window before: what was registered then stays. -/
theorem Inv.setMenu_follows_iff (h : o.Inv) {depth window m : Nat} {t : Keys}
    (halive : o.keys.crashed = false)
    (hst : Keys.step addSeparator o.keys depth (.setMenu window m) = some t) :
    Follows (.setMenu window m) t ↔
      (∀ id, o.keys.HasShortcut id → ∀ path path', follow o.keys.modelKids m path = some id →
        follow o.keys.modelKids m path' = some id → path = path') ∧ o.shown window = ∅ := by
  obtain ⟨visits, hvisits, hcrashed, hitems, hmenus, htargets⟩ := setMenu_spec hst
  -- the new targets are the items with a shortcut, one for each place in the tree
  obtain ⟨hmem, hone⟩ := h.registered hvisits
  have hshort : t.HasShortcut = o.keys.HasShortcut := by
    unfold HasShortcut
    rw [hitems]
  have htree : t.InTree = o.keys.InTree := by
    unfold InTree modelKids
    rw [hmenus]
  have hwindow := htargets window
  rw [if_pos rfl] at hwindow
  constructor
  · intro hfollows
    obtain ⟨hnodup, hset⟩ := hfollows.set window m rfl
    rw [hwindow] at hnodup
    obtain ⟨-, hnew, hdisjoint⟩ := List.nodup_append'.mp hnodup
    refine ⟨hone.mp hnew, (h.targets_eq_nil_iff window).mp ?_⟩
    -- an older target would have to be in the tree, and be registered a second time
    rw [List.eq_nil_iff_forall_not_mem]
    intro id hold
    have hall := (hset id).mp (by rw [hwindow]; exact List.mem_append_left _ hold)
    rw [hshort, htree] at hall
    exact hdisjoint hold ((hmem id).mpr hall)
  · rintro ⟨hplaces, hempty⟩
    rw [(h.targets_eq_nil_iff window).mpr hempty, List.nil_append] at hwindow
    have hset : ∀ id, id ∈ t.targets window ↔ t.HasShortcut id ∧ t.InTree m id := by
      intro id
      rw [hwindow, hmem, hshort, htree]
    constructor
    case alive => exact hcrashed.trans halive
    case set =>
      intro window' m' hop
      cases hop
      refine ⟨?_, hset⟩
      rw [hwindow]
      exact hone.mpr hplaces
    case cleared => exact nofun
    case live =>
      intro w id hid
      rw [hitems]
      -- only the table of this window has new targets
      by_cases hw : w = window
      · rw [hw, hset, hshort] at hid
        obtain ⟨⟨item, hitem, -⟩, -⟩ := hid
        rw [hitem]
        rfl
      · rw [htargets, if_neg hw] at hid
        exact h.live w id hid

/-- `ClearMenu` leaves the targets, so there must be none: nothing with a shortcut may have been
shown in the window before. -/
theorem Inv.clearMenu_follows_iff (h : o.Inv) (window : Nat) (halive : o.keys.crashed = false) :
    Follows (.clearMenu window) o.keys ↔ o.shown window = ∅ := by
  rw [← h.targets_eq_nil_iff]
  constructor
  · exact fun hfollows => hfollows.cleared window rfl
  · intro hnone
    refine ⟨halive, nofun, ?_, h.live⟩
    intro window' hop
    cases hop
    exact hnone

/-- A destroyed item must have been in no menu that was shown while it had its shortcut. -/
theorem Inv.destroyItem_follows_iff (h : o.Inv) (id : Nat) (halive : o.keys.crashed = false) :
    Follows (.destroyItem id) { o.keys with items := Function.update o.keys.items id none } ↔
      ∀ window, id ∉ o.shown window := by
  constructor
  · intro hfollows window hid
    have hsome := hfollows.live window id ((h.targets window id).mpr hid)
    simp only [Function.update_self] at hsome
    cases hsome
  · intro hnot
    refine ⟨halive, nofun, nofun, fun window i hi => ?_⟩
    have hi : i ∈ o.keys.targets window := hi
    simp only [Function.update_apply]
    split
    · rename_i heq
      exact absurd ((h.targets window i).mp hi) (heq ▸ hnot window)
    · exact h.live window i hi

/-- Every other operation leaves the targets and the items that are there, and no item goes away
that a target points to. -/
theorem Inv.other_follows (h : o.Inv) {depth : Nat} {op : Op} {t : Keys}
    (halive : o.keys.crashed = false) (hst : Keys.step addSeparator o.keys depth op = some t)
    (hset : ∀ window m, op ≠ .setMenu window m) (hclear : ∀ window, op ≠ .clearMenu window)
    (hdestroy : ∀ id, op ≠ .destroyItem id) : Follows op t := by
  obtain ⟨hfocus, hcrashed, hitems⟩ := step_frame hst hset
  refine ⟨hcrashed.trans halive, fun window m hop => absurd hop (hset window m),
    fun window hop => absurd hop (hclear window), fun window id hid => ?_⟩
  rw [Keys.targets, hfocus] at hid
  exact hitems id (h.live window id hid) (hdestroy id)

/-! ## One step -/

/-- Every state the step can lead to follows the menus. -/
def StepFollows (addSeparator : List Entry → Bool) (o : Observed) (op : Op) : Prop :=
  ∀ t, o.keys.Step addSeparator op t → Follows op t

/-- The operations that the property is about: what they leave behind is looked at. -/
def Shows : Op → Prop
  | .setMenu .. | .clearMenu _ | .destroyItem _ => True
  | _ => False

/-- Where a menu is set, the stack is enough exactly when the pointers end. -/
theorem Inv.setMenu_stepFollows_iff (h : o.Inv) (halive : o.keys.crashed = false)
    (window m : Nat) :
    o.StepOk (.setMenu window m) ↔ StepFollows addSeparator o (.setMenu window m) := by
  constructor
  · rintro hok t ⟨-, ⟨depth, hst⟩ | ⟨window', m', heq, hmenu, hnone, rfl⟩⟩
    · obtain ⟨visits, hvisits, -⟩ := setMenu_spec hst
      exact (h.setMenu_follows_iff halive hst).mpr (hok (isSome_of_walk hvisits)).2
    · cases heq
      -- `UpdateKeys` comes to an end, so this is not the crash
      obtain ⟨depth, table, htable⟩ :=
        (exists_updateKeys_iff m (o.keys.focusManager window)).mpr (hok hmenu).1
      rw [hnone depth] at htable
      cases htable
  · intro hall hmenu
    -- a walk without end is a crash, and a crash follows nothing
    have hfinite : Finite o.keys.pointerKids m := by
      by_contra hnot
      have hnone : ∀ depth, o.keys.updateKeys depth m (o.keys.focusManager window) = none := by
        intro depth
        cases hkeys : o.keys.updateKeys depth m (o.keys.focusManager window) with
        | none => rfl
        | some table => exact absurd ((exists_updateKeys_iff m _).mp ⟨depth, table, hkeys⟩) hnot
      have hcrash := hall _ ⟨halive, Or.inr ⟨window, m, rfl, hmenu, hnone, rfl⟩⟩
      cases hcrash.alive
    obtain ⟨depth, table, htable⟩ :=
      (exists_updateKeys_iff m (o.keys.focusManager window)).mpr hfinite
    have hst : Keys.step addSeparator o.keys depth (.setMenu window m) = some { o.keys with
        focusManager := Function.update o.keys.focusManager window table } := by
      rw [Keys.step, htable]
      rfl
    exact ⟨hfinite, (h.setMenu_follows_iff halive hst).mp (hall _ ⟨halive, Or.inl ⟨depth, hst⟩⟩)⟩

/-- **One step.** Under the condition it leaves accelerators that follow the menus; for the
operations that the property is about the condition is exact. -/
theorem Inv.stepFollows (h : o.Inv) (halive : o.keys.crashed = false) (op : Op) :
    (o.StepOk op → StepFollows addSeparator o op) ∧
      (Shows op → StepFollows addSeparator o op → o.StepOk op) := by
  -- what is neither set, cleared nor destroyed is not looked at
  have hother : (∀ window m, op ≠ .setMenu window m) → (∀ window, op ≠ .clearMenu window) →
      (∀ id, op ≠ .destroyItem id) → StepFollows addSeparator o op := by
    rintro hset hclear hdestroy t ⟨-, ⟨depth, hst⟩ | ⟨window, m, heq, -⟩⟩
    · exact h.other_follows halive hst hset hclear hdestroy
    · exact absurd heq (hset window m)
  cases op with
  | setMenu window m =>
    have hiff : o.StepOk (.setMenu window m) ↔ StepFollows addSeparator o (.setMenu window m) :=
      h.setMenu_stepFollows_iff halive window m
    exact ⟨hiff.mp, fun _ => hiff.mpr⟩
  | clearMenu window =>
    constructor
    · rintro hok t ⟨-, ⟨depth, hst⟩ | ⟨window, m, heq, -⟩⟩
      · cases hst
        exact (h.clearMenu_follows_iff window halive).mpr hok
      · cases heq
    · exact fun _ hall =>
        (h.clearMenu_follows_iff window halive).mp (hall _ ⟨halive, Or.inl ⟨0, rfl⟩⟩)
  | destroyItem id =>
    constructor
    · rintro hok t ⟨-, ⟨depth, hst⟩ | ⟨window, m, heq, -⟩⟩
      · cases hst
        exact (h.destroyItem_follows_iff id halive).mpr hok
      · cases heq
    · exact fun _ hall =>
        (h.destroyItem_follows_iff id halive).mp (hall _ ⟨halive, Or.inl ⟨0, rfl⟩⟩)
  | newMenu | newMenuItem | append | insert | remove | setSubmenu | destroyMenu =>
    exact ⟨fun _ => hother nofun nofun nofun, fun hshows => hshows.elim⟩

/-- **The invariant is kept.** A table is only extended where a menu is set, and then by what is in
the tree of its model. -/
theorem Inv.step (h : o.Inv) {op : Op} (hok : o.StepOk op) (hst : Step addSeparator o op o') :
    o'.Inv := by
  obtain ⟨hst, hshown⟩ := hst
  have hfollows := (h.stepFollows hst.1 op).1 hok _ hst
  obtain ⟨halive, ⟨depth, hst⟩ | ⟨window, m, -, -, -, heq⟩⟩ := hst
  · refine ⟨h.agrees.step hok hst, fun w id => ?_, hfollows.live⟩
    -- only `SetMenu` shows anything
    by_cases hop : ∀ window m, op ≠ .setMenu window m
    · have hsame : o'.shown = o.shown := by
        rw [hshown]
        split
        · exact absurd rfl (hop _ _)
        · rfl
      rw [Keys.targets, (step_frame hst hop).1, hsame]
      exact h.targets w id
    · obtain ⟨window, m, rfl⟩ : ∃ window m, op = .setMenu window m := by
        by_contra hnot
        exact hop fun window m heq => hnot ⟨window, m, heq⟩
      obtain ⟨visits, hvisits, -, -, -, htargets⟩ := setMenu_spec hst
      simp only at hshown
      rw [hshown, htargets, Function.update_apply]
      split
      · rw [List.mem_append, Set.mem_union, h.targets, (h.registered hvisits).1]
        exact Iff.rfl
      · exact h.targets w id
  · rw [heq] at hfollows
    cases hfollows.alive

/-! ## Whole runs -/

/-- **Accelerators follow the menus.** In a run whose steps meet `StepOk` every step leaves
accelerators that follow the menus. In the states of such a run the condition is exact for the
operations that the property is about: setting a menu, taking it away and destroying an item. -/
theorem accelerators_follow_menus (addSeparator : List Entry → Bool) (ops : List Op)
    (o : Observed) (hrun : Run (Guarded StepOk (Step addSeparator)) {} ops o) :
    Run (Guarded (StepFollows addSeparator) (Step addSeparator)) {} ops o ∧
      ∀ op, Shows op → o.keys.crashed = false →
        (o.StepOk op ↔ StepFollows addSeparator o op) := by
  constructor
  · refine hrun.guarded_of (I := Inv) ?_ ?_ Inv.init
    · exact fun _ _ _ h hok hst => h.step hok hst
    · exact fun _ op _ h hok hst => (h.stepFollows hst.1.1 op).1 hok
  · intro op hshows halive
    have hinv : o.Inv := hrun.invariant (fun _ _ _ h hst => h.step hst.1 hst.2) Inv.init
    exact ⟨(hinv.stepFollows halive op).1, (hinv.stepFollows halive op).2 hshows⟩

/-- A menu may be set where a walk through its model finds each item with a shortcut once. -/
theorem stepOk_setMenu (depth : Nat) {window m : Nat} {visits visits' : List (List Nat × Nat)}
    (hpointers : walk o.keys.pointerKids depth m = some visits)
    (hmodel : walk o.keys.modelKids depth m = some visits')
    (honce : (counted (fun id => (o.keys.keyOf id).isSome) visits').Nodup)
    (hshown : o.shown window = ∅) : o.StepOk (.setMenu window m) := by
  refine fun _ => ⟨finite_iff.mpr ⟨depth, visits, hpointers⟩, fun id hshort => ?_, hshown⟩
  exact (counted_nodup_iff hmodel).mp honce id ((isSome_keyOf_iff id).mpr hshort)

/-- A menu without keys shows nothing that counts: the items its model's walk visits are those in
its tree, and none of them has a shortcut. -/
theorem shows_nothing (depth : Nat) {m : Nat} {visits : List (List Nat × Nat)}
    (hmodel : walk o.keys.modelKids depth m = some visits)
    (hnone : counted (fun id => (o.keys.keyOf id).isSome) visits = []) :
    {id | o.keys.HasShortcut id ∧ o.keys.InTree m id} = ∅ := by
  refine Set.eq_empty_of_forall_notMem fun id ⟨hshort, htree⟩ => ?_
  have hmem : id ∈ counted (fun id => (o.keys.keyOf id).isSome) visits :=
    (mem_counted_iff hmodel id).mpr ⟨(isSome_keyOf_iff id).mpr hshort, htree⟩
  rw [hnone] at hmem
  cases hmem

/-- A menu that showed nothing may be taken away again, also where the window had one before it that
showed nothing either. -/
theorem stepOk_clearMenu {keys : Keys} {shown : Nat → Set Nat} {window : Nat} {items : Set Nat}
    (hold : shown window = ∅) (hnew : items = ∅) :
    (⟨keys, Function.update shown window (shown window ∪ items)⟩ : Observed).StepOk
      (.clearMenu window) := by
  refine (Function.update_self window _ shown).trans ?_
  rw [hold, hnew]
  exact Set.union_empty _

/-- A run that starts with an operation at which nothing is looked at. It changes what is shown in
no window, so the run goes on with the same record of what was shown. -/
theorem run_cons {op : Op} {ops : List Op} {t : Keys} (hshows : ¬ Shows op) (hok : o.StepOk op)
    (halive : o.keys.crashed = false) (hst : Keys.step addSeparator o.keys 0 op = some t)
    (htail : Run (Guarded StepOk (Step addSeparator)) ⟨t, o.shown⟩ ops o') :
    Run (Guarded StepOk (Step addSeparator)) o (op :: ops) o' := by
  refine .cons ⟨hok, ⟨halive, Or.inl ⟨0, hst⟩⟩, ?_⟩ htail
  cases op with
  | setMenu => exact absurd trivial hshows
  | _ => rfl

/-- A menu with a key of its own and one in its submenu, and a menu without keys. A plain item is
inserted and taken out; the menu without keys is set on a window and taken away, and then the other
one is set on another window. -/
def twoMenus : List Op :=
  [.newMenu, .newMenu, .newMenu, .newMenuItem .normal (some ⟨0x53, 4⟩) none,
    .newMenuItem .normal (some ⟨0x51, 4⟩) none, .newMenuItem .normal none (some 1),
    .newMenuItem .checkbox none none, .append 1 1, .append 0 0, .append 0 2, .insert 0 3 0,
    .remove 0 3 0, .append 2 3, .setMenu 1 2, .clearMenu 1, .setMenu 0 0]

/-- Window 1 gets a menu without keys, which is taken away again, and then window 0 gets a menu with
a submenu. The two items with a shortcut are the targets of window 0. -/
theorem accelerators_follow_menus_twoMenus :
    ∃ o, Run (Guarded (StepFollows separates) (Step separates)) {} twoMenus o ∧
      o.keys.targets 0 = [0, 1] ∧ o.keys.targets 1 = [] := by
  obtain ⟨o, hrun, htargets⟩ : ∃ o, Run (Guarded StepOk (Step separates)) {} twoMenus o ∧
      o.keys.targets 0 = [0, 1] ∧ o.keys.targets 1 = [] := by
    unfold twoMenus
    refine ⟨_, run_cons id trivial rfl rfl (run_cons id trivial rfl rfl (run_cons id trivial rfl
      rfl (run_cons id trivial rfl rfl (run_cons id trivial rfl rfl (run_cons id trivial rfl rfl
      (run_cons id trivial rfl rfl (run_cons id trivial rfl rfl (run_cons id trivial rfl rfl
      (run_cons id trivial rfl rfl (run_cons id ?insert rfl rfl (run_cons id ?remove rfl rfl
      (run_cons id trivial rfl rfl
      (.cons (t := ⟨_, _⟩) ⟨?set, ⟨rfl, Or.inl ⟨1, rfl⟩⟩, rfl⟩
      (.cons (t := ⟨_, _⟩) ⟨?clear, ⟨rfl, Or.inl ⟨0, rfl⟩⟩, rfl⟩
      (.cons (t := ⟨_, _⟩) ⟨?setOther, ⟨rfl, Or.inl ⟨2, rfl⟩⟩, rfl⟩ (.nil _)))))))))))))))),
      rfl, rfl⟩
    case insert =>
      intro item hitem
      cases hitem
      rfl
    case remove =>
      intro menu hmenu _ entry hentry
      cases hmenu
      cases hentry
      rfl
    case set => exact stepOk_setMenu 1 rfl rfl (by decide) rfl
    case clear =>
      -- the menu of the second window has no keys
      exact stepOk_clearMenu rfl (shows_nothing 1 rfl rfl)
    case setOther => exact stepOk_setMenu 2 rfl rfl (by decide) rfl
  exact ⟨o, (accelerators_follow_menus separates twoMenus o hrun).1, htargets⟩

end Observed

/-- A menu with one item, which has a key, is set on a window. -/
def setOnce : List Op :=
  [.newMenu, .newMenuItem .normal (some ⟨0x53, 4⟩) none, .append 0 0, .setMenu 0 0]

/-- The item stays registered when the menu is taken away: the window has no menu bar any more, and
its focus manager still has the shortcut. -/
theorem cleared_not_followed :
    ¬ ∀ (ops : List Op) (s t : Keys) (op : Op), Run (Step separates) {} ops s →
      Step separates s op t → Follows op t := by
  intro hall
  have hrun : Run (Step separates) {} setOnce _ :=
    .cons ⟨rfl, Or.inl ⟨0, rfl⟩⟩ (.cons ⟨rfl, Or.inl ⟨0, rfl⟩⟩ (.cons ⟨rfl, Or.inl ⟨0, rfl⟩⟩
      (.cons ⟨rfl, Or.inl ⟨1, rfl⟩⟩ (.nil _))))
  have hfollows := hall _ _ _ (.clearMenu 0) hrun ⟨rfl, Or.inl ⟨0, rfl⟩⟩
  exact absurd (hfollows.cleared 0 rfl) (by decide)

end NodeWebkit.Menus.Keys
