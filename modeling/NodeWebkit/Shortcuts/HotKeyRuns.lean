import NodeWebkit.Shortcuts.Shortcut

/-!
# Global hot keys over whole runs

The key tables of the contexts and the listener's table agree in every run. A press finds the
shortcut that registered the accelerator exactly when the code string that the press comes back
with is the one the shortcut was made with.

* **`TablesAgree`** — a context has a handler under a key exactly when it holds the accelerator of
  that handler natively;
* **`PressesReach`** — a press is answered by the shortcut that registered the accelerator, by no
  other one, and once;
* **`RoundTrips`** — the condition on a registration that goes through;
* **`hot_keys_reach`** — in a run both hold after every step exactly when each step meets the
  condition.

The agreement of the tables needs no condition (`TablesAgree.step`): what is put into the one is put
into the other, under a key that tells accelerators apart. The way of a press is another one. It
comes back as a key code, which is turned into a code string by another table than the one that
turned the string into the code, so in a state whose tables agree `PressesReach` is
`HeldRoundTrip`, which says of the accelerators that are held that the two tables undo each other
(`pressesReach_iff`). A registration adds one of them, and every other step adds none.
-/

namespace NodeWebkit.Shortcuts

open Lts

variable {DomCode KeyboardCode : Type}

/-! ## Keys of the handlers table -/

/-- A flag in front of a dash can be read off the text: the two words differ in their first letter,
and what is behind the dash is left. -/
theorem toString_dash_inj {b c : Bool} {x y : String}
    (h : toString b ++ "-" ++ x = toString c ++ "-" ++ y) : b = c ∧ x = y := by
  have htrue : (toString true).toList = ['t', 'r', 'u', 'e'] := rfl
  have hfalse : (toString false).toList = ['f', 'a', 'l', 's', 'e'] := rfl
  have hlist := congrArg String.toList h
  rw [String.toList_append, String.toList_append, String.toList_append, String.toList_append]
    at hlist
  -- the two texts begin with different letters
  cases b with
  | true =>
    cases c with
    | true =>
      exact ⟨rfl, String.toList_inj.mp (List.append_cancel_left hlist)⟩
    | false =>
      rw [htrue, hfalse] at hlist
      exact absurd (List.cons.inj hlist).1 (by decide)
  | false =>
    cases c with
    | true =>
      rw [htrue, hfalse] at hlist
      exact absurd (List.cons.inj hlist).1 (by decide)
    | false =>
      exact ⟨rfl, String.toList_inj.mp (List.append_cancel_left hlist)⟩

/-- Different accelerators have different keys: the four modifiers are read off one after the other,
and the code string is what is left. -/
theorem normalizeLocal_inj {a b : Accelerator} (h : normalizeLocal a = normalizeLocal b) :
    a = b := by
  obtain ⟨halt, h⟩ := toString_dash_inj h
  obtain ⟨hcommand, h⟩ := toString_dash_inj h
  obtain ⟨hctrl, h⟩ := toString_dash_inj h
  obtain ⟨hshift, hkey⟩ := toString_dash_inj h
  obtain ⟨key, alt, command, ctrl, shift⟩ := a
  obtain ⟨key', alt', command', ctrl', shift'⟩ := b
  simp only at halt hcommand hctrl hshift hkey
  rw [halt, hcommand, hctrl, hshift, hkey]

/-- The code string of a key comes back from its key code. -/
def Keycodes.RoundTrips (codes : Keycodes DomCode KeyboardCode) (key : String) : Prop :=
  codes.domCodeToCodeString (codes.usLayoutKeyboardCodeToDomCode
    (codes.domCodeToUsLayoutKeyboardCode (codes.codeStringToDomCode key))) = key

namespace Process

variable (codes : Keycodes DomCode KeyboardCode)

/-- The keys of a context's handlers are the accelerators it holds natively, and what is held is
the accelerator of the shortcut that registered it. -/
def TablesAgree (s : Process KeyboardCode) : Prop :=
  (∀ context localKey shortcut, s.handlers context localKey = some shortcut ↔
    normalizeLocal shortcut.accelerator = localKey ∧
      s.acceleratorMap (codes.dictionaryToUIAccelerator shortcut.accelerator) =
        some (.nw context shortcut)) ∧
  (∀ accelerator context shortcut, s.acceleratorMap accelerator = some (.nw context shortcut) →
    codes.dictionaryToUIAccelerator shortcut.accelerator = accelerator ∧ context < s.contexts)

/-- A press of an accelerator that was registered natively makes exactly the shortcut that
registered it emit `active`, once. -/
def PressesReach (s : Process KeyboardCode) : Prop :=
  ∀ accelerator context shortcut, s.acceleratorMap accelerator = some (.nw context shortcut) →
    s.onKeyPressed codes accelerator = [(context, shortcut, .active)]

/-- Everything that is held natively comes back with its own code string. -/
def HeldRoundTrip (s : Process KeyboardCode) : Prop :=
  ∀ accelerator context shortcut, s.acceleratorMap accelerator = some (.nw context shortcut) →
    codes.RoundTrips shortcut.accelerator.key

/-! ## The tables agree -/

section Tables

variable {codes} {s : Process KeyboardCode}

/-- No context has a handler, and nothing is held. -/
theorem tablesAgree_init : ({} : Process KeyboardCode).TablesAgree codes := by
  constructor
  · intro context localKey shortcut
    constructor
    · intro h
      cases h
    · rintro ⟨-, h⟩
      cases h
  · intro accelerator context shortcut h
    cases h

/-- The handler a context has under the key of an accelerator holds that accelerator. -/
theorem TablesAgree.held (hs : s.TablesAgree codes) {context : Nat} {accelerator : Accelerator}
    {handler : Shortcut}
    (h : s.handlers context (normalizeLocal accelerator) = some handler) :
    handler.accelerator = accelerator ∧
      s.acceleratorMap (codes.dictionaryToUIAccelerator accelerator) =
        some (.nw context handler) := by
  obtain ⟨hkey, hmap⟩ := (hs.1 _ _ _).mp h
  have heq := normalizeLocal_inj hkey
  rw [heq] at hmap
  exact ⟨heq, hmap⟩

/-- The handlers after one of them is set: only the entry of this context under this key is another
one. -/
theorem handlers_setHandler (s : Process KeyboardCode) (context context' : Nat)
    (localKey localKey' : String) (handler : Option Shortcut) :
    (s.setHandler context localKey handler).handlers context' localKey' =
      if context' = context ∧ localKey' = localKey then handler
      else s.handlers context' localKey' := by
  show Function.update s.handlers context _ context' localKey' = _
  by_cases hc : context' = context
  · rw [hc, Function.update_self, Function.update_apply]
    simp only [true_and]
  · rw [Function.update_of_ne hc, if_neg fun h => hc h.1]

variable [DecidableEq KeyboardCode]

/-- **A registration that goes through** puts the shortcut into both tables. The accelerator was
free, so no other shortcut is displaced. -/
theorem tablesAgree_register (hs : s.TablesAgree codes) {context : Nat} {shortcut : Shortcut}
    (hcontext : context < s.contexts)
    (hfree : s.acceleratorMap (codes.dictionaryToUIAccelerator shortcut.accelerator) = none) :
    (setHandler { s with
      acceleratorMap := Function.update s.acceleratorMap
        (codes.dictionaryToUIAccelerator shortcut.accelerator) (some (.nw context shortcut)) }
      context (normalizeLocal shortcut.accelerator) (some shortcut)).TablesAgree codes := by
  refine ⟨fun context' localKey' shortcut' => ?_, fun accelerator context' shortcut' h => ?_⟩
  · rw [handlers_setHandler]
    simp only [setHandler]
    -- the entry that is set, and the others
    by_cases hkey : context' = context ∧ localKey' = normalizeLocal shortcut.accelerator
    · rw [if_pos hkey]
      obtain ⟨rfl, rfl⟩ := hkey
      constructor
      · intro h
        cases h
        exact ⟨rfl, Function.update_self ..⟩
      · rintro ⟨hlocal, hmap⟩
        rw [normalizeLocal_inj hlocal, Function.update_self] at hmap
        cases hmap
        rfl
    · rw [if_neg hkey, hs.1]
      refine and_congr_right fun hlocal => ?_
      by_cases hsame : codes.dictionaryToUIAccelerator shortcut'.accelerator =
          codes.dictionaryToUIAccelerator shortcut.accelerator
      · -- nothing was held there, and what is held now has the key that was set
        rw [hsame, Function.update_self, hfree]
        refine iff_of_false nofun fun h => ?_
        cases h
        exact hkey ⟨rfl, hlocal.symm⟩
      · rw [Function.update_of_ne hsame]
  · simp only [setHandler] at h
    by_cases ha : accelerator = codes.dictionaryToUIAccelerator shortcut.accelerator
    · rw [ha, Function.update_self] at h
      cases h
      exact ⟨ha.symm, hcontext⟩
    · rw [Function.update_of_ne ha] at h
      exact hs.2 _ _ _ h

/-- **A handler is given up** together with the accelerator that it is held under. Where another
context held the same accelerator, it would have had to register it while it was taken. -/
theorem tablesAgree_unregister (hs : s.TablesAgree codes) {context : Nat}
    {shortcut handler : Shortcut}
    (hhandler : s.handlers context (normalizeLocal shortcut.accelerator) = some handler) :
    ((s.unregisterAccelerator (codes.dictionaryToUIAccelerator shortcut.accelerator)).setHandler
      context (normalizeLocal shortcut.accelerator) none).TablesAgree codes := by
  obtain ⟨hsame, hheld⟩ := hs.held hhandler
  refine ⟨fun context' localKey' shortcut' => ?_, fun accelerator context' shortcut' h => ?_⟩
  · rw [handlers_setHandler]
    simp only [setHandler, unregisterAccelerator]
    by_cases hkey : context' = context ∧ localKey' = normalizeLocal shortcut.accelerator
    · rw [if_pos hkey]
      obtain ⟨rfl, rfl⟩ := hkey
      refine iff_of_false nofun ?_
      rintro ⟨hlocal, hmap⟩
      rw [normalizeLocal_inj hlocal, Function.update_self] at hmap
      cases hmap
    · rw [if_neg hkey, hs.1]
      refine and_congr_right fun hlocal => ?_
      by_cases ha : codes.dictionaryToUIAccelerator shortcut'.accelerator =
          codes.dictionaryToUIAccelerator shortcut.accelerator
      · -- what was held there had the key that was set
        rw [ha, Function.update_self]
        refine iff_of_false (fun h => ?_) nofun
        rw [hheld] at h
        cases h
        exact hkey ⟨rfl, by rw [← hlocal, hsame]⟩
      · rw [Function.update_of_ne ha]
  · simp only [setHandler, unregisterAccelerator] at h
    by_cases ha : accelerator = codes.dictionaryToUIAccelerator shortcut.accelerator
    · rw [ha, Function.update_self] at h
      cases h
    · rw [Function.update_of_ne ha] at h
      exact hs.2 _ _ _ h

/-- What others do with the listener leaves the tables alone: they take what is free and give up
what is theirs. -/
theorem tablesAgree_other (hs : s.TablesAgree codes) {accelerator : UIAccelerator KeyboardCode}
    {value : Option Holder}
    (hold : ∀ context shortcut, s.acceleratorMap accelerator ≠ some (.nw context shortcut))
    (hnew : ∀ context shortcut, value ≠ some (.nw context shortcut)) :
    ({ s with acceleratorMap := Function.update s.acceleratorMap accelerator value } :
      Process KeyboardCode).TablesAgree codes := by
  have hmap : ∀ a context shortcut, Function.update s.acceleratorMap accelerator value a =
      some (.nw context shortcut) ↔ s.acceleratorMap a = some (.nw context shortcut) := by
    intro a context shortcut
    by_cases ha : a = accelerator
    · rw [ha, Function.update_self]
      exact iff_of_false (hnew context shortcut) (hold context shortcut)
    · rw [Function.update_of_ne ha]
  refine ⟨fun context localKey shortcut => ?_, fun a context shortcut h => ?_⟩
  · rw [hs.1, hmap]
  · exact hs.2 _ _ _ ((hmap _ _ _).mp h)

/-- The tables agree after every step, whatever the conversion tables are. Every case is one of the
lemmas above, or changes neither table. -/
theorem TablesAgree.step (hs : s.TablesAgree codes) {op : Op KeyboardCode}
    {t : Process KeyboardCode} (hst : step codes s op = some t) : t.TablesAgree codes := by
  cases op with
  | createContext =>
    cases hst
    exact ⟨hs.1, fun a c sh h => ⟨(hs.2 a c sh h).1, Nat.lt_succ_of_lt (hs.2 a c sh h).2⟩⟩
  | registerGlobalHotKey context shortcut accepted =>
    simp only [Process.step, Option.ite_none_right_eq_some, Option.some.injEq] at hst
    obtain ⟨hcontext, rfl⟩ := hst
    -- it goes through, or nothing changes
    rcases registerGlobalHotKey_cases codes s context shortcut accepted with
      ⟨-, hfree, heq⟩ | ⟨-, heq⟩
    · rw [heq]
      exact tablesAgree_register hs hcontext hfree
    · rw [heq]
      exact hs
  | unregisterGlobalHotKey context shortcut =>
    simp only [Process.step, Option.ite_none_right_eq_some, Option.some.injEq] at hst
    obtain ⟨hcontext, rfl⟩ := hst
    unfold unregisterGlobalHotKey
    cases hhandler : s.handlers context (normalizeLocal shortcut.accelerator) with
    | some handler => exact tablesAgree_unregister hs hhandler
    | none => exact hs
  | registerOther accelerator accepted =>
    cases hst
    cases hmap : s.acceleratorMap accelerator with
    | some holder =>
      -- somebody else holds the accelerator
      rw [registerAccelerator_held hmap]
      exact hs
    | none =>
      rw [registerAccelerator_free hmap]
      cases accepted with
      | true =>
        refine tablesAgree_other hs (fun _ _ h => ?_) (fun _ _ h => (nomatch h))
        rw [hmap] at h
        cases h
      | false => exact hs
  | unregisterOther accelerator =>
    simp only [Process.step] at hst
    split at hst
    · rename_i hmap
      cases hst
      refine tablesAgree_other hs (fun _ _ h => ?_) (fun _ _ h => (nomatch h))
      rw [hmap] at h
      cases h
    · cases hst
  | press accelerator =>
    simp only [Process.step] at hst
    split at hst
    · cases hst
      exact hs
    · cases hst
      exact hs
    · cases hst

end Tables

/-! ## Presses -/

/-- A list without duplicates of which exactly one element has a value: this is the broadcast to all
contexts, which one of them answers. -/
theorem filterMap_eq_singleton {α β : Type} {f : α → Option β} {l : List α} {a : α} {b : β}
    (hnodup : l.Nodup) (ha : a ∈ l) (hb : f a = some b) (hne : ∀ x ∈ l, x ≠ a → f x = none) :
    l.filterMap f = [b] := by
  induction l with
  | nil => exact absurd ha List.not_mem_nil
  | cons x l ih =>
    rw [List.forall_mem_cons] at hne
    rw [List.nodup_cons] at hnodup
    by_cases hx : x = a
    · subst hx
      rw [List.filterMap_cons_some hb, List.filterMap_eq_nil_iff.mpr]
      intro y hy
      exact hne.2 y hy fun h => hnodup.1 (h ▸ hy)
    · have ha' : a ∈ l := (List.mem_cons.mp ha).resolve_left fun h => hx h.symm
      rw [List.filterMap_cons_none (hne.1 hx)]
      exact ih hnodup.2 ha' hne.2

section Presses

variable {codes} {s : Process KeyboardCode}

/-- The modifiers come back as they went out, so an accelerator comes back exactly if its key does.
-/
theorem uiAccelerator_eq_iff (accelerator : Accelerator) :
    codes.uiAcceleratorToAccelerator (codes.dictionaryToUIAccelerator accelerator) = accelerator ↔
      codes.RoundTrips accelerator.key := by
  obtain ⟨key, modifiers⟩ := accelerator
  simp only [Keycodes.uiAcceleratorToAccelerator, Keycodes.dictionaryToUIAccelerator,
    Keycodes.RoundTrips, Accelerator.mk.injEq, and_true]

/-- Presses reach the shortcut that registered the accelerator exactly when everything that is
held comes back with its own code string: the handlers are found by that string. -/
theorem pressesReach_iff (hs : s.TablesAgree codes) :
    s.PressesReach codes ↔ s.HeldRoundTrip codes := by
  constructor
  · intro hreach accelerator context shortcut hmap
    have hpress := hreach _ _ _ hmap
    have hmem : (context, shortcut, Event.active) ∈ s.onKeyPressed codes accelerator := by
      rw [hpress]
      exact List.mem_singleton_self _
    obtain ⟨context', -, hfound⟩ := List.mem_filterMap.mp hmem
    obtain ⟨handler, hhandler, heq⟩ := Option.map_eq_some_iff.mp hfound
    cases heq
    -- the handler that was found is one for the code string that came back
    have hsame := (hs.held hhandler).1
    rw [← (hs.2 _ _ _ hmap).1] at hsame
    exact (uiAccelerator_eq_iff _).mp hsame.symm
  · intro hround accelerator context shortcut hmap
    obtain ⟨hui, hcontext⟩ := hs.2 _ _ _ hmap
    have hback : codes.uiAcceleratorToAccelerator accelerator = shortcut.accelerator := by
      rw [← hui]
      exact (uiAccelerator_eq_iff _).mpr (hround _ _ _ hmap)
    rw [onKeyPressed, hback]
    refine filterMap_eq_singleton List.nodup_range (List.mem_range.mpr hcontext) ?_ ?_
    · rw [(hs.1 _ _ _).mpr ⟨rfl, hui.symm ▸ hmap⟩]
      rfl
    · -- a handler of another context would hold the same accelerator
      intro context' _ hne
      cases hhandler : s.handlers context' (normalizeLocal shortcut.accelerator) with
      | none => rfl
      | some handler =>
        have hheld := (hs.held hhandler).2
        rw [hui, hmap] at hheld
        cases hheld
        exact absurd rfl hne

end Presses

/-! ## Whole runs -/

section Runs

variable [DecidableEq KeyboardCode]

/-- A registration that goes through is one of a key whose code string comes back. -/
def StepOk (s : Process KeyboardCode) : Op KeyboardCode → Prop
  | .registerGlobalHotKey _ shortcut accepted =>
    accepted = true →
      s.acceleratorMap (codes.dictionaryToUIAccelerator shortcut.accelerator) = none →
        codes.RoundTrips shortcut.accelerator.key
  | _ => True

/-- After the step the tables agree and presses reach their shortcuts. -/
def StepReaches (s : Process KeyboardCode) (op : Op KeyboardCode) : Prop :=
  ∀ t, step codes s op = some t → t.TablesAgree codes ∧ t.PressesReach codes

variable {codes} {s : Process KeyboardCode}

/-- Accelerators that are given up or taken by others do not matter, as the condition is about those
that the contexts hold. -/
theorem heldRoundTrip_update (hs : s.HeldRoundTrip codes) {accelerator : UIAccelerator KeyboardCode}
    {value : Option Holder} (hnew : ∀ context shortcut, value ≠ some (.nw context shortcut))
    {t : Process KeyboardCode}
    (ht : t.acceleratorMap = Function.update s.acceleratorMap accelerator value) :
    t.HeldRoundTrip codes := by
  intro a context shortcut h
  rw [ht] at h
  by_cases ha : a = accelerator
  · rw [ha, Function.update_self] at h
    exact absurd h (hnew context shortcut)
  · rw [Function.update_of_ne ha] at h
    exact hs _ _ _ h

/-- **One step.** If the accelerators that are held come back as they went out, then after a step
they do so exactly if the step meets the condition: a registration that goes through adds one
accelerator, and no other step adds any. -/
theorem heldRoundTrip_step_iff (hs : s.HeldRoundTrip codes) {op : Op KeyboardCode}
    {t : Process KeyboardCode} (hst : step codes s op = some t) :
    t.HeldRoundTrip codes ↔ StepOk codes s op := by
  cases op with
  | createContext =>
    cases hst
    exact iff_of_true hs trivial
  | registerGlobalHotKey context shortcut accepted =>
    simp only [step, Option.ite_none_right_eq_some, Option.some.injEq] at hst
    obtain ⟨-, rfl⟩ := hst
    rcases registerGlobalHotKey_cases codes s context shortcut accepted with
      ⟨haccepted, hfree, heq⟩ | ⟨hrejected, heq⟩
    · rw [heq]
      constructor
      · intro h _ _
        -- the new shortcut is held now
        exact h (codes.dictionaryToUIAccelerator shortcut.accelerator) context shortcut
          (Function.update_self ..)
      · intro hok accelerator context' shortcut' h
        simp only [setHandler] at h
        by_cases ha : accelerator = codes.dictionaryToUIAccelerator shortcut.accelerator
        · rw [ha, Function.update_self] at h
          cases h
          -- what was held before goes on coming back
          exact hok haccepted hfree
        · rw [Function.update_of_ne ha] at h
          exact hs _ _ _ h
    · rw [heq]
      exact iff_of_true hs fun haccepted hfree => absurd hfree (hrejected haccepted)
  | unregisterGlobalHotKey context shortcut =>
    simp only [step, Option.ite_none_right_eq_some, Option.some.injEq] at hst
    obtain ⟨-, rfl⟩ := hst
    refine iff_of_true ?_ trivial
    unfold unregisterGlobalHotKey
    cases s.handlers context (normalizeLocal shortcut.accelerator) with
    | some handler =>
      refine heldRoundTrip_update hs ?_ rfl
      exact fun _ _ h => nomatch h
    | none => exact hs
  | registerOther accelerator accepted =>
    cases hst
    refine iff_of_true ?_ trivial
    cases hmap : s.acceleratorMap accelerator with
    | some holder =>
      rw [registerAccelerator_held hmap]
      exact hs
    | none =>
      rw [registerAccelerator_free hmap]
      cases accepted with
      | true =>
        refine heldRoundTrip_update hs ?_ rfl
        exact fun _ _ h => nomatch h
      | false => exact hs
  | unregisterOther accelerator =>
    simp only [step] at hst
    split at hst
    · cases hst
      refine iff_of_true (heldRoundTrip_update hs ?_ rfl) trivial
      exact fun _ _ h => nomatch h
    · cases hst
  | press accelerator =>
    simp only [step] at hst
    split at hst
    · cases hst
      exact iff_of_true hs trivial
    · cases hst
      exact iff_of_true hs trivial
    · cases hst

/-- **Hot keys.** In a run the handlers are what is held natively and presses reach their
shortcuts, after every step, exactly when every registration that goes through is of a key whose
code string comes back. The agreement of the tables needs no condition. -/
theorem hot_keys_reach (codes : Keycodes DomCode KeyboardCode) (ops : List (Op KeyboardCode))
    (s : Process KeyboardCode) :
    (Run (Guarded (StepReaches codes) (ofPartial (step codes))) {} ops s ↔
      Run (Guarded (StepOk codes) (ofPartial (step codes))) {} ops s) ∧
    (Run (ofPartial (step codes)) {} ops s → s.TablesAgree codes) := by
  constructor
  · refine Run.owed_iff (I := fun s => s.TablesAgree codes ∧ s.HeldRoundTrip codes) ?_ ?_ ?_
      ⟨tablesAgree_init, fun _ _ _ h => nomatch h⟩
    · intro s op t hs hok hst
      exact ⟨hs.1.step hst, (heldRoundTrip_step_iff hs.2 hst).mpr hok⟩
    · exact fun s hs => ⟨hs.1, (pressesReach_iff hs.1).mpr hs.2⟩
    · intro s op t hs hst hreaches
      have hround := (pressesReach_iff hreaches.1).mp hreaches.2
      exact (heldRoundTrip_step_iff hs.2 hst).mp hround
  · intro hrun
    exact hrun.invariant (fun _ _ _ hs hst => hs.step hst) tablesAgree_init

/-- The tables for the two Enter keys, with the key code as the canonical `DomCode`. -/
def enterCodes : Keycodes String Nat where
  codeStringToDomCode := id
  domCodeToUsLayoutKeyboardCode := fun code =>
    if code = "Enter" ∨ code = "NumpadEnter" then 0x0D else 0
  usLayoutKeyboardCodeToDomCode := fun code => if code = 0x0D then "Enter" else ""
  domCodeToCodeString := id

/-- `NumpadEnter` and then a press: it comes back as `Enter`, for which there is no handler. -/
theorem numpadEnter_not_reached :
    ¬ ∀ (ops : List (Op Nat)) (s : Process Nat), Run (ofPartial (step enterCodes)) {} ops s →
      s.TablesAgree enterCodes ∧ s.PressesReach enterCodes := by
  intro hall
  have hlisted : "NumpadEnter" ∈ aliasCodes := by decide
  have hrun : Run (ofPartial (step enterCodes)) {}
      [.createContext, .registerGlobalHotKey 0 ⟨0, ⟨"NumpadEnter", {}⟩, hlisted⟩ true] _ :=
    .cons rfl (.cons rfl (.nil _))
  obtain ⟨hagree, hreach⟩ := hall _ _ hrun
  have hround : enterCodes.RoundTrips "NumpadEnter" :=
    (pressesReach_iff hagree).mp hreach ⟨0x0D, {}⟩ 0 _ rfl
  unfold Keycodes.RoundTrips at hround
  revert hround
  decide

end Runs

end Process

end NodeWebkit.Shortcuts
