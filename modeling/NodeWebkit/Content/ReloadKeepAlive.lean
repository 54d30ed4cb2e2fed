import Mathlib.Data.List.Chain
import Mathlib.Tactic.Ring

/-!
# The keep-alive count across reloads

A reload takes the app's windows away, so `ReloadExtensionHook` holds the browser alive until
`CreateAppWindowHook` sees a window. The count it takes is one for each reload; what gives it back
is the flag `g_reloading_app`, which knows of one.

* **`Hook.run`** — the hooks in the order in which they are fired;
* **`held_foldl`** — what is held in the end: one if a reload is waiting, and one for each reload
  that found another one waiting;
* **`balanced_iff`** — the count is balanced if and only if no two reloads follow each other.
-/

namespace NodeWebkit.Content.Reload

/-- The hooks of `nw_content.cc` that take part in a reload. -/
inductive Hook where
  | reloadExtension
  | createAppWindow
  deriving DecidableEq

/-- `g_reloading_app`, and the calls of `IncrementKeepAliveCount` and `DecrementKeepAliveCount`. -/
structure State where
  reloadingApp : Bool := false
  increments : Nat := 0
  decrements : Nat := 0
  deriving DecidableEq

/-- What the reloads hold. -/
def State.held (s : State) : Int := s.increments - s.decrements

/-- `ReloadExtensionHook`. -/
def State.reloadExtensionHook (s : State) : State :=
  { s with reloadingApp := true, increments := s.increments + 1 }

/-- `CreateAppWindowHook`. -/
def State.createAppWindowHook (s : State) : State :=
  if s.reloadingApp then { s with reloadingApp := false, decrements := s.decrements + 1 } else s

def State.step (s : State) : Hook → State
  | .reloadExtension => s.reloadExtensionHook
  | .createAppWindow => s.createAppWindowHook

/-- The hooks in turn, from the start of the process. -/
def Hook.run (hooks : List Hook) : State := hooks.foldl State.step {}

/-- No window has been created since the last reload. -/
def Waiting (hooks : List Hook) : Prop := hooks.getLast? = some .reloadExtension

instance (hooks : List Hook) : Decidable (Waiting hooks) :=
  inferInstanceAs (Decidable (_ = _))

/-- One is held if a reload is waiting for its window, and nothing otherwise. -/
def Balanced (hooks : List Hook) : Prop :=
  (Hook.run hooks).held = if Waiting hooks then 1 else 0

instance (hooks : List Hook) : Decidable (Balanced hooks) :=
  inferInstanceAs (Decidable (_ = _))

/-! ## One hook -/

/-- The reloads that find another one waiting. -/
def overlaps : Bool → List Hook → Nat
  | _, [] => 0
  | waiting, .reloadExtension :: hooks => waiting.toNat + overlaps true hooks
  | _, .createAppWindow :: hooks => overlaps false hooks

/-- The flag is set by a reload and cleared by a window, whatever it was. -/
@[simp] theorem reloadingApp_step (s : State) (hook : Hook) :
    (s.step hook).reloadingApp = decide (hook = .reloadExtension) := by
  cases hook with
  | reloadExtension => rfl
  | createAppWindow =>
    cases h : s.reloadingApp <;> simp [State.step, State.createAppWindowHook, h]

/-- What a hook adds beyond one for the reload that is waiting: a reload that finds the flag set
takes a count that the flag will not give back. -/
theorem held_step (s : State) (hook : Hook) :
    (s.step hook).held - (s.step hook).reloadingApp.toNat =
      s.held - s.reloadingApp.toNat + overlaps s.reloadingApp [hook] := by
  cases hook with
  | reloadExtension =>
    simp only [State.step, State.reloadExtensionHook, State.held, overlaps, Bool.toNat_true]
    push_cast
    ring
  | createAppWindow =>
    cases h : s.reloadingApp with
    | false => simp [State.step, State.createAppWindowHook, h, overlaps]
    | true =>
      simp only [State.step, State.createAppWindowHook, State.held, overlaps, h, if_true,
        Bool.toNat_true, Bool.toNat_false]
      push_cast
      ring

/-! ## All hooks -/

/-- The reloads that find another one waiting are counted hook by hook; what is waiting is known
from the last hook alone. -/
theorem overlaps_cons (waiting : Bool) (hook : Hook) (hooks : List Hook) :
    overlaps waiting (hook :: hooks) =
      overlaps waiting [hook] + overlaps (decide (hook = .reloadExtension)) hooks := by
  cases hook with
  | reloadExtension => rfl
  | createAppWindow => exact (Nat.zero_add _).symm

/-- **The count** after any hooks, from any state: one if a reload is waiting, and one for each
reload that found another one waiting. Induction on the hooks. -/
theorem held_foldl (s : State) (hooks : List Hook) :
    (hooks.foldl State.step s).held - (hooks.foldl State.step s).reloadingApp.toNat =
      s.held - s.reloadingApp.toNat + overlaps s.reloadingApp hooks := by
  induction hooks generalizing s with
  | nil => simp [overlaps]
  | cons hook hooks ih =>
    rw [List.foldl_cons, ih, held_step, reloadingApp_step, overlaps_cons _ _ hooks]
    push_cast
    ring

/-- The flag says whether the last hook was a reload, that is whether one is waiting. -/
theorem reloadingApp_run (hooks : List Hook) :
    (Hook.run hooks).reloadingApp = decide (Waiting hooks) := by
  induction hooks using List.reverseRecOn with
  | nil => rfl
  | append_singleton hooks hook _ =>
    rw [Hook.run, List.foldl_append, List.foldl_cons, List.foldl_nil, reloadingApp_step]
    simp only [Waiting, List.getLast?_append, List.getLast?_singleton, Option.some_or,
      Option.some.injEq]

/-- What the reloads hold beyond what they should is one for each that found another one
waiting. -/
theorem held_run (hooks : List Hook) :
    (Hook.run hooks).held = (if Waiting hooks then 1 else 0) + overlaps false hooks := by
  have h := held_foldl {} hooks
  have hflag := reloadingApp_run hooks
  unfold Hook.run at hflag ⊢
  rw [hflag] at h
  by_cases hw : Waiting hooks
  · rw [if_pos hw]
    simp only [hw, decide_true, Bool.toNat_true, State.held, Bool.toNat_false] at h ⊢
    omega
  · rw [if_neg hw]
    simp only [hw, decide_false, Bool.toNat_false, State.held] at h ⊢
    omega

/-- A reload does not follow a reload. -/
def Alternates (hooks : List Hook) : Prop :=
  hooks.IsChain fun a b => ¬ (a = .reloadExtension ∧ b = .reloadExtension)

/-- No reload finds another one waiting exactly if no two follow each other, and the first one does
not follow one that was waiting before. -/
theorem overlaps_eq_zero_iff (waiting : Bool) (hooks : List Hook) :
    overlaps waiting hooks = 0 ↔
      (waiting = true → ∀ hook ∈ hooks.head?, hook ≠ .reloadExtension) ∧ Alternates hooks := by
  induction hooks generalizing waiting with
  | nil => simp [overlaps, Alternates]
  | cons hook hooks ih =>
    unfold Alternates at ih ⊢
    rw [List.isChain_cons]
    cases hook with
    | reloadExtension =>
      rw [overlaps, Nat.add_eq_zero_iff, ih true]
      cases waiting <;> simp
    | createAppWindow =>
      rw [overlaps, ih false]
      simp

/-- **Keep-alive balance.** After any hooks the count is balanced exactly if no two reloads follow
each other without a window between them. -/
theorem balanced_iff (hooks : List Hook) : Balanced hooks ↔ Alternates hooks := by
  have h := overlaps_eq_zero_iff false hooks
  rw [Balanced, held_run]
  constructor
  · intro hb
    exact (h.mp (by omega)).2
  · intro ha
    have hzero : overlaps false hooks = 0 := h.mpr ⟨fun hf => (nomatch hf), ha⟩
    rw [hzero, Nat.cast_zero, add_zero]

/-- Two reloads and a window: the browser is kept alive for good, as one count is never given back.
-/
theorem not_balanced_twice :
    ¬ Balanced [.reloadExtension, .reloadExtension, .createAppWindow] := by
  decide

end NodeWebkit.Content.Reload
