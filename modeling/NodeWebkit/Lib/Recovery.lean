import Mathlib.Data.List.TakeDrop

/-!
# Programs of atomic writes that may be interrupted

A program looks at the state and performs writes, one after the other. Each write is atomic; a crash
lets any number of them happen, and the program starts again from what is there. This module owns
the facts that depend on nothing else:

* **`Recovers`** — after a crash anywhere, a whole run leads to what it would have led to;
* **`Settles`** — a run after a run changes nothing;
* **`Program.prod`** — one program after the other, on separate parts of the state, and what holds
  of it part by part;
* **`recovers_iff_of_closed`** — a program that does nothing once its first write has happened.
-/

namespace Recovery

variable {σ τ ο κ : Type*}

/-- The writes that a program performs from a state, in order. -/
abbrev Program (σ : Type*) := σ → List (σ → σ)

def exec (writes : List (σ → σ)) (s : σ) : σ := writes.foldl (fun s write => write s) s

namespace Program

def run (p : Program σ) (s : σ) : σ := exec (p s) s

/-- What is there after a crash that lets `n` writes happen. -/
def crash (p : Program σ) (n : Nat) (s : σ) : σ := exec ((p s).take n) s

/-- What can be observed in the end is that of an uninterrupted run. -/
def Recovers (p : Program σ) (obs : σ → ο) (s : σ) : Prop :=
  ∀ n, obs (p.run (p.crash n s)) = obs (p.run s)

def Settles (p : Program σ) (s : σ) : Prop := p.run (p.run s) = p.run s

/-- One program after the other, each on its own part of the state. -/
def prod (p : Program σ) (q : Program τ) : Program (σ × τ) := fun s =>
  (p s.1).map (fun write t => (write t.1, t.2)) ++ (q s.2).map fun write t => (t.1, write t.2)

end Program

/-! ## Writes

A run is the writes one after the other, from the left. -/

@[simp]
theorem exec_nil (s : σ) : exec [] s = s := rfl

@[simp]
theorem exec_cons (write : σ → σ) (writes : List (σ → σ)) (s : σ) :
    exec (write :: writes) s = exec writes (write s) := rfl

theorem exec_append (writes writes' : List (σ → σ)) (s : σ) :
    exec (writes ++ writes') s = exec writes' (exec writes s) := List.foldl_append

/-- What every write keeps is there after all of them. Induction on the writes. -/
theorem exec_invariant {I : σ → Prop} {writes : List (σ → σ)}
    (hwrites : ∀ write ∈ writes, ∀ s, I s → I (write s)) {s : σ} (hs : I s) :
    I (exec writes s) := by
  induction writes generalizing s with
  | nil => exact hs
  | cons write writes ih =>
    rw [List.forall_mem_cons] at hwrites
    exact ih hwrites.2 (hwrites.1 s hs)

/-- Writes to a part of the state, or seen through a function: lifting each of them lifts the run.
-/
theorem exec_map {f : σ → τ} {lift : (σ → σ) → τ → τ}
    (h : ∀ write s, lift write (f s) = f (write s)) (writes : List (σ → σ)) (s : σ) :
    exec (writes.map lift) (f s) = f (exec writes s) := by
  induction writes generalizing s with
  | nil => rfl
  | cons write writes ih =>
    rw [List.map_cons, exec_cons, h, ih, exec_cons]

namespace Program

/-! ## Separate parts

Two programs that work on different parts are run one after the other. A crash in the first one
leaves the part of the second one as it was, so each recovers on its own or not at all. -/

theorem exec_fst (writes : List (σ → σ)) (s : σ × τ) :
    exec (writes.map fun write (t : σ × τ) => (write t.1, t.2)) s = (exec writes s.1, s.2) :=
  exec_map (f := fun a => (a, s.2)) (fun _ _ => rfl) writes s.1

theorem exec_snd (writes : List (τ → τ)) (s : σ × τ) :
    exec (writes.map fun write (t : σ × τ) => (t.1, write t.2)) s = (s.1, exec writes s.2) :=
  exec_map (f := fun b => (s.1, b)) (fun _ _ => rfl) writes s.2

theorem run_prod (p : Program σ) (q : Program τ) (s : σ × τ) :
    (p.prod q).run s = (p.run s.1, q.run s.2) := by
  unfold run prod
  rw [exec_append, exec_fst, exec_snd]

/-- A crash meets the first program, or the second one after the whole first one. -/
theorem crash_prod (p : Program σ) (q : Program τ) (n : Nat) (s : σ × τ) :
    (p.prod q).crash n s = (p.crash n s.1, q.crash (n - (p s.1).length) s.2) := by
  unfold crash prod
  rw [List.take_append, exec_append, List.length_map, ← List.map_take, ← List.map_take, exec_fst,
    exec_snd]

/-- **Two programs recover one after the other exactly when each does**, what is observed being one
thing of each part. -/
theorem recovers_prod_iff (p : Program σ) (q : Program τ) (obs : σ → ο) (obs' : τ → κ)
    (s : σ × τ) : (p.prod q).Recovers (Prod.map obs obs') s ↔
      p.Recovers obs s.1 ∧ q.Recovers obs' s.2 := by
  unfold Recovers
  simp only [run_prod, crash_prod, Prod.map_apply, Prod.mk.injEq]
  constructor
  · intro h
    refine ⟨fun n => (h n).1, fun n => ?_⟩
    -- a crash of the second program, when the first one is through
    have hsnd := (h ((p s.1).length + n)).2
    rw [Nat.add_sub_cancel_left] at hsnd
    exact hsnd
  · rintro ⟨hp, hq⟩ n
    exact ⟨hp n, hq _⟩

theorem settles_prod_iff (p : Program σ) (q : Program τ) (s : σ × τ) :
    (p.prod q).Settles s ↔ p.Settles s.1 ∧ q.Settles s.2 := by
  unfold Settles
  rw [run_prod, run_prod, Prod.mk.injEq]

/-! ## Programs behind a guard

A program that looks first whether its work was done has no writes if so. -/

theorem crash_zero (p : Program σ) (s : σ) : p.crash 0 s = s := rfl

theorem crash_of_length_le {p : Program σ} {n : Nat} {s : σ} (h : (p s).length ≤ n) :
    p.crash n s = p.run s := by
  unfold crash run
  rw [List.take_of_length_le h]

theorem recovers_of_nil {p : Program σ} {obs : σ → ο} {s : σ} (h : p s = []) :
    p.Recovers obs s := by
  intro n
  unfold crash
  rw [h, List.take_nil, exec_nil]

theorem settles_of_nil {p : Program σ} {s : σ} (h : p s = []) : p.Settles s := by
  unfold Settles run
  rw [h, exec_nil, h, exec_nil]

/-- Where nothing is done once the first write has happened, what a crash leaves is final. -/
theorem recovers_iff_of_closed {p : Program σ} {obs : σ → ο} {s : σ}
    (hclosed : ∀ n, p (p.crash (n + 1) s) = []) :
    p.Recovers obs s ↔ ∀ n, obs (p.crash (n + 1) s) = obs (p.run s) := by
  have hrun : ∀ n, p.run (p.crash (n + 1) s) = p.crash (n + 1) s := by
    intro n
    unfold run
    rw [hclosed, exec_nil]
  constructor
  · intro h n
    rw [← hrun]
    exact h (n + 1)
  · intro h n
    cases n with
    | zero => rw [crash_zero]
    | succ n => rw [hrun, h]

end Program

end Recovery
