import Mathlib

/-!
# Loops that are answered from outside — when they end

The body of a loop is given with the number of the iteration, by which the answers of its
environment are chosen. `body k s` is the state after iteration `k`, or `none` where the loop is
over.

* **`run`** — the state before iteration `k`;
* **`Ends`** — the loop is over after finitely many iterations;
* **`ends_iff`** — where an iteration lowers a measure unless its answer is a failure, the loop ends
  exactly if it is not failing for good at some point;
* **`Given`** — several loops run one after the other, and each iteration gives some items;
* **`left`** — how many iterations are left where the end of each loop is known.
-/

namespace Loop

variable {σ : Type*}

/-- The state before iteration `k` of a loop that starts at `s`; `none` once it is over. -/
def run (body : Nat → σ → Option σ) (s : σ) : Nat → Option σ
  | 0 => some s
  | k + 1 => (run body s k).bind (body k)

/-- The loop is over after finitely many iterations. -/
def Ends (body : Nat → σ → Option σ) (s : σ) : Prop := ∃ k, run body s k = none

/-- From some iteration on, which the loop reaches, every answer is a failure. -/
def FailsForGood (body : Nat → σ → Option σ) (fails : Nat → Prop) (s : σ) : Prop :=
  ∃ k, (run body s k).isSome = true ∧ ∀ j, k ≤ j → fails j

variable {body : Nat → σ → Option σ} {s : σ}

theorem run_succ {k : Nat} {t : σ} (h : run body s k = some t) : run body s (k + 1) = body k t := by
  rw [run, h, Option.bind_some]

theorem run_none_of_le {k j : Nat} (h : run body s k = none) (hle : k ≤ j) :
    run body s j = none := by
  induction hle with
  | refl => exact h
  | step _ ih => rw [run, ih, Option.bind_none]

/-- What the body keeps holds before every iteration that is reached. Induction on the number of
iterations. -/
theorem run_invariant {I : σ → Prop} (hbody : ∀ k s t, I s → body k s = some t → I t) (hs : I s)
    {k : Nat} {t : σ} (h : run body s k = some t) : I t := by
  induction k generalizing t with
  | zero =>
    cases h
    exact hs
  | succ k ih =>
    obtain ⟨u, hu, ht⟩ := Option.bind_eq_some_iff.mp h
    exact hbody k u t (ih hu) ht

/-- A loop that fails for good does not end, where a failure keeps it running. -/
theorem FailsForGood.not_ends {I : σ → Prop} {fails : Nat → Prop}
    (hbody : ∀ k s t, I s → body k s = some t → I t)
    (hfails : ∀ k s, I s → fails k → (body k s).isSome = true) (hs : I s)
    (h : FailsForGood body fails s) : ¬ Ends body s := by
  obtain ⟨k, hk, hall⟩ := h
  -- the loop runs before every iteration from `k` on
  have hruns : ∀ n, (run body s (k + n)).isSome = true := by
    intro n
    induction n with
    | zero => exact hk
    | succ n ih =>
      obtain ⟨t, ht⟩ := Option.isSome_iff_exists.mp ih
      have hnext := run_succ ht
      rw [Nat.add_succ, hnext]
      exact hfails _ t (run_invariant hbody hs ht) (hall _ (Nat.le_add_right ..))
  intro ⟨n, hn⟩
  have hlater := run_none_of_le hn (Nat.le_add_left n k)
  have hsome := hruns n
  rw [hlater] at hsome
  cases hsome

/-- No iteration raises the measure, so none of the later states is above an earlier one. -/
theorem run_le {I : σ → Prop} {m : σ → Nat} (hbody : ∀ k s t, I s → body k s = some t → I t)
    (hle : ∀ k s t, I s → body k s = some t → m t ≤ m s) (hs : I s) {k n : Nat} {t u : σ}
    (ht : run body s k = some t) (hu : run body s (k + n) = some u) : m u ≤ m t := by
  induction n generalizing u with
  | zero =>
    rw [Nat.add_zero, ht] at hu
    cases hu
    exact Nat.le_refl _
  | succ n ih =>
    obtain ⟨v, hv, hvu⟩ := Option.bind_eq_some_iff.mp hu
    have hstep := hle (k + n) v u (run_invariant hbody hs hv) hvu
    exact Nat.le_trans hstep (ih hv)

/-- A loop that always runs and does not fail for good comes below every measure it has. -/
theorem run_descends {I : σ → Prop} {m : σ → Nat} {fails : Nat → Prop}
    (hbody : ∀ k s t, I s → body k s = some t → I t)
    (hle : ∀ k s t, I s → body k s = some t → m t ≤ m s)
    (hlt : ∀ k s t, I s → ¬ fails k → body k s = some t → m t < m s) (hs : I s)
    (hruns : ∀ k, ∃ t, run body s k = some t) (hnot : ¬ FailsForGood body fails s)
    {k : Nat} {t : σ} (ht : run body s k = some t) :
    ∃ j u, run body s j = some u ∧ m u < m t := by
  have hlater : ∃ j, k ≤ j ∧ ¬ fails j := by
    by_contra hno
    have hsome : (run body s k).isSome = true := by rw [ht, Option.isSome_some]
    exact hnot ⟨k, hsome, fun j hj => by_contra fun hf => hno ⟨j, hj, hf⟩⟩
  obtain ⟨j, hkj, hj⟩ := hlater
  obtain ⟨v, hv⟩ := hruns j
  obtain ⟨u, hu⟩ := hruns (j + 1)
  have hsplit : k + (j - k) = j := Nat.add_sub_cancel' hkj
  have hbefore : m v ≤ m t := run_le hbody hle hs ht (by rw [hsplit]; exact hv)
  have hnext := hu
  rw [run_succ hv] at hnext
  have hdrop := hlt j v u (run_invariant hbody hs hv) hj hnext
  exact ⟨j + 1, u, hu, Nat.lt_of_lt_of_le hdrop hbefore⟩

/-- **Termination up to failing for good.** Where an invariant is kept, a failure keeps the loop
running and no iteration raises a measure, one that does not fail lowers it: the loop ends if and
only if it does not fail for good. -/
theorem ends_iff {I : σ → Prop} {m : σ → Nat} (fails : Nat → Prop)
    (hbody : ∀ k s t, I s → body k s = some t → I t)
    (hle : ∀ k s t, I s → body k s = some t → m t ≤ m s)
    (hlt : ∀ k s t, I s → ¬ fails k → body k s = some t → m t < m s)
    (hfails : ∀ k s, I s → fails k → (body k s).isSome = true) (hs : I s) :
    Ends body s ↔ ¬ FailsForGood body fails s := by
  constructor
  · intro hends hgood
    exact hgood.not_ends hbody hfails hs hends
  · intro hnot
    by_contra hends
    have hruns : ∀ k, ∃ t, run body s k = some t := by
      intro k
      refine Option.ne_none_iff_exists'.mp ?_
      exact fun hnone => hends ⟨k, hnone⟩
    -- induction on the measure
    have hno : ∀ n k t, run body s k = some t → m t ≠ n := by
      intro n
      induction n using Nat.strongRecOn with
      | ind n ih =>
        intro k t ht hm
        obtain ⟨j, u, hu, hdrop⟩ := run_descends hbody hle hlt hs hruns hnot ht
        exact ih (m u) (hm ▸ hdrop) j u hu rfl
    exact hno (m s) 0 s rfl rfl

/-- A loop that no answer can keep running without lowering the measure ends: the measure bounds the
number of its iterations. -/
theorem ends_of_lt {I : σ → Prop} {m : σ → Nat}
    (hbody : ∀ k s t, I s → body k s = some t → I t)
    (hlt : ∀ k s t, I s → body k s = some t → m t < m s) (hs : I s) : Ends body s := by
  have hle : ∀ k s t, I s → body k s = some t → m t ≤ m s := fun k s t hs h =>
    Nat.le_of_lt (hlt k s t hs h)
  refine (ends_iff (fun _ => False) hbody hle (fun k s t hs _ h => hlt k s t hs h)
    (fun _ _ _ h => h.elim) hs).mpr ?_
  intro ⟨k, _, hall⟩
  exact hall k (Nat.le_refl k)

/-! ## Loops one after the other

A loop is given by its answers here: iteration `k` gives the items of `answer k`, and where that is
`none` the loop is over and the next one begins. -/

variable {α : Type*} {loops : List (Nat → Option (List α))}

/-- `Given loops i k out`: loop `i` is before its iteration `k`, and `out` is what all iterations so
far have given. -/
inductive Given (loops : List (Nat → Option (List α))) : Nat → Nat → List α → Prop where
  | start : Given loops 0 0 []
  | iteration {i k : Nat} {out items : List α} {answer : Nat → Option (List α)}
      (before : Given loops i k out) (hloop : loops[i]? = some answer)
      (hitems : answer k = some items) : Given loops i (k + 1) (out ++ items)
  | next {i k : Nat} {out : List α} {answer : Nat → Option (List α)}
      (before : Given loops i k out) (hloop : loops[i]? = some answer)
      (hend : answer k = none) : Given loops (i + 1) 0 out

/-- What all loops give once the last one is over. -/
def GivenAll (loops : List (Nat → Option (List α))) (out : List α) : Prop :=
  Given loops loops.length 0 out

/-- No iteration before the one a loop is at has ended it, so its answers up to there gave items. -/
theorem Given.running {i k : Nat} {out : List α} (h : Given loops i k out)
    {answer : Nat → Option (List α)} (hloop : loops[i]? = some answer) {j : Nat} (hj : j < k) :
    answer j ≠ none := by
  induction h with
  | start => exact absurd hj (Nat.not_lt_zero j)
  | next _ _ _ _ => exact absurd hj (Nat.not_lt_zero j)
  | iteration _ hsame hitems ih =>
    rw [hsame, Option.some.injEq] at hloop
    subst hloop
    rcases Nat.lt_succ_iff_lt_or_eq.mp hj with hlt | rfl
    · exact ih hsame hlt
    · rw [hitems]
      exact Option.some_ne_none _

/-- The loops before the one that runs are over: a loop begins where the one before it has ended. -/
theorem Given.ended {i k : Nat} {out : List α} (h : Given loops i k out) {j : Nat} (hj : j < i)
    {answer : Nat → Option (List α)} (hloop : loops[j]? = some answer) : ∃ k, answer k = none := by
  induction h with
  | start => exact absurd hj (Nat.not_lt_zero j)
  | iteration _ _ _ ih => exact ih hj
  | next _ hsame hend ih =>
    rcases Nat.lt_succ_iff_lt_or_eq.mp hj with hlt | rfl
    · exact ih hlt
    · rw [hsame, Option.some.injEq] at hloop
      subst hloop
      exact ⟨_, hend⟩

/-- Loops that are over at once give nothing, and the first iteration of each is its last. -/
theorem Given.eq_nil {i k : Nat} {out : List α} (h : Given loops i k out)
    (hsilent : ∀ answer ∈ loops, answer 0 = none) : k = 0 ∧ out = [] := by
  induction h with
  | start => exact ⟨rfl, rfl⟩
  | iteration _ hloop hitems ih =>
    -- the first iteration is the one that ends the loop
    have hend := hsilent _ (List.mem_of_getElem? hloop)
    rw [ih.1, hend] at hitems
    cases hitems
  | next _ _ _ ih => exact ⟨rfl, ih.2⟩

/-- A loop that runs is one of them, or all are over: the number of the loop is never beyond the end
of the list. -/
theorem Given.le_length {i k : Nat} {out : List α} (h : Given loops i k out) :
    i ≤ loops.length := by
  induction h with
  | start => exact Nat.zero_le _
  | iteration _ _ _ ih => exact ih
  | next _ hloop _ _ => exact (List.getElem?_eq_some_iff.mp hloop).1

theorem Given.eq_zero_of_none {i k : Nat} {out : List α} (h : Given loops i k out)
    (hloop : loops[i]? = none) : k = 0 := by
  cases h with
  | start => rfl
  | next _ _ _ => rfl
  | iteration _ hsome _ =>
    rw [hsome] at hloop
    cases hloop

/-- Once all loops are over, what was given so far is what they give. -/
theorem Given.all {i k : Nat} {out : List α} (h : Given loops i k out)
    (hloop : loops[i]? = none) : GivenAll loops out := by
  have hlength : loops.length = i :=
    Nat.le_antisymm (List.getElem?_eq_none_iff.mp hloop) h.le_length
  have hzero := h.eq_zero_of_none hloop
  subst hzero
  rwa [GivenAll, hlength]

/-- Where each loop ends at the latest at its entry of `ends`, how many iterations are left at
iteration `k` of loop `i`, the ones that end the loops included. -/
def left (ends : List Nat) (i k : Nat) : Nat := ((ends.drop i).map (· + 1)).sum - k

/-- Every loop is over at its entry. -/
def EndsAt (loops : List (Nat → Option (List α))) (ends : List Nat) : Prop :=
  List.Forall₂ (fun answer e => answer e = none) loops ends

/-- Loops that all end have such entries: for each loop one iteration that ends it. -/
theorem exists_endsAt (h : ∀ answer ∈ loops, ∃ k, answer k = none) :
    ∃ ends, EndsAt loops ends := by
  induction loops with
  | nil => exact ⟨[], .nil⟩
  | cons answer loops ih =>
    rw [List.forall_mem_cons] at h
    obtain ⟨⟨k, hk⟩, hrest⟩ := h
    obtain ⟨ends, hends⟩ := ih hrest
    exact ⟨k :: ends, .cons hk hends⟩

/-- The entry of a loop is an iteration that ends it. -/
theorem EndsAt.get {ends : List Nat} (h : EndsAt loops ends) {i : Nat}
    {answer : Nat → Option (List α)} (hloop : loops[i]? = some answer) :
    ∃ e, ends[i]? = some e ∧ answer e = none := by
  induction h generalizing i with
  | nil => cases hloop
  | cons hend _ ih =>
    cases i with
    | zero =>
      cases hloop
      exact ⟨_, rfl, hend⟩
    | succ i => exact ih hloop

/-- The iterations of the loop that runs, and those of the loops behind it. -/
theorem left_eq {ends : List Nat} {i e : Nat} (he : ends[i]? = some e) (k : Nat) :
    left ends i k = e + 1 + left ends (i + 1) 0 - k := by
  obtain ⟨hlt, rfl⟩ := List.getElem?_eq_some_iff.mp he
  rw [left, left, List.drop_eq_getElem_cons hlt, List.map_cons, List.sum_cons, Nat.sub_zero]

/-- An iteration comes not later than the end of its loop, whichever end of it was picked. -/
theorem Given.le_end {i k : Nat} {out : List α} (h : Given loops i k out)
    {answer : Nat → Option (List α)} (hloop : loops[i]? = some answer) {e : Nat}
    (he : answer e = none) : k ≤ e := by
  by_contra hlt
  exact h.running hloop (Nat.lt_of_not_le hlt) he

/-- **Every iteration brings the end nearer**, whether it gives something or ends its loop. -/
theorem Given.left_lt {ends : List Nat} (hends : EndsAt loops ends) {i k : Nat} {out : List α}
    (h : Given loops i k out) {answer : Nat → Option (List α)} (hloop : loops[i]? = some answer) :
    (∀ items, answer k = some items → left ends i (k + 1) < left ends i k) ∧
      left ends (i + 1) 0 < left ends i k := by
  obtain ⟨e, he, hend⟩ := hends.get hloop
  have hle := h.le_end hloop hend
  constructor
  · intro items hitems
    have hne : k ≠ e := by
      rintro rfl
      rw [hitems] at hend
      cases hend
    rw [left_eq he, left_eq he]
    omega
  · rw [left_eq he]
    omega

end Loop
