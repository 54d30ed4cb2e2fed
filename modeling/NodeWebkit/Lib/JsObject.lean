import Mathlib.Logic.Function.Basic
import Mathlib.Data.List.Basic

/-!
# JavaScript objects that code fills in

An object is its own properties. A function that normalises an object it was passed is a list of
statements, each of which sets one property or leaves it, reads the object as it is by then, and may
throw.

* **`exec`** — the statements in turn, up to the first that throws;
* **`Settled`** — every statement that is reached finds what it sets;
* **`exec_eq_self_iff`** — the object is left as it was exactly when it is settled, where no
  statement takes back what an earlier one has done (`Covers`);
* **`exec_stages`** — where each statement brings its property to a normal form, all do;
* **`foldl_component`** — assignments in any order, seen where only one of them reaches.
-/

namespace JsObject

variable {κ ν ε : Type}

/-- The own properties of an object. -/
abbrev Object (κ ν : Type) := κ → Option ν

/-- `o.k = ` where `value` says what it is set to, and `none` that it is left. -/
structure Stmt (κ ν ε : Type) where
  key : κ
  value : Object κ ν → Except ε (Option ν)

variable [DecidableEq κ]

def set (o : Object κ ν) (k : κ) (v : ν) : Object κ ν := Function.update o k (some v)

/-- The object after the statements, and what was thrown. -/
def exec (o : Object κ ν) : List (Stmt κ ν ε) → Object κ ν × Option ε
  | [] => (o, none)
  | s :: rest =>
    match s.value o with
    | .error error => (o, some error)
    | .ok none => exec o rest
    | .ok (some v) => exec (set o s.key v) rest

/-- Every statement that is reached finds what it sets. -/
def Settled (o : Object κ ν) : List (Stmt κ ν ε) → Prop
  | [] => True
  | s :: rest =>
    match s.value o with
    | .error _ => True
    | .ok none => Settled o rest
    | .ok (some v) => o s.key = some v ∧ Settled o rest

@[simp] theorem set_self (o : Object κ ν) (k : κ) (v : ν) : set o k v k = some v :=
  Function.update_self ..

theorem set_of_ne (o : Object κ ν) {k k' : κ} (v : ν) (h : k' ≠ k) : set o k v k' = o k' :=
  Function.update_of_ne h ..

theorem set_eq_self {o : Object κ ν} {k : κ} {v : ν} (h : o k = some v) : set o k v = o := by
  rw [set, ← h, Function.update_eq_self]

/-- A settled object is left as it is: each statement that is reached leaves its property or sets
what is there. -/
theorem Settled.exec_fst {o : Object κ ν} {stmts : List (Stmt κ ν ε)} (h : Settled o stmts) :
    (exec o stmts).1 = o := by
  induction stmts with
  | nil => rfl
  | cons s rest ih =>
    unfold Settled at h
    unfold exec
    split at h
    · rfl
    · exact ih h
    · rw [set_eq_self h.1]
      exact ih h.2

/-- Other properties than those of the statements stay, also where one of them throws. -/
theorem exec_of_not_mem {stmts : List (Stmt κ ν ε)} {k : κ} (h : ∀ s ∈ stmts, s.key ≠ k)
    (o : Object κ ν) : (exec o stmts).1 k = o k := by
  induction stmts generalizing o with
  | nil => rfl
  | cons s rest ih =>
    have hrest := ih fun s' hs' => h s' (List.mem_cons_of_mem _ hs')
    unfold exec
    split
    · rfl
    · exact hrest o
    · rw [hrest, set_of_ne _ _ (h s (List.mem_cons_self ..)).symm]

/-! ## Properties are not taken back

Each statement may see what the earlier ones have set. `Covers` says that a later statement does not
undo an earlier one for the same property, so that an object that comes out as it was has never been
changed. -/

/-- No own property is lost. -/
def Grows (o o' : Object κ ν) : Prop := ∀ k, (o k).isSome → (o' k).isSome

omit [DecidableEq κ] in
theorem Grows.refl (o : Object κ ν) : Grows o o := fun _ h => h

/-- Setting a property takes none away. -/
theorem Grows.set {o o' : Object κ ν} (h : Grows o o') (k : κ) (v : ν) :
    Grows o (set o' k v) := by
  intro k' hk'
  by_cases heq : k' = k
  · rw [heq, set_self]
    rfl
  · rw [set_of_ne _ _ heq]
    exact h k' hk'

/-- After `s` has set its property `s'` does not set it. -/
def Covers (s s' : Stmt κ ν ε) : Prop :=
  s'.key = s.key → ∀ o v o', s.value o = .ok (some v) → Grows (set o s.key v) o' →
    ∀ v', s'.value o' ≠ .ok (some v')

theorem covers_of_ne {s s' : Stmt κ ν ε} (h : s'.key ≠ s.key) : Covers s s' :=
  fun heq => absurd heq h

theorem pairwise_covers {stmts : List (Stmt κ ν ε)} (h : (stmts.map Stmt.key).Nodup) :
    stmts.Pairwise Covers := by
  refine (List.pairwise_map.mp h).imp fun hne => ?_
  exact covers_of_ne (Ne.symm hne)

/-- A property that no statement sets any more is as it is at the end. -/
theorem exec_covered {stmts : List (Stmt κ ν ε)} {k : κ} {o o' : Object κ ν}
    (h : ∀ s ∈ stmts, s.key = k → ∀ o', Grows o o' → ∀ v, s.value o' ≠ .ok (some v))
    (hgrows : Grows o o') : (exec o' stmts).1 k = o' k := by
  induction stmts generalizing o' with
  | nil => rfl
  | cons s rest ih =>
    have hrest := fun s' hs' => h s' (List.mem_cons_of_mem s hs')
    unfold exec
    split
    · rfl
    · exact ih hrest hgrows
    · rename_i v hvalue
      rw [ih hrest (hgrows.set s.key v)]
      refine set_of_ne _ _ fun heq => ?_
      exact h s (List.mem_cons_self ..) heq.symm o' hgrows v hvalue

/-- **The object is left as it was exactly when it is settled.** Induction on the statements: the
first one that changes something is not undone by those after it. -/
theorem exec_eq_self_iff {stmts : List (Stmt κ ν ε)} (h : stmts.Pairwise Covers)
    (o : Object κ ν) : (exec o stmts).1 = o ↔ Settled o stmts := by
  refine ⟨fun hself => ?_, Settled.exec_fst⟩
  induction stmts with
  | nil => trivial
  | cons s rest ih =>
    obtain ⟨hcovers, hrest⟩ := List.pairwise_cons.mp h
    unfold exec at hself
    unfold Settled
    split
    · trivial
    · rename_i hvalue
      rw [hvalue] at hself
      exact ih hrest hself
    · rename_i v hvalue
      simp only [hvalue] at hself
      -- what `s` set is there at the end
      have hlast : (exec (set o s.key v) rest).1 s.key = set o s.key v s.key :=
        exec_covered (fun s' hs' heq o' hgrows => hcovers s' hs' heq o v o' hvalue hgrows)
          (Grows.refl _)
      rw [hself, set_self] at hlast
      rw [set_eq_self hlast] at hself
      exact ⟨hlast, ih hrest hself⟩

/-! ## Normal forms

`stage raw norm done` has the normal form where a statement has been and the raw object elsewhere;
it is what every statement sees if the ones before it have done their part. -/

/-- Between an object and its normal form: some properties are as in the normal form. -/
def stage (raw norm : Object κ ν) (done : List κ) : Object κ ν :=
  fun k => if k ∈ done then norm k else raw k

/-- Each statement brings its property to the normal form. -/
def Stages (raw norm : Object κ ν) : List κ → List (Stmt κ ν ε) → Prop
  | _, [] => True
  | done, s :: rest =>
    (∃ v, s.value (stage raw norm done) = .ok v ∧ v.or (stage raw norm done s.key) = norm s.key) ∧
      Stages raw norm (s.key :: done) rest

theorem stage_nil (raw norm : Object κ ν) : stage raw norm [] = raw := rfl

/-- A property is done when it is as in the normal form, also where its statement leaves it. -/
theorem stage_cons {raw norm : Object κ ν} {done : List κ} {k : κ}
    (h : stage raw norm done k = norm k) : stage raw norm (k :: done) = stage raw norm done := by
  funext k'
  by_cases heq : k' = k
  · subst heq
    rw [h]
    exact if_pos (List.mem_cons_self ..)
  · simp [stage, List.mem_cons, heq]

theorem set_stage {raw norm : Object κ ν} {done : List κ} {k : κ} {v : ν} (h : norm k = some v) :
    set (stage raw norm done) k v = stage raw norm (k :: done) := by
  funext k'
  by_cases heq : k' = k
  · subst heq
    rw [set_self, ← h]
    exact (if_pos (List.mem_cons_self ..)).symm
  · rw [set_of_ne _ _ heq]
    simp [stage, List.mem_cons, heq]

/-- The statements from one of them on: each finds the stage it expects and makes the next one, and
none throws. -/
theorem exec_stage {raw norm : Object κ ν} {done : List κ} {stmts : List (Stmt κ ν ε)}
    (h : Stages raw norm done stmts) :
    exec (stage raw norm done) stmts =
      (stage raw norm ((stmts.map Stmt.key).reverse ++ done), none) := by
  induction stmts generalizing done with
  | nil => rfl
  | cons s rest ih =>
    obtain ⟨⟨v, hvalue, hnorm⟩, hrest⟩ := h
    have hdone := ih hrest
    rw [List.map_cons, List.reverse_cons, List.append_assoc, List.singleton_append, ← hdone]
    rw [exec, hvalue]
    cases v with
    | none =>
      rw [Option.none_or] at hnorm
      rw [stage_cons hnorm]
    | some v =>
      rw [Option.some_or] at hnorm
      simp only [set_stage hnorm.symm]

/-- **A list of statements that stages takes an object to its normal form**, where the other
properties are as they should be. -/
theorem exec_stages {raw norm : Object κ ν} {stmts : List (Stmt κ ν ε)}
    (h : Stages raw norm [] stmts) (hother : ∀ k, (∀ s ∈ stmts, s.key ≠ k) → raw k = norm k) :
    exec raw stmts = (norm, none) := by
  have hexec := exec_stage h
  rw [stage_nil] at hexec
  rw [hexec]
  congr 1
  funext k
  unfold stage
  split
  · rfl
  · rename_i hmem
    refine hother k fun s hs heq => hmem ?_
    rw [List.append_nil, List.mem_reverse]
    exact List.mem_map.mpr ⟨s, hs, heq⟩

/-- Statements after others that do not throw run on the object as these have left it. -/
theorem exec_append {stmts stmts' : List (Stmt κ ν ε)} {o o' : Object κ ν}
    (h : exec o stmts = (o', none)) : exec o (stmts ++ stmts') = exec o' stmts' := by
  induction stmts generalizing o with
  | nil =>
    cases h
    rfl
  | cons s rest ih =>
    unfold exec at h
    rw [List.cons_append, exec]
    split at h
    · cases h
    · exact ih h
    · exact ih h

/-! ## Assignments in any order -/

omit [DecidableEq κ] in
/-- A component that other assignments leave is as it was, whatever they do to the rest. -/
theorem foldl_frame {σ α : Type} {assign : σ → κ → σ} (component : σ → α) {keys : List κ}
    (hframe : ∀ s, ∀ k ∈ keys, component (assign s k) = component s) (s : σ) :
    component (keys.foldl assign s) = component s := by
  induction keys generalizing s with
  | nil => rfl
  | cons k keys ih =>
    rw [List.foldl_cons, ih fun s k' hk' => hframe s k' (List.mem_cons_of_mem k hk')]
    exact hframe s k (List.mem_cons_self ..)

/-- **A component that only `k` reaches.** After assignments in any order it is as after that of
`k` alone. -/
theorem foldl_component {σ α : Type} {assign : σ → κ → σ} (component : σ → α) {k : κ}
    (hframe : ∀ s k', k' ≠ k → component (assign s k') = component s)
    (heffect : ∀ s s', component s = component s' →
      component (assign s k) = component (assign s' k))
    {keys : List κ} (hnodup : keys.Nodup) (s : σ) :
    component (keys.foldl assign s) = if k ∈ keys then component (assign s k) else component s := by
  induction keys generalizing s with
  | nil => exact (if_neg List.not_mem_nil).symm
  | cons k' keys ih =>
    obtain ⟨hnot, hkeys⟩ := List.nodup_cons.mp hnodup
    rw [List.foldl_cons, ih hkeys]
    by_cases heq : k' = k
    · subst heq
      rw [if_neg hnot, if_pos (List.mem_cons_self ..)]
    · rw [heffect _ s (hframe s k' heq), hframe s k' heq]
      simp only [List.mem_cons, Ne.symm heq, false_or]

end JsObject
