import Mathlib.Data.List.Basic

/-!
# JavaScript arrays as lists

What JavaScript code does on arrays, on `List`: the searches, and `splice` with any index.

A search answers an index, and -1 where nothing was found; `splice` takes a negative index from the
end and any index that is too large for the length. The lemmas say when such an index is a position
of the list, which is what a caller that passes a search on to `splice` relies on.
-/

namespace JsArray

variable {α κ : Type*}

/-- Removing an element that a search found, by a key no other element has, is the same as
removing the first element the search accepts. -/
theorem eraseP_key_eq {xs : List α} {p : α → Bool} {k : α → κ} [DecidableEq κ] {a : α}
    (hkeys : xs.Pairwise fun x y => k x ≠ k y) (hfind : xs.find? p = some a) :
    xs.eraseP (fun x => k x = k a) = xs.eraseP p := by
  induction xs with
  | nil => simp at hfind
  | cons x xs ih =>
    obtain ⟨hx, hxs⟩ := List.pairwise_cons.mp hkeys
    by_cases hp : p x
    · rw [List.find?_cons_of_pos hp, Option.some.injEq] at hfind
      subst hfind
      rw [List.eraseP_cons_of_pos hp, List.eraseP_cons_of_pos (by simp)]
    · rw [List.find?_cons_of_neg hp] at hfind
      have hne : k x ≠ k a := hx a (List.mem_of_find?_eq_some hfind)
      rw [List.eraseP_cons_of_neg hp, List.eraseP_cons_of_neg (by simpa using hne), ih hxs hfind]

/-! ## Indices -/

/-- The position at which `splice(i, ...)` starts: a negative index counts from the end. -/
def spliceStart (i : Int) (length : Nat) : Nat :=
  if i < 0 then (length + i).toNat else min i.toNat length

/-- `xs.splice(i, 0, a)`. -/
def spliceInsert (xs : List α) (i : Int) (a : α) : List α :=
  xs.insertIdx (spliceStart i xs.length) a

/-- `xs.splice(i, 1)`. -/
def spliceDelete (xs : List α) (i : Int) : List α :=
  xs.eraseIdx (spliceStart i xs.length)

/-- `xs.indexOf(a)`. -/
def indexOf [DecidableEq α] (xs : List α) (a : α) : Int :=
  if a ∈ xs then xs.idxOf a else -1

/-- `xs[i]`; `none` is `undefined`. -/
def get? (xs : List α) (i : Int) : Option α :=
  if i < 0 then none else xs[i.toNat]?

/-- Whatever the index, the place where `splice` starts is inside the array or at its end. -/
theorem spliceStart_le (i : Int) (length : Nat) : spliceStart i length ≤ length := by
  unfold spliceStart
  split <;> omega

theorem spliceStart_natCast {k length : Nat} (h : k ≤ length) :
    spliceStart (k : Int) length = k := by
  unfold spliceStart
  rw [if_neg (by omega)]
  omega

/-- An index is the position where `splice` starts exactly when it is not past the end. -/
theorem spliceStart_eq_iff (i : Int) (length : Nat) :
    (spliceStart i length : Int) = i ↔ 0 ≤ i ∧ i ≤ length := by
  unfold spliceStart
  split <;> omega

/-- A search that succeeds gives a position of the list, the first one with the element. -/
theorem indexOf_of_mem [DecidableEq α] {xs : List α} {a : α} (h : a ∈ xs) :
    ∃ k : Nat, indexOf xs a = k ∧ k < xs.length :=
  ⟨xs.idxOf a, if_pos h, List.idxOf_lt_length_iff.mpr h⟩

/-- An index with an element is a position of the list: negative ones have none. -/
theorem get?_eq_some {xs : List α} {i : Int} {a : α} (h : get? xs i = some a) :
    ∃ k : Nat, i = k ∧ k < xs.length := by
  unfold get? at h
  split at h
  · cases h
  · obtain ⟨hlt, -⟩ := List.getElem?_eq_some_iff.mp h
    exact ⟨i.toNat, by omega, hlt⟩

/-- An element after an assignment to one index is an old one or the assigned one. -/
theorem mem_modify {xs : List α} {k : Nat} {f : α → α} {a : α} (h : a ∈ xs.modify k f) :
    a ∈ xs ∨ ∃ old ∈ xs, xs[k]? = some old ∧ a = f old := by
  obtain ⟨j, hj⟩ := List.mem_iff_getElem?.mp h
  by_cases hk : k = j
  · subst hk
    rw [List.getElem?_modify_eq] at hj
    obtain ⟨old, hold, rfl⟩ := Option.map_eq_some_iff.mp hj
    exact Or.inr ⟨old, List.mem_of_getElem? hold, hold, rfl⟩
  · rw [List.getElem?_modify_ne _ _ hk] at hj
    exact Or.inl (List.mem_of_getElem? hj)

end JsArray
