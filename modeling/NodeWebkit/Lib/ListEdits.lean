import Mathlib.Data.List.InsertIdx
import Mathlib.Data.List.Nodup
import Mathlib.Data.List.Perm.Basic

/-!
# Edits of a list by position

An observer of a list is told each edit with the positions that it is made at, and makes the same
edit to its own list.

* **`Edit.apply`** — what an edit makes of a list, where it `Fits`;
* **`Edit.apply_append`** — an edit of the first part of a longer list;
* **`Edit.map_apply`**, **`Edit.map_apply_append`** — the edit of an image of the list;
* **`Edit.nodup_map_apply`** — edits keep the keys of a list apart;
* **`map_eq_modify`** — an update by key is an update by position;
* **`modify_map`**, **`map_modify_key`** — the update of an image of the list, and of its keys;
* **`filter_insertIdx`**, **`filter_eraseIdx`** — an edit of an element that a filter drops.
-/

namespace ListEdits

universe u v

variable {α : Type u} {β : Type v}

inductive Edit (α : Type u) where
  | insert (index : Nat) (a : α)
  | remove (index : Nat)
  | move (old new : Nat)
  deriving DecidableEq

namespace Edit

/-- The positions are those of a list of this length. -/
def Fits (n : Nat) : Edit α → Prop
  | insert index _ => index ≤ n
  | remove index => index < n
  | move old new => old < n ∧ new < n

instance (n : Nat) : DecidablePred (Fits (α := α) n)
  | insert index _ => inferInstanceAs (Decidable (index ≤ n))
  | remove index => inferInstanceAs (Decidable (index < n))
  | move old new => inferInstanceAs (Decidable (old < n ∧ new < n))

/-- What is moved is taken out first, so the new position is that of the list after the move. -/
def apply (xs : List α) : Edit α → List α
  | insert index a => xs.insertIdx index a
  | remove index => xs.eraseIdx index
  | move old new => xs[old]?.elim xs fun a => (xs.eraseIdx old).insertIdx new a

def map (f : α → β) : Edit α → Edit β
  | insert index a => insert index (f a)
  | remove index => remove index
  | move old new => move old new

/-- An element that is inserted into the first part of a list, or behind it, leaves the second part.
-/
theorem insertIdx_append {index : Nat} {xs : List α} (h : index ≤ xs.length) (a : α)
    (ys : List α) : (xs ++ ys).insertIdx index a = xs.insertIdx index a ++ ys := by
  induction index generalizing xs with
  | zero => rw [List.insertIdx_zero, List.insertIdx_zero, List.cons_append]
  | succ index ih =>
    cases xs with
    | nil => exact absurd h (by simp)
    | cons x xs =>
      rw [List.length_cons, Nat.add_le_add_iff_right] at h
      rw [List.cons_append, List.insertIdx_succ_cons, List.insertIdx_succ_cons, ih h,
        List.cons_append]

/-- **Edits are local.** An edit that fits the first part of a longer list is made there, and the
second part stays. -/
theorem apply_append {e : Edit α} {xs : List α} (h : e.Fits xs.length) (ys : List α) :
    e.apply (xs ++ ys) = e.apply xs ++ ys := by
  cases e with
  | insert index a => exact insertIdx_append h a ys
  | remove index => exact List.eraseIdx_append_of_lt_length h ys
  | move old new =>
    obtain ⟨hold, hnew⟩ : old < xs.length ∧ new < xs.length := h
    have hlength : new ≤ (xs.eraseIdx old).length := by
      rw [List.length_eraseIdx_of_lt hold]
      omega
    show (xs ++ ys)[old]?.elim _ _ = xs[old]?.elim _ _ ++ ys
    rw [List.getElem?_append_left hold, List.getElem?_eq_getElem hold, Option.elim_some,
      Option.elim_some, List.eraseIdx_append_of_lt_length hold, insertIdx_append hlength]

/-- The edit of an image of the list is the image of the edited list: positions are the same in
both. -/
theorem map_apply (f : α → β) (e : Edit α) (xs : List α) :
    (e.map f).apply (xs.map f) = (e.apply xs).map f := by
  cases e with
  | insert index a => exact (List.map_insertIdx f xs index a).symm
  | remove index => exact List.eraseIdx_map f xs index
  | move old new =>
    show (xs.map f)[old]?.elim _ _ = List.map f (xs[old]?.elim _ _)
    rw [List.getElem?_map]
    cases xs[old]? with
    | none => rfl
    | some a =>
      rw [Option.map_some, Option.elim_some, Option.elim_some, List.map_insertIdx,
        List.eraseIdx_map]

/-- The image of an edit, made to the image of a list that more elements stand behind. -/
theorem map_apply_append (f : α → β) {e : Edit α} {xs : List α} (h : e.Fits xs.length)
    (ys : List β) : (e.map f).apply (xs.map f ++ ys) = (e.apply xs).map f ++ ys := by
  have hfits : (e.map f).Fits (xs.map f).length := by
    rw [List.length_map]
    cases e with
    | insert index a => exact h
    | remove index => exact h
    | move old new => exact h
  rw [apply_append hfits, map_apply]

/-- What an edit puts into the list has a key that is not in it. -/
def Fresh (key : α → β) (xs : List α) : Edit α → Prop
  | insert _ a => key a ∉ xs.map key
  | remove _ | move _ _ => True

/-- **Keys stay apart.** Removing and moving bring no new key, and what is inserted has one that is
not in the list yet. -/
theorem nodup_map_apply (key : α → β) {e : Edit α} {xs : List α} (hfits : e.Fits xs.length)
    (hfresh : e.Fresh key xs) (h : (xs.map key).Nodup) : ((e.apply xs).map key).Nodup := by
  cases e with
  | insert index a =>
    have hperm := (List.perm_insertIdx a xs hfits).map key
    exact hperm.nodup_iff.mpr (List.nodup_cons.mpr ⟨hfresh, h⟩)
  | remove index => exact h.sublist ((List.eraseIdx_sublist xs index).map key)
  | move old new =>
    obtain ⟨hold, hnew⟩ : old < xs.length ∧ new < xs.length := hfits
    show (List.map key (xs[old]?.elim _ _)).Nodup
    rw [List.getElem?_eq_getElem hold, Option.elim_some]
    have hlength : new ≤ (xs.eraseIdx old).length := by
      rw [List.length_eraseIdx_of_lt hold]
      omega
    have hperm := (List.perm_insertIdx xs[old] (xs.eraseIdx old) hlength).trans
      (List.getElem_cons_eraseIdx_perm hold)
    exact (hperm.map key).nodup_iff.mpr h

end Edit

/-- **By key and by position.** Where the keys are apart, updating the elements with the key of one
of them updates that one. -/
theorem map_eq_modify [DecidableEq β] {key : α → β} (f : α → α) {xs : List α}
    (h : (xs.map key).Nodup) {index : Nat} {a : α} (ha : xs[index]? = some a) :
    (xs.map fun x => if key x = key a then f x else x) = xs.modify index f := by
  induction xs generalizing index with
  | nil => cases ha
  | cons x xs ih =>
    rw [List.map_cons, List.nodup_cons] at h
    cases index with
    | zero =>
      have hxa : x = a := Option.some.inj ha
      -- the element is here; the others have other keys and stay
      have hrest : (xs.map fun y => if key y = key a then f y else y) = xs := by
        apply (List.map_congr_left _).trans (List.map_id xs)
        intro y hy
        show (if key y = key a then f y else y) = y
        apply if_neg
        intro heq
        apply h.1
        rw [hxa, ← heq]
        exact List.mem_map_of_mem hy
      rw [List.map_cons, if_pos (by rw [hxa]), hrest]
      rfl
    | succ index =>
      have hmem : a ∈ xs := List.mem_of_getElem? ha
      have hne : key x ≠ key a := fun heq => h.1 (heq ▸ List.mem_map_of_mem hmem)
      rw [List.map_cons, if_neg hne, ih h.2 ha]
      rfl

/-- An update of the image of a list at a position, where it is the image of an update of the list.
-/
theorem modify_map {h : α → β} {f : β → β} {g : α → α} (hfg : ∀ a, h (g a) = f (h a))
    (xs : List α) (index : Nat) : (xs.map h).modify index f = (xs.modify index g).map h := by
  induction xs generalizing index with
  | nil => cases index <;> rfl
  | cons x xs ih =>
    cases index with
    | zero =>
      show f (h x) :: xs.map h = h (g x) :: xs.map h
      rw [hfg]
    | succ index =>
      show h x :: (xs.map h).modify index f = h x :: (xs.modify index g).map h
      rw [ih]

/-- An update that leaves the key alone leaves the keys of the list alone. -/
theorem map_modify_key (key : α → β) (g : α → α) (hkey : ∀ a, key (g a) = key a) (xs : List α)
    (index : Nat) : (xs.modify index g).map key = xs.map key := by
  rw [← modify_map (f := id) hkey, List.modify_id]

/-! ## Filters

An observer may see a part of the list only. An edit of an element outside that part is not visible
to it. -/

/-- An element that the filter drops is not seen where it is put in. -/
theorem filter_insertIdx {p : α → Bool} {a : α} (ha : p a = false) (index : Nat) (xs : List α) :
    (xs.insertIdx index a).filter p = xs.filter p := by
  have hnot : ¬ p a = true := by
    rw [ha]
    exact Bool.false_ne_true
  induction xs generalizing index with
  | nil =>
    cases index with
    | zero => rw [List.insertIdx_zero, List.filter_cons_of_neg hnot]
    | succ index => rw [List.insertIdx_succ_nil]
  | cons x xs ih =>
    cases index with
    | zero => rw [List.insertIdx_zero, List.filter_cons_of_neg hnot]
    | succ index => rw [List.insertIdx_succ_cons, List.filter_cons, List.filter_cons, ih]

/-- An element that the filter drops is not missed where it is taken out. -/
theorem filter_eraseIdx {p : α → Bool} {index : Nat} {xs : List α}
    (hdrop : ∀ a, xs[index]? = some a → p a = false) :
    (xs.eraseIdx index).filter p = xs.filter p := by
  induction xs generalizing index with
  | nil => rfl
  | cons x xs ih =>
    cases index with
    | zero =>
      have hnot : ¬ p x = true := by
        rw [hdrop x rfl]
        exact Bool.false_ne_true
      rw [List.eraseIdx_cons_zero, List.filter_cons_of_neg hnot]
    | succ index =>
      rw [List.eraseIdx_cons_succ, List.filter_cons, List.filter_cons, ih hdrop]

end ListEdits
