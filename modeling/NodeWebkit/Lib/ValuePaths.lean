import Mathlib.Data.List.Infix
import Mathlib.Data.List.OfFn
import NodeWebkit.Lib.BaseValues

/-!
# Paths into a tree of values

`base::DictionaryValue::Get` and `Set` with path expansion: a path is a list of keys, of which all
but the last lead from a dictionary to the one inside. A path is followed only through
dictionaries, and where it is set, what is in its way is replaced by a new dictionary.

* **`getPath_setPath`**, **`getPath_setPath_apart`** — what is read after a path was set, at the
  path and at paths that neither lead to it nor on from it;
* **`appendAt`** — an entry is put at the end of the list at a path;
* **`Apart`** — neither of two paths leads to the other;
* **`Keeps`** — nothing is changed but at some paths, and what leads to them or on from them.
-/

namespace BaseValues

/-! ## Lists -/

namespace Value

def ofList (entries : List Value) : Value := .list entries.length entries.get

/-- `GetAsList`. -/
def toList : Value → Option (List Value)
  | .list _ elems => some (List.ofFn elems)
  | _ => none

/-- `GetAsString`. -/
def toText : Value → Option String
  | .string text => some text
  | _ => none

@[simp]
theorem toList_ofList (entries : List Value) : (ofList entries).toList = some entries := by
  show some (List.ofFn entries.get) = some entries
  rw [List.ofFn_get]

end Value

/-! ## Paths

`getPath` and `setPath` recurse on the path. A path of one key is one of the dictionary itself; a
longer one goes on in the dictionary under its first key, which `setPath` makes where there is none.
-/

namespace Dictionary

/-- `Get`. -/
def getPath (d : Dictionary) : List String → Option Value
  | [] => none
  | [key] => d.get key
  | key :: next :: rest => (d.getDictionary key).bind fun child => child.getPath (next :: rest)

/-- `Set`. -/
def setPath (d : Dictionary) (value : Value) : List String → Dictionary
  | [] => d
  | [key] => d.set key value
  | key :: next :: rest =>
    d.set key (((d.getDictionary key).getD empty).setPath value (next :: rest)).toValue

/-- The list at a path; an empty one if there is none. -/
def listAt (d : Dictionary) (path : List String) : List Value :=
  ((d.getPath path).bind Value.toList).getD []

/-- The text at a path. -/
def textAt (d : Dictionary) (path : List String) : Option String :=
  (d.getPath path).bind Value.toText

/-- What is read as a list depends on what is at the path only. -/
theorem listAt_congr {d d' : Dictionary} {p q : List String} (h : d'.getPath p = d.getPath q) :
    d'.listAt p = d.listAt q := by
  rw [listAt, listAt, h]

theorem textAt_congr {d d' : Dictionary} {p q : List String} (h : d'.getPath p = d.getPath q) :
    d'.textAt p = d.textAt q := by
  rw [textAt, textAt, h]

/-- Entries are put at the end of the list at a path; if there is something else, or nothing, a new
list takes its place. -/
def appendAt (d : Dictionary) (path : List String) (entries : List Value) : Dictionary :=
  d.setPath (.ofList (d.listAt path ++ entries)) path

end Dictionary

/-- Neither of two paths leads to the other, or on from it. -/
def Apart (p q : List String) : Prop := ¬ p <+: q ∧ ¬ q <+: p

instance (p q : List String) : Decidable (Apart p q) := inferInstanceAs (Decidable (_ ∧ _))

theorem Apart.symm {p q : List String} (h : Apart p q) : Apart q p := And.symm h

/-- Paths that start with the same key are apart if the rests are, inside the dictionary under that
key. -/
theorem Apart.of_cons {key : String} {p q : List String} (h : Apart (key :: p) (key :: q)) :
    Apart p q :=
  ⟨fun hpq => h.1 (List.cons_prefix_cons.mpr ⟨rfl, hpq⟩),
    fun hqp => h.2 (List.cons_prefix_cons.mpr ⟨rfl, hqp⟩)⟩

theorem Apart.ne_nil {p q : List String} (h : Apart p q) : p ≠ [] := by
  intro hp
  rw [hp] at h
  exact h.1 List.nil_prefix

namespace Dictionary

variable (d : Dictionary) (value : Value)

/-- In an empty dictionary no path leads anywhere. -/
@[simp]
theorem getPath_empty (path : List String) : empty.getPath path = none := by
  cases path with
  | nil => rfl
  | cons key rest =>
    cases rest with
    | nil => exact get_empty key
    | cons next rest =>
      show ((empty.get key).bind Value.toDictionary).bind _ = none
      rw [get_empty]
      rfl

theorem getDictionary_set (key : String) (child : Dictionary) (k : String) :
    (d.set key child.toValue).getDictionary k =
      if k = key then some child else d.getDictionary k := by
  rw [getDictionary, get_set]
  split <;> rfl

/-- **What was set is there**, whatever stood in the way of the path before. Induction on the path.
-/
theorem getPath_setPath {path : List String} (h : path ≠ []) :
    (d.setPath value path).getPath path = some value := by
  induction path generalizing d with
  | nil => exact absurd rfl h
  | cons key rest ih =>
    cases rest with
    | nil =>
      show (d.set key value).get key = some value
      rw [get_set, if_pos rfl]
    | cons next rest =>
      show ((d.set key _).getDictionary key).bind _ = some value
      rw [getDictionary_set, if_pos rfl]
      exact ih _ (List.cons_ne_nil next rest)

/-- **What is apart is not changed.** As long as the two paths have the same keys both go on in the
same dictionary; where they part, one key is set and the other is read. -/
theorem getPath_setPath_apart {p q : List String} (h : Apart p q) :
    (d.setPath value p).getPath q = d.getPath q := by
  induction p generalizing d q with
  | nil => exact absurd rfl h.ne_nil
  | cons key p ih =>
    cases q with
    | nil => exact absurd rfl h.symm.ne_nil
    | cons k q =>
      by_cases hk : k = key
      · -- the paths part later
        subst hk
        have hrest : Apart p q := h.of_cons
        cases p with
        | nil => exact absurd rfl hrest.ne_nil
        | cons next p =>
          cases q with
          | nil => exact absurd rfl hrest.symm.ne_nil
          | cons k' q =>
            show ((d.set k _).getDictionary k).bind _ = (d.getDictionary k).bind _
            rw [getDictionary_set, if_pos rfl, Option.bind_some, ih _ hrest]
            cases d.getDictionary k with
            | none => exact getPath_empty (k' :: q)
            | some child => rfl
      · have hget : ∀ v, (d.set key v).get k = d.get k := fun v => by rw [get_set, if_neg hk]
        have hset : ∃ v, d.setPath value (key :: p) = d.set key v := by
          cases p with
          | nil => exact ⟨value, rfl⟩
          | cons next p => exact ⟨_, rfl⟩
        obtain ⟨v, hv⟩ := hset
        rw [hv]
        cases q with
        | nil => exact hget v
        | cons k' q =>
          show ((d.set key v).getDictionary k).bind _ = (d.getDictionary k).bind _
          rw [getDictionary, hget, ← getDictionary]

/-- The entries are at the end of the list at the path; a list that was not there is an empty one.
-/
theorem listAt_appendAt {path : List String} (h : path ≠ []) (entries : List Value) :
    (d.appendAt path entries).listAt path = d.listAt path ++ entries := by
  rw [listAt, appendAt, getPath_setPath _ _ h, Option.bind_some, Value.toList_ofList,
    Option.getD_some]

end Dictionary

/-- A dictionary is the same as another one, apart from these paths. -/
def Keeps (paths : List (List String)) (d d' : Dictionary) : Prop :=
  ∀ q, (∀ p ∈ paths, Apart p q) → d'.getPath q = d.getPath q

namespace Keeps

theorem refl (d : Dictionary) : Keeps [] d d := fun _ _ => rfl

theorem setPath (d : Dictionary) (value : Value) (path : List String) :
    Keeps [path] d (d.setPath value path) :=
  fun _ hq => d.getPath_setPath_apart value (hq path (List.mem_singleton_self path))

theorem trans {ps qs : List (List String)} {d d' d'' : Dictionary} (h : Keeps ps d d')
    (h' : Keeps qs d' d'') : Keeps (ps ++ qs) d d'' := by
  intro q hq
  rw [h' q fun p hp => hq p (List.mem_append_right ps hp),
    h q fun p hp => hq p (List.mem_append_left qs hp)]

/-- What changes nothing but at some paths changes nothing but at more of them. -/
theorem mono {ps qs : List (List String)} {d d' : Dictionary} (h : Keeps ps d d')
    (hpq : ps ⊆ qs) : Keeps qs d d' :=
  fun q hq => h q fun p hp => hq p (hpq hp)

end Keeps

end BaseValues
