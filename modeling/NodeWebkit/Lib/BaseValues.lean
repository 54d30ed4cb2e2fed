import Mathlib.Data.Finset.Insert
import Mathlib.Data.Finset.Lattice.Basic
import Mathlib.Data.Finset.Filter

/-!
# Trees of values

`base::Value` and `base::DictionaryValue`: a dictionary maps finitely many keys to values, lists and
dictionaries own what is in them, and an integer is an `int`.

* **`Dictionary.ofLookup`** — a dictionary from what it is to answer; the operations are defined by
  it, so each of them has one lemma about `get`;
* **`Value.copyWithoutEmptyChildren`** — a copy that leaves out empty lists and dictionaries, and
  those that are empty without them;
* **`Value.merge`**, **`Dictionary.mergeDictionary`** — dictionaries are merged key by key, and of
  anything else the new value is taken.
-/

namespace BaseValues

inductive Value where
  | null
  | boolean (b : Bool)
  | integer (i : Int32)
  | double (text : String)
  | string (text : String)
  | list (size : Nat) (elems : Fin size → Value)
  | dictionary (keys : Finset String) (vals : {key // key ∈ keys} → Value)

structure Dictionary where
  keys : Finset String
  vals : {key // key ∈ keys} → Value

def Dictionary.toValue (d : Dictionary) : Value := .dictionary d.keys d.vals

def Value.toDictionary : Value → Option Dictionary
  | .dictionary keys vals => some ⟨keys, vals⟩
  | _ => none

namespace Dictionary

def get (d : Dictionary) (key : String) : Option Value :=
  if h : key ∈ d.keys then some (d.vals ⟨key, h⟩) else none

theorem isSome_get_iff {d : Dictionary} {key : String} : (d.get key).isSome ↔ key ∈ d.keys := by
  unfold get
  split <;> simp [*]

/-- A dictionary is what it answers: two that answer alike have the same keys and the same values.
-/
theorem ext_get {d d' : Dictionary} (h : ∀ key, d.get key = d'.get key) : d = d' := by
  obtain ⟨keys, vals⟩ := d
  obtain ⟨keys', vals'⟩ := d'
  have hkeys : keys = keys' := by
    ext key
    have hget := congrArg Option.isSome (h key)
    rw [Bool.eq_iff_iff, isSome_get_iff, isSome_get_iff] at hget
    exact hget
  subst hkeys
  congr 1
  funext ⟨key, hkey⟩
  have hget := h key
  simp only [get, hkey, dif_pos, Option.some.injEq] at hget
  exact hget

/-- The dictionary with these answers for keys of the set. -/
def ofLookup (keys : Finset String) (lookup : String → Option Value) : Dictionary where
  keys := keys.filter fun key => (lookup key).isSome
  vals key := (lookup key.1).get (Finset.mem_filter.mp key.2).2

/-- The answers of a dictionary that was made from a lookup: those for the keys of the set. -/
theorem get_ofLookup (keys : Finset String) (lookup : String → Option Value) (key : String) :
    (ofLookup keys lookup).get key = if key ∈ keys then lookup key else none := by
  unfold get ofLookup
  by_cases hkey : key ∈ keys
  · rw [if_pos hkey]
    cases hlookup : lookup key with
    | none =>
      rw [dif_neg]
      intro hmem
      have hsome := (Finset.mem_filter.mp hmem).2
      rw [hlookup] at hsome
      cases hsome
    | some v =>
      rw [dif_pos (Finset.mem_filter.mpr ⟨hkey, by rw [hlookup]; rfl⟩)]
      simp only [hlookup, Option.get_some]
  · rw [if_neg hkey, dif_neg fun hmem => hkey (Finset.mem_filter.mp hmem).1]

/-- What is answered only for keys of the set is answered, so for a set that is large enough the
dictionary is the lookup. -/
theorem get_ofLookup_of {keys : Finset String} {lookup : String → Option Value}
    (h : ∀ key, (lookup key).isSome → key ∈ keys) (key : String) :
    (ofLookup keys lookup).get key = lookup key := by
  rw [get_ofLookup]
  split
  case isTrue => rfl
  case isFalse hkey =>
    cases hlookup : lookup key with
    | none => rfl
    | some v => exact absurd (h key (by rw [hlookup]; rfl)) hkey

def empty : Dictionary := ofLookup ∅ fun _ => none

@[simp]
theorem get_empty (key : String) : empty.get key = none := by
  rw [empty, get_ofLookup, ite_self]

/-- `SetWithoutPathExpansion`. -/
def set (d : Dictionary) (key : String) (value : Value) : Dictionary :=
  ofLookup (insert key d.keys) fun k => if k = key then some value else d.get k

theorem get_set (d : Dictionary) (key : String) (value : Value) (k : String) :
    (d.set key value).get k = if k = key then some value else d.get k := by
  apply get_ofLookup_of
  intro k hk
  split at hk
  case isTrue heq => exact Finset.mem_insert.mpr (Or.inl heq)
  case isFalse => exact Finset.mem_insert_of_mem (isSome_get_iff.mp hk)

/-- `RemoveWithoutPathExpansion`. -/
def remove (d : Dictionary) (key : String) : Dictionary :=
  ofLookup d.keys fun k => if k = key then none else d.get k

theorem get_remove (d : Dictionary) (key k : String) :
    (d.remove key).get k = if k = key then none else d.get k := by
  apply get_ofLookup_of
  intro k hk
  split at hk
  · cases hk
  · exact isSome_get_iff.mp hk

/-! ## Getters -/

def getBoolean (d : Dictionary) (key : String) : Option Bool :=
  match d.get key with
  | some (.boolean b) => some b
  | _ => none

def getInteger (d : Dictionary) (key : String) : Option Int32 :=
  match d.get key with
  | some (.integer i) => some i
  | _ => none

def getString (d : Dictionary) (key : String) : Option String :=
  match d.get key with
  | some (.string text) => some text
  | _ => none

/-- `GetDictionaryWithoutPathExpansion`. -/
def getDictionary (d : Dictionary) (key : String) : Option Dictionary :=
  (d.get key).bind Value.toDictionary

end Dictionary

/-! ## Copies without empty children -/

/-- The copy of a value; there is none of an empty list or dictionary. -/
def Value.copyWithoutEmptyChildren : Value → Option Value
  | .list _ elems =>
    let copies := (List.ofFn fun i => (elems i).copyWithoutEmptyChildren).reduceOption
    if copies = [] then none else some (.list copies.length copies.get)
  | .dictionary keys vals =>
    let copy := Dictionary.ofLookup keys fun key =>
      if h : key ∈ keys then (vals ⟨key, h⟩).copyWithoutEmptyChildren else none
    if copy.keys = ∅ then none else some copy.toValue
  | value => some value

namespace Dictionary

/-- `DeepCopyWithoutEmptyChildren`; the copy of the dictionary itself may be empty. -/
def deepCopyWithoutEmptyChildren (d : Dictionary) : Dictionary :=
  ofLookup d.keys fun key => (d.get key).bind Value.copyWithoutEmptyChildren

/-- The copy has under each key a copy of the child, unless nothing is left of that. -/
theorem get_deepCopyWithoutEmptyChildren (d : Dictionary) (key : String) :
    d.deepCopyWithoutEmptyChildren.get key =
      (d.get key).bind Value.copyWithoutEmptyChildren := by
  apply get_ofLookup_of
  intro key hkey
  obtain ⟨copy, hcopy⟩ := Option.isSome_iff_exists.mp hkey
  obtain ⟨value, hvalue, -⟩ := Option.bind_eq_some_iff.mp hcopy
  exact isSome_get_iff.mp (by rw [hvalue]; rfl)

end Dictionary

/-- The copy of a dictionary that is a child of another value: none where nothing is left of it, so
that the parent leaves the key out. -/
theorem Value.copyWithoutEmptyChildren_toValue (d : Dictionary) :
    d.toValue.copyWithoutEmptyChildren =
      if d.deepCopyWithoutEmptyChildren.keys = ∅ then none
      else some d.deepCopyWithoutEmptyChildren.toValue := by
  have hcopy : (Dictionary.ofLookup d.keys fun key =>
      if h : key ∈ d.keys then (d.vals ⟨key, h⟩).copyWithoutEmptyChildren else none) =
      d.deepCopyWithoutEmptyChildren := by
    refine Dictionary.ext_get fun key => ?_
    rw [Dictionary.get_ofLookup, Dictionary.get_deepCopyWithoutEmptyChildren, Dictionary.get]
    by_cases hkey : key ∈ d.keys
    · simp only [hkey, if_true, dif_pos, Option.bind_some]
    · simp only [hkey, if_false, dif_neg, not_false_eq_true, Option.bind_none]
  rw [Dictionary.toValue, Value.copyWithoutEmptyChildren]
  simp only [hcopy]

/-! ## Merging -/

/-- What `MergeDictionary` makes of the value under a key and the one that is merged into it. -/
def Value.merge : Value → Value → Value
  | old, .dictionary keys vals =>
    match old.toDictionary with
    | some d =>
      (Dictionary.ofLookup (d.keys ∪ keys) fun key =>
        if h : key ∈ keys then
          some (match d.get key with
            | some value => value.merge (vals ⟨key, h⟩)
            | none => vals ⟨key, h⟩)
        else d.get key).toValue
    | none => .dictionary keys vals
  | _, new => new

/-- What is under a key that may have a value when another one is merged into it. -/
def Value.mergeInto (old : Option Value) (new : Value) : Value :=
  match old with
  | some old => old.merge new
  | none => new

namespace Dictionary

/-- `MergeDictionary`. -/
def mergeDictionary (d new : Dictionary) : Dictionary :=
  ofLookup (d.keys ∪ new.keys) fun key =>
    match new.get key with
    | some value => some (Value.mergeInto (d.get key) value)
    | none => d.get key

/-- After merging there is under each key what merging the two values gives, and what was there
before where the new dictionary has nothing. -/
theorem get_mergeDictionary (d new : Dictionary) (key : String) :
    (d.mergeDictionary new).get key =
      match new.get key with
      | some value => some (Value.mergeInto (d.get key) value)
      | none => d.get key := by
  apply get_ofLookup_of
  intro key hkey
  split at hkey
  case h_1 value hvalue =>
    exact Finset.mem_union_right _ (isSome_get_iff.mp (by rw [hvalue]; rfl))
  case h_2 => exact Finset.mem_union_left _ (isSome_get_iff.mp hkey)

end Dictionary

/-- The values that are read as a dictionary are the dictionaries. -/
theorem Value.toDictionary_eq_some_iff {value : Value} {d : Dictionary} :
    value.toDictionary = some d ↔ value = d.toValue := by
  cases value with
  | dictionary keys vals =>
    constructor
    · intro h
      cases h
      rfl
    · intro h
      rw [h]
      rfl
  | _ => exact iff_of_false nofun nofun

/-- Two dictionaries are merged key by key, as values, too. -/
theorem Value.merge_toValue (d new : Dictionary) :
    d.toValue.merge new.toValue = (d.mergeDictionary new).toValue := by
  refine congrArg Dictionary.toValue (Dictionary.ext_get fun key => ?_)
  rw [Dictionary.get_mergeDictionary, Dictionary.get_ofLookup_of]
  · simp only [Dictionary.get]
    by_cases hnew : key ∈ new.keys
    · by_cases hold : key ∈ d.keys <;> simp [hnew, hold, Value.mergeInto]
    · simp [hnew]
  · intro key hkey
    split at hkey
    case isTrue hnew => exact Finset.mem_union_right _ hnew
    case isFalse => exact Finset.mem_union_left _ (Dictionary.isSome_get_iff.mp hkey)

/-- The new value replaces the old one unless both are dictionaries: lists are not merged. -/
theorem Value.merge_of_not_dictionary {old new : Value}
    (h : old.toDictionary = none ∨ new.toDictionary = none) : old.merge new = new := by
  cases new with
  | dictionary keys vals =>
    have hold := h.resolve_right nofun
    rw [Value.merge, hold]
  | _ => rw [Value.merge]; exact nofun

/-- What is under a key after merging, where both dictionaries have something under it. -/
theorem Value.mergeInto_some (old new : Value) :
    Value.mergeInto (some old) new =
      match old.toDictionary, new.toDictionary with
      | some d, some d' => (d.mergeDictionary d').toValue
      | _, _ => new := by
  rw [Value.mergeInto]
  cases hold : old.toDictionary with
  | none => exact merge_of_not_dictionary (Or.inl hold)
  | some d =>
    cases hnew : new.toDictionary with
    | none => exact merge_of_not_dictionary (Or.inr hnew)
    | some d' =>
      rw [toDictionary_eq_some_iff.mp hold, toDictionary_eq_some_iff.mp hnew]
      exact merge_toValue d d'

end BaseValues
