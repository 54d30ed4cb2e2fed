import NodeWebkit.Lib.BaseValues
import Mathlib.Data.List.Basic

/-!
# The manifest of a new window

`MergeManifest` (`nw_content.cc`) puts together what a handler of `new-win-policy` sets for a new
window and the `window` section of the package. The package's section is an object that lives on;
the copy that is merged into is a new object of each call.

* **`Memory`** — the manifest of the package and the dictionaries that calls allocate;
* **`mergeManifest_spec`** — what one call leaves;
* **`inherited`** — what a new window has from the package.

`merge_manifest` is the statement about any number of calls.
-/

namespace NodeWebkit.Content

open BaseValues

/-- `non_inherited_attrs`. -/
def nonInheritedAttrs : List String := ["fullscreen", "kiosk", "position", "resizable", "show"]

structure Memory where
  /-- `nw::package()->root()`, if there is a package. -/
  package : Option Dictionary
  objects : List Dictionary := []

/-- What a `base::DictionaryValue*` points to. -/
inductive Ref where
  /-- The `window` section inside the manifest of the package. -/
  | packageWindow
  | object (i : Nat)
  deriving DecidableEq

namespace Memory

def packageWindow (m : Memory) : Option Dictionary :=
  m.package.bind fun root => root.getDictionary "window"

def read (m : Memory) : Ref → Option Dictionary
  | .packageWindow => m.packageWindow
  | .object i => m.objects[i]?

/-- A dictionary is changed in place. -/
def modify (m : Memory) (f : Dictionary → Dictionary) : Ref → Memory
  | .packageWindow =>
    { m with
      package := m.package.map fun root =>
        match root.getDictionary "window" with
        | some window => root.set "window" (f window).toValue
        | none => root }
  | .object i => { m with objects := m.objects.modify i f }

def alloc (m : Memory) (d : Dictionary) : Ref × Memory :=
  (.object m.objects.length, { m with objects := m.objects ++ [d] })

/-- The loop over `non_inherited_attrs`. -/
def removeAll (ref : Ref) : List String → Memory → Memory
  | [], m => m
  | attr :: attrs, m => removeAll ref attrs (m.modify (·.remove attr) ref)

end Memory

/-- The `window` manifest that was set by `new-win-policy`; `readToValue` is `base::JSONReader`. -/
def policyManifest (readToValue : String → Option Value) (manifestStr : String) : Dictionary :=
  ((readToValue manifestStr).bind Value.toDictionary).getD .empty

/-- `MergeManifest`; there is no result where it uses the pointer that `Package::window` leaves
unset. -/
def mergeManifest (readToValue : String → Option Value) (manifestStr : String) (m : Memory) :
    Option (Ref × Memory) :=
  let (manifest, m) := m.alloc (policyManifest readToValue manifestStr)
  if m.package.isNone then some (manifest, m)
  else
    (m.read .packageWindow).bind fun manifestWindow =>
      let (cloned, m) := m.alloc manifestWindow.deepCopyWithoutEmptyChildren
      let m := m.removeAll cloned nonInheritedAttrs
      (m.read manifest).map fun new => (cloned, m.modify (·.mergeDictionary new) cloned)

/-- One call after the other; the dictionaries that they return. -/
def mergeManifests (readToValue : String → Option Value) :
    List String → Memory → Option (List Ref × Memory)
  | [], m => some ([], m)
  | manifestStr :: rest, m =>
    (mergeManifest readToValue manifestStr m).bind fun (ref, m) =>
      (mergeManifests readToValue rest m).map fun (refs, m) => (ref :: refs, m)

/-! ## What is inherited

A window inherits the `window` section without the keys that the source takes out. `merged` is the
dictionary that results for a policy: under each key the policy's value merged into the inherited
one. -/

/-- What a new window has from the section of the package: nothing under the attributes that are not
inherited, and no empty lists and dictionaries. -/
def inherited (window : Dictionary) (key : String) : Option Value :=
  if key ∈ nonInheritedAttrs then none
  else (window.get key).bind Value.copyWithoutEmptyChildren

/-- What the manifest of a new window has under a key: what the policy says, merged into what is
inherited if both are dictionaries, or else what is inherited. -/
def merged (window policy : Dictionary) (key : String) : Option Value :=
  match policy.get key, inherited window key with
  | some new, some old =>
    match old.toDictionary, new.toDictionary with
    | some d, some d' => some (d.mergeDictionary d').toValue
    | _, _ => some new
  | some new, none => some new
  | none, old => old

/-- The dictionary that the code merges has this under each key: dictionaries on both sides are
merged in depth, anything else of the policy replaces what is inherited. -/
theorem merged_eq (window policy : Dictionary) (key : String) :
    merged window policy key =
      match policy.get key with
      | some new => some (Value.mergeInto (inherited window key) new)
      | none => inherited window key := by
  unfold merged
  cases policy.get key with
  | none => rfl
  | some new =>
    cases inherited window key with
    | none => rfl
    | some old =>
      simp only [Value.mergeInto_some]
      cases old.toDictionary with
      | none => rfl
      | some d => cases new.toDictionary <;> rfl

theorem packageWindow_set (root window : Dictionary) (objects : List Dictionary) :
    Memory.packageWindow
      { package := some (root.set "window" window.toValue), objects := objects } = some window := by
  show (root.set "window" window.toValue).getDictionary "window" = some window
  rw [Dictionary.getDictionary, Dictionary.get_set, if_pos rfl]
  rfl

/-- A change of the object that was allocated last leaves the other objects and the package alone.
-/
theorem Memory.modify_last (m : Memory) (d : Dictionary) (f : Dictionary → Dictionary) :
    Memory.modify { m with objects := m.objects ++ [d] } f (.object m.objects.length) =
      { m with objects := m.objects ++ [f d] } := by
  have hlast : (m.objects ++ [d]).modify m.objects.length f = m.objects ++ [f d] := by
    induction m.objects with
    | nil => rfl
    | cons d' objects ih => exact congrArg (d' :: ·) ih
  rw [Memory.modify, hlast]

/-- Removing the keys from the copy happens in the copy. Induction on the keys. -/
theorem Memory.removeAll_last (m : Memory) (d : Dictionary) (attrs : List String) :
    Memory.removeAll (.object m.objects.length) attrs { m with objects := m.objects ++ [d] } =
      { m with objects := m.objects ++ [attrs.foldl Dictionary.remove d] } := by
  induction attrs generalizing d with
  | nil => rfl
  | cons attr attrs ih => rw [Memory.removeAll, Memory.modify_last, ih, List.foldl_cons]

theorem get_removeAll (d : Dictionary) (attrs : List String) (key : String) :
    (attrs.foldl Dictionary.remove d).get key = if key ∈ attrs then none else d.get key := by
  induction attrs generalizing d with
  | nil => rw [List.foldl_nil, if_neg List.not_mem_nil]
  | cons attr attrs ih =>
    rw [List.foldl_cons, ih, Dictionary.get_remove]
    by_cases hkey : key = attr
    · simp [hkey]
    · simp [hkey]

/-- **One call.** The package and the objects from before are as they were, and what is returned has
what is merged under each key. -/
theorem mergeManifest_spec (readToValue : String → Option Value) (manifestStr : String) {m : Memory}
    {window : Dictionary} (hwindow : m.packageWindow = some window) :
    ∃ d, (∀ key, d.get key = merged window (policyManifest readToValue manifestStr) key) ∧
      mergeManifest readToValue manifestStr m =
        some (.object (m.objects.length + 1), { m with
          objects := m.objects ++ [policyManifest readToValue manifestStr, d] }) := by
  have hpackage : m.package.isNone = false := by
    obtain ⟨root, hroot, -⟩ := Option.bind_eq_some_iff.mp hwindow
    rw [hroot]
    rfl
  generalize hpolicy : policyManifest readToValue manifestStr = policy
  generalize hcloned : nonInheritedAttrs.foldl Dictionary.remove
    window.deepCopyWithoutEmptyChildren = cloned
  refine ⟨cloned.mergeDictionary policy, fun key => ?_, ?_⟩
  · rw [merged_eq, Dictionary.get_mergeDictionary, ← hcloned, get_removeAll,
      Dictionary.get_deepCopyWithoutEmptyChildren]
    rfl
  · -- the clone is the object after the policy's manifest
    have hread : Memory.read { m with objects := m.objects ++ [policy] } .packageWindow =
        some window := hwindow
    have hremoved := Memory.removeAll_last { m with objects := m.objects ++ [policy] }
      window.deepCopyWithoutEmptyChildren nonInheritedAttrs
    rw [hcloned] at hremoved
    have hmanifest : Memory.read { m with objects := m.objects ++ [policy] ++ [cloned] }
        (.object m.objects.length) = some policy := by
      simp [Memory.read]
    have hmerged : Memory.modify { m with objects := m.objects ++ [policy] ++ [cloned] }
        (·.mergeDictionary policy) (.object (m.objects ++ [policy]).length) =
        { m with objects := m.objects ++ [policy] ++ [cloned.mergeDictionary policy] } :=
      Memory.modify_last { m with objects := m.objects ++ [policy] } cloned _
    simp only [mergeManifest, Memory.alloc, hpackage, hpolicy, hread, Option.bind_some, hremoved,
      Bool.false_eq_true, if_false]
    rw [hmanifest, Option.map_some, hmerged, List.append_assoc, List.length_append]
    rfl

/-- **Any number of calls.** The manifest of the package stays as it was, and each call returns a
dictionary with what is merged from its policy and the package's section under each key. -/
theorem merge_manifest (readToValue : String → Option Value) (root window : Dictionary)
    (manifestStrs : List String) (objects : List Dictionary) :
    ∃ refs m, mergeManifests readToValue manifestStrs
        { package := some (root.set "window" window.toValue), objects := objects } =
          some (refs, m) ∧
      m.package = some (root.set "window" window.toValue) ∧
      List.Forall₂ (fun manifestStr ref => ∃ d, m.read ref = some d ∧
        ∀ key, d.get key = merged window (policyManifest readToValue manifestStr) key)
        manifestStrs refs := by
  suffices h : ∃ refs added, mergeManifests readToValue manifestStrs
      { package := some (root.set "window" window.toValue), objects := objects } =
        some (refs, { package := some (root.set "window" window.toValue),
                      objects := objects ++ added }) ∧
      List.Forall₂ (fun manifestStr ref => ∃ i d, ref = .object i ∧
        (objects ++ added)[i]? = some d ∧
        ∀ key, d.get key = merged window (policyManifest readToValue manifestStr) key)
        manifestStrs refs by
    obtain ⟨refs, added, hrun, hall⟩ := h
    refine ⟨refs, _, hrun, rfl, hall.imp ?_⟩
    rintro manifestStr ref ⟨i, d, rfl, hd, hget⟩
    exact ⟨d, hd, hget⟩
  -- the calls add objects and change none
  induction manifestStrs generalizing objects with
  | nil => exact ⟨[], [], by rw [List.append_nil]; rfl, .nil⟩
  | cons manifestStr rest ih =>
    obtain ⟨d, hget, hcall⟩ := mergeManifest_spec readToValue manifestStr
      (packageWindow_set root window objects)
    obtain ⟨refs, added, hrun, hall⟩ :=
      ih (objects ++ [policyManifest readToValue manifestStr, d])
    refine ⟨.object (objects.length + 1) :: refs,
      [policyManifest readToValue manifestStr, d] ++ added, ?_, .cons ?_ ?_⟩
    · rw [mergeManifests, hcall, Option.bind_some]
      simp only [hrun, Option.map_some, List.append_assoc]
    · refine ⟨_, d, rfl, ?_, hget⟩
      simp
    · rw [← List.append_assoc]
      exact hall

/-- A dictionary with an empty dictionary in it. -/
def withEmpty : Dictionary :=
  (Dictionary.empty.set "none" Dictionary.empty.toValue).set "b" (.boolean true)

/-- What is inherited is not always the package's value: the empty dictionary in it is left out. -/
theorem withEmpty_not_kept : ¬ ∀ (readToValue : String → Option Value) (root window : Dictionary)
    (manifestStr : String) (ref : Ref) (m : Memory) (d : Dictionary),
    mergeManifest readToValue manifestStr
      { package := some (root.set "window" window.toValue) } = some (ref, m) → m.read ref = some d →
    ∀ (key : String) (value : Value), (policyManifest readToValue manifestStr).get key = none →
      key ∉ nonInheritedAttrs → window.get key = some value →
      (∀ size elems, value = .list size elems → size ≠ 0) →
      (∀ keys vals, value = .dictionary keys vals → keys ≠ ∅) → d.get key = some value := by
  intro hall
  obtain ⟨d, hget, hcall⟩ := mergeManifest_spec (fun _ => none) ""
    (packageWindow_set Dictionary.empty (Dictionary.empty.set "extra" withEmpty.toValue) [])
  have hnone : (policyManifest (fun _ => none) "").get "extra" = none := Dictionary.get_empty _
  have hextra := hall _ _ _ "" _ _ d hcall (by simp [Memory.read]) "extra" withEmpty.toValue hnone
    (by decide) (by rw [Dictionary.get_set, if_pos rfl]) nofun (by
      intro keys vals heq hempty
      injection heq with hkeys
      have hb : (withEmpty.get "b").isSome := by rw [withEmpty, Dictionary.get_set]; rfl
      rw [Dictionary.isSome_get_iff, hkeys, hempty] at hb
      exact Finset.notMem_empty _ hb)
  -- the copy has no value under "none"
  have hempty : Dictionary.empty.deepCopyWithoutEmptyChildren.keys = ∅ := rfl
  have hinherited : d.get "extra" =
      inherited (Dictionary.empty.set "extra" withEmpty.toValue) "extra" := by
    rw [hget, merged, hnone]
  rw [hinherited, inherited, if_neg (by decide), Dictionary.get_set, if_pos rfl,
    Option.bind_some, Value.copyWithoutEmptyChildren_toValue] at hextra
  split at hextra
  · cases hextra
  · have hcopy : withEmpty.deepCopyWithoutEmptyChildren = withEmpty :=
      Option.some.inj (congrArg Value.toDictionary (Option.some.inj hextra))
    have hkey := Dictionary.get_deepCopyWithoutEmptyChildren withEmpty "none"
    have hget : withEmpty.get "none" = some Dictionary.empty.toValue := by
      rw [withEmpty, Dictionary.get_set, if_neg (by decide), Dictionary.get_set, if_pos rfl]
    rw [hcopy, hget, Option.bind_some, Value.copyWithoutEmptyChildren_toValue,
      if_pos hempty] at hkey
    cases hkey

end NodeWebkit.Content
