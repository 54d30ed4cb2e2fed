import Mathlib.Data.List.Nodup
import Mathlib.Data.Set.Finite.Basic
import Mathlib.Logic.Relation

/-!
# Walks over linked lists of entries

Nodes own lists of entries, and an entry may point to a further node. A recursive walk from a node
visits the entries of its list in order, and behind an entry the node that it points to. Nothing
says that the pointers form a tree, or that their targets are there.

* **`walk`** — the visits of a walk, each with the path of positions that leads to it; there is no
  result where the walk meets a missing node or its depth is not enough;
* **`follow`** — what a path leads to;
* **`mem_walk_iff`**, **`walk_nodup`** — a walk visits what the paths lead to, each path once;
* **`finite_iff`** — a walk has a result for some depth exactly when no pointer path is endless and
  none leads to a missing node;
* **`mem_counted_iff`**, **`counted_nodup_iff`** — the items of the visits that count, and when they
  are found once each;
* **`walk_agree`** — walks along two sets of entries that agree in what matters visit the same items
  that matter, in the same order;
* **`Finite.not_leads`** — finite pointers have no cycle;
* **`Finite.link`**, **`not_finite_of_link`** — new pointers to a node leave them finite exactly
  when they do not lead back.
-/

namespace PathWalk

variable {ν ι : Type*} (kids : ν → Option (List (ι × Option ν)))

/-- A visit as it is seen from the node above. -/
def under (k : Nat) (visit : List Nat × ι) : List Nat × ι := (k :: visit.1, visit.2)

/-- Visits the entries of a list from position `k` on. -/
def walkList (below : ν → Option (List (List Nat × ι))) :
    Nat → List (ι × Option ν) → Option (List (List Nat × ι))
  | _, [] => some []
  | k, entry :: entries =>
    (match entry.2 with
      | none => some []
      | some n => below n).bind fun inner =>
        (walkList below (k + 1) entries).map fun others =>
          ([k], entry.1) :: (inner.map (under k) ++ others)

/-- The visits of a walk that is at most `depth` nodes deep. -/
def walk : Nat → ν → Option (List (List Nat × ι))
  | 0, _ => none
  | depth + 1, n => (kids n).bind (walkList (walk depth) 0)

/-- What a path leads to. -/
def follow : ν → List Nat → Option ι
  | _, [] => none
  | n, k :: path =>
    ((kids n).bind (·[k]?)).bind fun entry =>
      match path with
      | [] => some entry.1
      | _ :: _ => entry.2.bind fun m => follow m path

/-- No pointer path from the node is endless or leads to a missing node. -/
inductive Finite : ν → Prop where
  | intro {n : ν} (entries : List (ι × Option ν)) (hkids : kids n = some entries)
      (hbelow : ∀ entry ∈ entries, ∀ m ∈ entry.2, Finite m) : Finite n

variable {kids}

/-- The visits of a list in terms of those below its entries: at each position the entry itself, and
behind it the visits of the node that it points to, with the position in front of their paths. -/
theorem mem_walkList_iff {below : ν → Option (List (List Nat × ι))} {k : Nat}
    {entries : List (ι × Option ν)} {visits : List (List Nat × ι)}
    (h : walkList below k entries = some visits) (path : List Nat) (i : ι) :
    (path, i) ∈ visits ↔ ∃ j entry rest, entries[j]? = some entry ∧ path = (k + j) :: rest ∧
      ((rest = [] ∧ entry.1 = i) ∨
        ∃ m inner, entry.2 = some m ∧ below m = some inner ∧ (rest, i) ∈ inner) := by
  -- induction on the entries; the position of the first one is generalized
  induction entries generalizing k visits with
  | nil =>
    cases h
    refine iff_of_false List.not_mem_nil ?_
    rintro ⟨j, entry, rest, hj, -⟩
    cases hj
  | cons entry entries ih =>
    rw [walkList] at h
    obtain ⟨inner, hinner, h⟩ := Option.bind_eq_some_iff.mp h
    obtain ⟨others, hothers, rfl⟩ := Option.map_eq_some_iff.mp h
    rw [List.mem_cons, List.mem_append, ih hothers, List.mem_map]
    constructor
    · -- the first entry itself, below it, or in the rest
      rintro (hhere | ⟨⟨rest, i'⟩, hmem, heq⟩ | ⟨j, entry', rest, hj, hpath, hvisit⟩)
      · cases hhere
        exact ⟨0, entry, [], rfl, rfl, Or.inl ⟨rfl, rfl⟩⟩
      · cases heq
        refine ⟨0, entry, rest, rfl, rfl, Or.inr ?_⟩
        cases hsub : entry.2 with
        | none =>
          rw [hsub] at hinner
          cases hinner
          cases hmem
        | some m =>
          rw [hsub] at hinner
          exact ⟨m, inner, rfl, hinner, hmem⟩
      · refine ⟨j + 1, entry', rest, hj, ?_, hvisit⟩
        rw [hpath]
        congr 1
        omega
    · rintro ⟨j, entry', rest, hj, hpath, hvisit⟩
      cases j with
      | zero =>
        have heq : entry = entry' := Option.some.inj hj
        subst heq
        -- the path ends here or goes on below
        rcases hvisit with ⟨rfl, rfl⟩ | ⟨m, inner', hsub, hbelow, hmem⟩
        · exact Or.inl (by rw [hpath]; rfl)
        · rw [hsub] at hinner
          rw [show below m = some inner from hinner] at hbelow
          cases hbelow
          exact Or.inr (Or.inl ⟨(rest, i), hmem, by rw [hpath]; rfl⟩)
      | succ j =>
        refine Or.inr (Or.inr ⟨j, entry', rest, hj, ?_, hvisit⟩)
        rw [hpath]
        congr 1
        omega

/-- A list can be visited exactly when all nodes that its entries point to can. -/
theorem walkList_eq_some_iff {below : ν → Option (List (List Nat × ι))} {k : Nat}
    {entries : List (ι × Option ν)} :
    (∃ visits, walkList below k entries = some visits) ↔
      ∀ entry ∈ entries, ∀ m ∈ entry.2, ∃ inner, below m = some inner := by
  induction entries generalizing k with
  | nil => exact iff_of_true ⟨[], rfl⟩ fun entry h => absurd h List.not_mem_nil
  | cons entry entries ih =>
    -- the rest begins one position later
    rw [List.forall_mem_cons, ← ih (k := k + 1)]
    constructor
    · rintro ⟨visits, h⟩
      rw [walkList] at h
      obtain ⟨inner, hinner, h⟩ := Option.bind_eq_some_iff.mp h
      obtain ⟨others, hothers, -⟩ := Option.map_eq_some_iff.mp h
      refine ⟨fun m hm => ⟨inner, ?_⟩, others, hothers⟩
      rw [Option.mem_def.mp hm] at hinner
      exact hinner
    · rintro ⟨hsub, others, hothers⟩
      cases hentry : entry.2 with
      | none => exact ⟨_, by rw [walkList, hentry, hothers]; rfl⟩
      | some m =>
        obtain ⟨inner, hinner⟩ := hsub m hentry
        exact ⟨_, by simp only [walkList, hentry, hothers, hinner]; rfl⟩

/-- **A walk visits what the paths lead to**, each with its path. Induction on the depth; the list
of a node is taken by `mem_walkList_iff`. -/
theorem mem_walk_iff {depth : Nat} {n : ν} {visits : List (List Nat × ι)}
    (h : walk kids depth n = some visits) (path : List Nat) (i : ι) :
    (path, i) ∈ visits ↔ follow kids n path = some i := by
  induction depth generalizing n visits path with
  | zero => cases h
  | succ depth ih =>
    rw [walk] at h
    obtain ⟨entries, hkids, h⟩ := Option.bind_eq_some_iff.mp h
    rw [mem_walkList_iff h]
    constructor
    · rintro ⟨j, entry, rest, hj, rfl, hvisit⟩
      rw [Nat.zero_add, follow, hkids, Option.bind_some, hj, Option.bind_some]
      rcases hvisit with ⟨rfl, rfl⟩ | ⟨m, inner, hsub, hbelow, hmem⟩
      · rfl
      · have hfollow := (ih hbelow rest).mp hmem
        cases rest with
        | nil => cases hfollow
        | cons k rest =>
          simp only [hsub, Option.bind_some]
          exact hfollow
    · intro hfollow
      -- a path that leads somewhere names an entry of the list first
      cases path with
      | nil => cases hfollow
      | cons k rest =>
        rw [follow, hkids, Option.bind_some] at hfollow
        obtain ⟨entry, hj, hfollow⟩ := Option.bind_eq_some_iff.mp hfollow
        refine ⟨k, entry, rest, hj, by rw [Nat.zero_add], ?_⟩
        cases rest with
        | nil => exact Or.inl ⟨rfl, Option.some.inj hfollow⟩
        | cons k' rest =>
          obtain ⟨m, hsub, hfollow⟩ := Option.bind_eq_some_iff.mp hfollow
          have hall := walkList_eq_some_iff.mp ⟨visits, h⟩
          obtain ⟨inner, hinner⟩ := hall entry (List.mem_of_getElem? hj) m hsub
          exact Or.inr ⟨m, inner, hsub, hinner, (ih hinner (k' :: rest)).mpr hfollow⟩

/-- The paths of a list are different: those through different entries begin with different
positions, and those through one entry are different by assumption. -/
theorem walkList_nodup {below : ν → Option (List (List Nat × ι))}
    (hbelow : ∀ m inner, below m = some inner →
      (inner.map Prod.fst).Nodup ∧ [] ∉ inner.map Prod.fst) {k : Nat}
    {entries : List (ι × Option ν)} {visits : List (List Nat × ι)}
    (h : walkList below k entries = some visits) : (visits.map Prod.fst).Nodup := by
  induction entries generalizing k visits with
  | nil =>
    cases h
    exact List.nodup_nil
  | cons entry entries ih =>
    rw [walkList] at h
    obtain ⟨inner, hinner, h⟩ := Option.bind_eq_some_iff.mp h
    obtain ⟨others, hothers, rfl⟩ := Option.map_eq_some_iff.mp h
    obtain ⟨hnodup, hempty⟩ : (inner.map Prod.fst).Nodup ∧ [] ∉ inner.map Prod.fst := by
      cases hsub : entry.2 with
      | none =>
        rw [hsub] at hinner
        cases hinner
        exact ⟨List.nodup_nil, List.not_mem_nil⟩
      | some m =>
        rw [hsub] at hinner
        exact hbelow m inner hinner
    -- what comes later starts at a later position
    have hlater : ∀ path ∈ others.map Prod.fst, ∃ j rest, path = (k + 1 + j) :: rest := by
      intro path hpath
      obtain ⟨⟨path, i⟩, hmem, rfl⟩ := List.mem_map.mp hpath
      obtain ⟨j, -, rest, -, heq, -⟩ := (mem_walkList_iff hothers path i).mp hmem
      exact ⟨j, rest, heq⟩
    have hunder : (inner.map (under k)).map Prod.fst = (inner.map Prod.fst).map (k :: ·) := by
      rw [List.map_map, List.map_map]
      rfl
    rw [List.map_cons, List.map_append, hunder, List.nodup_cons, List.nodup_append]
    refine ⟨?_, hnodup.map List.cons_injective, ih hothers, ?_⟩
    · rw [List.mem_append, List.mem_map]
      rintro (⟨path, hpath, heq⟩ | hmem)
      · cases heq
        exact hempty hpath
      · obtain ⟨j, rest, heq⟩ := hlater _ hmem
        have hk := (List.cons.inj heq).1
        omega
    · intro path hpath path' hpath' heq
      obtain ⟨rest, -, rfl⟩ := List.mem_map.mp hpath
      obtain ⟨j, rest', rfl⟩ := hlater path' hpath'
      have hk := (List.cons.inj heq).1
      omega

/-- **A walk visits each path once.** An item may be visited several times, by as many paths. -/
theorem walk_nodup {depth : Nat} {n : ν} {visits : List (List Nat × ι)}
    (h : walk kids depth n = some visits) : (visits.map Prod.fst).Nodup := by
  induction depth generalizing n visits with
  | zero => cases h
  | succ depth ih =>
    rw [walk] at h
    obtain ⟨entries, -, h⟩ := Option.bind_eq_some_iff.mp h
    refine walkList_nodup (fun m inner hinner => ⟨ih hinner, fun hmem => ?_⟩) h
    obtain ⟨⟨path, i⟩, hvisit, heq⟩ := List.mem_map.mp hmem
    have hfollow := (mem_walk_iff hinner path i).mp hvisit
    rw [show path = [] from heq] at hfollow
    cases hfollow

theorem walkList_mono {below below' : ν → Option (List (List Nat × ι))}
    (hmono : ∀ m inner, below m = some inner → below' m = some inner) {k : Nat}
    {entries : List (ι × Option ν)} {visits : List (List Nat × ι)}
    (h : walkList below k entries = some visits) : walkList below' k entries = some visits := by
  induction entries generalizing k visits with
  | nil => exact h
  | cons entry entries ih =>
    rw [walkList] at h ⊢
    obtain ⟨inner, hinner, h⟩ := Option.bind_eq_some_iff.mp h
    obtain ⟨others, hothers, rfl⟩ := Option.map_eq_some_iff.mp h
    rw [ih hothers]
    cases hsub : entry.2 with
    | none =>
      rw [hsub] at hinner
      cases hinner
      rfl
    | some m =>
      rw [hsub] at hinner
      simp only [hmono m inner hinner]
      rfl

/-- A walk that has a result has the same one for any greater depth. -/
theorem walk_mono {depth depth' : Nat} {n : ν} {visits : List (List Nat × ι)}
    (h : walk kids depth n = some visits) (hle : depth ≤ depth') :
    walk kids depth' n = some visits := by
  induction depth generalizing depth' n visits with
  | zero => cases h
  | succ depth ih =>
    cases depth' with
    | zero => exact absurd hle (by omega)
    | succ depth' =>
      rw [walk] at h ⊢
      obtain ⟨entries, hkids, h⟩ := Option.bind_eq_some_iff.mp h
      rw [hkids, Option.bind_some]
      exact walkList_mono (fun m inner hinner => ih hinner (by omega)) h

/-- One depth is enough for all entries of a list. -/
theorem exists_depth {entries : List (ι × Option ν)}
    (h : ∀ entry ∈ entries, ∀ m ∈ entry.2, ∃ depth visits, walk kids depth m = some visits) :
    ∃ depth, ∀ entry ∈ entries, ∀ m ∈ entry.2, ∃ visits, walk kids depth m = some visits := by
  induction entries with
  | nil => exact ⟨0, fun entry hentry => absurd hentry List.not_mem_nil⟩
  | cons entry entries ih =>
    rw [List.forall_mem_cons] at h
    obtain ⟨depth, hdepth⟩ := ih h.2
    cases hsub : entry.2 with
    | none =>
      refine ⟨depth, ?_⟩
      rw [List.forall_mem_cons]
      refine ⟨fun m hm => ?_, hdepth⟩
      rw [hsub] at hm
      cases hm
    | some m =>
      -- the larger of the two depths is enough for both
      obtain ⟨depth', visits', hvisits'⟩ := h.1 m hsub
      refine ⟨max depth depth', ?_⟩
      rw [List.forall_mem_cons]
      constructor
      · intro m' hm'
        rw [hsub] at hm'
        cases hm'
        exact ⟨visits', walk_mono hvisits' (Nat.le_max_right ..)⟩
      · intro entry' hentry' m' hm'
        obtain ⟨visits, hvisits⟩ := hdepth entry' hentry' m' hm'
        exact ⟨visits, walk_mono hvisits (Nat.le_max_left ..)⟩

/-- **Finite pointers.** A walk has a result for some depth exactly when the pointers are finite. -/
theorem finite_iff {n : ν} : Finite kids n ↔ ∃ depth visits, walk kids depth n = some visits := by
  constructor
  · intro h
    induction h with
    | intro entries hkids _ ih =>
      obtain ⟨depth, hdepth⟩ := exists_depth ih
      obtain ⟨visits, hvisits⟩ := walkList_eq_some_iff.mpr hdepth
      exact ⟨depth + 1, visits, by rw [walk, hkids]; exact hvisits⟩
  · rintro ⟨depth, visits, h⟩
    induction depth generalizing n visits with
    | zero => cases h
    | succ depth ih =>
      rw [walk] at h
      obtain ⟨entries, hkids, h⟩ := Option.bind_eq_some_iff.mp h
      refine .intro entries hkids fun entry hentry m hm => ?_
      obtain ⟨inner, hinner⟩ := walkList_eq_some_iff.mp ⟨visits, h⟩ entry hentry m hm
      exact ih inner hinner

/-- An item is visited finitely often, where the pointers are finite: all its paths are among the
visits of one walk. -/
theorem Finite.ways {n : ν} (h : Finite kids n) (i : ι) :
    {path | follow kids n path = some i}.Finite := by
  obtain ⟨depth, visits, hvisits⟩ := finite_iff.mp h
  refine (visits.map Prod.fst).finite_toSet.subset fun path hpath => ?_
  exact List.mem_map.mpr ⟨(path, i), (mem_walk_iff hvisits path i).mpr hpath, rfl⟩

/-! ## Entries that agree

Two sets of entries may differ in entries that a walk has nothing to look for in: an item that does
not count, and no pointer to a further node. The positions on the paths then differ, so what is
compared are the items of the visits. -/

section Agree

variable {kids kids' : ν → Option (List (ι × Option ν))} (counts : ι → Bool)

/-- An entry matters where its item counts or where it leads further. -/
def Matters (entry : ι × Option ν) : Bool := counts entry.1 || entry.2.isSome

/-- The items that count among the visits, in their order. -/
def counted (visits : List (List Nat × ι)) : List ι := (visits.map Prod.snd).filter counts

/-- The items that count below the entries of a list. -/
def gather (below : ν → Option (List ι)) : List (ι × Option ν) → Option (List ι)
  | [] => some []
  | entry :: entries =>
    (match entry.2 with
      | none => some []
      | some n => below n).bind fun inner =>
        (gather below entries).map fun others =>
          (if counts entry.1 then [entry.1] else []) ++ (inner ++ others)

variable {counts}

/-- The items that count are those that some path leads to. What is counted does not show the paths.
-/
theorem mem_counted_iff {depth : Nat} {n : ν} {visits : List (List Nat × ι)}
    (h : walk kids depth n = some visits) (i : ι) :
    i ∈ counted counts visits ↔ counts i = true ∧ ∃ path, follow kids n path = some i := by
  rw [counted, List.mem_filter, List.mem_map, and_comm]
  refine and_congr_right fun _ => ?_
  constructor
  · rintro ⟨⟨path, i'⟩, hvisit, rfl⟩
    exact ⟨path, (mem_walk_iff h path i').mp hvisit⟩
  · rintro ⟨path, hfollow⟩
    exact ⟨(path, i), (mem_walk_iff h path i).mpr hfollow, rfl⟩

/-- They are found once each exactly when one path at most leads to each. -/
theorem counted_nodup_iff {depth : Nat} {n : ν} {visits : List (List Nat × ι)}
    (h : walk kids depth n = some visits) :
    (counted counts visits).Nodup ↔ ∀ i, counts i = true → ∀ path path',
      follow kids n path = some i → follow kids n path' = some i → path = path' := by
  have hnodup : (visits.filter (counts ∘ Prod.snd)).Nodup := ((walk_nodup h).of_map _).filter _
  rw [counted, List.filter_map, List.nodup_map_iff_inj_on hnodup]
  constructor
  · intro hinj i hcounts path path' hpath hpath'
    -- two ways to the item are two visits
    have hmem : ∀ p, follow kids n p = some i → (p, i) ∈ visits.filter (counts ∘ Prod.snd) := by
      intro p hp
      exact List.mem_filter.mpr ⟨(mem_walk_iff h p i).mpr hp, hcounts⟩
    have heq := hinj _ (hmem path hpath) _ (hmem path' hpath') rfl
    exact congrArg Prod.fst heq
  · rintro hone ⟨path, i⟩ hx ⟨path', i'⟩ hy heq
    obtain ⟨hvisit, hcounts⟩ := List.mem_filter.mp hx
    obtain ⟨hvisit', -⟩ := List.mem_filter.mp hy
    have hi : i = i' := heq
    subst hi
    rw [hone i hcounts path path' ((mem_walk_iff h path i).mp hvisit)
      ((mem_walk_iff h path' i).mp hvisit')]

/-- What a visit of a list finds is what is gathered from it: `gather` is the walk without the
paths. -/
theorem counted_walkList (below : ν → Option (List (List Nat × ι))) (k : Nat)
    (entries : List (ι × Option ν)) :
    (walkList below k entries).map (counted counts) =
      gather counts (fun n => (below n).map (counted counts)) entries := by
  induction entries generalizing k with
  | nil => rfl
  | cons entry entries ih =>
    rw [walkList, gather, ← ih (k + 1)]
    have hinner : (match entry.2 with
        | none => some []
        | some n => (below n).map (counted counts)) = (match entry.2 with
        | none => some []
        | some n => below n).map (counted counts) := by
      cases entry.2 with
      | none => rfl
      | some n => rfl
    rw [hinner]
    cases (match entry.2 with | none => some [] | some n => below n) with
    | none => rfl
    | some inner =>
      rw [Option.map_some, Option.bind_some, Option.bind_some]
      cases walkList below (k + 1) entries with
      | none => rfl
      | some others =>
        -- the path of a visit plays no part
        have hunder : (inner.map (under k)).map Prod.snd = inner.map Prod.snd := by
          rw [List.map_map]
          rfl
        simp only [Option.map_some, counted, List.map_cons, List.map_append, hunder,
          List.filter_cons, List.filter_append]
        split
        · rfl
        · rfl

/-- Entries that do not matter add nothing, so it makes no difference if they are left out. -/
theorem gather_filter (below : ν → Option (List ι)) (entries : List (ι × Option ν)) :
    gather counts below (entries.filter (Matters counts)) = gather counts below entries := by
  induction entries with
  | nil => rfl
  | cons entry entries ih =>
    rw [List.filter_cons]
    split
    · rw [gather, gather, ih]
    · rename_i hnot
      obtain ⟨hcounts, hsub⟩ : counts entry.1 = false ∧ entry.2 = none := by
        simpa [Matters] using hnot
      rw [gather, ih, hsub, hcounts]
      simp

/-- More that is found below a list's entries does not change what was found there. -/
theorem gather_mono {below below' : ν → Option (List ι)}
    (hmono : ∀ n items, below n = some items → below' n = some items)
    {entries : List (ι × Option ν)} {items : List ι}
    (h : gather counts below entries = some items) :
    gather counts below' entries = some items := by
  induction entries generalizing items with
  | nil => exact h
  | cons entry entries ih =>
    rw [gather] at h ⊢
    obtain ⟨inner, hinner, h⟩ := Option.bind_eq_some_iff.mp h
    obtain ⟨others, hothers, rfl⟩ := Option.map_eq_some_iff.mp h
    rw [ih hothers]
    cases hsub : entry.2 with
    | none =>
      rw [hsub] at hinner
      cases hinner
      rfl
    | some n =>
      rw [hsub] at hinner
      simp only [hmono n inner hinner]
      rfl

/-- **Walks that agree.** Where the entries of every node that is there agree in what matters with
other entries, a walk along these finds the same items that count. The depth is the same: only what
matters leads further. -/
theorem walk_agree
    (hagree : ∀ n entries, kids n = some entries → ∃ entries', kids' n = some entries' ∧
      entries'.filter (Matters counts) = entries.filter (Matters counts))
    {depth : Nat} {n : ν} {items : List ι}
    (h : (walk kids depth n).map (counted counts) = some items) :
    (walk kids' depth n).map (counted counts) = some items := by
  induction depth generalizing n items with
  | zero => cases h
  | succ depth ih =>
    rw [walk] at h ⊢
    cases hkids : kids n with
    | none =>
      rw [hkids] at h
      cases h
    | some entries =>
      obtain ⟨entries', hkids', hsame⟩ := hagree n entries hkids
      rw [hkids, Option.bind_some, counted_walkList, ← gather_filter, ← hsame, gather_filter] at h
      rw [hkids', Option.bind_some, counted_walkList]
      exact gather_mono (fun m inner hinner => ih hinner) h

end Agree

/-! ## Cycles

Where pointers are finite, following them comes to an end. Nothing leads back to where it came from,
and a new pointer keeps this so long as it does not close a cycle. -/

variable (kids) in
/-- An entry of the node points to the other one. -/
def Points (n m : ν) : Prop :=
  ∃ entries, kids n = some entries ∧ ∃ entry ∈ entries, entry.2 = some m

variable (kids) in
/-- Pointers lead from the node to the other one. -/
def Leads : ν → ν → Prop := Relation.ReflTransGen (Points kids)

/-- The pointers are finite from a node that is pointed to. -/
theorem Finite.next {n m : ν} (h : Finite kids n) (hm : Points kids n m) : Finite kids m := by
  obtain ⟨entries, hkids, hbelow⟩ := h
  obtain ⟨entries', hkids', entry, hentry, hsub⟩ := hm
  rw [hkids] at hkids'
  cases hkids'
  exact hbelow entry hentry m hsub

theorem Finite.of_leads {n m : ν} (h : Finite kids n) (hm : Leads kids n m) : Finite kids m := by
  induction hm with
  | refl => exact h
  | tail _ hpoints ih => exact ih.next hpoints

/-- **No way back.** What a node with finite pointers points to does not lead to it. -/
theorem Finite.not_leads {n m : ν} (h : Finite kids n) (hm : Points kids n m) :
    ¬ Leads kids m n := by
  intro hback
  induction h generalizing m with
  | intro entries hkids _ ih =>
    obtain ⟨entries', hkids', entry, hentry, hsub⟩ := hm
    rw [hkids] at hkids'
    cases hkids'
    -- the cycle goes through the node below, too
    rcases Relation.ReflTransGen.cases_head hback with rfl | ⟨k, hpoints, hrest⟩
    · exact ih entry hentry _ hsub ⟨entries, hkids, entry, hentry, hsub⟩ .refl
    · exact ih entry hentry m hsub hpoints
        (hrest.tail ⟨entries, hkids, entry, hentry, hsub⟩)

/-- **Redirected pointers.** Where every pointer on the way is one from before or goes to a node
from which the pointers are finite, they stay finite. -/
theorem Finite.redirect {kids' : ν → Option (List (ι × Option ν))} {n : ν} (h : Finite kids n)
    (hkids' : ∀ m, Leads kids n m → (kids' m).isSome)
    (hpoints : ∀ m k, Leads kids n m → Points kids' m k → Points kids m k ∨ Finite kids' k) :
    Finite kids' n := by
  induction h with
  | intro entries hkids _ ih =>
    obtain ⟨entries', hentries'⟩ := Option.isSome_iff_exists.mp (hkids' _ .refl)
    refine .intro entries' hentries' fun entry hentry m hm => ?_
    rcases hpoints _ m .refl ⟨entries', hentries', entry, hentry, hm⟩ with hold | hfinite
    · have hhead := hold
      obtain ⟨old, hold, entry, hentry, hsub⟩ := hold
      rw [hkids] at hold
      cases hold
      exact ih entry hentry m hsub (fun k hk => hkids' k (.head hhead hk))
        fun k k' hk => hpoints k k' (.head hhead hk)
    · exact hfinite

section Link

/-! Some nodes, the holders, get a pointer to the node `k`. -/

variable {kids' : ν → Option (List (ι × Option ν))} {k : ν} (Holds : ν → Prop)

/-- **Where the new pointers do not lead back, finite pointers stay finite.** From a holder one
comes to `k` by a new pointer, and from there on only old ones are met. -/
theorem Finite.link (hk : Finite kids k)
    (hkids' : ∀ m, Finite kids m → (kids' m).isSome)
    (hpoints : ∀ m m', Points kids' m m' → Points kids m m' ∨ (m' = k ∧ Holds m))
    (hcycle : ∀ m, Holds m → ¬ Leads kids k m) {n : ν} (hn : Finite kids n) : Finite kids' n := by
  have hk' : Finite kids' k := by
    refine hk.redirect (fun m hm => hkids' m (hk.of_leads hm)) fun m m' hm hnew => ?_
    rcases hpoints m m' hnew with hold | ⟨-, hholds⟩
    · exact Or.inl hold
    · exact absurd hm (hcycle m hholds)
  refine hn.redirect (fun m hm => hkids' m (hn.of_leads hm)) fun m m' _ hnew => ?_
  rcases hpoints m m' hnew with hold | ⟨rfl, -⟩
  · exact Or.inl hold
  · exact Or.inr hk'

/-- **Where they do, there is a cycle**: from `k` to the holder by old pointers, and back by the new
one. -/
theorem not_finite_of_link (hold : ∀ m m', ¬ Holds m → Points kids m m' → Points kids' m m')
    (hnew : ∀ m, Holds m → Points kids' m k) {m : ν} (hm : Holds m) (hleads : Leads kids k m) :
    ¬ Finite kids' k := by
  -- the way to the first holder is there still
  have hway : ∀ n, Leads kids n m → ∃ m', Holds m' ∧ Leads kids' n m' := by
    intro n hn
    induction hn using Relation.ReflTransGen.head_induction_on with
    | refl => exact ⟨m, hm, .refl⟩
    | @head n _ hpoints _ ih =>
      by_cases hholds : Holds n
      · exact ⟨n, hholds, .refl⟩
      · obtain ⟨m', hm', hrest⟩ := ih
        exact ⟨m', hm', .head (hold _ _ hholds hpoints) hrest⟩
  intro hfinite
  obtain ⟨m', hm', hleads'⟩ := hway k hleads
  exact (hfinite.of_leads hleads').not_leads (hnew m' hm') hleads'

end Link

end PathWalk
