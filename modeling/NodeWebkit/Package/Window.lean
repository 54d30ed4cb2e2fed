import NodeWebkit.Package.Package

/-!
# The window section of the package

`Package::window` gives the pointer that `GetDictionaryWithoutPathExpansion` stores, and nothing
else is stored in the variable before. `InitFromPath` adds a section where the manifest has none.

* **`Package.manifestRead`** — the JSON object that `InitFromPath` reads;
* **`Package.Initialised`** — the ways in which a package is initialised;
* **`Package.WindowDefined`** — the section is a part of the manifest, and callers use it as such.

`window_defined_iff` says which manifests have it.
-/

namespace NodeWebkit

namespace Dictionary

/-- `GetDictionaryWithoutPathExpansion`; where it returns `false` nothing is stored. -/
def getDictionary (d : Dictionary) (key : String) : Option Dictionary :=
  match d.find? fun entry => entry.1 = key with
  | some (_, .dictionary entries) => some entries
  | _ => none

end Dictionary

/-- What a pointer variable holds after `GetDictionaryWithoutPathExpansion`. -/
inductive WindowPointer where
  | unset
  | dictionary (d : Dictionary)

namespace Package

/-- `Package::window`; it needs a manifest. -/
def window (p : Package) : Option WindowPointer :=
  p.root.map fun root =>
    match Dictionary.getDictionary root "window" with
    | some d => .dictionary d
    | none => .unset

/-- The section that `MergeManifest` copies, if there is a package. A pointer that is unset is used
as if it were one. -/
def mergedWindow : Option Package → Option (Option Dictionary)
  | none => some none
  | some p =>
    match p.window with
    | some (.dictionary d) => some (some d)
    | _ => none

/-- `Package::Package(FilePath)`. -/
def ofPath (sys : System) (cl : CommandLine) (path : String) : Package :=
  match initFromPath sys { selfExtract := false } path with
  | (true, p) => p
  | (false, p) => initWithDefault cl p

/-- The JSON object in the manifest file that `InitFromPath` reads. -/
def manifestRead (sys : System) (p : Package) (pathIn : String) : Option Dictionary :=
  match p.extractPath sys pathIn with
  | (none, _) => none
  | (some extractedPath, p) =>
    let folder := if extractedPath.isSome then p.extracted else sys.folder pathIn
    folder.findManifest.bind fun (_, node) =>
      match sys.deserialize node with
      | .ok (.dictionary root) => some root
      | _ => none

/-- The package was initialised from a manifest, or with the default. -/
inductive Initialised (sys : System) : Option Dictionary → Package → Prop where
  | fromPath {p p' : Package} {pathIn : String} {root : Dictionary}
      (hread : p.manifestRead sys pathIn = some root)
      (hinit : p.initFromPath sys pathIn = (true, p')) : Initialised sys (some root) p'
  | default (cl : CommandLine) (p : Package) : Initialised sys none (p.initWithDefault cl)

/-- The section is a dictionary inside the manifest, and `MergeManifest` has one to copy. -/
structure WindowDefined (p : Package) : Prop where
  part : ∃ root d, p.root = some root ∧ ("window", Value.dictionary d) ∈ root ∧
    p.window = some (.dictionary d)
  merged : (mergedWindow (some p)).isSome

end Package

/-- The manifest has no section, or one that is a dictionary. -/
def WindowFits (root : Dictionary) : Prop :=
  Dictionary.hasKey root "window" = false ∨ (Dictionary.getDictionary root "window").isSome

instance (root : Dictionary) : Decidable (WindowFits root) :=
  inferInstanceAs (Decidable (_ ∨ _))

namespace Dictionary

/-- Setting a key changes what is found under this key, and only a dictionary is found as one. -/
theorem getDictionary_set (d : Dictionary) (key : String) (value : Value) (k : String) :
    (d.set key value).getDictionary k =
      if k = key then (match value with | .dictionary entries => some entries | _ => none)
      else d.getDictionary k := by
  unfold getDictionary set
  rw [List.find?_append]
  by_cases hk : k = key
  · -- the old entries of the key are filtered out
    have hnone : (d.filter fun entry => entry.1 ≠ key).find? (fun entry => entry.1 = k) = none := by
      rw [List.find?_eq_none]
      intro entry hentry
      have hne := (List.mem_filter.mp hentry).2
      simp only [decide_eq_true_eq] at hne ⊢
      rw [hk]
      exact hne
    rw [if_pos hk, hnone, Option.none_or, List.find?_cons, hk]
    simp only [decide_true]
    cases value <;> rfl
  · -- the filter leaves the entries of other keys
    have hkeep : (d.filter fun entry => entry.1 ≠ key).find? (fun entry => entry.1 = k) =
        d.find? fun entry => entry.1 = k := by
      rw [List.find?_filter]
      congr 1
      funext entry
      by_cases hentry : entry.1 = k
      · simp [hentry, hk]
      · simp [hentry]
    have hlast : [(key, value)].find? (fun entry => entry.1 = k) = none := by
      rw [List.find?_cons_of_neg (by simpa using Ne.symm hk), List.find?_nil]
    rw [if_neg hk, hkeep, hlast, Option.or_none]

/-- What is found under a key is an entry of the dictionary. -/
theorem mem_of_getDictionary {d entries : Dictionary} {key : String}
    (h : d.getDictionary key = some entries) : (key, Value.dictionary entries) ∈ d := by
  unfold getDictionary at h
  split at h
  next k entries' hfind =>
    cases h
    have hkey : k = key := by simpa using List.find?_some hfind
    rw [← hkey]
    exact List.mem_of_find?_eq_some hfind
  next => cases h

end Dictionary

namespace Package

variable {sys : System} {p p' : Package}

/-- The section is defined where the lookup succeeds. Otherwise the pointer is not stored to, and is
what the stack happened to have. -/
theorem windowDefined_iff {root : Dictionary} (hroot : p.root = some root) :
    p.WindowDefined ↔ (Dictionary.getDictionary root "window").isSome := by
  constructor
  · intro ⟨⟨root', d, hroot', _, hwindow⟩, _⟩
    cases hroot.symm.trans hroot'
    rw [window, hroot, Option.map_some] at hwindow
    split at hwindow
    next d' hd' =>
      rw [hd']
      rfl
    next => cases hwindow
  · intro hsome
    obtain ⟨d, hd⟩ := Option.isSome_iff_exists.mp hsome
    have hwindow : p.window = some (.dictionary d) := by
      rw [window, hroot, Option.map_some, hd]
    refine ⟨⟨root, d, hroot, Dictionary.mem_of_getDictionary hd, hwindow⟩, ?_⟩
    rw [mergedWindow, hwindow]
    rfl

theorem getDictionary_relativePathToURI (sys : System) (path : String) (root : Dictionary) :
    Dictionary.getDictionary (relativePathToURI sys path root) "window" =
      Dictionary.getDictionary root "window" := by
  unfold relativePathToURI
  split
  · rfl
  · split
    · rfl
    · rw [Dictionary.getDictionary_set, if_neg (by decide)]

/-- The manifest of an accepted package: a section is added where there is none. -/
theorem root_of_initFromPath {pathIn : String} {root : Dictionary}
    (hread : p.manifestRead sys pathIn = some root)
    (hinit : p.initFromPath sys pathIn = (true, p')) :
    ∃ path, p'.root = some (relativePathToURI sys path
      (if Dictionary.hasKey root "window" then root
        else Dictionary.set root "window" (.dictionary [("position", .string "center")]))) := by
  unfold manifestRead at hread
  unfold initFromPath at hinit
  split at hinit
  next => cases hinit
  next extractedPath q hextract =>
    rw [hextract] at hread
    dsimp only at hread hinit
    obtain ⟨⟨name, node⟩, hfind, hread⟩ := Option.bind_eq_some_iff.mp hread
    rw [hfind] at hinit
    dsimp only at hread hinit
    -- the manifest was read as a dictionary, so the fields are all that can fail
    split at hread
    next root' hnode =>
      cases hread
      unfold readManifest at hinit
      rw [hnode] at hinit
      dsimp only at hinit
      split at hinit
      next => cases hinit
      next =>
        cases hinit
        exact ⟨_, rfl⟩
    next => cases hread

/-- **The window section.** It is defined for the default package, and for a package with a manifest
exactly if the manifest has no section or one that is a dictionary. -/
theorem window_defined_iff {m : Option Dictionary} (h : Initialised sys m p) :
    p.WindowDefined ↔ ∀ root ∈ m, WindowFits root := by
  cases h with
  | fromPath hread hinit =>
    rename_i q pathIn root
    obtain ⟨path, hroot⟩ := root_of_initFromPath hread hinit
    rw [windowDefined_iff hroot, getDictionary_relativePathToURI]
    simp only [Option.mem_def, Option.some.injEq, forall_eq', WindowFits]
    cases hkey : Dictionary.hasKey root "window" with
    | true => simp
    | false =>
      simp only [Bool.false_eq_true, if_false, true_or, iff_true]
      rw [Dictionary.getDictionary_set, if_pos rfl]
      rfl
  | default cl q =>
    refine iff_of_true ?_ nofun
    exact (windowDefined_iff rfl).mpr rfl

/-! ## Both constructors -/

/-- What is accepted has a manifest that is a JSON object, since anything else is reported as an
error. -/
theorem exists_manifestRead {pathIn : String} (hinit : p.initFromPath sys pathIn = (true, p')) :
    ∃ root, p.manifestRead sys pathIn = some root := by
  unfold initFromPath at hinit
  unfold manifestRead
  obtain ⟨⟨extracted, q⟩, hextract⟩ : ∃ result, extractPath sys p pathIn = result := ⟨_, rfl⟩
  simp only [hextract] at hinit ⊢
  -- each step that can fail would have failed in the other function as well
  cases extracted with
  | none => cases hinit
  | some extractedPath =>
    dsimp only at hinit ⊢
    obtain ⟨manifest, hfind⟩ : ∃ manifest,
        (if extractedPath.isSome = true then q.extracted else sys.folder pathIn).findManifest =
          manifest := ⟨_, rfl⟩
    simp only [hfind] at hinit ⊢
    cases manifest with
    | none => cases hinit
    | some manifest =>
      obtain ⟨name, node⟩ := manifest
      unfold readManifest at hinit
      dsimp only [Option.bind_some] at hinit ⊢
      cases hnode : sys.deserialize node with
      | error error =>
        rw [hnode] at hinit
        cases hinit
      | ok value =>
        cases value with
        | dictionary root => exact ⟨root, rfl⟩
        | _ =>
          rw [hnode] at hinit
          cases hinit

/-- Every package of the command line is initialised, by one of its candidates or as the default
package. -/
theorem initialised_load (sys : System) (cl : CommandLine) :
    ∃ m, Initialised sys m (load sys cl).2 := by
  suffices h : ∀ cs (p : Package), ∃ m, Initialised sys m (loadFrom sys cl cs p).2 from h _ _
  intro cs
  induction cs with
  | nil => exact fun p => ⟨none, .default cl _⟩
  | cons c cs ih =>
    intro p
    unfold loadFrom
    split
    next q htry =>
      obtain ⟨root, hread⟩ := exists_manifestRead htry
      exact ⟨some root, .fromPath hread htry⟩
    next q _ => exact ih q

/-- Every package of a path is initialised, as the default package where the path was not accepted.
-/
theorem initialised_ofPath (sys : System) (cl : CommandLine) (path : String) :
    ∃ m, Initialised sys m (ofPath sys cl path) := by
  unfold ofPath
  split
  next p hinit =>
    obtain ⟨root, hread⟩ := exists_manifestRead hinit
    exact ⟨some root, .fromPath hread hinit⟩
  next p _ => exact ⟨none, .default cl p⟩

/-- The package in `/app` of a system where its manifest is the given one. -/
def appWith (manifest : Dictionary) : System :=
  { appOnly with deserialize := fun _ => .ok (.dictionary manifest) }

/-- A manifest without a section gets one, so the pointer is set. -/
theorem window_defined_noSection :
    (({} : Package).initFromPath (appWith [("name", .string "app")]) "/app").2.WindowDefined := by
  have hinit : Initialised (appWith [("name", .string "app")]) (some [("name", .string "app")])
      (({} : Package).initFromPath (appWith [("name", .string "app")]) "/app").2 :=
    @Initialised.fromPath _ {} _ "/app" _ rfl rfl
  refine (window_defined_iff hinit).mpr fun root hroot => ?_
  cases hroot
  decide

/-- A section that is no dictionary leaves the pointer unset: the key is there, so no section is
added. -/
theorem textSection_not_defined : ¬ ∀ (sys : System) (m : Option Dictionary) (p : Package),
    Initialised sys m p → p.WindowDefined := by
  intro hall
  have hdefined := hall (appWith [("name", .string "app"), ("window", .string "big")]) _
    (({} : Package).initFromPath
      (appWith [("name", .string "app"), ("window", .string "big")]) "/app").2
    (@Initialised.fromPath _ {} _ "/app" _ rfl rfl)
  cases hdefined.merged

end Package

end NodeWebkit
