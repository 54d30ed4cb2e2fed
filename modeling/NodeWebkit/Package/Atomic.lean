import NodeWebkit.Package.Package

/-!
# Loading is atomic per candidate

What the constructor leaves behind of the candidates that it tried before. All of them write to one
object and one temporary directory.

* **`App`** — what a package says about its application;
* **`tryCandidate_spec`** — what a candidate does to a package that was not touched;
* **`load_atomic_iff`** — when the failed candidates leave nothing behind.

A candidate goes through three stages: it is extracted, a manifest is looked for, and the manifest
is read. Each stage has one lemma that says what it leaves (`extractPath_spec`, `initFromPath_spec`,
`readManifest_spec`), and `Tried` is what they come to together: whether the candidate is accepted,
what is in the temporary directory afterwards, and whether an error was reported. The lemmas about
all candidates only use `Tried`.
-/

namespace NodeWebkit

/-- What a package says about its application, with the contents of the extraction directory. -/
@[ext]
structure App where
  path : String := ""
  root : Option Dictionary := none
  packageString : String := ""
  extracted : Folder := fun _ => none

def Package.app (p : Package) : App := ⟨p.path, p.root, p.packageString, p.extracted⟩

/-! ## Candidates -/

/-- What is on the disk at the path of a candidate. -/
inductive Disk where
  /-- The path cannot be made absolute. -/
  | invalid
  | folder
  /-- No folder, and no temporary directory to extract to. -/
  | noTemp
  | zip (z : Zip)

namespace Candidate

def disk (sys : System) (c : Candidate) : Disk :=
  match sys.makePathAbsolute c.path with
  | none => .invalid
  | some path =>
    if sys.directoryExists (sys.resolve path) then .folder
    else if sys.newTempDirectory = none then .noTemp
    else .zip (sys.unzip (sys.resolve path))

/-- What is extracted for the candidate. -/
def entries (sys : System) (c : Candidate) : List (String × Node) :=
  match c.disk sys with
  | .zip z => z.entries
  | _ => []

/-- The path and the folder that the manifest is looked for in. What cannot be extracted is read as
a folder when it may be the executable. -/
def readFrom (sys : System) (c : Candidate) : Option (String × Folder) :=
  let asFolder := (c.path, sys.folder c.path)
  match c.disk sys with
  | .invalid => none
  | .folder => some asFolder
  | .noTemp => if c.source.selfExtract then some asFolder else none
  | .zip z =>
    if z.ok then some (sys.newTempDirectory.getD "", Folder.write (fun _ => none) z.entries)
    else if c.source.selfExtract then some asFolder
    else none

def manifest (sys : System) (c : Candidate) : Option (String × Node) :=
  (c.readFrom sys).bind fun from_ => from_.2.findManifest

end Candidate

/-- The manifest is a JSON object with the required fields. -/
def System.accepts (sys : System) (node : Node) : Bool :=
  match sys.deserialize node with
  | .ok (.dictionary root) => Package.requiredFields.all (Dictionary.hasKey root)
  | _ => false

namespace Candidate

def loads (sys : System) (c : Candidate) : Bool :=
  match c.manifest sys with
  | some (_, node) => sys.accepts node
  | none => false

/-- Nothing is extracted, and a manifest, if there is one, is no JSON object and the path to it is
empty. -/
def Harmless (sys : System) (c : Candidate) : Prop :=
  c.entries sys = [] ∧ ∀ name node, c.manifest sys = some (name, node) →
    c.path = "" ∧ ∀ root, sys.deserialize node ≠ .ok (.dictionary root)

/-- It may be the executable, can be looked at, and has no manifest. -/
def Silent (sys : System) (c : Candidate) : Prop :=
  c.source.selfExtract = true ∧ c.disk sys ≠ .invalid ∧ c.disk sys ≠ .noTemp ∧
    c.manifest sys = none

end Candidate

/-- A candidate of the executable is read even where nothing could be extracted, as its errors are
passed over. -/
theorem Candidate.readFrom_isSome {sys : System} {c : Candidate}
    (hself : c.source.selfExtract = true)
    (hdisk : c.disk sys ≠ .invalid) : (c.readFrom sys).isSome := by
  unfold readFrom
  cases hd : c.disk sys with
  | invalid => exact absurd hd hdisk
  | folder => rfl
  | noTemp => simp [hself]
  | zip z => cases hok : z.ok <;> simp [hok, hself]

/-- There is no manifest in what was extracted when nothing was. So a manifest that was found then
was found under the path of the candidate itself. -/
theorem Candidate.path_eq_of_found {sys : System} {c : Candidate} {path name : String}
    {folder : Folder} {node : Node} (hfrom : c.readFrom sys = some (path, folder))
    (hentries : c.entries sys = []) (hfind : folder.findManifest = some (name, node)) :
    path = c.path := by
  unfold readFrom at hfrom
  unfold entries at hentries
  cases hd : c.disk sys with
  | invalid =>
    rw [hd] at hfrom
    cases hfrom
  | folder =>
    rw [hd] at hfrom
    cases hfrom
    rfl
  | noTemp =>
    simp only [hd, Option.ite_none_right_eq_some, Option.some.injEq, Prod.mk.injEq] at hfrom
    exact hfrom.2.1.symm
  | zip z =>
    simp only [hd] at hfrom hentries
    split at hfrom
    · cases hfrom
      -- an archive without an entry has no manifest to be found
      rw [hentries] at hfind
      cases hfind
    · simp only [Option.ite_none_right_eq_some, Option.some.injEq, Prod.mk.injEq] at hfrom
      exact hfrom.2.1.symm

/-! ## What loading is promised -/

structure Attempt where
  candidate : Candidate
  before : Package
  ok : Bool
  after : Package

/-- The candidates that the constructor tries. -/
def Package.attempts (sys : System) : List Candidate → Package → List Attempt
  | [], _ => []
  | c :: rest, p =>
    let (ok, q) := p.tryCandidate sys c
    ⟨c, p, ok, q⟩ :: if ok then [] else attempts sys rest q

structure LoadsAtomically (sys : System) (cl : CommandLine) : Prop where
  /-- A candidate that fails leaves everything as it was. -/
  failed : ∀ attempt ∈ Package.attempts sys (candidates sys cl) {}, attempt.ok = false →
    attempt.after.app = attempt.before.app
  /-- The package is that of the accepted candidate alone. -/
  accepted : ∀ c ∈ (Package.load sys cl).1,
    (Package.load sys cl).2.app = (Package.tryCandidate sys {} c).2.app
  folder : ∀ c ∈ (Package.load sys cl).1, ∀ z, c.disk sys = .zip z → z.ok = true →
    (Package.load sys cl).2.extracted = Folder.write (fun _ => none) z.entries
  default : (Package.load sys cl).1 = none →
    (Package.load sys cl).2.app = (Package.initWithDefault cl {}).app
  silent : (Package.load sys cl).1.isSome → (Package.load sys cl).2.cachedErrorContent = "" ∧
    (Package.load sys cl).2.loadNWAppAsExtensionHook = none

/-- The candidates that fail leave nothing behind; when one is accepted, none reports an error. -/
def FailuresHarmless (sys : System) (cl : CommandLine) : Prop :=
  let failing := (candidates sys cl).takeWhile fun c => !c.loads sys
  (∀ c ∈ failing, c.Harmless sys) ∧
    ∀ c ∈ (candidates sys cl).find? (Candidate.loads sys),
      c.disk sys ≠ .noTemp ∧ ∀ c' ∈ failing, c'.Silent sys

/-! ## One candidate -/

theorem Folder.write_append (folder : Folder) (entries : List (String × Node))
    (entry : String × Node) : folder.write (entries ++ [entry]) =
      Function.update (folder.write entries) entry.1 (some entry.2) := by
  unfold Folder.write
  rw [List.foldl_append]
  rfl

/-- Only no entries leave an empty folder: an entry that was written is there, whatever comes after.
-/
theorem Folder.write_eq_empty_iff (entries : List (String × Node)) :
    Folder.write (fun _ => none) entries = (fun _ => none) ↔ entries = [] := by
  constructor
  · intro h
    induction entries using List.reverseRecOn with
    | nil => rfl
    | append_singleton entries entry _ =>
      -- the last entry is there, whatever was written before
      have hlast := congrFun h entry.1
      rw [Folder.write_append, Function.update_self] at hlast
      cases hlast
  · rintro rfl
    rfl

namespace Package

/-- Nothing is known of an application yet; a temporary directory may be there, empty. -/
structure Untouched (sys : System) (p : Package) : Prop where
  app : p.app = {}
  tempDir : p.scopedTempDir.or sys.newTempDirectory = sys.newTempDirectory

theorem Untouched.init (sys : System) : ({} : Package).Untouched sys := ⟨rfl, rfl⟩

variable {sys : System} {p : Package} {c : Candidate}

theorem append_ne_empty {a b : String} (h : a ≠ "") : a ++ b ≠ "" :=
  fun heq => h (String.append_eq_empty_iff.mp heq).1

/-- What `ExtractPath` finds for a candidate, and what it leaves: the entries that were extracted
before it failed are in the temporary directory, whether or not the archive was good. -/
theorem extractPath_spec (hp : p.Untouched sys) (hflag : p.selfExtract = c.source.selfExtract) :
    ∃ extractedPath q, p.extractPath sys c.path = (extractedPath, q) ∧
      q.app = { extracted := Folder.write (fun _ => none) (c.entries sys) } ∧
      q.selfExtract = c.source.selfExtract ∧
      q.scopedTempDir.or sys.newTempDirectory = sys.newTempDirectory ∧
      (q.cachedErrorContent = "" ↔
        p.cachedErrorContent = "" ∧ c.disk sys ≠ .noTemp ∧ c.readFrom sys ≠ none) ∧
      extractedPath.map (fun dir =>
        (dir.getD c.path, if dir.isSome then q.extracted else sys.folder c.path)) =
        c.readFrom sys := by
  have happ := hp.app
  have hextracted : p.extracted = fun _ => none := congrArg App.extracted happ
  unfold extractPath Candidate.entries Candidate.readFrom Candidate.disk
  cases habs : sys.makePathAbsolute c.path with
  | none =>
    refine ⟨none, _, rfl, happ, hflag, hp.tempDir, ?_, rfl⟩
    exact iff_of_false (append_ne_empty (by decide)) fun h => h.2.2 rfl
  | some path =>
    simp only
    by_cases hdir : sys.directoryExists (sys.resolve path) = true
    · -- a folder is used as it is, a file is extracted
      rw [if_pos hdir, if_pos hdir]
      refine ⟨some none, p, rfl, happ, hflag, hp.tempDir, ?_, rfl⟩
      simp
    · rw [if_neg hdir, if_neg hdir]
      unfold extractPackage
      rw [hp.tempDir]
      cases htemp : sys.newTempDirectory with
      | none =>
        simp only [if_true]
        cases hself : c.source.selfExtract with
        | true =>
          rw [hself] at hflag
          -- the executable goes on with its own folder, another candidate fails
          refine ⟨some none, _, if_pos hflag, happ, hflag, ?_, ?_, rfl⟩
          · rw [← htemp]
            exact hp.tempDir
          · exact iff_of_false (show ¬ "Unable to create temporary directory." = "" by decide)
              fun h => h.2.1 rfl
        | false =>
          rw [hself] at hflag
          refine ⟨none, _, if_neg (by simp [reportError, hflag]), happ, hflag, ?_, ?_, rfl⟩
          · rw [← htemp]
            exact hp.tempDir
          · exact iff_of_false (append_ne_empty (by decide)) fun h => h.2.1 rfl
      | some dir =>
        simp only [reduceCtorEq, if_false, hextracted]
        have hwritten : ({ p with
            scopedTempDir := some dir
            extracted := Folder.write (fun _ => none) (sys.unzip (sys.resolve path)).entries } :
              Package).app =
            { extracted :=
                Folder.write (fun _ => none) (sys.unzip (sys.resolve path)).entries } := by
          unfold app at happ ⊢
          rw [App.mk.injEq] at happ
          simp only [happ.1, happ.2.1, happ.2.2.1]
        cases hok : (sys.unzip (sys.resolve path)).ok with
        | true => exact ⟨some (some dir), _, rfl, hwritten, hflag, rfl, by simp, rfl⟩
        | false =>
          cases hself : c.source.selfExtract with
          | true =>
            rw [hself] at hflag
            exact ⟨some none, _, if_pos hflag, hwritten, hflag, rfl, by simp, rfl⟩
          | false =>
            rw [hself] at hflag
            refine ⟨none, _, if_neg (by simp [hflag]), hwritten, hflag, rfl, ?_, rfl⟩
            exact iff_of_false (append_ne_empty (by decide)) fun h => h.2.2 rfl

/-- The constructor's view of a candidate: where it reads the manifest, and what is left after the
extraction. -/
theorem initFromPath_spec (hp : p.Untouched sys) (hflag : p.selfExtract = c.source.selfExtract) :
    ∃ q : Package, q.app = { extracted := Folder.write (fun _ => none) (c.entries sys) } ∧
      q.selfExtract = c.source.selfExtract ∧
      q.scopedTempDir.or sys.newTempDirectory = sys.newTempDirectory ∧
      (q.cachedErrorContent = "" ↔
        p.cachedErrorContent = "" ∧ c.disk sys ≠ .noTemp ∧ c.readFrom sys ≠ none) ∧
      p.initFromPath sys c.path =
        match c.readFrom sys with
        | none => (false, q)
        | some (path, folder) =>
          match folder.findManifest with
          | some (name, node) => q.readManifest sys path name node
          | none =>
            (false,
              if q.selfExtract then q
              else q.reportError "Invalid package"
                ("There is no 'package.json' in the package, please " ++
                  "make sure the 'package.json' is in the root of the package.")) := by
  -- the candidate is read by `ExtractPath`; what follows looks at the folder only
  obtain ⟨extractedPath, q, heq, happ, hself, htemp, herror, hfrom⟩ := extractPath_spec hp hflag
  refine ⟨q, happ, hself, htemp, herror, ?_⟩
  unfold initFromPath
  rw [heq, ← hfrom]
  cases extractedPath with
  | none => rfl
  | some dir => rfl

/-! ### The manifest -/

/-- What reading a manifest leaves depends on what the package said before and not on the errors
that were reported. -/
theorem app_readManifest {q q' : Package} (h : q.app = q'.app) (path name : String) (node : Node) :
    (q.readManifest sys path name node).2.app = (q'.readManifest sys path name node).2.app := by
  unfold app at h
  rw [App.mk.injEq] at h
  obtain ⟨-, hroot, hstring, hextracted⟩ := h
  unfold readManifest
  simp only
  split
  · simp only [app, reportError, hroot, hstring, hextracted]
  · split <;> simp only [app, reportError, hextracted]
  · simp only [app, reportError, hroot, hstring, hextracted]

/-- The search for a missing field finds none when the manifest is accepted. Nothing else is asked
of a JSON object. -/
theorem accepts_of_dictionary {node : Node} {root : Dictionary}
    (h : sys.deserialize node = .ok (.dictionary root)) :
    sys.accepts node =
      (requiredFields.find? fun field => ¬ Dictionary.hasKey root field).isNone := by
  unfold System.accepts
  rw [h]
  simp only
  rw [Bool.eq_iff_iff]
  simp

/-- **What reading a manifest leaves**: it is accepted or an error is reported, and the temporary
directory is not touched by it. -/
theorem readManifest_spec (sys : System) (q : Package) (path name : String) (node : Node) :
    (q.readManifest sys path name node).1 = sys.accepts node ∧
    (q.readManifest sys path name node).2.scopedTempDir = q.scopedTempDir ∧
    (q.readManifest sys path name node).2.extracted = q.extracted ∧
    ((q.readManifest sys path name node).2.cachedErrorContent = "" ↔
      q.cachedErrorContent = "" ∧ sys.accepts node = true) := by
  unfold readManifest
  simp only
  split
  · -- the manifest cannot be read
    rename_i error herror
    have haccepts : sys.accepts node = false := by
      unfold System.accepts
      rw [herror]
    rw [haccepts]
    refine ⟨rfl, rfl, rfl, iff_of_false ?_ nofun⟩
    simp only [reportError]
    split
    · exact append_ne_empty (by decide)
    · assumption
  · rename_i root hroot
    rw [accepts_of_dictionary hroot]
    split
    · -- a required field is missing
      rename_i field hfield
      rw [hfield]
      refine ⟨rfl, rfl, rfl, iff_of_false ?_ nofun⟩
      exact append_ne_empty (append_ne_empty (by decide))
    · rename_i hfield
      rw [hfield]
      exact ⟨rfl, rfl, rfl, (and_iff_left rfl).symm⟩
  · -- it is a value, but no dictionary
    rename_i value hnot hvalue
    have haccepts : sys.accepts node = false := by
      unfold System.accepts
      split
      · rename_i root heq
        exact (hnot root (Except.ok.inj (hvalue.symm.trans heq))).elim
      · rfl
    rw [haccepts]
    refine ⟨rfl, rfl, rfl, iff_of_false ?_ nofun⟩
    exact show ¬ "package.json's content should be a object type." = "" by decide

/-- A manifest that is not accepted leaves its path, and what was parsed if it is an object. -/
theorem readManifest_untouched_iff {q : Package} {entries : Folder}
    (happ : q.app = { extracted := entries }) {path name : String} {node : Node}
    (hfail : sys.accepts node = false) :
    (q.readManifest sys path name node).2.app = {} ↔
      entries = (fun _ => none) ∧ path = "" ∧
        ∀ root, sys.deserialize node ≠ .ok (.dictionary root) := by
  unfold app at happ
  rw [App.mk.injEq] at happ
  obtain ⟨-, hroot, hstring, hextracted⟩ := happ
  unfold readManifest
  simp only
  split
  · -- no dictionary was set as root, but the path was stored
    rename_i error herror
    simp only [app, reportError, hroot, hstring, hextracted, App.mk.injEq, herror]
    simp [and_comm]
  · -- a dictionary is set as root before its fields are checked
    rename_i root hdict
    rw [accepts_of_dictionary hdict] at hfail
    split
    · simp [app, reportError, hdict]
    · rename_i hnone
      rw [hnone] at hfail
      cases hfail
  · rename_i value hnot hvalue
    simp only [app, reportError, hroot, hstring, hextracted, App.mk.injEq, true_and]
    constructor
    · rintro ⟨hpath, hentries⟩
      exact ⟨hentries, hpath, fun root heq => hnot root (Except.ok.inj (hvalue.symm.trans heq))⟩
    · rintro ⟨hentries, hpath, -⟩
      exact ⟨hpath, hentries⟩

/-! ### What one candidate leaves -/

/-- The package that remains says the same, whatever reported errors there were before. So a
candidate may be looked at as if it was the first one. -/
theorem app_tryCandidate {p' : Package} (hp : p.Untouched sys) (hp' : p'.Untouched sys) :
    (p.tryCandidate sys c).2.app = (p'.tryCandidate sys c).2.app := by
  obtain ⟨q, happ, hself, -, -, heq⟩ := initFromPath_spec (c := c)
    (p := { p with selfExtract := c.source.selfExtract }) ⟨hp.app, hp.tempDir⟩ rfl
  obtain ⟨q', happ', hself', -, -, heq'⟩ := initFromPath_spec (c := c)
    (p := { p' with selfExtract := c.source.selfExtract }) ⟨hp'.app, hp'.tempDir⟩ rfl
  have hsame : q.app = q'.app := happ.trans happ'.symm
  unfold tryCandidate
  rw [heq, heq']
  split
  · exact hsame
  · split
    · exact app_readManifest hsame _ _ _
    · rw [hself, hself']
      split <;> exact hsame

/-- `q` is what a candidate leaves of `p`. -/
structure Tried (sys : System) (c : Candidate) (p : Package) (ok : Bool) (q : Package) : Prop where
  ok : ok = c.loads sys
  tempDir : q.scopedTempDir.or sys.newTempDirectory = sys.newTempDirectory
  extracted : q.extracted = Folder.write (fun _ => none) (c.entries sys)
  harmless : c.loads sys = false → (q.app = {} ↔ c.Harmless sys)
  silent : q.cachedErrorContent = "" ↔ p.cachedErrorContent = "" ∧ c.disk sys ≠ .noTemp ∧
    (c.loads sys = true ∨ c.Silent sys)

section Tried

variable {q : Package}
  (happ : q.app = { extracted := Folder.write (fun _ => none) (c.entries sys) })
  (htemp : q.scopedTempDir.or sys.newTempDirectory = sys.newTempDirectory)
  (herror : q.cachedErrorContent = "" ↔
    p.cachedErrorContent = "" ∧ c.disk sys ≠ .noTemp ∧ c.readFrom sys ≠ none)

include happ

theorem app_eq_empty_iff {q' : Package} (hsame : q'.app = q.app) :
    q'.app = {} ↔ c.entries sys = [] := by
  rw [hsame, happ, App.mk.injEq, ← Folder.write_eq_empty_iff]
  simp

include htemp herror

/-- Nothing was found to read a manifest from. The candidate fails, and leaves what could be
extracted of it. -/
theorem Tried.of_unread (hfrom : c.readFrom sys = none) : Tried sys c p false q := by
  have hmanifest : c.manifest sys = none := by
    unfold Candidate.manifest
    rw [hfrom]
    rfl
  have hloads : c.loads sys = false := by
    unfold Candidate.loads
    rw [hmanifest]
  rw [hfrom] at herror
  refine ⟨hloads.symm, htemp, congrArg App.extracted happ, fun _ => ?_, ?_⟩
  · rw [app_eq_empty_iff happ rfl]
    unfold Candidate.Harmless
    rw [hmanifest]
    simp
  · rw [herror, hloads]
    refine iff_of_false (fun h => h.2.2 rfl) ?_
    rintro ⟨-, -, hloads | ⟨hself, hdisk, -⟩⟩
    · cases hloads
    · have hsome := Candidate.readFrom_isSome hself hdisk
      -- a candidate that is silent is read from
      rw [hfrom] at hsome
      cases hsome

variable {path : String} {folder : Folder} (hfrom : c.readFrom sys = some (path, folder))

include hfrom

/-- There is no manifest, which is an error unless the candidate is the executable itself. -/
theorem Tried.of_noManifest (hself : q.selfExtract = c.source.selfExtract)
    (hfind : folder.findManifest = none) {message : String} (hmessage : message ≠ "") :
    Tried sys c p false (if q.selfExtract then q else q.reportError "Invalid package" message) := by
  have hmanifest : c.manifest sys = none := by
    unfold Candidate.manifest
    rw [hfrom]
    exact hfind
  have hloads : c.loads sys = false := by
    unfold Candidate.loads
    rw [hmanifest]
  have hvalid : c.disk sys ≠ .invalid := by
    intro hdisk
    unfold Candidate.readFrom at hfrom
    rw [hdisk] at hfrom
    cases hfrom
  -- the executable without a manifest is the case that is passed over in silence
  have hsilent : c.Silent sys ↔ c.source.selfExtract = true ∧ c.disk sys ≠ .noTemp :=
    ⟨fun h => ⟨h.1, h.2.2.1⟩, fun h => ⟨h.1, hvalid, h.2, hmanifest⟩⟩
  have hharmless : c.Harmless sys ↔ c.entries sys = [] := by
    unfold Candidate.Harmless
    rw [hmanifest]
    simp
  rw [hfrom] at herror
  refine ⟨hloads.symm, ?_, ?_, fun _ => ?_, ?_⟩
  · split <;> exact htemp
  · split <;> exact congrArg App.extracted happ
  · rw [hharmless]
    split <;> exact app_eq_empty_iff happ rfl
  · rw [hloads, hsilent]
    simp only [hself, Bool.false_eq_true, false_or]
    split
    · rename_i hflag
      rw [herror]
      simp [hflag]
    · rename_i hflag
      refine iff_of_false hmessage ?_
      simp [hflag]

/-- A manifest was found. It is accepted or not, and unless it is no JSON object its root is kept in
either case. -/
theorem Tried.of_manifest {name : String} {node : Node}
    (hfind : folder.findManifest = some (name, node)) :
    Tried sys c p (q.readManifest sys path name node).1 (q.readManifest sys path name node).2 := by
  have hmanifest : c.manifest sys = some (name, node) := by
    unfold Candidate.manifest
    rw [hfrom]
    exact hfind
  have hloads : c.loads sys = sys.accepts node := by
    unfold Candidate.loads
    rw [hmanifest]
  -- a candidate with a manifest is not silent: it loads or reports an error
  have hnot : ¬ c.Silent sys := by
    rintro ⟨-, -, -, hnone⟩
    rw [hmanifest] at hnone
    cases hnone
  obtain ⟨hok, htemp', hextracted', herror'⟩ := readManifest_spec sys q path name node
  refine ⟨hok.trans hloads.symm, ?_, ?_, fun hfail => ?_, ?_⟩
  · rw [htemp']
    exact htemp
  · rw [hextracted']
    exact congrArg App.extracted happ
  · rw [hloads] at hfail
    rw [readManifest_untouched_iff happ hfail, Folder.write_eq_empty_iff]
    unfold Candidate.Harmless
    rw [hmanifest]
    constructor
    · rintro ⟨hentries, hpath, hdict⟩
      refine ⟨hentries, ?_⟩
      -- the manifest of the candidate is the one that was found
      rintro name' node' hsame
      cases hsame
      exact ⟨(Candidate.path_eq_of_found hfrom hentries hfind).symm.trans hpath, hdict⟩
    · rintro ⟨hentries, hall⟩
      obtain ⟨hpath, hdict⟩ := hall name node rfl
      exact ⟨hentries, (Candidate.path_eq_of_found hfrom hentries hfind).trans hpath, hdict⟩
  · rw [hfrom] at herror
    rw [herror', herror, hloads]
    simp [hnot, and_assoc]

end Tried

/-- **What one candidate does** to a package that was not touched. The three cases are those of the
source: nothing to read from, no manifest, a manifest. -/
theorem tryCandidate_spec (hp : p.Untouched sys) :
    Tried sys c p (p.tryCandidate sys c).1 (p.tryCandidate sys c).2 := by
  obtain ⟨q, happ, hself, htemp, herror, heq⟩ := initFromPath_spec (c := c)
    (p := { p with selfExtract := c.source.selfExtract }) ⟨hp.app, hp.tempDir⟩ rfl
  unfold tryCandidate
  rw [heq]
  cases hfrom : c.readFrom sys with
  | none => exact .of_unread (p := p) happ htemp herror hfrom
  | some from_ =>
    obtain ⟨path, folder⟩ := from_
    cases hfind : folder.findManifest with
    | none =>
      simp only [hfind]
      exact .of_noManifest (p := p) happ htemp herror hfrom hself hfind
        (append_ne_empty (by decide))
    | some found =>
      obtain ⟨name, node⟩ := found
      simp only [hfind]
      exact .of_manifest (p := p) happ htemp herror hfrom hfind

/-- A candidate that fails without a trace leaves the package untouched for the next one. -/
theorem Tried.untouched {q : Package} {ok : Bool} (h : Tried sys c p ok q)
    (hfail : c.loads sys = false) (hharmless : c.Harmless sys) : q.Untouched sys :=
  ⟨(h.harmless hfail).mpr hharmless, h.tempDir⟩

/-! ## All candidates -/

/-- The candidates before the first one that loads: none if it is the first of all. -/
theorem takeWhile_cons_loads (sys : System) (c : Candidate) (rest : List Candidate) :
    (c :: rest).takeWhile (fun c => !c.loads sys) =
      if c.loads sys then [] else c :: rest.takeWhile (fun c => !c.loads sys) := by
  rw [List.takeWhile_cons]
  cases c.loads sys <;> rfl

/-- The failed candidates leave everything as it was exactly when they are harmless. The induction
is on the candidates; as long as they are harmless the package is not touched, so each is tried like
the first one. -/
theorem attempts_untouched_iff {cs : List Candidate} (hp : p.Untouched sys) :
    (∀ attempt ∈ attempts sys cs p, attempt.ok = false → attempt.after.app = attempt.before.app) ↔
      ∀ c ∈ cs.takeWhile (fun c => !c.loads sys), c.Harmless sys := by
  induction cs generalizing p with
  | nil =>
    exact iff_of_true (fun _ h => absurd h List.not_mem_nil)
      (fun _ h => absurd h List.not_mem_nil)
  | cons c rest ih =>
    have htried := tryCandidate_spec (c := c) hp
    rw [takeWhile_cons_loads, attempts]
    cases htry : p.tryCandidate sys c with
    | mk ok q =>
    rw [htry] at htried
    simp only
    rw [show ok = c.loads sys from htried.ok]
    -- the attempts end with the first candidate that loads
    cases hloads : c.loads sys with
    | true => simp
    | false =>
      simp only [Bool.false_eq_true, if_false, List.forall_mem_cons, forall_const]
      rw [hp.app]
      constructor
      · rintro ⟨hhead, hrest⟩
        have hharmless := (htried.harmless hloads).mp hhead
        exact ⟨hharmless, (ih (htried.untouched hloads hharmless)).mp hrest⟩
      · rintro ⟨hharmless, hrest⟩
        exact ⟨(htried.harmless hloads).mpr hharmless,
          (ih (htried.untouched hloads hharmless)).mpr hrest⟩

/-- What the constructor makes of candidates of which the failing ones are harmless. -/
structure Loaded (sys : System) (cl : CommandLine) (cs : List Candidate) (p : Package)
    (accepted : Option Candidate) (q : Package) : Prop where
  first : accepted = cs.find? (Candidate.loads sys)
  app : ∀ c ∈ accepted, q.app = (tryCandidate sys {} c).2.app
  extracted : ∀ c ∈ accepted, q.extracted = Folder.write (fun _ => none) (c.entries sys)
  silent : ∀ c ∈ accepted, (q.cachedErrorContent = "" ↔ p.cachedErrorContent = "" ∧
    c.disk sys ≠ .noTemp ∧ ∀ c' ∈ cs.takeWhile (fun c => !c.loads sys), c'.Silent sys)
  default : accepted = none → q.app = (initWithDefault cl {}).app

/-- **What the loop over the candidates leaves** where the failed ones are harmless: the package
says what the accepted one says, and no error was reported exactly if those before it were silent
and it had a temporary directory itself. -/
theorem loadFrom_spec (cl : CommandLine) {cs : List Candidate} (hp : p.Untouched sys)
    (h : ∀ c ∈ cs.takeWhile (fun c => !c.loads sys), c.Harmless sys) :
    Loaded sys cl cs p (p.loadFrom sys cl cs).1 (p.loadFrom sys cl cs).2 := by
  -- induction on the candidates, for any package that is untouched
  induction cs generalizing p with
  | nil =>
    refine ⟨rfl, nofun, nofun, nofun, fun _ => ?_⟩
    have happ := hp.app
    unfold Package.app at happ
    rw [App.mk.injEq] at happ
    simp only [loadFrom, initWithDefault, Package.app, happ.1, happ.2.2.1, happ.2.2.2]
  | cons c rest ih =>
    have htried := tryCandidate_spec (c := c) hp
    have happ := app_tryCandidate (c := c) hp (Untouched.init sys)
    rw [takeWhile_cons_loads] at h
    rw [loadFrom]
    cases htry : p.tryCandidate sys c with
    | mk ok q =>
    rw [htry] at htried happ
    cases hloads : c.loads sys with
    | true =>
      rw [show ok = true from htried.ok.trans hloads]
      constructor
      case first => simp [hloads]
      case app =>
        rintro c' hc'
        cases hc'
        exact happ
      case extracted =>
        rintro c' hc'
        cases hc'
        exact htried.extracted
      case silent =>
        rintro c' hc'
        cases hc'
        rw [htried.silent, takeWhile_cons_loads, hloads]
        simp
      case default => exact nofun
    | false =>
      rw [show ok = false from htried.ok.trans hloads]
      simp only [hloads, Bool.false_eq_true, if_false, List.forall_mem_cons] at h
      obtain ⟨hharmless, hrest⟩ := h
      -- a harmless candidate leaves the package as the next one expects it
      have hq := ih (htried.untouched hloads hharmless) hrest
      refine ⟨?_, hq.app, hq.extracted, fun c' hc' => ?_, hq.default⟩
      · rw [List.find?_cons_of_neg (by simp [hloads])]
        exact hq.first
      · rw [hq.silent c' hc', htried.silent, takeWhile_cons_loads, hloads]
        simp only [Bool.false_eq_true, if_false, List.forall_mem_cons, false_or]
        constructor
        · rintro ⟨⟨herror, -, hsilent⟩, hdisk, hall⟩
          exact ⟨herror, hdisk, hsilent, hall⟩
        · rintro ⟨herror, hdisk, hsilent, hall⟩
          exact ⟨⟨herror, hsilent.2.2.1, hsilent⟩, hdisk, hall⟩

end Package

/-- **Atomic loading.** Loading a package is atomic per candidate exactly when the candidates that
fail are harmless, and, if one is accepted, silent. -/
theorem load_atomic_iff (sys : System) (cl : CommandLine) :
    LoadsAtomically sys cl ↔ FailuresHarmless sys cl := by
  have hinit := Package.Untouched.init sys
  constructor
  · intro h
    -- what the failed attempts left is the condition on them
    have hharmless := (Package.attempts_untouched_iff hinit).mp h.failed
    have hloaded := Package.loadFrom_spec cl hinit hharmless
    refine ⟨hharmless, fun c hc => ?_⟩
    rw [← hloaded.first] at hc
    -- a candidate was accepted, and then no error may have been reported
    have hsome : (Package.load sys cl).1.isSome := by
      unfold Package.load
      rw [Option.mem_def.mp hc]
      rfl
    obtain ⟨-, hdisk, hsilent⟩ := (hloaded.silent c hc).mp (h.silent hsome).1
    exact ⟨hdisk, hsilent⟩
  · rintro ⟨hharmless, haccepted⟩
    have hloaded := Package.loadFrom_spec cl hinit hharmless
    constructor
    case failed => exact (Package.attempts_untouched_iff hinit).mpr hharmless
    case accepted => exact hloaded.app
    case folder =>
      intro c hc z hdisk _
      have hentries : c.entries sys = z.entries := by
        unfold Candidate.entries
        rw [hdisk]
      rw [← hentries]
      exact hloaded.extracted c hc
    case default => exact hloaded.default
    case silent =>
      intro hsome
      obtain ⟨c, hc⟩ := Option.isSome_iff_exists.mp hsome
      obtain ⟨hdisk, hsilent⟩ := haccepted c (hloaded.first ▸ hc)
      have herror : (Package.load sys cl).2.cachedErrorContent = "" :=
        (hloaded.silent c hc).mpr ⟨rfl, hdisk, hsilent⟩
      refine ⟨herror, ?_⟩
      unfold Package.loadNWAppAsExtensionHook
      rw [if_neg (not_not.mpr herror)]

/-- `nw --nwapp=/bad /app`. -/
def badThenApp : CommandLine where
  originalArgv := ["nw", "--nwapp=/bad", "/app"]
  trim a := a
  isSwitch a := if a = "--nwapp=/bad" then some ("nwapp", "/bad") else none

/-- The package is loaded from `/app`, and the error is that of `/bad`. -/
theorem badThenApp_not_atomic : ¬ ∀ (sys : System) (cl : CommandLine), LoadsAtomically sys cl := by
  intro hall
  have hsilent := ((hall appOnly badThenApp).silent rfl).1
  have herror : (Package.load appOnly badThenApp).2.cachedErrorContent =
      "Failed to unzip the package file: /bad" := rfl
  rw [herror] at hsilent
  revert hsilent
  decide

end NodeWebkit
