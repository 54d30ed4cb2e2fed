import Mathlib.Data.Char
import Mathlib.Data.List.Dedup
import Mathlib.Data.List.Lex
import Mathlib.Data.List.Sort
import Mathlib.Order.Lattice
import NodeWebkit.Payload.ContentHashes

/-!
# payload.json

The payload tool goes through the files below the working directory, hashes those it can read, and
writes the list of hashes to `payload.json` in the same directory.

* **`createHashes`** — the tool, with the functions that are not part of the repository as
  parameters;
* **`Reliable`** — it reports a failure, or lists every file as a verifier will find it, now and
  when it is run again;
* **`listing_eq`** — the list where every file can be read;
* **`reliable_iff`** — the tool is reliable if it fails, and otherwise exactly where every file can
  be read and the tree has a `payload.json` whose root the new list will have, too.

The tool lists its own output. Where the tree has no `payload.json`, the first run does not list it
and the second one does; where there is one, its old contents are hashed and then replaced. So
`Sound`, which is about the tree that the tool leaves, comes down to a fixed point, `SelfHashed`,
which is about the tree that it finds.
-/

namespace NodeWebkit.PayloadTool

/-! ## Trees -/

/-- The path of a file from the working directory on. -/
structure FilePath where
  names : List (List Char)
  names_ne : names ≠ []
  no_separator : ∀ name ∈ names, '/' ∉ name
  deriving DecidableEq

/-- The path with `/` as its separator. -/
def FilePath.text (path : FilePath) : List Char := ['/'].intercalate path.names

/-- Two paths with the same text are the same, as no name has a separator in it. -/
theorem FilePath.text_injective : Function.Injective FilePath.text := by
  intro p q h
  have hp := List.splitOn_intercalate '/' p.no_separator p.names_ne
  have hq := List.splitOn_intercalate '/' q.no_separator q.names_ne
  change p.text.splitOn '/' = p.names at hp
  change q.text.splitOn '/' = q.names at hq
  cases p
  cases q
  congr 1
  exact hp.symm.trans ((congrArg (List.splitOn '/') h).trans hq)

/-- `FilePath::operator<`. -/
instance : LinearOrder FilePath := LinearOrder.lift' FilePath.text FilePath.text_injective

/-- `payload.json`. -/
def hashesFile : FilePath where
  names := ["payload.json".toList]
  names_ne := List.cons_ne_nil _ _
  no_separator := by decide

structure File where
  contents : Bytes
  readable : Bool
  deriving DecidableEq

/-- The regular files below the working directory, in the order of the `FileEnumerator`. -/
structure Tree where
  files : List (FilePath × File)
  distinct : (files.map Prod.fst).Nodup

namespace Tree

def paths (tree : Tree) : List FilePath := tree.files.map Prod.fst

def file? (tree : Tree) (path : FilePath) : Option File := tree.files.lookup path

/-- `ReadFileToString`. -/
def readFileToString (tree : Tree) (path : FilePath) : Option Bytes :=
  (tree.file? path).bind fun file => if file.readable then some file.contents else none

/-- The files after `WriteFile`: a file that is there keeps its attributes. -/
def writtenFiles (tree : Tree) (path : FilePath) (contents : Bytes) : List (FilePath × File) :=
  if path ∈ tree.paths then
    tree.files.map fun f => if f.1 = path then (f.1, { f.2 with contents := contents }) else f
  else tree.files ++ [(path, ⟨contents, true⟩)]

/-- A file that is written is a new one or takes the place of the old one; the other paths stay. -/
theorem map_fst_writtenFiles (tree : Tree) (path : FilePath) (contents : Bytes) :
    (tree.writtenFiles path contents).map Prod.fst =
      if path ∈ tree.paths then tree.paths else tree.paths ++ [path] := by
  unfold writtenFiles
  split
  · rw [List.map_map]
    refine List.map_congr_left fun f _ => ?_
    by_cases hf : f.1 = path <;> simp [hf]
  · rw [List.map_append]
    rfl

/-- `WriteFile`. -/
def writeFile (tree : Tree) (path : FilePath) (contents : Bytes) : Tree where
  files := tree.writtenFiles path contents
  distinct := by
    rw [map_fst_writtenFiles]
    split
    · exact tree.distinct
    · rename_i hnot
      exact List.Nodup.append tree.distinct (List.nodup_singleton path)
        (List.disjoint_singleton.mpr hnot)

end Tree

/-! ## The tool -/

/-- An element of `files`. -/
structure Entry where
  path : List Char
  rootHash : List Char
  deriving DecidableEq

/-- The dictionary that is written. -/
structure Payload where
  blockSize : Nat := 4096
  hashBlockSize : Nat := 4096
  format : String := "treehash"
  files : List Entry
  deriving DecidableEq

/-- What is not part of the repository: SHA-256, `ComputeTreeHashRoot` and `JSONWriter::Write`. -/
structure Library where
  sha256 : Bytes → Bytes
  computeTreeHashRoot : List Bytes → Nat → Bytes
  json : Payload → Bytes

variable (lib : Library)

/-- The root for a file. -/
def Library.treeHash (contents : Bytes) : Bytes :=
  lib.computeTreeHashRoot (computeHashesForContent lib.sha256 contents 4096) (4096 / 32)

/-- `AddHash`. -/
def addHash (relativePath : FilePath) (root : Bytes) : Entry :=
  ⟨relativePath.text, encodeRoot root⟩

/-- A `SortedFilePathSet` of these paths, in order. -/
def sortedFilePathSet (paths : List FilePath) : List FilePath :=
  paths.dedup.insertionSort (· ≤ ·)

/-- One file of the loop of `CreateHashes`: one that cannot be read is left out. -/
def entryOf (tree : Tree) (path : FilePath) : Option Entry :=
  (tree.readFileToString path).map fun contents => addHash path (lib.treeHash contents)

/-- What the loop adds to the list. -/
def listing (tree : Tree) : List Entry :=
  (sortedFilePathSet tree.paths).filterMap (entryOf lib tree)

def payload (tree : Tree) : Payload where
  files := listing lib tree

/-- How the file system answers: the directory cannot be made, the list cannot be written, or it
is. -/
inductive Outcome where
  | noDirectory
  | writeFailed (left : Tree)
  | written

/-- `CreateHashes`: what it reports, and the tree it leaves. -/
def createHashes (outcome : Outcome) (tree : Tree) : Bool × Tree :=
  match outcome with
  | .noDirectory => (false, tree)
  | .writeFailed left => (false, left)
  | .written => (true, tree.writeFile hashesFile (lib.json (payload lib tree)))

/-! ## What has to hold -/

/-- The list is complete, is the same when the tool is run again on what it leaves, and is right for
the files that are there then. -/
structure Sound (tree after : Tree) : Prop where
  complete : ∀ path file, (path, file) ∈ tree.files → ∃ blocks, Blocks 4096 file.contents blocks ∧
    (payload lib tree).files.filter (fun entry => decide (entry.path = path.text)) =
      [⟨path.text, encodeRoot (lib.computeTreeHashRoot (blocks.map lib.sha256) (4096 / 32))⟩]
  injective : Function.Injective encodeRoot
  reproducible : ∀ again : Tree, again.files.Perm after.files → payload lib again = payload lib tree
  matching : ∀ entry ∈ (payload lib tree).files, ∀ path file, (path, file) ∈ after.files →
    entry.path = path.text → entry.rootHash = encodeRoot (lib.treeHash file.contents)

def Reliable (outcome : Outcome) (tree : Tree) : Prop :=
  (createHashes lib outcome tree).1 = false ∨ Sound lib tree (createHashes lib outcome tree).2

/-! ## The condition -/

/-- The list of a tree all of whose files can be read, with this root for `payload.json`. -/
def listingWith (root : Bytes) (tree : Tree) : List Entry :=
  (sortedFilePathSet tree.paths).map fun path =>
    addHash path (if path = hashesFile then root
      else lib.treeHash (((tree.file? path).map File.contents).getD []))

/-- Every file can be read, and the tree has a `payload.json` whose root is also the one of the list
that has this root for it. -/
structure SelfHashed (tree : Tree) : Prop where
  readable : ∀ f ∈ tree.files, f.2.readable = true
  fixed : ∃ file, (hashesFile, file) ∈ tree.files ∧
    lib.treeHash (lib.json { files := listingWith lib (lib.treeHash file.contents) tree }) =
      lib.treeHash file.contents

/-! ## Files of a tree -/

namespace Tree

variable {tree : Tree} {path : FilePath} {file : File}

theorem mem_paths (h : (path, file) ∈ tree.files) : path ∈ tree.paths :=
  List.mem_map_of_mem h

theorem exists_of_mem_paths (h : path ∈ tree.paths) : ∃ file, (path, file) ∈ tree.files := by
  obtain ⟨⟨_, file⟩, hmem, rfl⟩ := List.mem_map.mp h
  exact ⟨file, hmem⟩

/-- Each path has one file, the one that is found. -/
theorem file?_eq_some_iff : tree.file? path = some file ↔ (path, file) ∈ tree.files := by
  unfold file?
  rw [List.lookup_eq_some_iff]
  constructor
  · rintro ⟨l₁, l₂, heq, -⟩
    rw [heq]
    exact List.mem_append_right _ (List.mem_cons_self ..)
  · intro hmem
    obtain ⟨l₁, l₂, heq⟩ := List.append_of_mem hmem
    refine ⟨l₁, l₂, heq, fun f hf => ?_⟩
    have hdistinct := tree.distinct
    rw [heq, List.map_append, List.map_cons] at hdistinct
    have hnot : path ∉ l₁.map Prod.fst := fun hpath =>
      (List.disjoint_of_nodup_append hdistinct) hpath (List.mem_cons_self ..)
    simp only [bne_iff_ne, ne_eq]
    rintro rfl
    exact hnot (List.mem_map_of_mem hf)

theorem eq_of_mem {other : File} (h : (path, file) ∈ tree.files)
    (hother : (path, other) ∈ tree.files) : file = other := by
  have heq := file?_eq_some_iff.mpr h
  rw [file?_eq_some_iff.mpr hother] at heq
  exact (Option.some.inj heq).symm

/-- Writing a file leaves the others as they are. -/
theorem mem_writeFile_of_ne {written : FilePath} {contents : Bytes} (hne : path ≠ written) :
    (path, file) ∈ (tree.writeFile written contents).files ↔ (path, file) ∈ tree.files := by
  change (path, file) ∈ tree.writtenFiles written contents ↔ _
  unfold writtenFiles
  split
  · rw [List.mem_map]
    constructor
    · rintro ⟨f, hf, heq⟩
      split at heq
      · rename_i hwritten
        exact absurd ((congrArg Prod.fst heq).symm.trans hwritten) hne
      · exact heq ▸ hf
    · exact fun hf => ⟨_, hf, if_neg hne⟩
  · simp [hne]

/-- The file that was written has the new contents; if it was there before, it can be read or not as
before. -/
theorem exists_mem_writeFile (tree : Tree) (path : FilePath) (contents : Bytes) :
    ∃ file, (path, file) ∈ (tree.writeFile path contents).files ∧ file.contents = contents ∧
      ∀ old, (path, old) ∈ tree.files → file.readable = old.readable := by
  by_cases hmem : path ∈ tree.paths
  · obtain ⟨old, hold⟩ := exists_of_mem_paths hmem
    refine ⟨{ old with contents := contents }, ?_, rfl, ?_⟩
    · change _ ∈ tree.writtenFiles path contents
      rw [writtenFiles, if_pos hmem]
      exact List.mem_map.mpr ⟨_, hold, if_pos rfl⟩
    · intro old' hold'
      rw [eq_of_mem hold' hold]
  · refine ⟨⟨contents, true⟩, ?_, rfl, fun old hold => absurd (mem_paths hold) hmem⟩
    change _ ∈ tree.writtenFiles path contents
    rw [writtenFiles, if_neg hmem]
    exact List.mem_append_right _ (List.mem_singleton_self _)

end Tree

/-! ## The list -/

variable {lib} {tree : Tree} {path : FilePath} {file : File}

theorem mem_sortedFilePathSet {paths : List FilePath} :
    path ∈ sortedFilePathSet paths ↔ path ∈ paths := by
  rw [sortedFilePathSet, List.mem_insertionSort, List.mem_dedup]

theorem nodup_sortedFilePathSet (paths : List FilePath) : (sortedFilePathSet paths).Nodup :=
  (List.perm_insertionSort _ _).nodup_iff.mpr (List.nodup_dedup _)

/-- The order in which the paths were found does not matter, the set is sorted. -/
theorem sortedFilePathSet_congr {paths paths' : List FilePath} (h : paths.Perm paths') :
    sortedFilePathSet paths = sortedFilePathSet paths' := by
  have hperm : (sortedFilePathSet paths).Perm (sortedFilePathSet paths') :=
    ((List.perm_insertionSort _ _).trans h.dedup).trans (List.perm_insertionSort _ _).symm
  exact hperm.eq_of_pairwise' (List.pairwise_insertionSort _ _) (List.pairwise_insertionSort _ _)

/-- A file that can be read has an entry with its hash, another one has none. -/
theorem entryOf_eq (h : (path, file) ∈ tree.files) :
    entryOf lib tree path =
      if file.readable then some (addHash path (lib.treeHash file.contents)) else none := by
  rw [entryOf, Tree.readFileToString, Tree.file?_eq_some_iff.mpr h, Option.bind_some]
  split <;> rfl

theorem path_of_entryOf {entry : Entry} (h : entryOf lib tree path = some entry) :
    entry.path = path.text := by
  obtain ⟨contents, _, rfl⟩ := Option.map_eq_some_iff.mp h
  rfl

/-- Each path of a list without repetitions has at most one entry: the entries of other paths have
another text. -/
theorem filter_filterMap_entryOf {paths : List FilePath} (hnodup : paths.Nodup) :
    (paths.filterMap (entryOf lib tree)).filter (fun entry => decide (entry.path = path.text)) =
      if path ∈ paths then (entryOf lib tree path).toList else [] := by
  induction paths with
  | nil => rfl
  | cons p paths ih =>
    rw [List.nodup_cons] at hnodup
    have hrest := ih hnodup.2
    by_cases hp : path = p
    · subst hp
      -- the path is here and nowhere behind
      rw [if_neg hnodup.1] at hrest
      rw [if_pos (List.mem_cons_self ..), List.filterMap_cons]
      split
      · rename_i hnone
        rw [hrest, hnone]
        rfl
      · rename_i entry hentry
        rw [List.filter_cons, if_pos (decide_eq_true (path_of_entryOf hentry)), hrest, hentry]
        rfl
    · have hmem : path ∈ p :: paths ↔ path ∈ paths := by simp [hp]
      simp only [hmem]
      rw [List.filterMap_cons]
      split
      · exact hrest
      · rename_i entry hentry
        have hne : entry.path ≠ path.text := by
          rw [path_of_entryOf hentry]
          exact fun heq => hp (FilePath.text_injective heq).symm
        rw [List.filter_cons, if_neg (by simpa using hne)]
        exact hrest

/-- **The entries of a file**: one if it can be read, with the hash of its contents, and none if it
cannot. -/
theorem filter_listing (h : (path, file) ∈ tree.files) :
    (listing lib tree).filter (fun entry => decide (entry.path = path.text)) =
      if file.readable then [addHash path (lib.treeHash file.contents)] else [] := by
  rw [listing, filter_filterMap_entryOf (nodup_sortedFilePathSet _),
    if_pos (mem_sortedFilePathSet.mpr (Tree.mem_paths h)), entryOf_eq h]
  split <;> rfl

theorem addHash_mem_listing (h : (path, file) ∈ tree.files) (hreadable : file.readable = true) :
    addHash path (lib.treeHash file.contents) ∈ listing lib tree := by
  have hpath := mem_sortedFilePathSet.mpr (Tree.mem_paths h)
  exact List.mem_filterMap.mpr ⟨path, hpath, (entryOf_eq h).trans (if_pos hreadable)⟩

theorem exists_of_mem_listing {entry : Entry} (h : entry ∈ listing lib tree) :
    ∃ path ∈ tree.paths, entryOf lib tree path = some entry := by
  obtain ⟨path, hpath, hentry⟩ := List.mem_filterMap.mp h
  exact ⟨path, mem_sortedFilePathSet.mp hpath, hentry⟩

/-- **The list where every file can be read**, by the root of its `payload.json`. -/
theorem listing_eq (hreadable : ∀ f ∈ tree.files, f.2.readable = true)
    (hfile : (hashesFile, file) ∈ tree.files) :
    listing lib tree = listingWith lib (lib.treeHash file.contents) tree := by
  unfold listing listingWith
  rw [← List.filterMap_eq_map]
  refine List.filterMap_congr fun path hpath => ?_
  obtain ⟨own, hown⟩ := Tree.exists_of_mem_paths (mem_sortedFilePathSet.mp hpath)
  rw [entryOf_eq hown, if_pos (hreadable _ hown), Function.comp_apply]
  by_cases hp : path = hashesFile
  · subst hp
    rw [if_pos rfl, Tree.eq_of_mem hown hfile]
  · rw [if_neg hp, Tree.file?_eq_some_iff.mpr hown]
    rfl

/-! ## A sound list -/

/-- The tree that a successful run leaves. -/
abbrev after (lib : Library) (tree : Tree) : Tree :=
  tree.writeFile hashesFile (lib.json (payload lib tree))

/-- A complete list leaves no file out, and one that cannot be read is left out. -/
theorem Sound.readable {t : Tree} (h : Sound lib tree t) :
    ∀ f ∈ tree.files, f.2.readable = true := by
  rintro ⟨path, file⟩ hf
  obtain ⟨blocks, _, hentry⟩ := h.complete path file hf
  have hfilter := @filter_listing lib tree path file hf
  by_contra hnot
  rw [if_neg hnot] at hfilter
  rw [show (payload lib tree).files = listing lib tree from rfl, hfilter] at hentry
  cases hentry

/-- A list that is the same in the next run found a `payload.json`, because the next run finds one
for certain. -/
theorem Sound.mem_paths (h : Sound lib tree (after lib tree)) : hashesFile ∈ tree.paths := by
  by_contra hnot
  obtain ⟨file, hmem, hcontents, _⟩ :=
    tree.exists_mem_writeFile hashesFile (lib.json (payload lib tree))
  have hreadable : file.readable = true := by
    have hnew : (after lib tree).files =
        tree.files ++ [(hashesFile, ⟨lib.json (payload lib tree), true⟩)] := if_neg hnot
    have hself : (hashesFile, (⟨lib.json (payload lib tree), true⟩ : File)) ∈
        (after lib tree).files := by
      rw [hnew]
      exact List.mem_append_right _ (List.mem_singleton_self _)
    rw [Tree.eq_of_mem hmem hself]
  -- the next run lists it, so this one does
  have hentry := @addHash_mem_listing lib (after lib tree) hashesFile file hmem hreadable
  have hsame := congrArg Payload.files (h.reproducible (after lib tree) (List.Perm.refl _))
  have hlist : listing lib (after lib tree) = listing lib tree := hsame
  rw [hlist] at hentry
  obtain ⟨path, hpath, hof⟩ := exists_of_mem_listing hentry
  have htext := path_of_entryOf hof
  exact hnot (FilePath.text_injective htext ▸ hpath)

/-- **A sound list is a fixed point.** The entry of `payload.json` has the hash of the old contents,
and a verifier finds the new ones. -/
theorem Sound.selfHashed (h : Sound lib tree (after lib tree)) : SelfHashed lib tree := by
  have hreadable := h.readable
  obtain ⟨file, hfile⟩ := Tree.exists_of_mem_paths h.mem_paths
  refine ⟨hreadable, file, hfile, ?_⟩
  obtain ⟨written, hmem, hcontents, _⟩ :=
    tree.exists_mem_writeFile hashesFile (lib.json (payload lib tree))
  have hentry := @addHash_mem_listing lib tree hashesFile file hfile (hreadable _ hfile)
  have hmatch := encodeRoot_injective (h.matching _ hentry hashesFile written hmem rfl)
  rw [← listing_eq hreadable hfile]
  rw [hmatch, hcontents]
  rfl

/-- What the next run finds for a path is what this run found: `payload.json` was the only file to
change, and its hash is the same. -/
theorem SelfHashed.entryOf_eq (h : SelfHashed lib tree) {again : Tree}
    (hagain : again.files.Perm (after lib tree).files) (hpath : path ∈ tree.paths) :
    entryOf lib again path = entryOf lib tree path := by
  obtain ⟨file, hfile⟩ := Tree.exists_of_mem_paths hpath
  by_cases hp : path = hashesFile
  · subst hp
    obtain ⟨old, hold, hfixed⟩ := h.fixed
    obtain rfl := Tree.eq_of_mem hfile hold
    obtain ⟨written, hmem, hcontents, hattributes⟩ :=
      tree.exists_mem_writeFile hashesFile (lib.json (payload lib tree))
    have hroot : lib.treeHash written.contents = lib.treeHash file.contents := by
      rw [hcontents, ← hfixed, ← listing_eq h.readable hfile]
      rfl
    rw [PayloadTool.entryOf_eq (hagain.mem_iff.mpr hmem), PayloadTool.entryOf_eq hfile, hroot,
      hattributes file hfile]
  · have hmem : (path, file) ∈ (after lib tree).files := (Tree.mem_writeFile_of_ne hp).mpr hfile
    rw [PayloadTool.entryOf_eq (hagain.mem_iff.mpr hmem), PayloadTool.entryOf_eq hfile]

theorem paths_after (h : hashesFile ∈ tree.paths) : (after lib tree).paths = tree.paths := by
  have hpaths := tree.map_fst_writtenFiles hashesFile (lib.json (payload lib tree))
  rw [if_pos h] at hpaths
  exact hpaths

/-- **A fixed point is a sound list**: it is complete because every file can be read, it is the same
in the next run, and every entry matches its file. -/
theorem SelfHashed.sound (h : SelfHashed lib tree) : Sound lib tree (after lib tree) := by
  obtain ⟨old, hold, _⟩ := h.fixed
  have hpaths : (after lib tree).paths = tree.paths := paths_after (Tree.mem_paths hold)
  -- the next run finds the same paths, and the same entry for each of them
  have hreproducible : ∀ again : Tree, again.files.Perm (after lib tree).files →
      listing lib again = listing lib tree := by
    intro again hagain
    have hset : sortedFilePathSet again.paths = sortedFilePathSet tree.paths := by
      rw [← hpaths]
      exact sortedFilePathSet_congr (hagain.map Prod.fst)
    rw [listing, hset, listing]
    refine List.filterMap_congr fun path hpath => ?_
    exact h.entryOf_eq hagain (mem_sortedFilePathSet.mp hpath)
  refine ⟨?_, encodeRoot_injective, ?_, ?_⟩
  · intro path file hf
    obtain ⟨blocks, hblocks, heq⟩ :=
      computeHashesForContent_blocks lib.sha256 file.contents (show 0 < 4096 by decide)
    refine ⟨blocks, hblocks, ?_⟩
    rw [← heq]
    exact (filter_listing hf).trans (if_pos (h.readable _ hf))
  · intro again hagain
    rw [payload, hreproducible again hagain, payload]
  · intro entry hentry path file hf htext
    -- the list is also the one of the tree that is left
    have hlist := hreproducible (after lib tree) (List.Perm.refl _)
    have hmem : entry ∈ (listing lib (after lib tree)).filter
        (fun entry => decide (entry.path = path.text)) := by
      rw [hlist]
      exact List.mem_filter.mpr ⟨hentry, decide_eq_true htext⟩
    rw [filter_listing hf] at hmem
    split at hmem
    · rw [List.mem_singleton.mp hmem]
      rfl
    · cases hmem

/-- **The payload list** is reliable in the runs that report a failure, and otherwise exactly where
every file can be read and the tree has a `payload.json` that the new list hashes as the one it
becomes. -/
theorem reliable_iff (lib : Library) (outcome : Outcome) (tree : Tree) :
    Reliable lib outcome tree ↔ outcome ≠ .written ∨ SelfHashed lib tree := by
  cases outcome with
  | noDirectory => exact ⟨fun _ => .inl nofun, fun _ => .inl rfl⟩
  | writeFailed left => exact ⟨fun _ => .inl nofun, fun _ => .inl rfl⟩
  | written =>
    constructor
    · rintro (hfailed | hsound)
      · cases hfailed
      · exact .inr hsound.selfHashed
    · rintro (hfailed | hself)
      · exact absurd rfl hfailed
      · exact .inr hself.sound

/-- A tree with one file that cannot be read. -/
def unreadable : Tree where
  files := [(⟨["app.js".toList], List.cons_ne_nil _ _, by decide⟩, ⟨[47, 47], false⟩)]
  distinct := by decide

/-- The tool reports success and does not list the file that it could not read. -/
theorem not_reliable_unreadable :
    ¬ Reliable ⟨fun _ => [], fun _ _ => [], fun _ => []⟩ .written unreadable := by
  intro h
  rcases h with hfailed | hsound
  · cases hfailed
  · have hreadable := hsound.readable _ (List.mem_singleton_self _)
    cases hreadable

end NodeWebkit.PayloadTool
