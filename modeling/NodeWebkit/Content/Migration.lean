import NodeWebkit.Lib.Recovery
import Mathlib.Data.List.Infix
import Mathlib.Logic.Function.Basic

/-!
# Migration of an old profile

`MainPartsPreCreateThreadsHook` (`nw_content.cc`) brings the storage of older versions to the places
where it is now: it moves the files of the DOM storage, and copies the directories of WebSQL and
IndexedDB and gives them new names. Each of the three is skipped when something is at the new place.

The three work on different directories. `Default`, in which the new ones are, is left out; so is
what the hook does besides.

## Crashes

A migration is a `Program`: what is there decides which writes follow. A crash after `n` of them
leaves the profile as it is then, and the next start runs the hook on that. What is asked:

* **`Recovers`** — after every crash the next start comes to the same result as without the crash;
* **`Settles`** — a further start changes nothing.

The skipping is what can go wrong. A crash in between leaves something at the new place, by which
the next start takes the rest for done. `migrateStorage_recovers_iff`,
`migrateDatabases_recovers_iff` and `migrateIndexedDb_recovers_iff` say when there is no such
moment, and `migration_crash_safe_iff` puts them together.
-/

namespace NodeWebkit.Migration

open Recovery

inductive Node where
  | directory
  | file (text : String)
  deriving DecidableEq

/-- What is under a directory, by relative paths. -/
abbrev Tree := List String → Option Node

def Tree.empty : Tree := fun _ => none

/-- What is under a directory, in the order in which it is traversed. -/
abbrev Listing := List (List String × Node)

/-- What the hook asks of others. `move` is `base::Move` of an entry of a directory to another name
in it: without the entry it does nothing, and it loses nothing that it does not move. `newDatabase`
is what opening a database makes of a file that is not there. -/
structure Environment where
  packagePath : String
  name : String
  domain : String
  userDataDir : Option String
  generateId : String → String
  identifierFromOrigin : String → String
  databaseFileName : String → String
  move : String → String → Tree → Tree
  move_absent : ∀ source target tree, tree [source] = none → move source target tree = tree
  move_keeps : ∀ source target tree path, tree path ≠ none →
    ∃ path', move source target tree path' ≠ none
  newDatabase : Option String
  hasMetaTable : String → Bool
  execute : String → String → String

namespace Environment

/-- The package has a path and a name, and the place of the profile is known. -/
def migrates (env : Environment) : Bool :=
  env.packagePath ≠ "" ∧ env.name ≠ "" ∧ env.userDataDir.isSome

def origin (env : Environment) : String :=
  "chrome-extension://" ++ (if env.domain = "" then env.generateId env.name else env.domain) ++ "/"

def identifier (env : Environment) : String := env.identifierFromOrigin env.origin

end Environment

/-! ## DOM storage -/

structure LocalStorage where
  /-- The files of the old directory, in the order in which they are enumerated. -/
  old : List (String × String)
  /-- The files of the new directory, when it is there. -/
  new : Option (String → Option String)

namespace LocalStorage

def createDirectory (s : LocalStorage) : LocalStorage :=
  { s with new := some (s.new.getD fun _ => none) }

def pathExists (s : LocalStorage) (name : String) : Bool :=
  (s.new.bind fun files => files name).isSome

/-- `base::Move` of an old file to the new directory. -/
def move (source target : String) (s : LocalStorage) : LocalStorage :=
  match s.new, s.old.find? fun file => file.1 = source with
  | some files, some (_, text) =>
    { old := s.old.filter fun file => file.1 ≠ source
      new := some (Function.update files target (some text)) }
  | _, _ => s

end LocalStorage

/-- `*_0.localstorage`. -/
def isStorage (name : String) : Bool := "_0.localstorage".toList <:+ name.toList

/-- The extension `localstorage` is replaced by `localstorage-journal`. -/
def journal (storage : String) : String := storage ++ "-journal"

def migrateStorage (env : Environment) : Program LocalStorage := fun s =>
  match s.old.find? fun file => isStorage file.1 with
  | none => []
  | some (oldStorage, _) =>
    let newStorage := env.databaseFileName env.origin
    LocalStorage.createDirectory ::
      if !s.pathExists (journal newStorage) ∧ !s.pathExists newStorage then
        [LocalStorage.move (journal oldStorage) (journal newStorage),
          LocalStorage.move oldStorage newStorage]
      else []

/-! ## WebSQL and IndexedDB -/

/-- One directory is created or one file is copied. -/
def copy (entry : List String × Node) (tree : Tree) : Tree :=
  Function.update tree entry.1 (some entry.2)

/-- A directory that is not there is created, and filled by writes. -/
def rebuild (writes : List (Tree → Tree)) : Program (Option Tree)
  | none => (fun new => some (new.getD Tree.empty)) :: writes.map Option.map
  | some _ => []

/-- The directory of the application, the first one whose name is `app_*`. -/
def oldId (entries : Listing) : String :=
  let app := entries.find? fun entry =>
    match entry with
    | ([name], .directory) => "app_".toList <+: name.toList
    | _ => false
  match app with
  | some ([name], _) => name
  | _ => "file__0"

/-- The update of `Databases.db`, if it can be opened. -/
def updateOrigin (env : Environment) (entries : Listing) (tree : Tree) : Tree :=
  let path := ["Databases.db"]
  let stmt := "UPDATE Databases SET origin='" ++ env.identifier ++ "' WHERE origin='" ++
    oldId entries ++ "'"
  match tree path with
  | some .directory => tree
  | some (.file db) =>
    if env.hasMetaTable db then Function.update tree path (some (.file (env.execute stmt db)))
    else tree
  | none => Function.update tree path (env.newDatabase.map .file)

def databaseWrites (env : Environment) (entries : Listing) : List (Tree → Tree) :=
  entries.map copy ++ [env.move (oldId entries) env.identifier, updateOrigin env entries]

/-- The old directory `databases`, when it is there, and the new one. -/
def migrateDatabases (env : Environment) (old : Option Listing) : Program (Option Tree) :=
  match old with
  | some entries => rebuild (databaseWrites env entries)
  | none => fun _ => []

def oldIndexedDb : String := "file__0.indexeddb.leveldb"

def indexedDbWrites (env : Environment) (root : Node) (entries : Listing) : List (Tree → Tree) :=
  copy ([oldIndexedDb], root) ::
    (entries.map fun entry => copy (oldIndexedDb :: entry.1, entry.2)) ++
    [env.move oldIndexedDb (env.identifier ++ ".indexeddb.leveldb")]

/-- The old `file__0.indexeddb.leveldb`, when it is there, and the new directory `IndexedDB`. -/
def migrateIndexedDb (env : Environment) (old : Option (Node × Listing)) : Program (Option Tree) :=
  match old with
  | some (root, entries) => rebuild (indexedDbWrites env root entries)
  | none => fun _ => []

/-! ## The hook -/

/-- The old databases, which are only read. -/
structure OldDatabases where
  databases : Option Listing
  indexedDb : Option (Node × Listing)

abbrev Profile := LocalStorage × Option Tree × Option Tree

/-- `MainPartsPreCreateThreadsHook`. -/
def hook (env : Environment) (old : OldDatabases) : Program Profile :=
  if env.migrates then
    (migrateStorage env).prod
      ((migrateDatabases env old.databases).prod (migrateIndexedDb env old.indexedDb))
  else fun _ => []

/-- What is at the new places. -/
def migrated : Profile → Option (String → Option String) × Option Tree × Option Tree :=
  Prod.map LocalStorage.new (Prod.map id id)

/-- DOM storage that is to be migrated has no journal; databases that are to be migrated are empty,
and opening a database makes no file; there is no IndexedDB to be migrated. -/
structure NothingLost (env : Environment) (old : OldDatabases) (s : Profile) : Prop where
  storage : ∀ file ∈ s.1.old.find? fun file => isStorage file.1,
    s.1.pathExists (journal (env.databaseFileName env.origin)) = false →
    s.1.pathExists (env.databaseFileName env.origin) = false →
    s.1.old.find? (fun file' => file'.1 = journal file.1) = none
  databases : ∀ entries ∈ old.databases, s.2.1 = none → entries = [] ∧ env.newDatabase = none
  indexedDb : old.indexedDb.isSome → s.2.2.isSome

/-! ## DOM storage, proved

Two files may have to be moved, the journal and then the storage. Between the two the journal is at
the new place, which is enough for the next start to skip the storage. -/

theorem journal_ne (name : String) : journal name ≠ name := by
  intro h
  have hlength := congrArg String.length h
  unfold journal at hlength
  rw [String.length_append] at hlength
  have hjournal : "-journal".length = 8 := by decide
  omega

namespace LocalStorage

variable {s : LocalStorage}

@[simp]
theorem pathExists_createDirectory (name : String) :
    s.createDirectory.pathExists name = s.pathExists name := by
  unfold pathExists createDirectory
  cases s.new <;> rfl

theorem move_of_absent {source target : String}
    (h : s.old.find? (fun file => file.1 = source) = none) : s.move source target = s := by
  unfold move
  rw [h]
  split
  · rename_i heq
    cases heq
  · rfl

/-- A file that is there is at the new place after the move, with its text, and no longer at the old
one. Something that was at the new place would be replaced. -/
theorem move_spec {source target text name : String} {files : String → Option String}
    (hnew : s.new = some files)
    (hold : s.old.find? (fun file => file.1 = source) = some (name, text)) :
    s.move source target =
      { old := s.old.filter fun file => file.1 ≠ source
        new := some (Function.update files target (some text)) } := by
  unfold move
  rw [hnew, hold]

theorem pathExists_move {source target text name : String} {files : String → Option String}
    (hnew : s.new = some files)
    (hold : s.old.find? (fun file => file.1 = source) = some (name, text)) :
    (s.move source target).pathExists target = true := by
  rw [move_spec hnew hold]
  unfold pathExists
  simp

/-- At any other place there is what was there before. -/
theorem pathExists_move_of_ne {source target name : String} (hne : name ≠ target) :
    (s.move source target).pathExists name = s.pathExists name := by
  unfold move
  split
  · rename_i files _ _ hnew _
    unfold pathExists
    rw [hnew]
    simp only [Option.bind_some]
    rw [Function.update_of_ne hne]
  · rfl

/-- A file stays when another one is moved, so the storage is still found after its journal has
gone. -/
theorem find?_move {source target other : String} (hne : other ≠ source) :
    (s.move source target).old.find? (fun file => file.1 = other) =
      s.old.find? fun file => file.1 = other := by
  unfold move
  split
  · rw [List.find?_filter]
    refine congrArg (fun p => s.old.find? p) (funext fun file => ?_)
    by_cases hfile : file.1 = other
    · simp [hfile, hne]
    · simp [hfile]
  · rfl

/-- The storage file that was found by what its name ends in is found again by its name. -/
theorem find?_name {file : String × String}
    (h : s.old.find? (fun file => isStorage file.1) = some file) :
    ∃ found, s.old.find? (fun file' => file'.1 = file.1) = some found := by
  rw [← Option.isSome_iff_exists, List.find?_isSome]
  exact ⟨file, List.mem_of_find?_eq_some h, by simp⟩

end LocalStorage

section
variable {env : Environment} {s : LocalStorage}

theorem createDirectory_of_exists {name : String} (h : s.pathExists name = true) :
    s.createDirectory = s := by
  unfold LocalStorage.createDirectory
  unfold LocalStorage.pathExists at h
  cases hnew : s.new with
  | none =>
    rw [hnew] at h
    cases h
  | some files => rw [Option.getD_some, ← hnew]

/-- With something at the new place, only the directory is created, which is there. -/
theorem migrateStorage_of_exists {file : String × String}
    (hfind : s.old.find? (fun file => isStorage file.1) = some file)
    (h : s.pathExists (journal (env.databaseFileName env.origin)) = true ∨
      s.pathExists (env.databaseFileName env.origin) = true) :
    migrateStorage env s = [LocalStorage.createDirectory] ∧ s.createDirectory = s := by
  constructor
  · unfold migrateStorage
    rw [hfind]
    simp only
    rw [if_neg]
    rintro ⟨hjournal, hstorage⟩
    rcases h with h | h
    · rw [h] at hjournal
      cases hjournal
    · rw [h] at hstorage
      cases hstorage
  · rcases h with h | h <;> exact createDirectory_of_exists h

/-- **With something at the new place the migration does nothing**, be it the storage or a journal.
-/
theorem run_of_exists
    (h : s.pathExists (journal (env.databaseFileName env.origin)) = true ∨
      s.pathExists (env.databaseFileName env.origin) = true) :
    (migrateStorage env).run s = s := by
  unfold Program.run
  cases hfind : s.old.find? fun file => isStorage file.1 with
  | none =>
    unfold migrateStorage
    rw [hfind]
    rfl
  | some file =>
    obtain ⟨heq, hsame⟩ := migrateStorage_of_exists hfind h
    rw [heq]
    exact hsame

/-- The program when a storage file is found and nothing is at the new place. -/
theorem migrateStorage_eq {file : String × String}
    (hfind : s.old.find? (fun file => isStorage file.1) = some file)
    (hjournal : s.pathExists (journal (env.databaseFileName env.origin)) = false)
    (hstorage : s.pathExists (env.databaseFileName env.origin) = false) :
    migrateStorage env s =
      [LocalStorage.createDirectory,
        LocalStorage.move (journal file.1) (journal (env.databaseFileName env.origin)),
        LocalStorage.move file.1 (env.databaseFileName env.origin)] := by
  unfold migrateStorage
  rw [hfind]
  simp only
  rw [if_pos (by simp [hjournal, hstorage])]

/-- After the storage file is moved something is at the new place, whatever was done about the
journal before. -/
theorem pathExists_moved {file : String × String}
    (hfind : s.old.find? (fun file => isStorage file.1) = some file) {source target : String}
    (hne : file.1 ≠ source) (storage : String) :
    ((s.createDirectory.move source target).move file.1 storage).pathExists storage = true := by
  obtain ⟨⟨name, text⟩, hfound⟩ := LocalStorage.find?_name hfind
  have hnew : ∃ files, (s.createDirectory.move source target).new = some files := by
    unfold LocalStorage.move LocalStorage.createDirectory
    split
    · exact ⟨_, rfl⟩
    · exact ⟨_, rfl⟩
  obtain ⟨files, hnew⟩ := hnew
  have hold : (s.createDirectory.move source target).old.find? (fun other => other.1 = file.1) =
      some (name, text) := by
    rw [LocalStorage.find?_move hne]
    exact hfound
  exact LocalStorage.pathExists_move hnew hold

/-- **A second start changes nothing**: the first one has left the storage at the new place, or
there was none to move. -/
theorem migrateStorage_settles (env : Environment) (s : LocalStorage) :
    (migrateStorage env).Settles s := by
  cases hfind : s.old.find? fun file => isStorage file.1 with
  | none =>
    refine Program.settles_of_nil ?_
    unfold migrateStorage
    rw [hfind]
  | some file =>
    unfold Program.Settles
    by_cases hexists : s.pathExists (journal (env.databaseFileName env.origin)) = true ∨
        s.pathExists (env.databaseFileName env.origin) = true
    · rw [run_of_exists hexists, run_of_exists hexists]
    · obtain ⟨hjournal, hstorage⟩ := not_or.mp hexists
      have heq := migrateStorage_eq hfind (Bool.eq_false_iff.mpr hjournal)
        (Bool.eq_false_iff.mpr hstorage)
      refine run_of_exists (Or.inr ?_)
      unfold Program.run
      rw [heq]
      exact pathExists_moved hfind (journal_ne file.1).symm _

/-- With something at the new place nothing happens, whatever is left to do: each write of the
program is empty then. -/
theorem crash_of_exists {file : String × String}
    (hfind : s.old.find? (fun file => isStorage file.1) = some file)
    (h : s.pathExists (journal (env.databaseFileName env.origin)) = true ∨
      s.pathExists (env.databaseFileName env.origin) = true) (n : Nat) :
    (migrateStorage env).crash n s = s := by
  obtain ⟨heq, hsame⟩ := migrateStorage_of_exists hfind h
  unfold Program.crash
  rw [heq]
  cases n with
  | zero => rfl
  | succ n =>
    rw [List.take_of_length_le (by simp)]
    exact hsame

section Moves

variable {file : String × String}
  (hfind : s.old.find? (fun file => isStorage file.1) = some file)
  (hjournal : s.pathExists (journal (env.databaseFileName env.origin)) = false)
  (hstorage : s.pathExists (env.databaseFileName env.origin) = false)

include hfind hjournal hstorage

theorem run_migrateStorage : (migrateStorage env).run s =
    (s.createDirectory.move (journal file.1) (journal (env.databaseFileName env.origin))).move
      file.1 (env.databaseFileName env.origin) := by
  unfold Program.run
  rw [migrateStorage_eq hfind hjournal hstorage]
  rfl

/-- A crash between the two moves leaves a moved journal alone, and nothing is moved again. -/
theorem journal_absent_of_recovers (h : (migrateStorage env).Recovers LocalStorage.new s) :
    s.old.find? (fun file' => file'.1 = journal file.1) = none := by
  by_contra hold
  obtain ⟨found, hfound⟩ := Option.ne_none_iff_exists'.mp hold
  have hcrash : (migrateStorage env).crash 2 s =
      s.createDirectory.move (journal file.1) (journal (env.databaseFileName env.origin)) := by
    unfold Program.crash
    rw [migrateStorage_eq hfind hjournal hstorage]
    rfl
  have hblocked : (s.createDirectory.move (journal file.1)
      (journal (env.databaseFileName env.origin))).pathExists
        (journal (env.databaseFileName env.origin)) = true :=
    LocalStorage.pathExists_move rfl hfound
  have hsame := h 2
  rw [hcrash, run_of_exists (Or.inl hblocked), run_migrateStorage hfind hjournal hstorage] at hsame
  -- an uninterrupted migration has moved the storage file, too
  have hmoved : ((s.createDirectory.move (journal file.1)
      (journal (env.databaseFileName env.origin))).move file.1
        (env.databaseFileName env.origin)).pathExists (env.databaseFileName env.origin) = true :=
    pathExists_moved hfind (journal_ne file.1).symm _
  have hmissing : (s.createDirectory.move (journal file.1)
      (journal (env.databaseFileName env.origin))).pathExists
        (env.databaseFileName env.origin) = false := by
    rw [LocalStorage.pathExists_move_of_ne (journal_ne _).symm,
      LocalStorage.pathExists_createDirectory]
    exact hstorage
  unfold LocalStorage.pathExists at hmissing hmoved
  rw [hsame, hmoved] at hmissing
  cases hmissing

/-- Without a journal every crash leaves the migration to be done, or done: the one move that does
something is that of the storage. -/
theorem recovers_of_journal_absent
    (habsent : s.old.find? (fun file' => file'.1 = journal file.1) = none) :
    (migrateStorage env).Recovers LocalStorage.new s := by
  have heq := migrateStorage_eq hfind hjournal hstorage
  have hskip : s.createDirectory.move (journal file.1)
      (journal (env.databaseFileName env.origin)) = s.createDirectory :=
    LocalStorage.move_of_absent habsent
  have hagain : (migrateStorage env).run s.createDirectory = (migrateStorage env).run s := by
    rw [run_migrateStorage hfind hjournal hstorage]
    exact run_migrateStorage (s := s.createDirectory) hfind
      ((LocalStorage.pathExists_createDirectory _).trans hjournal)
      ((LocalStorage.pathExists_createDirectory _).trans hstorage)
  intro n
  match n with
  | 0 => rfl
  | 1 =>
    -- before the last move there is at most the directory, and the rest is done again
    have hcrash : (migrateStorage env).crash 1 s = s.createDirectory := by
      unfold Program.crash
      rw [heq]
      rfl
    rw [hcrash, hagain]
  | 2 =>
    have hcrash : (migrateStorage env).crash 2 s = s.createDirectory := by
      unfold Program.crash
      rw [heq]
      exact hskip
    rw [hcrash, hagain]
  | n + 3 =>
    have hcrash : (migrateStorage env).crash (n + 3) s = (migrateStorage env).run s := by
      refine Program.crash_of_length_le ?_
      rw [heq]
      simp
    rw [hcrash, migrateStorage_settles env s]

end Moves

/-- **The DOM storage survives every crash exactly if there is no journal to move with it**, where
there is a storage to move and nothing at the new place. -/
theorem migrateStorage_recovers_iff (env : Environment) (s : LocalStorage) :
    (migrateStorage env).Recovers LocalStorage.new s ↔
      ∀ file ∈ s.old.find? fun file => isStorage file.1,
        s.pathExists (journal (env.databaseFileName env.origin)) = false →
        s.pathExists (env.databaseFileName env.origin) = false →
        s.old.find? (fun file' => file'.1 = journal file.1) = none := by
  cases hfind : s.old.find? fun file => isStorage file.1 with
  | none =>
    refine iff_of_true (Program.recovers_of_nil ?_) nofun
    unfold migrateStorage
    rw [hfind]
  | some file =>
    simp only [Option.mem_some_iff, forall_eq']
    constructor
    · exact fun h hjournal hstorage => journal_absent_of_recovers hfind hjournal hstorage h
    · intro habsent
      -- nothing is moved where a new file is there already
      by_cases hexists : s.pathExists (journal (env.databaseFileName env.origin)) = true ∨
          s.pathExists (env.databaseFileName env.origin) = true
      · intro n
        rw [crash_of_exists hfind hexists]
      · obtain ⟨hjournal, hstorage⟩ := not_or.mp hexists
        rw [Bool.not_eq_true] at hjournal hstorage
        exact recovers_of_journal_absent hfind hjournal hstorage (habsent hjournal hstorage)

end

/-! ## WebSQL and IndexedDB, proved

Both are rebuilt by `rebuild`: the new directory is made and then filled by writes. From the first
write on the directory is there, so the next start takes it as it is. -/

theorem exec_map_some (writes : List (Tree → Tree)) (tree : Tree) :
    exec (writes.map Option.map) (some tree) = some (exec writes tree) :=
  exec_map (f := some) (fun _ _ => rfl) writes tree

theorem rebuild_settles (writes : List (Tree → Tree)) (new : Option Tree) :
    (rebuild writes).Settles new := by
  cases new with
  | some tree => exact Program.settles_of_nil rfl
  | none =>
    unfold Program.Settles Program.run
    rw [rebuild, exec_cons, Option.getD_none, exec_map_some]
    rfl

/-- **Once the directory is there, it stays as a crash left it.** So every crash must leave what the
whole rebuilding would: the writes must not change anything. -/
theorem rebuild_recovers_iff (writes : List (Tree → Tree)) :
    (rebuild writes).Recovers id none ↔
      ∀ n, exec (writes.take n) Tree.empty = exec writes Tree.empty := by
  have hcrash : ∀ n,
      (rebuild writes).crash (n + 1) none = some (exec (writes.take n) Tree.empty) := by
    intro n
    unfold Program.crash
    rw [rebuild, List.take_succ_cons, exec_cons, Option.getD_none, ← List.map_take, exec_map_some]
  have hrun : (rebuild writes).run none = some (exec writes Tree.empty) := by
    unfold Program.run
    rw [rebuild, exec_cons, Option.getD_none, exec_map_some]
  rw [Program.recovers_iff_of_closed]
  · refine forall_congr' fun n => ?_
    rw [hcrash, hrun, id, id, Option.some.injEq]
  · intro n
    rw [hcrash]
    rfl

/-- What is written stays there, whatever is moved and updated after it. -/
def Written (tree : Tree) : Prop := ∃ path, tree path ≠ none

theorem not_written_empty : ¬ Written Tree.empty := fun ⟨_, h⟩ => h rfl

theorem written_copy (entry : List String × Node) (tree : Tree) : Written (copy entry tree) := by
  refine ⟨entry.1, ?_⟩
  unfold copy
  rw [Function.update_self]
  exact nofun

/-- Renaming an origin takes nothing out of the tree, and the database of the origins is written,
not removed. -/
theorem Written.updateOrigin {env : Environment} {entries : Listing} {tree : Tree}
    (h : Written tree) : Written (updateOrigin env entries tree) := by
  obtain ⟨path, hpath⟩ := h
  unfold Migration.updateOrigin
  simp only
  split
  · exact ⟨path, hpath⟩
  · split
    · refine ⟨["Databases.db"], ?_⟩
      rw [Function.update_self]
      exact nofun
    · exact ⟨path, hpath⟩
  · rename_i hnone
    have hne : path ≠ ["Databases.db"] := by
      rintro rfl
      exact hpath hnone
    refine ⟨path, ?_⟩
    rw [Function.update_of_ne hne]
    exact hpath

/-- In an empty tree there is no origin to rename, and no database of them unless the system makes
one. -/
theorem updateOrigin_empty {env : Environment} {entries : Listing} (h : env.newDatabase = none) :
    updateOrigin env entries Tree.empty = Tree.empty := by
  unfold updateOrigin
  simp only [Tree.empty]
  rw [h]
  exact Function.update_eq_self _ _

/-- The writes leave an empty tree only when there is nothing to copy and no database is made. -/
theorem exec_databaseWrites_iff (env : Environment) (entries : Listing) :
    exec (databaseWrites env entries) Tree.empty = Tree.empty ↔
      entries = [] ∧ env.newDatabase = none := by
  constructor
  · intro h
    by_contra hnot
    refine not_written_empty ?_
    rw [← h]
    unfold databaseWrites
    rw [exec_append, exec_cons, exec_cons, exec_nil]
    by_cases hentries : entries = []
    · -- the database that is opened
      have hnew := not_and.mp hnot hentries
      obtain ⟨db, hdb⟩ := Option.ne_none_iff_exists'.mp hnew
      refine ⟨["Databases.db"], ?_⟩
      rw [hentries, List.map_nil, exec_nil, env.move_absent _ _ _ rfl]
      unfold updateOrigin
      simp only [Tree.empty, Function.update_self]
      rw [hdb]
      exact nofun
    · obtain ⟨front, last, heq⟩ := List.eq_nil_or_concat entries |>.resolve_left hentries
      refine Written.updateOrigin ?_
      have hcopied : Written (exec (entries.map copy) Tree.empty) := by
        rw [heq, List.concat_eq_append, List.map_append, exec_append]
        exact written_copy last _
      obtain ⟨path, hpath⟩ := hcopied
      exact env.move_keeps _ _ _ path hpath
  · rintro ⟨rfl, hnone⟩
    unfold databaseWrites
    rw [List.map_nil, List.nil_append, exec_cons, exec_cons, exec_nil, env.move_absent _ _ _ rfl,
      updateOrigin_empty hnone]

/-- **WebSQL survives every crash exactly if there is nothing to migrate**: no old directory, or a
new one, or an old one that is empty. -/
theorem migrateDatabases_recovers_iff (env : Environment) (old : Option Listing)
    (new : Option Tree) : (migrateDatabases env old).Recovers id new ↔
      ∀ entries ∈ old, new = none → entries = [] ∧ env.newDatabase = none := by
  cases old with
  | none => exact iff_of_true (Program.recovers_of_nil rfl) nofun
  | some entries =>
    cases new with
    | some tree => exact iff_of_true (Program.recovers_of_nil rfl) fun _ _ h => nomatch h
    | none =>
      simp only [Option.mem_some_iff, forall_eq', forall_const]
      rw [← exec_databaseWrites_iff]
      refine (rebuild_recovers_iff _).trans ⟨fun h => (h 0).symm, fun h n => ?_⟩
      rw [h]
      -- with nothing to copy the tree stays empty
      obtain ⟨rfl, hnone⟩ := (exec_databaseWrites_iff env entries).mp h
      refine exec_invariant (I := fun tree => tree = Tree.empty) ?_ rfl
      rintro write hwrite tree rfl
      rcases List.mem_pair.mp (List.mem_of_mem_take hwrite) with rfl | rfl
      · exact env.move_absent _ _ _ rfl
      · exact updateOrigin_empty hnone

/-- **IndexedDB survives every crash exactly if it is not migrated at all**, since the directory
itself is already something to copy. -/
theorem migrateIndexedDb_recovers_iff (env : Environment) (old : Option (Node × Listing))
    (new : Option Tree) : (migrateIndexedDb env old).Recovers id new ↔
      (old.isSome → new.isSome) := by
  cases old with
  | none => exact iff_of_true (Program.recovers_of_nil rfl) nofun
  | some old =>
    obtain ⟨root, entries⟩ := old
    cases new with
    | some tree => exact iff_of_true (Program.recovers_of_nil rfl) fun _ => rfl
    | none =>
      refine iff_of_false ?_ (fun h => nomatch h rfl)
      intro h
      -- a crash before the first write leaves the new place without a file
      have hempty := (rebuild_recovers_iff _).mp h 0
      refine not_written_empty ?_
      rw [show Tree.empty = exec ((indexedDbWrites env root entries).take 0) Tree.empty from rfl,
        hempty]
      unfold indexedDbWrites
      rw [exec_append, exec_cons, exec_cons, exec_nil]
      -- the whole program writes at least the root
      have hcopied : Written (exec (entries.map fun entry => copy (oldIndexedDb :: entry.1, entry.2))
          (copy ([oldIndexedDb], root) Tree.empty)) := by
        refine exec_invariant ?_ (written_copy _ _)
        intro write hwrite tree _
        obtain ⟨entry, -, rfl⟩ := List.mem_map.mp hwrite
        exact written_copy _ _
      obtain ⟨path, hpath⟩ := hcopied
      exact env.move_keeps _ _ _ path hpath

/-! ## The hook, proved -/

/-- **Crash safety.** The hook leads to the same storage after a crash anywhere, and changes nothing
when it runs again, exactly when it has nothing to lose. -/
theorem migration_crash_safe_iff (env : Environment) (old : OldDatabases) (s : Profile) :
    ((hook env old).Recovers migrated s ∧ (hook env old).Settles s) ↔
      (env.migrates = true → NothingLost env old s) := by
  unfold hook
  split
  · rename_i hmigrates
    have hdatabases : (migrateDatabases env old.databases).Settles s.2.1 := by
      unfold migrateDatabases
      split
      · exact rebuild_settles _ _
      · exact Program.settles_of_nil rfl
    have hindexedDb : (migrateIndexedDb env old.indexedDb).Settles s.2.2 := by
      unfold migrateIndexedDb
      split
      · exact rebuild_settles _ _
      · exact Program.settles_of_nil rfl
    -- the three work on different parts of the profile, so each has its own condition
    rw [Program.settles_prod_iff, Program.settles_prod_iff,
      and_iff_left ⟨migrateStorage_settles env s.1, hdatabases, hindexedDb⟩]
    unfold migrated
    rw [Program.recovers_prod_iff, Program.recovers_prod_iff, migrateStorage_recovers_iff,
      migrateDatabases_recovers_iff, migrateIndexedDb_recovers_iff]
    constructor
    · rintro ⟨hstorage, hsql, hidb⟩ _
      exact ⟨hstorage, hsql, hidb⟩
    · intro h
      exact ⟨(h hmigrates).storage, (h hmigrates).databases, (h hmigrates).indexedDb⟩
  · rename_i hmigrates
    refine iff_of_true ⟨Program.recovers_of_nil rfl, Program.settles_of_nil rfl⟩ ?_
    exact fun h => absurd h hmigrates

/-- An entry gets another name. -/
def rename (source target : String) (tree : Tree) : Tree :=
  match tree [source] with
  | none => tree
  | some _ => fun path =>
    match path with
    | [] => tree []
    | name :: rest =>
      if name = target then tree (source :: rest) else if name = source then none else tree path

def app : Environment where
  packagePath := "/app"
  name := "app"
  domain := ""
  userDataDir := some "/profile"
  generateId _ := "abc"
  identifierFromOrigin _ := "chrome-extension_abc_0"
  databaseFileName _ := "chrome-extension_abc_0.localstorage"
  move := rename
  move_absent source target tree h := by
    unfold rename
    rw [h]
  move_keeps source target tree path h := by
    unfold rename
    cases hnode : tree [source] with
    | none => exact ⟨path, h⟩
    | some node =>
      refine ⟨[target], ?_⟩
      simp only [if_true]
      rw [hnode]
      exact nofun
  newDatabase := some ""
  hasMetaTable _ := true
  execute _ db := db

/-- A storage file with a journal. -/
def storageWithJournal : Profile :=
  (⟨[("file__0.localstorage", "data"), ("file__0.localstorage-journal", "journal")], none⟩, none,
    none)

/-- After a crash between the two moves the storage file stays where it was. -/
theorem storageWithJournal_lost :
    ¬ ∀ (env : Environment) (old : OldDatabases) (s : Profile),
      (hook env old).Recovers migrated s ∧ (hook env old).Settles s := by
  intro hall
  have hsame := (hall app ⟨none, none⟩ storageWithJournal).1 2
  have hnew := congrArg (fun new => new.1.bind fun files =>
    files "chrome-extension_abc_0.localstorage") hsame
  have hlost : (migrated ((hook app ⟨none, none⟩).run ((hook app ⟨none, none⟩).crash 2
      storageWithJournal))).1.bind (fun files =>
        files "chrome-extension_abc_0.localstorage") = none := rfl
  have hkept : (migrated ((hook app ⟨none, none⟩).run storageWithJournal)).1.bind (fun files =>
      files "chrome-extension_abc_0.localstorage") = some "data" := rfl
  rw [hlost, hkept] at hnew
  cases hnew

end NodeWebkit.Migration
