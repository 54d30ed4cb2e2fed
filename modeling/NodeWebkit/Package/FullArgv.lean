import NodeWebkit.Package.Package
import Mathlib.Data.List.Perm.Basic

/-!
# nw.App.fullArgv

`NwAppGetArgvSyncFunction` gives the arguments as passed, without the program. Unless
`self_extract_` is set it leaves out the first of them that equals the first argument of `GetArgs`,
which is meant to be the one that the package was loaded from.

## Which argument is left out

The loop compares texts, so what it leaves out is the first argument with this text, and that may be
an argument of a switch or another one that happens to be the same. It is the right one up to equal
texts if the arguments from it to the right one are all the same (`erase_eq_eraseIdx_iff`).

* **`selfExtract_loadFrom`** — `self_extract_` is that of the candidate that was accepted;
* **`dropArg_of_head?`** — the loop is an `erase`;
* **`fullArgv_iff`** — when what is left are the arguments without the source of the package.
-/

namespace NodeWebkit

/-- The loop of `getArgvSync`, from an element on. -/
def dropArg (args : List String) : Bool → List String → List String
  | _, [] => []
  | ignoreArg, arg :: rest =>
    if ignoreArg ∧ args.head? = some arg then dropArg args false rest
    else arg :: dropArg args ignoreArg rest

/-- `NwAppGetArgvSyncFunction::RunNWSync`. -/
def getArgvSync (p : Package) (cl : CommandLine) : List String :=
  dropArg cl.getArgs (!p.selfExtract) cl.originalArgv.tail

namespace CommandLine

/-- Which of the arguments the first one of `GetArgs` is. -/
def firstArg (cl : CommandLine) : Option Nat := cl.args.findIdx? fun token => token.arg?.isSome

/-- The arguments without the one that the package was loaded from. -/
def withoutSource (cl : CommandLine) : Source → List String
  | .self | .exeFolder | .packageNw | .nwapp => cl.originalArgv.tail
  | .arg =>
    match cl.firstArg with
    | some j => cl.originalArgv.tail.eraseIdx j
    | none => cl.originalArgv.tail

/-- With a package from `--nwapp`, no element equals the first argument; with one from the first
argument, that one is written as it is read, and an element before it that equals it is followed by
one that does, too. -/
def DropOk (cl : CommandLine) : Source → Prop
  | .self | .exeFolder | .packageNw => True
  | .nwapp => ∀ arg ∈ cl.getArgs.head?, arg ∉ cl.originalArgv.tail
  | .arg => ∀ j ∈ cl.firstArg, ∀ arg ∈ cl.getArgs.head?,
    cl.originalArgv.tail[j]? = some arg ∧
      ∀ k < j, cl.originalArgv.tail[k]? = some arg → cl.originalArgv.tail[k + 1]? = some arg

/-- There is one token for each argument. -/
theorem length_tokens (cl : CommandLine) (parseSwitches : Bool) (argv : List String) :
    (cl.tokens parseSwitches argv).length = argv.length := by
  induction argv generalizing parseSwitches with
  | nil => rfl
  | cons a rest ih =>
    unfold tokens
    simp only
    split
    · exact congrArg (· + 1) (ih false)
    · split <;> exact congrArg (· + 1) (ih parseSwitches)

theorem firstArg_lt {cl : CommandLine} {j : Nat} (h : cl.firstArg = some j) :
    j < cl.originalArgv.tail.length := by
  rw [← cl.length_tokens true]
  exact (List.findIdx?_eq_some_iff_getElem.mp h).1

/-- There is a first argument when `GetArgs` is not empty, and it is the text of this token. -/
theorem head?_getArgs {cl : CommandLine} {j : Nat} (h : cl.firstArg = some j) :
    ∃ arg, cl.getArgs.head? = some arg := by
  obtain ⟨hlt, harg, -⟩ := List.findIdx?_eq_some_iff_getElem.mp h
  obtain ⟨text, htext⟩ := Option.isSome_iff_exists.mp harg
  have hmem : text ∈ cl.getArgs := List.mem_filterMap.mpr ⟨_, List.getElem_mem hlt, htext⟩
  cases hargs : cl.getArgs with
  | nil =>
    rw [hargs] at hmem
    cases hmem
  | cons arg rest => exact ⟨arg, rfl⟩

theorem getArgs_of_firstArg {cl : CommandLine} (h : cl.firstArg = none) : cl.getArgs = [] := by
  have hnone := List.findIdx?_eq_none_iff.mp h
  refine List.filterMap_eq_nil_iff.mpr fun token htoken => ?_
  simpa using hnone token htoken

end CommandLine

/-! ## What the loop drops -/

theorem dropArg_false (args l : List String) : dropArg args false l = l := by
  induction l with
  | nil => rfl
  | cons a l ih =>
    rw [dropArg, if_neg nofun, ih]

/-- **The loop takes out the first argument with this text**, if there is one, whatever stands
there. -/
theorem dropArg_of_head? {args : List String} {arg : String} (h : args.head? = some arg)
    (l : List String) : dropArg args true l = l.erase arg := by
  induction l with
  | nil => rfl
  | cons a l ih =>
    rw [dropArg, h, List.erase_cons, ih, dropArg_false]
    by_cases ha : a = arg
    · simp [ha]
    · simp [ha, Ne.symm ha]

theorem dropArg_nil (ignoreArg : Bool) (l : List String) : dropArg [] ignoreArg l = l := by
  induction l with
  | nil => rfl
  | cons a l ih => rw [dropArg, if_neg (fun h => nomatch h.2), ih]

/-- Two ways to take an element off a list that agree take off equal elements. -/
theorem eq_of_perm_cons {α : Type} [DecidableEq α] {a b : α} {l : List α}
    (h : (a :: l).Perm (b :: l)) : a = b := by
  have hcount := h.count_eq a
  rw [List.count_cons_self, List.count_cons] at hcount
  by_contra hne
  rw [if_neg (by simpa using Ne.symm hne)] at hcount
  omega

/-- The head can be moved to position `j` when all elements up to there are equal to it. -/
theorem cons_eraseIdx_eq_iff {α : Type} {a : α} {l : List α} {j : Nat} (hj : j < l.length) :
    l = a :: l.eraseIdx j ↔ ∀ k ≤ j, l[k]? = some a := by
  induction l generalizing j with
  | nil => exact absurd hj (Nat.not_lt_zero j)
  | cons b l ih =>
    cases j with
    | zero => simp
    | succ j =>
      have hj : j < l.length := by simpa using hj
      rw [List.eraseIdx_cons_succ, List.cons.injEq]
      constructor
      · rintro ⟨rfl, htail⟩ k hk
        cases k with
        | zero => rfl
        | succ k => exact (ih hj).mp htail k (by omega)
      · intro hall
        have hb : b = a := by simpa using hall 0 (by omega)
        rw [hb]
        refine ⟨rfl, (ih hj).mpr fun k hk => ?_⟩
        exact hall (k + 1) (by omega)

/-- **Taking out a text or a position.** The two come to the same exactly if the text stands at the
position and every earlier occurrence of it is followed by another one. The induction is on the list
up to the first occurrence; from there on the elements have to be shifted copies of each other. -/
theorem erase_eq_eraseIdx_iff {α : Type} [DecidableEq α] {a : α} {l : List α} {j : Nat}
    (hj : j < l.length) : l.erase a = l.eraseIdx j ↔
      l[j]? = some a ∧ ∀ k < j, l[k]? = some a → l[k + 1]? = some a := by
  induction l generalizing j with
  | nil => exact absurd hj (Nat.not_lt_zero j)
  | cons b l ih =>
    by_cases hb : b = a
    · subst hb
      rw [List.erase_cons_head]
      cases j with
      | zero => simp
      | succ j =>
        have hj : j < l.length := by simpa using hj
        rw [List.eraseIdx_cons_succ, cons_eraseIdx_eq_iff hj]
        constructor
        · intro hall
          exact ⟨hall j (Nat.le_refl j), fun k hk _ => hall k (by omega)⟩
        · rintro ⟨-, hnext⟩ k hk
          -- from the head on, each element is followed by an equal one
          induction k with
          | zero => exact hnext 0 (by omega) rfl
          | succ k ihk => exact hnext (k + 1) (by omega) (ihk (by omega))
    · rw [List.erase_cons_tail (by simpa using hb)]
      cases j with
      | zero =>
        simp only [List.eraseIdx_cons_zero, List.getElem?_cons_zero, Option.some.injEq, hb,
          false_and, iff_false]
        intro heq
        have hlength := congrArg List.length heq
        by_cases ha : a ∈ l
        · refine hb (eq_of_perm_cons (l := l.erase a) ?_)
          rw [heq]
          exact List.perm_cons_erase ha
        · rw [List.erase_of_not_mem ha] at hlength
          simp at hlength
      | succ j =>
        have hj : j < l.length := by simpa using hj
        rw [List.eraseIdx_cons_succ, List.cons.injEq, ih hj]
        simp only [true_and, List.getElem?_cons_succ]
        refine and_congr_right fun _ => ⟨fun hnext k hk => ?_, fun hnext k hk => ?_⟩
        · cases k with
          | zero => exact fun h => absurd (Option.some.inj h) hb
          | succ k => exact hnext k (by omega)
        · exact hnext (k + 1) (by omega)

/-! ## The flag and the source -/

namespace Package

theorem selfExtract_extractPackage (sys : System) (p : Package) (zipFile : String) :
    (p.extractPackage sys zipFile).2.selfExtract = p.selfExtract := by
  unfold extractPackage
  split <;> rfl

/-- Looking at the path of a candidate leaves `self_extract_` alone, and so does extracting it. -/
theorem selfExtract_extractPath (sys : System) (p : Package) (path : String) :
    (p.extractPath sys path).2.selfExtract = p.selfExtract := by
  unfold extractPath
  split
  · rfl
  · rename_i target _
    have hsame := selfExtract_extractPackage sys p (sys.resolve target)
    simp only
    split
    · rfl
    · split
      · rename_i heq
        rw [heq] at hsame
        exact hsame
      · rename_i heq
        rw [heq] at hsame
        split <;> exact hsame

theorem selfExtract_readManifest (sys : System) (p : Package) (path name : String) (node : Node) :
    (p.readManifest sys path name node).2.selfExtract = p.selfExtract := by
  unfold readManifest
  simp only
  split
  · rfl
  · split <;> rfl
  · rfl

/-- Trying a candidate leaves `self_extract_` at what was set before it. -/
theorem selfExtract_initFromPath (sys : System) (p : Package) (path : String) :
    (p.initFromPath sys path).2.selfExtract = p.selfExtract := by
  have hextract := selfExtract_extractPath sys p path
  unfold initFromPath
  split
  · rename_i heq
    rw [heq] at hextract
    exact hextract
  · rename_i heq
    rw [heq] at hextract
    simp only
    split
    · rw [selfExtract_readManifest]
      exact hextract
    · split <;> exact hextract

/-- When the constructor returns, `self_extract_` is that of the candidate that was accepted: it is
set before each candidate, and the loop ends with the first that is accepted. -/
theorem selfExtract_loadFrom {sys : System} {cl : CommandLine} {cs : List Candidate} {p : Package}
    {c : Candidate} (h : (p.loadFrom sys cl cs).1 = some c) :
    (p.loadFrom sys cl cs).2.selfExtract = c.source.selfExtract := by
  induction cs generalizing p with
  | nil => cases h
  | cons c' rest ih =>
    rw [loadFrom] at h ⊢
    split at h
    · rename_i q heq
      cases h
      have hflag :=
        selfExtract_initFromPath sys { p with selfExtract := c.source.selfExtract } c.path
      unfold tryCandidate at heq
      rw [heq] at hflag
      exact hflag
    · exact ih h

end Package

/-- **The argument that is dropped.** With the package that is loaded, `getArgvSync` gives the
arguments without the one it was loaded from exactly when `DropOk` holds for its source. -/
theorem fullArgv_iff (sys : System) (cl : CommandLine) :
    (∀ c ∈ (Package.load sys cl).1,
      getArgvSync (Package.load sys cl).2 cl = cl.withoutSource c.source) ↔
    ∀ c ∈ (Package.load sys cl).1, cl.DropOk c.source := by
  refine forall₂_congr fun c hc => ?_
  have hflag := Package.selfExtract_loadFrom hc
  unfold getArgvSync
  rw [show (Package.load sys cl).2.selfExtract = c.source.selfExtract from hflag]
  cases c.source with
  | self => exact iff_of_true (dropArg_false _ _) trivial
  | exeFolder => exact iff_of_true (dropArg_false _ _) trivial
  | packageNw => exact iff_of_true (dropArg_false _ _) trivial
  -- the source is a switch, and yet an argument is compared with
  | nwapp =>
    simp only [CommandLine.withoutSource, CommandLine.DropOk, Source.selfExtract, Bool.not_false]
    cases hargs : cl.getArgs with
    | nil => simp [dropArg_nil]
    | cons arg rest =>
      rw [dropArg_of_head? rfl]
      simp only [List.head?_cons, Option.mem_some_iff, forall_eq']
      rw [List.erase_eq_self_iff]
  -- the source is the first argument, and is found by its text
  | arg =>
    simp only [CommandLine.withoutSource, CommandLine.DropOk, Source.selfExtract, Bool.not_false]
    cases hfirst : cl.firstArg with
    | none =>
      rw [CommandLine.getArgs_of_firstArg hfirst]
      simp [dropArg_nil]
    | some j =>
      obtain ⟨arg, harg⟩ := CommandLine.head?_getArgs hfirst
      rw [dropArg_of_head? harg, harg]
      simp only [Option.mem_some_iff, forall_eq']
      exact erase_eq_eraseIdx_iff (CommandLine.firstArg_lt hfirst)

/-- `nw --nwapp=/app foo`. -/
def nwappAndFoo : CommandLine where
  originalArgv := ["nw", "--nwapp=/app", "foo"]
  trim a := a
  isSwitch a := if a = "--nwapp=/app" then some ("nwapp", "/app") else none

/-- The package is loaded from `--nwapp`, and `foo` is missing, as it is the first argument of
`GetArgs`. -/
theorem nwapp_drops_foo :
    ¬ ∀ (sys : System) (cl : CommandLine), ∀ c ∈ (Package.load sys cl).1,
      getArgvSync (Package.load sys cl).2 cl = cl.withoutSource c.source := by
  intro hall
  have heq := hall appOnly nwappAndFoo ⟨.nwapp, "/app"⟩ rfl
  have hargv : getArgvSync (Package.load appOnly nwappAndFoo).2 nwappAndFoo = ["--nwapp=/app"] :=
    rfl
  rw [hargv] at heq
  cases heq

end NodeWebkit
