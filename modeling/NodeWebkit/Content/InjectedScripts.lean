import NodeWebkit.Lib.JsString

/-!
# The scripts that put paths into a page

`ContextCreationHook` and `DocumentElementHook` (`nw_content.cc`) generate small scripts in which
the extension's root path, the manifest's main file name and the path of the document's URL stand
between single quotes. The texts here are the UTF-16 code units that V8 makes of the strings.

* **`rootText`** — what becomes of the root path: quotes get a backslash, and on Windows so do
  backslashes;
* **`filenameScript`**, **`dirnameScript`**, **`processMain`**, **`processMain2`** — the scripts;
* **`scriptsDenote_iff`** — all scripts denote the paths they are given exactly when no path has a
  NUL or a line terminator, neither the main file name nor a URL path has a quote or a backslash,
  and the root path has backslashes on Windows only.
-/

namespace NodeWebkit.InjectedScripts

open JsString

inductive Platform where
  | win
  | other
  deriving DecidableEq

/-- `base::ReplaceChars`. -/
def replaceChars (input replaceChars replaceWith : Text) : Text :=
  input.flatMap fun u => if u ∈ replaceChars then replaceWith else [u]

/-- `root_path` as it is put into the scripts. -/
def rootText (platform : Platform) (root : Text) : Text :=
  let root :=
    match platform with
    | .win => replaceChars root [backslash] [backslash, backslash]
    | .other => root
  replaceChars root [quote] [backslash, quote]

def filenameScript (mainFn : Text) : Text :=
  ascii "global.__filename = '" ++ mainFn ++ ascii "';"

def dirnameScript (platform : Platform) (root : Text) : Text :=
  ascii "global.__dirname = '" ++ rootText platform root ++ ascii "';"

/-- The part of `processMain` in front of the root path. -/
def processMainStart : Text :=
  ascii "'use strict';" ++
  ascii "nw.global.XMLHttpRequest = XMLHttpRequest;" ++
  ascii "if (typeof nw.process != 'undefined' && " ++
  ascii "(!nw.process.mainModule.filename || nw.process.mainModule.filename === 'blank' ||" ++
  ascii "nw.process.mainModule.filename.indexOf('_generated_background_page.html') >= 0)) \x7b" ++
  ascii "  let root = '"

/-- The part of `processMain` behind the closing quote of the URL path. -/
def processMainEnd : Text :=
  ascii ";" ++
  ascii "nw.process.mainModule.filename = root + p;" ++
  ascii "nw.process.mainModule.paths = " ++
  ascii "nw.global.require('module')._nodeModulePaths(nw.process.cwd());" ++
  ascii "nw.process.mainModule.loaded = true;" ++
  ascii "\x7d"

/-- The script `process_main` of `ContextCreationHook`. -/
def processMain (platform : Platform) (root urlPath : Text) : Text :=
  processMainStart ++ rootText platform root ++ ascii "';" ++ ascii "  let p = '" ++ urlPath ++
    ascii "'" ++ processMainEnd

/-- The part of `processMain2` in front of the root path. -/
def processMain2Start : Text :=
  ascii "'use strict';" ++
  ascii "if (typeof nw != 'undefined' && typeof __filename == 'undefined') \x7b" ++
  ascii "  let root = '"

/-- The part of `processMain2` behind the closing quote of the URL path. -/
def processMain2End : Text :=
  ascii ";" ++
  ascii "nw.__filename = root + path;" ++
  ascii "nw.__dirname = root;" ++
  ascii "\x7d"

/-- The script `process_main2` of `DocumentElementHook`. -/
def processMain2 (platform : Platform) (root path : Text) : Text :=
  processMain2Start ++ rootText platform root ++ ascii "';" ++ ascii "  let path = '" ++ path ++
    ascii "'" ++ processMain2End

/-! ## What the scripts are to denote

A hole is a place in a script between single quotes. The script denotes the paths if JavaScript
reads at each hole the path that was put there; how it reads them is `Lib/JsString.lean`. -/

/-- The units of the root path that get a backslash. -/
def rootEscaped (platform : Platform) (u : CodeUnit) : Bool :=
  u = quote || (platform = .win && u = backslash)

/-- The root path as a text of a script. -/
def rootHole (platform : Platform) (root following : Text) : Hole where
  escaped := rootEscaped platform
  value := root
  following := following

/-- A main file name or URL path as a text of a script: it is put there as it is. -/
def plainHole (value following : Text) : Hole where
  escaped := fun _ => false
  value := value
  following := following

/-- Every script denotes the paths it is made for. The main file name is optional; the last two
arguments are the paths of the frame's URL and of the document's effective URL. -/
def ScriptsDenote (platform : Platform) (root : Text) (mainFn : Option Text)
    (urlPath documentPath : Text) : Prop :=
  (∀ name ∈ mainFn, Denotes false (filenameScript name) (ascii "global.__filename = '")
    [plainHole name (ascii ";")]) ∧
  Denotes false (dirnameScript platform root) (ascii "global.__dirname = '")
    [rootHole platform root (ascii ";")] ∧
  Denotes true (processMain platform root urlPath) processMainStart
    [rootHole platform root (ascii ";  let p = '"), plainHole urlPath processMainEnd] ∧
  Denotes true (processMain2 platform root documentPath) processMain2Start
    [rootHole platform root (ascii ";  let path = '"), plainHole documentPath processMain2End]

/-- No unit of the text is special in a literal. -/
def Plain (text : Text) : Prop :=
  ∀ u ∈ text, u ≠ 0 ∧ isLineTerminator u = false ∧ u ≠ quote ∧ u ≠ backslash

/-- What the escaping of the root path takes care of is left out. -/
def PlainRoot (platform : Platform) (root : Text) : Prop :=
  ∀ u ∈ root, u ≠ 0 ∧ isLineTerminator u = false ∧ (platform = .other → u ≠ backslash)

instance (text : Text) : Decidable (Plain text) := inferInstanceAs (Decidable (∀ _ ∈ _, _))

/-! ## The scripts and their texts

Every text is a fixed start, the holes, and fixed text behind each of them. What the source does to
the root path is an `escape`, so the lemmas about holes of the library apply. -/

/-- `ReplaceChars` with a backslash in front of the character is an escape of that character. -/
theorem replaceChars_eq_escape (c : CodeUnit) (text : Text) :
    replaceChars text [c] [backslash, c] = escape (fun u => u = c) text := by
  induction text with
  | nil => rfl
  | cons u text ih =>
    rw [replaceChars] at ih ⊢
    rw [List.flatMap_cons, ih, escape]
    by_cases hu : u = c
    · rw [if_pos (List.mem_singleton.mpr hu), if_pos (decide_eq_true hu), hu]
      rfl
    · rw [if_neg (mt List.mem_singleton.mp hu), if_neg (by simpa using hu)]
      rfl

/-- The two passes of Windows: the second one leaves alone what the first one put in. -/
theorem escape_quote_escape_backslash (text : Text) :
    escape (fun u => u = quote) (escape (fun u => u = backslash) text) =
      escape (rootEscaped .win) text := by
  induction text with
  | nil => rfl
  | cons u text ih =>
    by_cases hb : u = backslash
    · -- the backslash of the first pass is no quote
      subst hb
      show escape _ (backslash :: backslash :: escape _ text) = _
      rw [escape, if_neg (by decide), escape, if_neg (by decide), ih]
      rfl
    · rw [escape, if_neg (by simpa using hb), escape, escape, ih]
      by_cases hq : u = quote
      · rw [if_pos (decide_eq_true hq), if_pos (by rw [hq]; decide)]
      · rw [if_neg (by simpa using hq), if_neg (by simp [rootEscaped, hq, hb])]

/-- On Windows the backslashes are doubled before the quotes are escaped, which comes to one escape
of both; elsewhere only the quotes are. -/
theorem rootText_eq (platform : Platform) (root : Text) :
    rootText platform root = escape (rootEscaped platform) root := by
  cases platform with
  | win =>
    show replaceChars (replaceChars root [backslash] [backslash, backslash]) _ _ = _
    rw [replaceChars_eq_escape, replaceChars_eq_escape, escape_quote_escape_backslash]
  | other =>
    show replaceChars root _ _ = _
    rw [replaceChars_eq_escape]
    congr 1
    funext u
    simp [rootEscaped]

theorem escape_none (text : Text) : escape (fun _ => false) text = text := by
  induction text with
  | nil => rfl
  | cons u text ih => rw [escape, ih, if_neg (by decide)]

/-- What is escaped in the root path, quotes and backslashes, may be escaped in a single-quoted
string. -/
theorem rootHole_fits (platform : Platform) (root : Text) {following : Text}
    (h : 0 ∉ following) : (rootHole platform root following).Fits := by
  refine ⟨?_, h⟩
  intro u hu
  have hu : rootEscaped platform u = true := hu
  simp only [rootEscaped, Bool.or_eq_true, decide_eq_true_eq, Bool.and_eq_true] at hu
  exact hu.imp_right And.right

theorem plainHole_fits (value : Text) {following : Text} (h : 0 ∉ following) :
    (plainHole value following).Fits :=
  ⟨fun _ hu => absurd hu Bool.false_ne_true, h⟩

/-- The code units that come back from the hole of the root path. Without Windows a backslash is not
among them: it would start an escape of its own. -/
theorem kept_root_iff (platform : Platform) (u : CodeUnit) :
    Kept (rootEscaped platform) u ↔
      u ≠ 0 ∧ isLineTerminator u = false ∧ (platform = .other → u ≠ backslash) := by
  unfold Kept Protected rootEscaped
  refine and_congr_right fun _ => and_congr_right fun _ => ?_
  cases platform with
  | win => simp
  | other =>
    simp only [reduceCtorEq, decide_false, Bool.false_and, Bool.or_false, decide_eq_true_eq]
    constructor
    · intro h _ hb
      exact absurd (h (Or.inr hb)) (by rw [hb]; decide)
    · exact fun h hor => hor.resolve_right (h trivial)

/-- The code units that come back from a hole whose path is put in as it is. -/
theorem kept_plain_iff (u : CodeUnit) :
    Kept (fun _ => false) u ↔ u ≠ 0 ∧ isLineTerminator u = false ∧ u ≠ quote ∧ u ≠ backslash := by
  unfold Kept Protected
  simp [not_or]

section

variable {strict : Bool} {script start following : Text}

/-- A script with the root path and a URL path in it denotes the two exactly if each of them
consists of code units that come back. -/
theorem denotes_root_plain_iff {platform : Platform} {root value following' : Text}
    (hscript : script = start ++ rootText platform root ++ [quote] ++ following ++ value ++
      [quote] ++ following')
    (hstart : 0 ∉ start) (h : 0 ∉ following) (h' : 0 ∉ following') :
    Denotes strict script start [rootHole platform root following, plainHole value following'] ↔
      PlainRoot platform root ∧ Plain value := by
  rw [denotes_iff ?_ hstart ?_, List.forall_mem_cons, List.forall_mem_singleton]
  · refine and_congr ?_ ?_
    · exact forall₂_congr fun u _ => kept_root_iff platform u
    · exact forall₂_congr fun u _ => kept_plain_iff u
  · rw [hscript, rootText_eq]
    simp [fill, rootHole, plainHole, escape_none]
  · rw [List.forall_mem_cons, List.forall_mem_singleton]
    exact ⟨rootHole_fits platform root h, plainHole_fits value h'⟩

/-- The script that sets `__filename`: the name of the main file stands in it as it is. -/
theorem filenameScript_denotes_iff (name : Text) :
    Denotes false (filenameScript name) (ascii "global.__filename = '")
      [plainHole name (ascii ";")] ↔ Plain name := by
  rw [denotes_iff ?_ (by decide) ?_, List.forall_mem_singleton]
  · exact forall₂_congr fun u _ => kept_plain_iff u
  · simp only [fill, plainHole, escape_none, filenameScript, List.append_assoc, List.append_nil]
    rfl
  · rw [List.forall_mem_singleton]
    exact plainHole_fits name (by decide)

theorem dirnameScript_denotes_iff (platform : Platform) (root : Text) :
    Denotes false (dirnameScript platform root) (ascii "global.__dirname = '")
      [rootHole platform root (ascii ";")] ↔ PlainRoot platform root := by
  rw [denotes_iff ?_ (by decide) ?_, List.forall_mem_singleton]
  · exact forall₂_congr fun u _ => kept_root_iff platform u
  · simp only [fill, rootHole, rootText_eq, dirnameScript, List.append_assoc, List.append_nil]
    rfl
  · rw [List.forall_mem_singleton]
    exact rootHole_fits platform root (by decide)

end

/-- The script that sets `process.mainModule.filename` when a context is made, with the root path
escaped and the URL path as it is. -/
theorem processMain_denotes_iff (platform : Platform) (root urlPath : Text) :
    Denotes true (processMain platform root urlPath) processMainStart
      [rootHole platform root (ascii ";  let p = '"), plainHole urlPath processMainEnd] ↔
        PlainRoot platform root ∧ Plain urlPath := by
  refine denotes_root_plain_iff ?_ (by decide +kernel) (by decide +kernel) (by decide +kernel)
  simp only [processMain, List.append_assoc]
  rfl

/-- The script at the document element has the same two holes, the second one for the path of the
document. -/
theorem processMain2_denotes_iff (platform : Platform) (root path : Text) :
    Denotes true (processMain2 platform root path) processMain2Start
      [rootHole platform root (ascii ";  let path = '"), plainHole path processMain2End] ↔
        PlainRoot platform root ∧ Plain path := by
  refine denotes_root_plain_iff ?_ (by decide +kernel) (by decide +kernel) (by decide +kernel)
  simp only [processMain2, List.append_assoc]
  rfl

/-- **The scripts are safe for plain paths only.** Each script has its condition; the four together
ask that no path has a code unit that its hole does not give back. -/
theorem scriptsDenote_iff (platform : Platform) (root : Text) (mainFn : Option Text)
    (urlPath documentPath : Text) :
    ScriptsDenote platform root mainFn urlPath documentPath ↔
      PlainRoot platform root ∧ (∀ name ∈ mainFn, Plain name) ∧ Plain urlPath ∧
        Plain documentPath := by
  rw [ScriptsDenote, processMain_denotes_iff, processMain2_denotes_iff, dirnameScript_denotes_iff]
  simp only [filenameScript_denotes_iff]
  constructor
  · rintro ⟨hname, hroot, ⟨-, hurl⟩, -, hdoc⟩
    exact ⟨hroot, hname, hurl, hdoc⟩
  · rintro ⟨hroot, hname, hurl, hdoc⟩
    exact ⟨hname, hroot, ⟨hroot, hurl⟩, hroot, hdoc⟩

/-- A page in a file whose name has an apostrophe: the literal of its path ends there. -/
theorem scripts_fail_on_apostrophe :
    ¬ ScriptsDenote .other (ascii "/opt/app") none (ascii "/it's.html") (ascii "/it's.html") := by
  rintro ⟨-, -, -, h⟩
  rw [processMain2_denotes_iff] at h
  -- the path of the document has the quote of its literal in it
  have hquote : quote ∈ ascii "/it's.html" :=
    List.mem_map_of_mem (show '\'' ∈ "/it's.html".toList by decide)
  exact (h.2 quote hquote).2.2.1 rfl

end NodeWebkit.InjectedScripts
