import NodeWebkit.Lib.ValuePaths

/-!
# The manifest of the app as an extension

An app is loaded as an extension, and `LoadNWAppAsExtensionHook` (`nw_content.cc`) makes the
manifest of an extension of its `package.json`: `main` becomes a background script, permissions are
granted, and the pages of `node-remote` become pages of the app.

## The model

* **`ManifestKeys`** — the keys of `extensions::manifest_keys`, none of which leads to another;
* **`Amended`** — a manifest in which a list was amended, and the values whose pointers the list
  took although another list of the manifest goes on owning them;
* **`written`** — the paths that are written for a manifest;
* **`LoadedFrom`** — what the manifest is afterwards: lists go on after the app's own entries, and
  nothing else is changed;
* **`sharedPages`** — the values that two lists of the manifest own in the end, read off the
  manifest that the hook is given.

## How the proof goes

Each step of the hook writes a few entries and keeps the others, so `Steps` chains what the steps
keep, and every list is followed to the one step that adds to it. `load_app` says that this is what
the hook does to every manifest, and which values are deleted twice when the manifest is.
-/

namespace NodeWebkit.Content

open BaseValues

/-! ## Keys

The keys are names of `extensions::manifest_keys` that the repository does not define; some of them
have dots and name a place inside a dictionary. What the proofs need of them is that writing one
place reaches no other, and the documented names have that. -/

/-- The constants of `extensions::manifest_keys`. -/
inductive ManifestKey where
  | nwjsMain | nwjsInternalFlag | nwjsInternalManifest | nwjsInternalMainFilename
  | nwjsContentVerifyFlag | platformAppBackgroundScripts | permissions | webURLs
  deriving DecidableEq

/-- What the hook reads and writes in a manifest; the icons of an app are kept by their width. -/
inductive Entry where
  | key (k : ManifestKey)
  | bgScript
  | windowIcon
  | icon (width : Nat)
  | remotePages
  deriving DecidableEq

def Entry.path (constant : ManifestKey → List String) : Entry → List String
  | .key k => constant k
  | .bgScript => ["bg-script"]
  | .windowIcon => ["window", "icon"]
  | .icon width => ["icons", toString width]
  | .remotePages => ["node-remote"]

structure ManifestKeys where
  constant : ManifestKey → List String
  apart : ∀ a b : Entry, a ≠ b → Apart (a.path constant) (b.path constant)

/-- The keys of a Chrome manifest, and names of their own for what the hook leaves for later. -/
def ManifestKey.documented : ManifestKey → List String
  | .nwjsMain => ["main"]
  | .nwjsInternalFlag => ["__nwjs"]
  | .nwjsInternalManifest => ["__nwjs_manifest"]
  | .nwjsInternalMainFilename => ["__nwjs_main_filename"]
  | .nwjsContentVerifyFlag => ["__nwjs_cv"]
  | .platformAppBackgroundScripts => ["app", "background", "scripts"]
  | .permissions => ["permissions"]
  | .webURLs => ["app", "urls"]

/-- **No documented path leads to another one.** Two icons differ in the text of their width, and
different numbers have different texts; the other pairs are compared name by name. -/
theorem Entry.apart_documented (a b : Entry) (h : a ≠ b) :
    Apart (a.path ManifestKey.documented) (b.path ManifestKey.documented) := by
  cases a <;> cases b
  case icon.icon width width' =>
    have hne : width.repr ≠ width'.repr := by
      intro heq
      -- the width is read back from its decimal digits
      have hdigits := congrArg String.toList heq
      rw [Nat.toList_repr, Nat.toList_repr] at hdigits
      have hwidth := congrArg (Nat.ofDigitChars 10 · 0) hdigits
      simp only [Nat.ofDigitChars_ten_toDigits] at hwidth
      exact h (congrArg _ hwidth)
    simp [Apart, Entry.path, List.cons_prefix_cons, hne, hne.symm]
  case key.key k k' => revert h; cases k <;> cases k' <;> decide
  case key.icon k width | icon.key width k =>
    cases k <;> simp [Apart, Entry.path, ManifestKey.documented, List.cons_prefix_cons]
  case key.bgScript k | key.windowIcon k | key.remotePages k => cases k <;> decide
  case bgScript.key k | windowIcon.key k | remotePages.key k => cases k <;> decide
  all_goals first | exact absurd rfl h | simp [Apart, Entry.path, List.cons_prefix_cons]

instance : Inhabited ManifestKeys := ⟨⟨ManifestKey.documented, Entry.apart_documented⟩⟩

namespace ManifestKeys

variable (keys : ManifestKeys)

def path (e : Entry) : List String := e.path keys.constant

theorem path_ne_nil (e : Entry) : keys.path e ≠ [] := by
  by_cases he : e = .bgScript
  · exact (keys.apart e .windowIcon (by rw [he]; decide)).ne_nil
  · exact (keys.apart e .bgScript he).ne_nil

/-- An entry that is not written is apart from each of those that are. -/
theorem apart_of_notMem {entries : List Entry} {e : Entry} (h : e ∉ entries) :
    ∀ p ∈ entries.map keys.path, Apart p (keys.path e) := by
  intro p hp
  obtain ⟨e', he', rfl⟩ := List.mem_map.mp hp
  exact keys.apart e' e fun heq => h (heq ▸ he')

end ManifestKeys

/-! ## The hook -/

/-- What the hook uses of `nw::package()`. -/
structure AppPackage where
  cachedErrorContent : String
  root : Dictionary
  /-- `GetPackageImage`: the width of the image in a file, if it is one. -/
  packageImage : String → Option Nat

/-- `base::EndsWith(url, ".js", INSENSITIVE_ASCII)`. -/
def isScript (url : String) : Bool :=
  ".js".toList.isSuffixOf (url.toList.map Char.toLower)

def amendManifestStringList (manifest : Dictionary) (path : List String) (text : String) :
    Dictionary :=
  manifest.appendAt path [.string text]

/-- What `AmendManifestList` leaves. -/
structure Amended where
  manifest : Dictionary
  /-- The values whose pointers the list at the path took from the other list. -/
  taken : List Value

/-- `AmendManifestList`. A list that is there already is given the pointers of the other one's
values, which the other list keeps as well; where there is none, a deep copy is made. -/
def amendManifestList (manifest : Dictionary) (path : List String) (entries : List Value) :
    Amended :=
  match (manifest.getPath path).bind Value.toList with
  | some patternList =>
    { manifest := manifest.setPath (.ofList (patternList ++ entries)) path, taken := entries }
  | none => { manifest := manifest.setPath (.ofList entries) path, taken := [] }

/-- `node-remote`, a text or a list. -/
def remoteList : Value → Option (List Value)
  | .string text => some [.string text]
  | value => value.toList

section Hook

variable (keys : ManifestKeys) (package : AppPackage)

def loadBgScript (manifest : Dictionary) : Dictionary :=
  match manifest.textAt (keys.path .bgScript) with
  | some bgScript =>
    amendManifestStringList manifest (keys.path (.key .platformAppBackgroundScripts)) bgScript
  | none => manifest

def loadPermissions (manifest : Dictionary) : Dictionary :=
  let permissions := keys.path (.key .permissions)
  amendManifestStringList
    (amendManifestStringList (amendManifestStringList manifest permissions "developerPrivate")
      permissions "management")
    permissions "<all_urls>"

def loadMainUrl (manifest : Dictionary) (mainUrl : String) : Dictionary :=
  let scripts := keys.path (.key .platformAppBackgroundScripts)
  if isScript mainUrl then
    (amendManifestStringList manifest scripts mainUrl).setPath (.string mainUrl)
      (keys.path (.key .nwjsInternalMainFilename))
  else amendManifestStringList manifest scripts "nwjs/default.js"

def loadMain (manifest : Dictionary) : Dictionary :=
  match manifest.textAt (keys.path (.key .nwjsMain)) with
  | some mainUrl => loadPermissions keys (loadBgScript keys (loadMainUrl keys manifest mainUrl))
  | none => manifest

/-- The icon of the window, with its width. -/
def windowIcon (manifest : Dictionary) : Option (String × Nat) :=
  (manifest.textAt (keys.path .windowIcon)).bind fun iconPath =>
    (package.packageImage iconPath).map fun width => (iconPath, width)

def loadIcon (manifest : Dictionary) : Dictionary :=
  match windowIcon keys package manifest with
  | some (iconPath, width) => manifest.setPath (.string iconPath) (keys.path (.icon width))
  | none => manifest

/-- The pages of `node-remote`. The list that is made for a text is never deleted, so only the
values of a list of the manifest can get a second owner that deletes them. -/
def loadRemotePages (manifest : Dictionary) : Amended :=
  match manifest.getPath (keys.path .remotePages) with
  | some (.string text) =>
    let amended := amendManifestList manifest (keys.path (.key .webURLs)) [.string text]
    { amended with taken := [] }
  | some (.list _ elems) =>
    amendManifestList manifest (keys.path (.key .webURLs)) (List.ofFn elems)
  | _ => { manifest := manifest, taken := [] }

structure Loaded where
  manifest : Dictionary
  /-- The values that two lists of the manifest own, and that both delete. -/
  twiceOwned : List Value
  error : Option String

/-- `LoadNWAppAsExtensionHook`; `strict` — the content of the app is to be verified in the mode
`ENFORCE_STRICT`, `error` — the caller takes an error. -/
def loadNWAppAsExtensionHook (strict error : Bool) (manifest : Dictionary) : Loaded :=
  let manifest := manifest.setPath (.boolean true) (keys.path (.key .nwjsInternalFlag))
  if error ∧ package.cachedErrorContent ≠ "" then
    { manifest := manifest, twiceOwned := [], error := some package.cachedErrorContent }
  else
    let manifest :=
      manifest.setPath package.root.toValue (keys.path (.key .nwjsInternalManifest))
    let amended := loadRemotePages keys (loadIcon keys package (loadMain keys manifest))
    { manifest :=
        if strict then
          amended.manifest.setPath (.boolean true) (keys.path (.key .nwjsContentVerifyFlag))
        else amended.manifest
      twiceOwned := amended.taken
      error := none }

/-! ## What it leaves -/

/-- The scripts that are added to the background scripts for this `main`. -/
def addedScripts (manifest : Dictionary) : List String :=
  match manifest.textAt (keys.path (.key .nwjsMain)) with
  | some mainUrl =>
    (if isScript mainUrl then mainUrl else "nwjs/default.js") ::
      (manifest.textAt (keys.path .bgScript)).toList
  | none => []

def addedPermissions (manifest : Dictionary) : List String :=
  if (manifest.textAt (keys.path (.key .nwjsMain))).isSome then
    ["developerPrivate", "management", "<all_urls>"]
  else []

def addedPages (manifest : Dictionary) : List Value :=
  ((manifest.getPath (keys.path .remotePages)).bind remoteList).getD []

/-- The values of a `node-remote` list, where the manifest has a list of web URLs of its own: the
list of web URLs takes their pointers. -/
def sharedPages (manifest : Dictionary) : List Value :=
  if ((manifest.getPath (keys.path (.key .webURLs))).bind Value.toList).isSome then
    manifest.listAt (keys.path .remotePages)
  else []

/-- The entries that are written for `main`. -/
def writtenMain (manifest : Dictionary) : List Entry :=
  match manifest.textAt (keys.path (.key .nwjsMain)) with
  | some mainUrl =>
    [.key .platformAppBackgroundScripts, .key .permissions] ++
      if isScript mainUrl then [.key .nwjsInternalMainFilename] else []
  | none => []

/-- The entry of the icon. -/
def writtenIcon (manifest : Dictionary) : List Entry :=
  ((windowIcon keys package manifest).map fun icon => Entry.icon icon.2).toList

/-- The entry of the pages. -/
def writtenPages (manifest : Dictionary) : List Entry :=
  if ((manifest.getPath (keys.path .remotePages)).bind remoteList).isSome then [.key .webURLs]
  else []

/-- The entries that are written when there is no cached error. -/
def written (strict : Bool) (manifest : Dictionary) : List Entry :=
  [.key .nwjsInternalFlag, .key .nwjsInternalManifest] ++ writtenMain keys manifest ++
    writtenIcon keys package manifest ++ writtenPages keys manifest ++
    if strict then [.key .nwjsContentVerifyFlag] else []

/-- The manifest that is left for one without a cached error. -/
structure LoadedFrom (strict : Bool) (manifest loaded : Dictionary) : Prop where
  /-- Nothing else is changed. -/
  keeps : Keeps ((written keys package strict manifest).map keys.path) manifest loaded
  flag : loaded.getPath (keys.path (.key .nwjsInternalFlag)) = some (.boolean true)
  root : loaded.getPath (keys.path (.key .nwjsInternalManifest)) = some package.root.toValue
  filename : ∀ mainUrl, manifest.textAt (keys.path (.key .nwjsMain)) = some mainUrl →
    isScript mainUrl →
    loaded.textAt (keys.path (.key .nwjsInternalMainFilename)) = some mainUrl
  scripts : loaded.listAt (keys.path (.key .platformAppBackgroundScripts)) =
    manifest.listAt (keys.path (.key .platformAppBackgroundScripts)) ++
      (addedScripts keys manifest).map .string
  permissions : loaded.listAt (keys.path (.key .permissions)) =
    manifest.listAt (keys.path (.key .permissions)) ++
      (addedPermissions keys manifest).map .string
  pages : loaded.listAt (keys.path (.key .webURLs)) =
    manifest.listAt (keys.path (.key .webURLs)) ++ addedPages keys manifest
  icon : ∀ iconPath width, windowIcon keys package manifest = some (iconPath, width) →
    loaded.textAt (keys.path (.icon width)) = some iconPath
  contentVerify : strict →
    loaded.getPath (keys.path (.key .nwjsContentVerifyFlag)) = some (.boolean true)

/-! ## One step after the other

`Keeps entries d d'` says that from `d` to `d'` only the paths of the entries were written. Each
function of the hook has two lemmas: which entries it writes (`keeps_loadBgScript`, …) and what is
at the lists it adds to (`scripts_loadBgScript`, …); everything else it reads is as it was. -/

variable {keys package} in
/-- An entry that is not written is read as before, whatever stands at it. -/
theorem kept_getPath {entries : List Entry} {d d' : Dictionary}
    (h : Keeps (entries.map keys.path) d d') {e : Entry} (he : e ∉ entries) :
    d'.getPath (keys.path e) = d.getPath (keys.path e) :=
  h _ (keys.apart_of_notMem he)

variable {keys package} in
theorem kept_listAt {entries : List Entry} {d d' : Dictionary}
    (h : Keeps (entries.map keys.path) d d') {e : Entry} (he : e ∉ entries) :
    d'.listAt (keys.path e) = d.listAt (keys.path e) :=
  Dictionary.listAt_congr (kept_getPath h he)

variable {keys package} in
theorem kept_textAt {entries : List Entry} {d d' : Dictionary}
    (h : Keeps (entries.map keys.path) d d') {e : Entry} (he : e ∉ entries) :
    d'.textAt (keys.path e) = d.textAt (keys.path e) :=
  Dictionary.textAt_congr (kept_getPath h he)

theorem keeps_setPath (d : Dictionary) (value : Value) (e : Entry) :
    Keeps ([e].map keys.path) d (d.setPath value (keys.path e)) :=
  Keeps.setPath d value (keys.path e)

theorem keeps_amend (d : Dictionary) (e : Entry) (text : String) :
    Keeps ([e].map keys.path) d (amendManifestStringList d (keys.path e) text) :=
  keeps_setPath keys d _ e

/-- The text is added behind what the app itself has there; where it has no list one is made. -/
theorem listAt_amend (d : Dictionary) (e : Entry) (text : String) :
    (amendManifestStringList d (keys.path e) text).listAt (keys.path e) =
      d.listAt (keys.path e) ++ [.string text] :=
  d.listAt_appendAt (keys.path_ne_nil e) [.string text]

/-- The step for `bg-script` writes the list of background scripts, if it writes at all. -/
theorem keeps_loadBgScript (d : Dictionary) :
    Keeps ([.key .platformAppBackgroundScripts].map keys.path) d (loadBgScript keys d) := by
  unfold loadBgScript
  split
  · exact keeps_amend keys d _ _
  · exact (Keeps.refl d).mono (List.nil_subset _)

theorem scripts_loadBgScript (d : Dictionary) :
    (loadBgScript keys d).listAt (keys.path (.key .platformAppBackgroundScripts)) =
      d.listAt (keys.path (.key .platformAppBackgroundScripts)) ++
        (d.textAt (keys.path .bgScript)).toList.map .string := by
  unfold loadBgScript
  cases d.textAt (keys.path .bgScript) with
  | none => exact (List.append_nil _).symm
  | some bgScript => exact listAt_amend keys d _ bgScript

theorem keeps_loadPermissions (d : Dictionary) :
    Keeps ([.key .permissions].map keys.path) d (loadPermissions keys d) := by
  have h := ((keeps_amend keys d (.key .permissions) "developerPrivate").trans
    (keeps_amend keys _ (.key .permissions) "management")).trans
    (keeps_amend keys _ (.key .permissions) "<all_urls>")
  exact h.mono (by simp)

/-- The permissions are added in the order of the source, behind those of the app. -/
theorem permissions_loadPermissions (d : Dictionary) :
    (loadPermissions keys d).listAt (keys.path (.key .permissions)) =
      d.listAt (keys.path (.key .permissions)) ++
        ["developerPrivate", "management", "<all_urls>"].map .string := by
  show (amendManifestStringList _ (keys.path (.key .permissions)) _).listAt _ = _
  rw [listAt_amend, listAt_amend, listAt_amend, List.append_assoc, List.append_assoc]
  rfl

/-- The step for the main page writes the list of background scripts, and for a script its name,
too. -/
theorem keeps_loadMainUrl (d : Dictionary) (mainUrl : String) :
    Keeps ((.key .platformAppBackgroundScripts ::
      if isScript mainUrl then [.key .nwjsInternalMainFilename] else []).map keys.path)
      d (loadMainUrl keys d mainUrl) := by
  unfold loadMainUrl
  split
  · exact (keeps_amend keys d _ mainUrl).trans (keeps_setPath keys _ _ _)
  · exact keeps_amend keys d _ _

/-- A main file that is a script becomes a background script itself; for a page it is
`nwjs/default.js` that opens it. -/
theorem scripts_loadMainUrl (d : Dictionary) (mainUrl : String) :
    (loadMainUrl keys d mainUrl).listAt (keys.path (.key .platformAppBackgroundScripts)) =
      d.listAt (keys.path (.key .platformAppBackgroundScripts)) ++
        [.string (if isScript mainUrl then mainUrl else "nwjs/default.js")] := by
  unfold loadMainUrl
  split
  · rw [kept_listAt (keeps_setPath keys _ _ (.key .nwjsInternalMainFilename)) (by decide)]
    exact listAt_amend keys d _ mainUrl
  · exact listAt_amend keys d _ "nwjs/default.js"

/-- **What is done for `main`**, all of it together: the entries that may be written, the two lists
afterwards, and the name of a main file that is a script. The order in the list is `bg-script`
first, then the main file. -/
theorem loadMain_spec (d : Dictionary) :
    Keeps ((writtenMain keys d).map keys.path) d (loadMain keys d) ∧
    (loadMain keys d).listAt (keys.path (.key .platformAppBackgroundScripts)) =
      d.listAt (keys.path (.key .platformAppBackgroundScripts)) ++
        (addedScripts keys d).map .string ∧
    (loadMain keys d).listAt (keys.path (.key .permissions)) =
      d.listAt (keys.path (.key .permissions)) ++ (addedPermissions keys d).map .string ∧
    ∀ mainUrl, d.textAt (keys.path (.key .nwjsMain)) = some mainUrl → isScript mainUrl →
      (loadMain keys d).textAt (keys.path (.key .nwjsInternalMainFilename)) = some mainUrl := by
  unfold loadMain writtenMain addedScripts addedPermissions
  cases d.textAt (keys.path (.key .nwjsMain)) with
  | none => exact ⟨Keeps.refl d, (List.append_nil _).symm, (List.append_nil _).symm, nofun⟩
  | some mainUrl =>
    have hurl := keeps_loadMainUrl keys d mainUrl
    have hbg := keeps_loadBgScript keys (loadMainUrl keys d mainUrl)
    have hperm := keeps_loadPermissions keys (loadBgScript keys (loadMainUrl keys d mainUrl))
    -- the entries of the step for `main` are no others than its script and its name
    have hmem : ∀ e : Entry, e ≠ .key .platformAppBackgroundScripts →
        e ≠ .key .nwjsInternalMainFilename →
        e ∉ .key .platformAppBackgroundScripts ::
          if isScript mainUrl then [.key .nwjsInternalMainFilename] else [] := by
      intro e h1 h2
      split <;> simp [h1, h2]
    refine ⟨((hurl.trans hbg).trans hperm).mono ?_, ?_, ?_, ?_⟩
    · intro p
      simp only [List.map_cons, List.map_append, List.map_nil, List.mem_append, List.mem_cons]
      tauto
    · show (loadPermissions keys _).listAt _ = _
      rw [kept_listAt hperm (by decide), scripts_loadBgScript, scripts_loadMainUrl,
        kept_textAt hurl (hmem .bgScript (by decide) (by decide)), List.append_assoc]
      rfl
    · show (loadPermissions keys _).listAt _ = _
      rw [permissions_loadPermissions, kept_listAt hbg (by decide),
        kept_listAt hurl (hmem (.key .permissions) (by decide) (by decide))]
      rfl
    · intro mainUrl' heq hscript
      obtain rfl : mainUrl = mainUrl' := Option.some.inj heq
      show (loadPermissions keys _).textAt _ = _
      rw [kept_textAt hperm (by decide), kept_textAt hbg (by decide), loadMainUrl, if_pos hscript,
        Dictionary.textAt, Dictionary.getPath_setPath _ _ (keys.path_ne_nil _)]
      rfl

/-- The icon of the window is written under its width, if there is one that can be read. -/
theorem loadIcon_spec (d : Dictionary) :
    Keeps ((writtenIcon keys package d).map keys.path) d (loadIcon keys package d) ∧
    ∀ iconPath width, windowIcon keys package d = some (iconPath, width) →
      (loadIcon keys package d).textAt (keys.path (.icon width)) = some iconPath := by
  unfold loadIcon writtenIcon
  cases windowIcon keys package d with
  | none => exact ⟨Keeps.refl d, nofun⟩
  | some icon =>
    refine ⟨keeps_setPath keys d _ _, fun iconPath width h => ?_⟩
    obtain rfl : icon = (iconPath, width) := Option.some.inj h
    show (d.setPath _ _).textAt _ = _
    rw [Dictionary.textAt, Dictionary.getPath_setPath _ _ (keys.path_ne_nil _)]
    rfl

/-- Whether the list at the path is amended or made, it goes on with the entries. -/
theorem amendManifestList_manifest (d : Dictionary) (path : List String) (entries : List Value) :
    (amendManifestList d path entries).manifest = d.appendAt path entries := by
  unfold amendManifestList Dictionary.appendAt Dictionary.listAt
  cases (d.getPath path).bind Value.toList with
  | none => rfl
  | some patternList => rfl

/-- Pointers are taken by a list that is there, and by no new one. -/
theorem amendManifestList_taken (d : Dictionary) (path : List String) (entries : List Value) :
    (amendManifestList d path entries).taken =
      if ((d.getPath path).bind Value.toList).isSome then entries else [] := by
  unfold amendManifestList
  cases (d.getPath path).bind Value.toList with
  | none => rfl
  | some patternList => rfl

/-- **What is done for `node-remote`**: the list of web URLs goes on with its pages, nothing else is
changed, and the pages of a list are shared where there was a list to take them. -/
theorem loadRemotePages_spec (d : Dictionary) :
    Keeps ((writtenPages keys d).map keys.path) d (loadRemotePages keys d).manifest ∧
    (loadRemotePages keys d).manifest.listAt (keys.path (.key .webURLs)) =
      d.listAt (keys.path (.key .webURLs)) ++ addedPages keys d ∧
    (loadRemotePages keys d).taken = sharedPages keys d := by
  have happend : ∀ pages,
      Keeps ([Entry.key .webURLs].map keys.path) d
        (amendManifestList d (keys.path (.key .webURLs)) pages).manifest ∧
      (amendManifestList d (keys.path (.key .webURLs)) pages).manifest.listAt
        (keys.path (.key .webURLs)) = d.listAt (keys.path (.key .webURLs)) ++ pages := by
    intro pages
    rw [amendManifestList_manifest]
    exact ⟨keeps_setPath keys d _ _, d.listAt_appendAt (keys.path_ne_nil _) pages⟩
  have hnone : Keeps [] d d ∧ d.listAt (keys.path (.key .webURLs)) =
      d.listAt (keys.path (.key .webURLs)) ++ [] :=
    ⟨Keeps.refl d, (List.append_nil _).symm⟩
  unfold loadRemotePages writtenPages addedPages sharedPages Dictionary.listAt
  rw [← Dictionary.listAt]
  -- `node-remote` may be a text or a list; anything else adds no page
  cases d.getPath (keys.path .remotePages) with
  | none => exact ⟨hnone.1, hnone.2, (ite_self _).symm⟩
  | some remote =>
    cases remote with
    | string text =>
      exact ⟨(happend [.string text]).1, (happend [.string text]).2, (ite_self _).symm⟩
    | list _ elems =>
      exact ⟨(happend (List.ofFn elems)).1, (happend (List.ofFn elems)).2,
        amendManifestList_taken d _ _⟩
    | _ => exact ⟨hnone.1, hnone.2, (ite_self _).symm⟩

theorem mem_writtenMain {d : Dictionary} {e : Entry} (h : e ∈ writtenMain keys d) :
    e ∈ [Entry.key .platformAppBackgroundScripts, .key .permissions,
      .key .nwjsInternalMainFilename] := by
  unfold writtenMain at h
  split at h
  · split at h
    · exact h
    · exact List.mem_append_left [.key .nwjsInternalMainFilename] h
  · cases h

theorem mem_writtenIcon {d : Dictionary} {e : Entry} (h : e ∈ writtenIcon keys package d) :
    ∃ width, e = .icon width := by
  rw [writtenIcon, Option.mem_toList] at h
  obtain ⟨icon, -, rfl⟩ := Option.map_eq_some_iff.mp h
  exact ⟨icon.2, rfl⟩

theorem mem_writtenPages {d : Dictionary} {e : Entry} (h : e ∈ writtenPages keys d) :
    e = .key .webURLs := by
  unfold writtenPages at h
  split at h
  · exact List.mem_singleton.mp h
  · cases h

variable {keys package}

theorem notMem_writtenMain {d : Dictionary} {e : Entry}
    (h : e ∉ [Entry.key .platformAppBackgroundScripts, .key .permissions,
      .key .nwjsInternalMainFilename]) : e ∉ writtenMain keys d :=
  fun hmem => h (mem_writtenMain keys hmem)

/-- Entries that are no icon are not touched by the step for the icon. -/
theorem notMem_writtenIcon {d : Dictionary} {e : Entry} (h : ∀ width, e ≠ .icon width) :
    e ∉ writtenIcon keys package d := by
  intro hmem
  obtain ⟨width, he⟩ := mem_writtenIcon keys package hmem
  exact h width he

/-- Entries other than the list of pages are not touched by the step for the pages. -/
theorem notMem_writtenPages {d : Dictionary} {e : Entry} (h : e ≠ .key .webURLs) :
    e ∉ writtenPages keys d :=
  fun hmem => h (mem_writtenPages keys hmem)

/-- What is read for `main` is the same in manifests with the same entries. -/
theorem written_congr {entries : List Entry} {d d' : Dictionary}
    (h : Keeps (entries.map keys.path) d d') (hmain : Entry.key .nwjsMain ∉ entries)
    (hscript : Entry.bgScript ∉ entries) :
    writtenMain keys d' = writtenMain keys d ∧ addedScripts keys d' = addedScripts keys d ∧
      addedPermissions keys d' = addedPermissions keys d := by
  simp only [writtenMain, addedScripts, addedPermissions, kept_textAt h hmain,
    kept_textAt h hscript, and_self]

theorem windowIcon_congr {entries : List Entry} {d d' : Dictionary}
    (h : Keeps (entries.map keys.path) d d') (hicon : Entry.windowIcon ∉ entries) :
    windowIcon keys package d' = windowIcon keys package d := by
  rw [windowIcon, windowIcon, kept_textAt h hicon]

/-- The pages that are added, and the values that are shared, depend on `node-remote` and on the
list of pages alone. -/
theorem pages_congr {d d' : Dictionary}
    (hremote : d'.getPath (keys.path .remotePages) = d.getPath (keys.path .remotePages))
    (hurls : d'.getPath (keys.path (.key .webURLs)) = d.getPath (keys.path (.key .webURLs))) :
    writtenPages keys d' = writtenPages keys d ∧ addedPages keys d' = addedPages keys d ∧
      sharedPages keys d' = sharedPages keys d := by
  simp only [writtenPages, addedPages, sharedPages, Dictionary.listAt, hremote, hurls, and_self]

variable (keys package) in
/-- The manifests that the steps of the hook leave, with what each of them changes. -/
structure Steps (strict : Bool) (manifest root main icon pages last : Dictionary) : Prop where
  toRoot : Keeps ([Entry.key .nwjsInternalFlag, .key .nwjsInternalManifest].map keys.path)
    manifest root
  toMain : Keeps ((writtenMain keys manifest).map keys.path) root main
  toIcon : Keeps ((writtenIcon keys package manifest).map keys.path) main icon
  toPages : Keeps ((writtenPages keys manifest).map keys.path) icon pages
  toLast : Keeps ((if strict then [Entry.key .nwjsContentVerifyFlag] else []).map keys.path)
    pages last

namespace Steps

variable {strict : Bool} {manifest root main icon pages last : Dictionary}

/-- **All steps together** write the entries that `written` lists for the manifest the hook was
given. -/
theorem keeps (h : Steps keys package strict manifest root main icon pages last) :
    Keeps ((written keys package strict manifest).map keys.path) manifest last := by
  have hall := (((h.toRoot.trans h.toMain).trans h.toIcon).trans h.toPages).trans h.toLast
  rw [← List.map_append, ← List.map_append, ← List.map_append, ← List.map_append] at hall
  exact hall

/-- The icon and the pages are not there for `main`: what they do leaves every other entry as the
step for `main` left it. -/
theorem last_eq_main (h : Steps keys package strict manifest root main icon pages last)
    {e : Entry} (hverify : e ≠ .key .nwjsContentVerifyFlag) (hurls : e ≠ .key .webURLs)
    (hicon : ∀ width, e ≠ .icon width) :
    last.getPath (keys.path e) = main.getPath (keys.path e) := by
  have hlast : e ∉ if strict then [Entry.key .nwjsContentVerifyFlag] else [] := by
    split <;> simp [hverify]
  rw [kept_getPath h.toLast hlast, kept_getPath h.toPages (notMem_writtenPages hurls),
    kept_getPath h.toIcon (notMem_writtenIcon hicon)]

/-- What is set first stays: the flag and the manifest of the package are entries that no later step
touches. -/
theorem last_eq_root (h : Steps keys package strict manifest root main icon pages last)
    {e : Entry} (hmain : e ∉ [Entry.key .platformAppBackgroundScripts, .key .permissions,
      .key .nwjsInternalMainFilename, .key .nwjsContentVerifyFlag, .key .webURLs])
    (hicon : ∀ width, e ≠ .icon width) :
    last.getPath (keys.path e) = root.getPath (keys.path e) := by
  simp only [List.mem_cons, List.not_mem_nil, or_false, not_or] at hmain
  obtain ⟨hscripts, hpermissions, hfilename, hverify, hurls⟩ := hmain
  have hwritten : e ∉ writtenMain keys manifest :=
    notMem_writtenMain (by simp [hscripts, hpermissions, hfilename])
  rw [h.last_eq_main hverify hurls hicon, kept_getPath h.toMain hwritten]

end Steps

/-- **The steps of the hook**, what they add to the lists, and whose pointers the last list took. A
step reads the entries it needs as they were in the manifest, because no step before it writes
them. -/
theorem steps_of_root (strict : Bool) {manifest root : Dictionary}
    (hroot : Keeps ([Entry.key .nwjsInternalFlag, .key .nwjsInternalManifest].map keys.path)
      manifest root) :
    let main := loadMain keys root
    let icon := loadIcon keys package main
    let pages := (loadRemotePages keys icon).manifest
    Steps keys package strict manifest root main icon pages
      (if strict then
        pages.setPath (.boolean true) (keys.path (.key .nwjsContentVerifyFlag)) else pages) ∧
    (∀ iconPath width, windowIcon keys package manifest = some (iconPath, width) →
      icon.textAt (keys.path (.icon width)) = some iconPath) ∧
    pages.listAt (keys.path (.key .webURLs)) =
      manifest.listAt (keys.path (.key .webURLs)) ++ addedPages keys manifest ∧
    (loadRemotePages keys icon).taken = sharedPages keys manifest := by
  intro main icon pages
  have hmain : Keeps ((writtenMain keys manifest).map keys.path) root main := by
    rw [← (written_congr hroot (by decide) (by decide)).1]
    exact (loadMain_spec keys root).1
  have hkeepsMain := hroot.trans hmain
  rw [← List.map_append] at hkeepsMain
  have hwindowIcon : windowIcon keys package main = windowIcon keys package manifest :=
    windowIcon_congr hkeepsMain
      (List.not_mem_append (by decide) (notMem_writtenMain (by decide)))
  have hicon := loadIcon_spec keys package main
  rw [writtenIcon, hwindowIcon, ← writtenIcon] at hicon
  have hkeepsIcon := hkeepsMain.trans hicon.1
  rw [← List.map_append] at hkeepsIcon
  -- neither `node-remote` nor the web URLs were written on the way
  have hremote := kept_getPath hkeepsIcon (e := .remotePages)
    (List.not_mem_append (List.not_mem_append (by decide) (notMem_writtenMain (by decide)))
      (notMem_writtenIcon nofun))
  have hurls := kept_getPath hkeepsIcon (e := .key .webURLs)
    (List.not_mem_append (List.not_mem_append (by decide) (notMem_writtenMain (by decide)))
      (notMem_writtenIcon nofun))
  have hpages := loadRemotePages_spec keys icon
  obtain ⟨hwritten, hadded, hshared⟩ := pages_congr hremote hurls
  rw [hwritten, hadded, hshared, Dictionary.listAt_congr hurls] at hpages
  refine ⟨⟨hroot, hmain, hicon.1, hpages.1, ?_⟩, hicon.2, hpages.2.1, hpages.2.2⟩
  cases strict with
  | true => exact keeps_setPath keys pages _ _
  | false => exact Keeps.refl pages

variable (keys package)

/-- **The manifest of the app.** Whatever the manifest is: with a cached error a caller that takes
one gets it, and only the flag is set; or else the scripts, permissions and pages come after the
manifest's own, in this order, and all paths that neither lead to a written one nor on from it are
as they were. The values that two lists of the manifest then own, and delete, are the entries of a
`node-remote` list where the manifest has a list of web URLs already. -/
theorem load_app (strict error : Bool) (manifest : Dictionary) :
    (error = true ∧ package.cachedErrorContent ≠ "" →
      loadNWAppAsExtensionHook keys package strict error manifest =
        { manifest := manifest.setPath (.boolean true) (keys.path (.key .nwjsInternalFlag))
          twiceOwned := []
          error := some package.cachedErrorContent }) ∧
    (¬ (error = true ∧ package.cachedErrorContent ≠ "") →
      (loadNWAppAsExtensionHook keys package strict error manifest).error = none ∧
      (loadNWAppAsExtensionHook keys package strict error manifest).twiceOwned =
        sharedPages keys manifest ∧
      LoadedFrom keys package strict manifest
        (loadNWAppAsExtensionHook keys package strict error manifest).manifest) := by
  refine ⟨fun herror => if_pos herror, fun herror => ?_⟩
  rw [loadNWAppAsExtensionHook, if_neg herror]
  generalize hflag : manifest.setPath (.boolean true) (keys.path (.key .nwjsInternalFlag)) = flag
  generalize hroot : flag.setPath package.root.toValue (keys.path (.key .nwjsInternalManifest)) =
    root
  have hkeeps : Keeps ([Entry.key .nwjsInternalFlag, .key .nwjsInternalManifest].map keys.path)
      manifest root := by
    rw [← hroot, ← hflag]
    exact (keeps_setPath keys manifest _ (.key .nwjsInternalFlag)).trans
      (keeps_setPath keys _ _ (.key .nwjsInternalManifest))
  -- the rest of the hook starts from the manifest with the flag and the package in it
  obtain ⟨hsteps, hicon, hpages, hshared⟩ :=
    @steps_of_root keys package strict manifest root hkeeps
  refine ⟨rfl, hshared, ?_⟩
  -- what the first part writes is there at the end, since no later part writes it again
  obtain ⟨-, hscripts, hpermissions, hfilename⟩ := loadMain_spec keys root
  obtain ⟨-, haddedScripts, haddedPermissions⟩ := written_congr hkeeps (by decide) (by decide)
  rw [haddedScripts, kept_listAt hkeeps (by decide)] at hscripts
  rw [haddedPermissions, kept_listAt hkeeps (by decide)] at hpermissions
  exact {
    keeps := hsteps.keeps
    flag := by
      rw [hsteps.last_eq_root (by decide) (by nofun), ← hroot,
        kept_getPath (keeps_setPath keys flag _ (.key .nwjsInternalManifest)) (by decide), ← hflag]
      exact manifest.getPath_setPath _ (keys.path_ne_nil _)
    root := by
      rw [hsteps.last_eq_root (by decide) (by nofun), ← hroot]
      exact flag.getPath_setPath _ (keys.path_ne_nil _)
    filename := by
      intro mainUrl hurl hscript
      rw [Dictionary.textAt_congr (hsteps.last_eq_main (by decide) (by decide) (by nofun))]
      exact hfilename mainUrl ((kept_textAt hkeeps (by decide)).trans hurl) hscript
    scripts := by
      rw [← hscripts]
      exact Dictionary.listAt_congr (hsteps.last_eq_main (by decide) (by decide) (by nofun))
    permissions := by
      rw [← hpermissions]
      exact Dictionary.listAt_congr (hsteps.last_eq_main (by decide) (by decide) (by nofun))
    pages := by
      rw [← hpages]
      exact kept_listAt hsteps.toLast (by split <;> decide)
    icon := by
      intro iconPath width h
      rw [← hicon iconPath width h]
      exact (kept_textAt hsteps.toLast (by split <;> simp)).trans
        (kept_textAt hsteps.toPages (notMem_writtenPages (by nofun)))
    contentVerify := by
      intro hstrict
      subst hstrict
      exact Dictionary.getPath_setPath _ _ (keys.path_ne_nil _) }

end Hook

end NodeWebkit.Content
