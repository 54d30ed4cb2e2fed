import NodeWebkit.Lib.BaseValues
import NodeWebkit.Lib.Substitution

/-!
# The user agent of a manifest

`user-agent` in the manifest may have placeholders for the name and the version of the app, for the
versions of NW.js and WebKit, and for the system. `SetUserAgentOverride` replaces one after the
other, and `GetUserAgentFromManifest` keeps what comes out.

* **`setUserAgentOverride_eq`** — the placeholders in turn;
* **`forall₂_process`** — every call gives the same string;
* **`expandsOnce_iff`** — the placeholders are as if they were replaced at once, and none is found
  in a value, if and only if none is made by the values of those before it.
-/

namespace NodeWebkit.Content.UserAgent

open BaseValues Substitution

abbrev Text := List Char

/-- `ReplaceSubstringsAfterOffset(&text, 0, find, replace)`. -/
def replaceSubstrings (text find replace : Text) : Text := expand [⟨find, replace⟩] 0 text

/-- `NW_VERSION_STRING`, `GetWebKitVersion()` and `BuildOSInfo()`. -/
structure Build where
  nwVersion : Text
  webKitVersion : Text
  osInfo : Text

variable (build : Build)

/-- `SetUserAgentOverride`: what `g_user_agent` is set to. -/
def setUserAgentOverride (agent name version : Text) : Text :=
  let agent := replaceSubstrings agent "%name".toList name
  let agent := replaceSubstrings agent "%ver".toList version
  let agent := replaceSubstrings agent "%nwver".toList build.nwVersion
  let agent := replaceSubstrings agent "%webkit_ver".toList build.webKitVersion
  replaceSubstrings agent "%osinfo".toList build.osInfo

def manifestText (root : Dictionary) (key : String) : Text :=
  (root.getString key).elim [] String.toList

/-- `GetUserAgentFromManifest`: `g_user_agent` afterwards, and the agent that is given if there is
one. -/
def getUserAgentFromManifest (package : Option Dictionary) (userAgent : Text) :
    Text × Option Text :=
  if userAgent ≠ [] then (userAgent, some userAgent)
  else
    match package with
    | none => (userAgent, none)
    | some root =>
      match root.getString "user-agent" with
      | none => (userAgent, none)
      | some agent =>
        let userAgent := setUserAgentOverride build agent.toList (manifestText root "name")
          (manifestText root "version")
        (userAgent, some userAgent)

/-- What the calls of one process give; each finds the package or is too early for it. -/
def process (root : Dictionary) (userAgent : Text) : List Bool → List (Option Text)
  | [] => []
  | hasPackage :: calls =>
    let (userAgent, agent) :=
      getUserAgentFromManifest build (if hasPackage then some root else none) userAgent
    agent :: process root userAgent calls

/-! ## What has to hold -/

/-- The placeholders in the order in which they are replaced. -/
def rules (root : Dictionary) : List (Rule Char) :=
  [⟨"%name".toList, manifestText root "name"⟩,
    ⟨"%ver".toList, manifestText root "version"⟩,
    ⟨"%nwver".toList, build.nwVersion⟩,
    ⟨"%webkit_ver".toList, build.webKitVersion⟩,
    ⟨"%osinfo".toList, build.osInfo⟩]

/-- All placeholders of a template are replaced at once. -/
def expanded (root : Dictionary) (template : String) : Text :=
  expand (rules build root) 0 template.toList

/-- The template is expanded as if all placeholders were replaced at once, what is replaced stands
in the template, and every call that finds the package gives the result. -/
structure ExpandsOnce (root : Dictionary) (template : String) : Prop where
  same : setUserAgentOverride build template.toList (manifestText root "name")
    (manifestText root "version") = expanded build root template
  genuine : GenuineSteps (rules build root) (track 0 template.toList)
  calls : ∀ calls, List.Forall₂
    (fun hasPackage agent => agent = some (expanded build root template) ∨
      hasPackage = false ∧ agent = none) calls (process build root [] calls)

/-! ## The substitutions -/

/-- Each placeholder begins with its only percent sign. This is what the library asks of
placeholders: no two of them can overlap in a text. -/
theorem separated_rules (root : Dictionary) : Separated '%' (rules build root) := by
  unfold Separated rules
  simp only [List.forall_mem_cons]
  exact ⟨⟨"name".toList, rfl, by decide⟩, ⟨"ver".toList, rfl, by decide⟩,
    ⟨"nwver".toList, rfl, by decide⟩, ⟨"webkit_ver".toList, rfl, by decide⟩,
    ⟨"osinfo".toList, rfl, by decide⟩, by simp⟩

/-- The placeholders are replaced one after the other, in the order of the source, each in the whole
text that the ones before have left. -/
theorem setUserAgentOverride_eq (root : Dictionary) (template : Text) :
    setUserAgentOverride build template (manifestText root "name") (manifestText root "version") =
      (rules build root).foldl (fun text r => expand [r] 0 text) template :=
  rfl

/-- Where all that is replaced stands in the template, it is replaced as if at once. -/
theorem setUserAgentOverride_eq_expanded {root : Dictionary} {template : String}
    (h : GenuineSteps (rules build root) (track 0 template.toList)) :
    setUserAgentOverride build template.toList (manifestText root "name")
      (manifestText root "version") = expanded build root template := by
  rw [setUserAgentOverride_eq]
  exact foldl_expand_eq template.toList (separated_rules build root) h

/-! ## The calls -/

/-- **Every call** that finds the package gives the same string, and so do the ones after it. -/
theorem forall₂_process {root : Dictionary} {template : String}
    (h : root.getString "user-agent" = some template) {agent : Text}
    (hagent : setUserAgentOverride build template.toList (manifestText root "name")
      (manifestText root "version") = agent) {userAgent : Text}
    (hstart : userAgent = [] ∨ userAgent = agent) (calls : List Bool) :
    List.Forall₂ (fun hasPackage result => result = some agent ∨ hasPackage = false ∧ result = none)
      calls (process build root userAgent calls) := by
  induction calls generalizing userAgent with
  | nil => exact .nil
  | cons hasPackage calls ih =>
    rw [process]
    by_cases hne : userAgent = []
    · subst hne
      cases hasPackage with
      -- without a package nothing is stored, and the next call begins as this one did
      | false => exact .cons (.inr ⟨rfl, rfl⟩) (ih (.inl rfl))
      | true =>
        simp only [getUserAgentFromManifest, if_true, ne_eq, not_true_eq_false, if_false, h, hagent]
        exact .cons (.inl rfl) (ih (.inr rfl))
    · have heq := hstart.resolve_left hne
      subst heq
      simp only [getUserAgentFromManifest, ne_eq, hne, not_false_eq_true, if_true]
      exact .cons (.inl rfl) (ih (.inr rfl))

/-- **The user agent.** The templates of a manifest are expanded once exactly if in the template
with the values of the placeholders before it each placeholder is found in the template only. -/
theorem expandsOnce_iff (root : Dictionary) :
    (∀ template, root.getString "user-agent" = some template → ExpandsOnce build root template) ↔
      ∀ template, root.getString "user-agent" = some template →
        Undisturbed (rules build root) template.toList := by
  refine forall_congr' fun template => imp_congr_right fun h => ?_
  have hiff := genuineSteps_iff template.toList (separated_rules build root)
  constructor
  · exact fun hexpands => hiff.mp hexpands.genuine
  · intro hundisturbed
    have hgenuine := hiff.mpr hundisturbed
    have hsame := setUserAgentOverride_eq_expanded build hgenuine
    exact ⟨hsame, hgenuine, forall₂_process build h hsame (.inl rfl)⟩

/-- `{ "name": "%ver", "version": "1", "user-agent": "%name" }`. -/
def nameIsPlaceholder : Dictionary :=
  ((Dictionary.empty.set "name" (.string "%ver")).set "version" (.string "1")).set "user-agent"
    (.string "%name")

def build1 : Build := ⟨"0.13.0".toList, "537.36".toList, "Linux".toList⟩

/-- The name is expanded as well: a name that is a placeholder itself is replaced by the version,
which comes later in the list. -/
theorem not_expandsOnce_name :
    setUserAgentOverride build1 "%name".toList (manifestText nameIsPlaceholder "name")
        (manifestText nameIsPlaceholder "version") ≠
      expanded build1 nameIsPlaceholder "%name" := by
  decide +kernel

end NodeWebkit.Content.UserAgent
