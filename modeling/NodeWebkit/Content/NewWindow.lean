import NodeWebkit.Content.MergeManifest

/-!
# Two readings of a window manifest

What a window is to be like is said by an object of one format, and read by two converters:
`nw.Window.open` makes options for `chrome.app.window.create` of it, and `CalcNewWinParams` the
parameters themselves, for windows that a page opens in other ways.

* **`WindowManifest`** — the fields, each with the type that the reference gives it;
* **`openOptions`**, **`calcNewWinParams`** — the two converters;
* **`Copies`** — what `chrome.app.window.create`, which is not part of this repository, does with
  the options.

`new_window_params_iff` compares the two.
-/

namespace NodeWebkit.Content

open BaseValues

structure WindowManifest where
  frame : Option Bool := none
  resizable : Option Bool := none
  focus : Option Bool := none
  x : Option Int32 := none
  y : Option Int32 := none
  width : Option Int32 := none
  height : Option Int32 := none
  minWidth : Option Int32 := none
  maxWidth : Option Int32 := none
  minHeight : Option Int32 := none
  maxHeight : Option Int32 := none
  fullscreen : Option Bool := none
  show_ : Option Bool := none
  showInTaskbar : Option Bool := none
  alwaysOnTop : Option Bool := none
  visibleOnAllWorkspaces : Option Bool := none
  injectJsStart : Option String := none
  injectJsEnd : Option String := none
  forceEnableDragRegion : Option Bool := none
  transparent : Option Bool := none
  kiosk : Option Bool := none
  newInstance : Option Bool := none
  position : Option String := none
  title : Option String := none
  icon : Option String := none
  id : Option String := none
  titleBarStyle : Option String := none
  deriving DecidableEq

/-! ## The conversion of the page

`openOptions` is the part of `nw.Window.open` that reads the object. It tests a size with a truth
test, so that 0 is no size, and the other fields with a comparison. -/

structure OuterBounds where
  left : Option Int32 := none
  top : Option Int32 := none
  deriving DecidableEq

structure InnerBounds where
  width : Option Int32 := none
  height : Option Int32 := none
  minWidth : Option Int32 := none
  maxWidth : Option Int32 := none
  minHeight : Option Int32 := none
  maxHeight : Option Int32 := none
  deriving DecidableEq

/-- The options of `chrome.app.window.create`. -/
structure WindowOptions where
  innerBounds : InnerBounds := {}
  outerBounds : OuterBounds := {}
  frame : Option String := none
  resizable : Option Bool := none
  focused : Option Bool := none
  state : Option String := none
  hidden : Option Bool := none
  showInTaskbar : Option Bool := none
  alwaysOnTop : Option Bool := none
  visibleOnAllWorkspaces : Option Bool := none
  injectJsStart : Option String := none
  injectJsEnd : Option String := none
  forceEnableDragRegion : Option Bool := none
  alphaEnabled : Option Bool := none
  kiosk : Option Bool := none
  newInstance : Option Bool := none
  position : Option String := none
  title : Option String := none
  icon : Option String := none
  id : Option String := none
  titleBarStyle : Option String := none
  deriving DecidableEq

/-- `if (params.x) .. = params.x` for a number. -/
def truthyInt (v : Option Int32) : Option Int32 := v.filter (· ≠ 0)

/-- `if (params.title) .. = params.title` for a text. -/
def truthyString (v : Option String) : Option String := v.filter (· ≠ "")

/-- `if (params.frame === expected) .. = value`. -/
def ifIs {α : Type} (v : Option Bool) (expected : Bool) (value : α) : Option α :=
  if v = some expected then some value else none

/-- The options that `nw.Window.open` makes of its `params`. -/
def openOptions (params : WindowManifest) : WindowOptions where
  frame := ifIs params.frame false "none"
  resizable := ifIs params.resizable false false
  focused := ifIs params.focus false false
  outerBounds :=
    { left := truthyInt params.x
      top := truthyInt params.y }
  innerBounds :=
    { height := truthyInt params.height
      width := truthyInt params.width
      minWidth := truthyInt params.minWidth
      maxWidth := truthyInt params.maxWidth
      minHeight := truthyInt params.minHeight
      maxHeight := truthyInt params.maxHeight }
  state := ifIs params.fullscreen true "fullscreen"
  hidden := ifIs params.show_ false true
  showInTaskbar := ifIs params.showInTaskbar false false
  alwaysOnTop := ifIs params.alwaysOnTop true true
  visibleOnAllWorkspaces := ifIs params.visibleOnAllWorkspaces true true
  injectJsStart := params.injectJsStart
  injectJsEnd := params.injectJsEnd
  forceEnableDragRegion := ifIs params.forceEnableDragRegion true true
  alphaEnabled := ifIs params.transparent true true
  kiosk := ifIs params.kiosk true true
  newInstance := ifIs params.newInstance true true
  position := truthyString params.position
  title := truthyString params.title
  icon := truthyString params.icon
  id := truthyString params.id
  titleBarStyle := truthyString params.titleBarStyle

/-! ## The native conversion

`CalcNewWinParams` merges the object into the `window` section of the package and reads the result
by typed getters, which take every number. -/

inductive Frame where
  | chrome | none
  deriving DecidableEq

inductive ShowState where
  | default | fullscreen
  deriving DecidableEq

/-- `extensions::AppWindow::CreateParams`, as far as both converters fill it, with the scripts that
are to be injected; a position may be unspecified. -/
@[ext]
structure CreateParams where
  frame : Frame := .chrome
  resizable : Bool := true
  state : ShowState := .default
  x : Option Int32 := none
  y : Option Int32 := none
  width : Int32 := 0
  height : Int32 := 0
  minWidth : Int32 := 0
  minHeight : Int32 := 0
  maxWidth : Int32 := 0
  maxHeight : Int32 := 0
  alwaysOnTop : Bool := false
  visibleOnAllWorkspaces : Bool := false
  injectJsDocStart : String := ""
  injectJsDocEnd : String := ""
  deriving DecidableEq

section

variable (setSize : Int32 → Int32)

/-- The part of `CalcNewWinParams` after the manifests are merged; `setSize` is what a `gfx::Size`
keeps of a length. -/
def createParams (manifest : Dictionary) : CreateParams where
  resizable := (manifest.getBoolean "resizable").getD true
  state := if manifest.getBoolean "fullscreen" = some true then .fullscreen else .default
  width := ((manifest.getInteger "width").map setSize).getD 0
  height := ((manifest.getInteger "height").map setSize).getD 0
  x := manifest.getInteger "x"
  y := manifest.getInteger "y"
  alwaysOnTop := manifest.getBoolean "always_on_top" = some true
  frame := if manifest.getBoolean "frame" = some false then .none else .chrome
  visibleOnAllWorkspaces := manifest.getBoolean "visible_on_all_workspaces" = some true
  minWidth := ((manifest.getInteger "min_width").map setSize).getD 0
  minHeight := ((manifest.getInteger "min_height").map setSize).getD 0
  maxWidth := ((manifest.getInteger "max_width").map setSize).getD 0
  maxHeight := ((manifest.getInteger "max_height").map setSize).getD 0
  injectJsDocStart := (manifest.getString "inject_js_start").getD ""
  injectJsDocEnd := (manifest.getString "inject_js_end").getD ""

/-- `CalcNewWinParams`. -/
def calcNewWinParams (readToValue : String → Option Value) (manifestStr : String) (m : Memory) :
    Option CreateParams :=
  (mergeManifest readToValue manifestStr m).bind fun (ref, m) =>
    (m.read ref).map (createParams setSize)

/-- What `chrome.app.window.create` makes of its options: bounds are copied, an absent position is
unspecified, an absent size is 0. -/
structure Copies (create : WindowOptions → CreateParams) : Prop where
  frame : ∀ o, (create o).frame = if o.frame = some "none" then .none else .chrome
  resizable : ∀ o, (create o).resizable = o.resizable.getD true
  state : ∀ o, (create o).state =
    if o.state = some "fullscreen" then .fullscreen else .default
  x : ∀ o, (create o).x = o.outerBounds.left
  y : ∀ o, (create o).y = o.outerBounds.top
  width : ∀ o, (create o).width = (o.innerBounds.width.map setSize).getD 0
  height : ∀ o, (create o).height = (o.innerBounds.height.map setSize).getD 0
  minWidth : ∀ o, (create o).minWidth = (o.innerBounds.minWidth.map setSize).getD 0
  minHeight : ∀ o, (create o).minHeight = (o.innerBounds.minHeight.map setSize).getD 0
  maxWidth : ∀ o, (create o).maxWidth = (o.innerBounds.maxWidth.map setSize).getD 0
  maxHeight : ∀ o, (create o).maxHeight = (o.innerBounds.maxHeight.map setSize).getD 0
  alwaysOnTop : ∀ o, (create o).alwaysOnTop = o.alwaysOnTop.getD false
  visibleOnAllWorkspaces : ∀ o, (create o).visibleOnAllWorkspaces =
    o.visibleOnAllWorkspaces.getD false
  injectJsDocStart : ∀ o, (create o).injectJsDocStart = o.injectJsStart.getD ""
  injectJsDocEnd : ∀ o, (create o).injectJsDocEnd = o.injectJsEnd.getD ""

end

/-! ## The manifest as a dictionary

The object of the format, as the native side gets it. Each field is under its own key, by which the
getters read back the fields. -/

/-- The field under a key of the manifest. -/
def WindowManifest.lookup (params : WindowManifest) : String → Option Value
  | "frame" => params.frame.map .boolean
  | "resizable" => params.resizable.map .boolean
  | "focus" => params.focus.map .boolean
  | "x" => params.x.map .integer
  | "y" => params.y.map .integer
  | "width" => params.width.map .integer
  | "height" => params.height.map .integer
  | "min_width" => params.minWidth.map .integer
  | "max_width" => params.maxWidth.map .integer
  | "min_height" => params.minHeight.map .integer
  | "max_height" => params.maxHeight.map .integer
  | "fullscreen" => params.fullscreen.map .boolean
  | "show" => params.show_.map .boolean
  | "show_in_taskbar" => params.showInTaskbar.map .boolean
  | "always_on_top" => params.alwaysOnTop.map .boolean
  | "visible_on_all_workspaces" => params.visibleOnAllWorkspaces.map .boolean
  | "inject_js_start" => params.injectJsStart.map .string
  | "inject_js_end" => params.injectJsEnd.map .string
  | "force_enable_drag_region" => params.forceEnableDragRegion.map .boolean
  | "transparent" => params.transparent.map .boolean
  | "kiosk" => params.kiosk.map .boolean
  | "new_instance" => params.newInstance.map .boolean
  | "position" => params.position.map .string
  | "title" => params.title.map .string
  | "icon" => params.icon.map .string
  | "id" => params.id.map .string
  | "title_bar_style" => params.titleBarStyle.map .string
  | _ => none

def WindowManifest.keys : List String :=
  ["frame", "resizable", "focus", "x", "y", "width", "height", "min_width", "max_width",
    "min_height", "max_height", "fullscreen", "show", "show_in_taskbar", "always_on_top",
    "visible_on_all_workspaces", "inject_js_start", "inject_js_end", "force_enable_drag_region",
    "transparent", "kiosk", "new_instance", "position", "title", "icon", "id", "title_bar_style"]

def WindowManifest.toDictionary (params : WindowManifest) : Dictionary :=
  .ofLookup WindowManifest.keys.toFinset params.lookup

variable {params : WindowManifest}

theorem get_toDictionary (params : WindowManifest) (key : String) :
    params.toDictionary.get key = params.lookup key := by
  apply Dictionary.get_ofLookup_of
  intro key hkey
  rw [List.mem_toFinset]
  unfold WindowManifest.lookup at hkey
  split at hkey
  all_goals first | cases hkey | simp [WindowManifest.keys]

/-- A boolean field is read back by the getter for booleans, and a missing one as missing. -/
theorem getBoolean_map {d : Dictionary} {key : String} {v : Option Bool}
    (h : d.get key = v.map .boolean) : d.getBoolean key = v := by
  rw [Dictionary.getBoolean, h]
  cases v <;> rfl

theorem getInteger_map {d : Dictionary} {key : String} {v : Option Int32}
    (h : d.get key = v.map .integer) : d.getInteger key = v := by
  rw [Dictionary.getInteger, h]
  cases v <;> rfl

theorem getString_map {d : Dictionary} {key : String} {v : Option String}
    (h : d.get key = v.map .string) : d.getString key = v := by
  rw [Dictionary.getString, h]
  cases v <;> rfl

/-! ## The comparison

Both conversions are compared with `requested`, the parameters that the fields stand for. They
differ in what they pass on of a position: the page drops a coordinate that is 0. -/

/-- A truth test drops 0 and keeps every other number. -/
theorem truthyInt_eq_iff {v : Option Int32} : v = truthyInt v ↔ v ≠ some 0 := by
  unfold truthyInt
  cases v with
  | none => exact iff_of_true rfl nofun
  | some i =>
    by_cases hi : i = 0
    · rw [hi]
      exact iff_of_false nofun (not_not_intro rfl)
    · refine iff_of_true ?_ fun h => hi (Option.some.inj h)
      rw [Option.filter_some, if_pos (by simpa using hi)]

/-- For a size it makes no difference if 0 is passed on: no size and the size 0 are set alike. -/
theorem map_truthyInt {setSize : Int32 → Int32} (hsize : setSize 0 = 0) (v : Option Int32) :
    ((truthyInt v).map setSize).getD 0 = (v.map setSize).getD 0 := by
  unfold truthyInt
  cases v with
  | none => rfl
  | some i =>
    by_cases hi : i = 0
    · rw [hi]
      exact hsize.symm
    · rw [Option.filter_some, if_pos (by simpa using hi)]

/-- The native parameters, for a package with an empty section: nothing is inherited, so they are
read off the object itself. -/
theorem calcNewWinParams_eq (setSize : Int32 → Int32) {readToValue : String → Option Value}
    {manifestStr : String} (hread : readToValue manifestStr = some params.toDictionary.toValue)
    (root : Dictionary) :
    calcNewWinParams setSize readToValue manifestStr
        { package := some (root.set "window" Dictionary.empty.toValue) } =
      some (createParams setSize params.toDictionary) := by
  obtain ⟨d, hget, hcall⟩ :=
    mergeManifest_spec readToValue manifestStr (packageWindow_set root .empty [])
  have hpolicy : policyManifest readToValue manifestStr = params.toDictionary := by
    rw [policyManifest, hread]
    rfl
  have hd : d = params.toDictionary := by
    refine Dictionary.ext_get fun key => ?_
    -- under every key there is the policy's value, as the section has none
    have hinherited : inherited .empty key = none := by
      rw [inherited, Dictionary.get_empty]
      exact ite_self _
    rw [hget, hpolicy, merged, hinherited]
    cases params.toDictionary.get key <;> rfl
  rw [calcNewWinParams, hcall, Option.bind_some, hpolicy, hd]
  rfl

/-- What a manifest asks for; `x` and `y` are passed on as given. -/
def requested (setSize : Int32 → Int32) (params : WindowManifest) (x y : Option Int32) :
    CreateParams where
  frame := if params.frame = some false then .none else .chrome
  resizable := params.resizable.getD true
  state := if params.fullscreen = some true then .fullscreen else .default
  x := x
  y := y
  width := (params.width.map setSize).getD 0
  height := (params.height.map setSize).getD 0
  minWidth := (params.minWidth.map setSize).getD 0
  minHeight := (params.minHeight.map setSize).getD 0
  maxWidth := (params.maxWidth.map setSize).getD 0
  maxHeight := (params.maxHeight.map setSize).getD 0
  alwaysOnTop := params.alwaysOnTop = some true
  visibleOnAllWorkspaces := params.visibleOnAllWorkspaces = some true
  injectJsDocStart := params.injectJsStart.getD ""
  injectJsDocEnd := params.injectJsEnd.getD ""

/-- The native parameters are what the fields stand for, the position as it is. -/
theorem createParams_toDictionary (setSize : Int32 → Int32) (params : WindowManifest) :
    createParams setSize params.toDictionary = requested setSize params params.x params.y := by
  have hbool (key : String) (v : Option Bool) (h : params.lookup key = v.map .boolean) :
      params.toDictionary.getBoolean key = v :=
    getBoolean_map ((get_toDictionary params key).trans h)
  have hint (key : String) (v : Option Int32) (h : params.lookup key = v.map .integer) :
      params.toDictionary.getInteger key = v :=
    getInteger_map ((get_toDictionary params key).trans h)
  have hstring (key : String) (v : Option String) (h : params.lookup key = v.map .string) :
      params.toDictionary.getString key = v :=
    getString_map ((get_toDictionary params key).trans h)
  unfold createParams requested
  rw [hbool "resizable" _ rfl, hbool "fullscreen" _ rfl, hbool "always_on_top" _ rfl,
    hbool "frame" _ rfl, hbool "visible_on_all_workspaces" _ rfl, hint "width" _ rfl,
    hint "height" _ rfl, hint "x" _ rfl, hint "y" _ rfl, hint "min_width" _ rfl,
    hint "min_height" _ rfl, hint "max_width" _ rfl, hint "max_height" _ rfl,
    hstring "inject_js_start" _ rfl, hstring "inject_js_end" _ rfl]

/-- A comparison of the page keeps whether the field has the expected value, and nothing else of it.
-/
theorem ifIs_eq_some_iff {α : Type} {v : Option Bool} {expected : Bool} {value : α} :
    ifIs v expected value = some value ↔ v = some expected := by
  unfold ifIs
  split <;> simp [*]

/-- **What the page makes of a manifest**: what the fields stand for, with a coordinate that is 0
left out. The options are copied as `Copies` says. -/
theorem create_openOptions {setSize : Int32 → Int32} (hsize : setSize 0 = 0)
    {create : WindowOptions → CreateParams} (hcopies : Copies setSize create)
    (params : WindowManifest) :
    create (openOptions params) =
      requested setSize params (truthyInt params.x) (truthyInt params.y) := by
  apply CreateParams.ext
  case frame =>
    rw [hcopies.frame]
    simp only [openOptions, ifIs_eq_some_iff, requested]
  case resizable =>
    rw [hcopies.resizable]
    simp only [openOptions, ifIs, requested]
    -- a flag that is missing and one that is false are told apart
    rcases params.resizable with _ | _ | _ <;> rfl
  case state =>
    rw [hcopies.state]
    simp only [openOptions, ifIs_eq_some_iff, requested]
  case x => exact hcopies.x _
  case y => exact hcopies.y _
  case width => exact (hcopies.width _).trans (map_truthyInt hsize _)
  case height => exact (hcopies.height _).trans (map_truthyInt hsize _)
  case minWidth => exact (hcopies.minWidth _).trans (map_truthyInt hsize _)
  case minHeight => exact (hcopies.minHeight _).trans (map_truthyInt hsize _)
  case maxWidth => exact (hcopies.maxWidth _).trans (map_truthyInt hsize _)
  case maxHeight => exact (hcopies.maxHeight _).trans (map_truthyInt hsize _)
  case alwaysOnTop =>
    rw [hcopies.alwaysOnTop]
    simp only [openOptions, ifIs, requested]
    rcases params.alwaysOnTop with _ | _ | _ <;> rfl
  case visibleOnAllWorkspaces =>
    rw [hcopies.visibleOnAllWorkspaces]
    simp only [openOptions, ifIs, requested]
    rcases params.visibleOnAllWorkspaces with _ | _ | _ <;> rfl
  case injectJsDocStart => exact hcopies.injectJsDocStart _
  case injectJsDocEnd => exact hcopies.injectJsDocEnd _

/-- **Two converters.** The page's options and the native conversion lead to the same parameters
exactly for manifests that do not put the window at 0. -/
theorem new_window_params_iff {setSize : Int32 → Int32} (hsize : setSize 0 = 0)
    {create : WindowOptions → CreateParams} (hcopies : Copies setSize create)
    {readToValue : String → Option Value} {manifestStr : String} {params : WindowManifest}
    (hread : readToValue manifestStr = some params.toDictionary.toValue) (root : Dictionary) :
    calcNewWinParams setSize readToValue manifestStr
        { package := some (root.set "window" Dictionary.empty.toValue) } =
      some (create (openOptions params)) ↔ params.x ≠ some 0 ∧ params.y ≠ some 0 := by
  rw [calcNewWinParams_eq setSize hread root, Option.some.injEq, createParams_toDictionary,
    create_openOptions hsize hcopies, ← truthyInt_eq_iff, ← truthyInt_eq_iff]
  constructor
  · intro heq
    exact ⟨congrArg CreateParams.x heq, congrArg CreateParams.y heq⟩
  · intro ⟨hx, hy⟩
    rw [← hx, ← hy]

/-- Options that are copied as they are. -/
def copyOptions (o : WindowOptions) : CreateParams where
  frame := if o.frame = some "none" then .none else .chrome
  resizable := o.resizable.getD true
  state := if o.state = some "fullscreen" then .fullscreen else .default
  x := o.outerBounds.left
  y := o.outerBounds.top
  width := (o.innerBounds.width.map (max 0)).getD 0
  height := (o.innerBounds.height.map (max 0)).getD 0
  minWidth := (o.innerBounds.minWidth.map (max 0)).getD 0
  minHeight := (o.innerBounds.minHeight.map (max 0)).getD 0
  maxWidth := (o.innerBounds.maxWidth.map (max 0)).getD 0
  maxHeight := (o.innerBounds.maxHeight.map (max 0)).getD 0
  alwaysOnTop := o.alwaysOnTop.getD false
  visibleOnAllWorkspaces := o.visibleOnAllWorkspaces.getD false
  injectJsDocStart := o.injectJsStart.getD ""
  injectJsDocEnd := o.injectJsEnd.getD ""

/-- Copying the options field by field is one way to do what `Copies` asks. -/
theorem copies_copyOptions : Copies (max 0) copyOptions := by
  constructor <;> exact fun _ => rfl

/-- A window at (-8, 20) with a minimum width. -/
def placed : WindowManifest := { x := some (-8), y := some 20, minWidth := some 300 }

/-- A window with a position that is not at an edge is placed alike by both. -/
theorem new_window_params_placed :
    calcNewWinParams (max 0) (fun _ => some placed.toDictionary.toValue) ""
        { package := some (Dictionary.empty.set "window" Dictionary.empty.toValue) } =
      some (copyOptions (openOptions placed)) :=
  (new_window_params_iff rfl copies_copyOptions rfl Dictionary.empty).mpr ⟨by decide, by decide⟩

/-- A window at the left edge of the screen gets another place from the page's options. -/
theorem leftEdge_not_agrees : ¬ ∀ (setSize : Int32 → Int32) (create : WindowOptions → CreateParams)
    (readToValue : String → Option Value) (manifestStr : String) (params : WindowManifest)
    (root : Dictionary), setSize 0 = 0 → Copies setSize create →
    readToValue manifestStr = some params.toDictionary.toValue →
    calcNewWinParams setSize readToValue manifestStr
        { package := some (root.set "window" Dictionary.empty.toValue) } =
      some (create (openOptions params)) := by
  intro hall
  have heq := hall (max 0) copyOptions (fun _ => some (WindowManifest.toDictionary
    { x := some 0 }).toValue) "" { x := some 0 } Dictionary.empty rfl copies_copyOptions rfl
  rw [calcNewWinParams_eq (max 0) rfl Dictionary.empty, createParams_toDictionary,
    create_openOptions rfl copies_copyOptions, Option.some.injEq] at heq
  have hx : some (0 : Int32) = truthyInt (some 0) := congrArg CreateParams.x heq
  exact truthyInt_eq_iff.mp hx rfl

end NodeWebkit.Content
