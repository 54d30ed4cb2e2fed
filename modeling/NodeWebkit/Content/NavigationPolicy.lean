import Mathlib.Data.List.Induction
import Mathlib.Data.List.TakeWhile
import NodeWebkit.Content.NewWindow
import NodeWebkit.Lib.ValuePaths
import NodeWebkit.Window.ListenerRuns

/-!
# What handlers decide about a navigation

Before a page goes to another address or opens a window, `willHandleNavigationPolicy`
(`nw_content.cc`) makes an object `policy`, dispatches `new-win-policy` or `navigation` with it to
the listeners of `nw.Window`, and reads what they left in it.

## The model

* **`Handler`** — what a listener does to the object, by its methods or by assignments;
* **`willHandleNavigationPolicy`** — the dispatch to the listeners of a window, and what is read;
* **`asked`** — the last thing that was written by the listeners that are registered;
* **`NwBase`** — the global of the browser that holds the manifest of the next window. Chromium,
  which is not part of this repository, hands it the text that the renderer left.

## What is proved

A dispatch calls the listeners on record only while listeners and records agree, so both results
are about runs whose steps meet `StepOk`, the condition of `ListenersAgree.lean`: `focus` and `blur`
get one listener at most, `removeListener` meets no record of `once` first, `removeAllListeners`
has no more than one listener to drop or drops them from a copy, and at a dispatch no record of
`once` stands behind an `on` of the same callback. `navigation_policy` is about the policy in every
state that such a run reaches, and `new_window_manifest` about the parameters of the window that is
opened.
-/

namespace NodeWebkit.Content

open BaseValues NodeWebkit.Window

/-! ## The object `policy` -/

/-- Values of JavaScript, as far as they are looked at. -/
structure JsValues (V : Type) where
  ofText : String → V
  /-- `IsString`, with the text. -/
  text : V → Option String
  text_ofText : ∀ s, text (ofText s) = some s
  /-- `V8ValueConverter::FromV8Value`. -/
  fromV8Value : V → Option BaseValues.Value

/-- Properties that are absent read as `undefined`. -/
structure PolicyObject (V : Type) where
  val : Option V := none
  manifest : Option V := none

/-- What a listener does with the object. -/
inductive PolicyOp (V : Type) where
  | ignore | forceCurrent | forceDownload | forceNewWindow | forceNewPopup
  | setNewWindowManifest (m : V)
  | assignVal (v : V)
  | assignManifest (m : V)

/-- The methods that the object has: those that `on` adds for the event. -/
def PolicyOp.available (event : EventName) : PolicyOp V → Bool
  | .ignore | .assignVal _ | .assignManifest _ => true
  | _ => event = .newWinPolicy

variable {V : Type} (js : JsValues V)

/-- The value that is written to `val`. -/
def PolicyOp.writesVal : PolicyOp V → Option V
  | .ignore => some (js.ofText "ignore")
  | .forceCurrent => some (js.ofText "current")
  | .forceDownload => some (js.ofText "download")
  | .forceNewWindow => some (js.ofText "new-window")
  | .forceNewPopup => some (js.ofText "new-popup")
  | .assignVal v => some v
  | _ => none

def PolicyOp.writesManifest : PolicyOp V → Option V
  | .setNewWindowManifest m | .assignManifest m => some m
  | _ => none

def PolicyOp.isIgnore : PolicyOp V → Bool
  | .ignore => true
  | _ => false

def PolicyObject.apply (policy : PolicyObject V) (op : PolicyOp V) : PolicyObject V where
  val := (op.writesVal js).or policy.val
  manifest := op.writesManifest.or policy.manifest

/-- What a listener does in a call. -/
abbrev Handler (V : Type) := List (PolicyOp V)

/-- A method that the object does not have throws, and the call ends. -/
def Handler.effect (event : EventName) (handler : Handler V) : List (PolicyOp V) :=
  handler.takeWhile (PolicyOp.available event)

def Handler.call (event : EventName) (policy : PolicyObject V) (handler : Handler V) :
    PolicyObject V :=
  (handler.effect event).foldl (PolicyObject.apply js) policy

/-! ## `willHandleNavigationPolicy` -/

inductive WebNavigationPolicy where
  | ignore | download | currentTab | newBackgroundTab | newForegroundTab | newWindow | newPopup
  deriving DecidableEq

/-- `blink::WebURLRequest::RequestContext`. -/
inductive RequestContext where
  | hyperlink | frame | location | other
  deriving DecidableEq

structure NavigationRequest where
  newWin : Bool
  context : RequestContext

/-- The event that is dispatched. -/
def NavigationRequest.event (request : NavigationRequest) : Option EventName :=
  if request.newWin then some .newWinPolicy
  else if request.context = .other then none
  else some .navigation

/-- What the caller passes by pointer. -/
structure Navigation where
  policy : WebNavigationPolicy
  manifest : String
  deriving DecidableEq

def WebNavigationPolicy.ofText : String → Option WebNavigationPolicy
  | "ignore" => some .ignore
  | "download" => some .download
  | "current" => some .currentTab
  | "new-window" => some .newWindow
  | "new-popup" => some .newPopup
  | _ => none

/-- What is read from the object after the dispatch; `write` is `base::JSONWriter::Write`. -/
def readPolicy (write : BaseValues.Value → Option String) (navigation : Navigation)
    (policy : PolicyObject V) : Navigation where
  policy := ((policy.val.bind js.text).bind WebNavigationPolicy.ofText).getD navigation.policy
  manifest :=
    ((policy.manifest.bind js.fromV8Value).bind write).getD navigation.manifest

variable {F : Type} [DecidableEq F]

/-- The function that the app wrote. -/
def userFn : JsFn F → F
  | .user f => f
  | .g _ listener => userFn listener

/-- `willHandleNavigationPolicy` in a context with an extension; `does` is what the listeners do.
The object is seen by the calls of this dispatch. -/
def willHandleNavigationPolicy (does : F → Handler V) (write : BaseValues.Value → Option String)
    (request : NavigationRequest) (navigation : Navigation) (window : NWWindow F) :
    Navigation × NWWindow F :=
  match request.event with
  | none => (readPolicy js write navigation {}, window)
  | some event =>
    let after := window.dispatch event ""
    let policy := (after.calls.drop window.calls.length).foldl
      (fun policy firing => (does (userFn firing.callback)).call js event policy) {}
    (readPolicy js write navigation policy, after)

/-! ## What is asked for

`asked` reads off the operations of all listeners in their order what is written last. The lemmas
say that the object ends up with just that, and that the browser gets it. -/

/-- What the listeners on record do, one after the other. -/
def registeredOps (does : F → Handler V) (event : EventName) (window : NWWindow F) :
    List (PolicyOp V) :=
  (window.outerEventCBs event).flatMap fun r => (does (userFn r.callback)).effect event

/-- The last value that is written. -/
def asked {α : Type} (written : PolicyOp V → Option α) (ops : List (PolicyOp V)) : Option α :=
  (ops.filterMap written).getLast?

theorem asked_concat {α : Type} (written : PolicyOp V → Option α) (ops : List (PolicyOp V))
    (op : PolicyOp V) : asked written (ops ++ [op]) = (written op).or (asked written ops) := by
  rw [asked, List.filterMap_append, List.getLast?_append]
  cases h : written op with
  | none => simp [h, asked]
  | some a => simp [h]

/-- Whatever the object was, the last values that are written are in it. Induction on the operations
from the right. -/
theorem foldl_apply (ops : List (PolicyOp V)) (policy : PolicyObject V) :
    ops.foldl (PolicyObject.apply js) policy =
      { val := (asked (PolicyOp.writesVal js) ops).or policy.val
        manifest := (asked PolicyOp.writesManifest ops).or policy.manifest } := by
  induction ops using List.reverseRecOn with
  | nil => rfl
  | append_singleton ops op ih =>
    rw [List.foldl_append, List.foldl_cons, List.foldl_nil, ih, asked_concat, asked_concat,
      Option.or_assoc, Option.or_assoc]
    rfl

omit [DecidableEq F] in
/-- The calls of one dispatch write what all their listeners write, one listener after the other,
into the one object. -/
theorem foldl_call (does : F → Handler V) (event : EventName) (firings : List (Firing F))
    (policy : PolicyObject V) :
    firings.foldl (fun policy firing =>
        (does (userFn firing.callback)).call js event policy) policy =
      (firings.flatMap fun firing => (does (userFn firing.callback)).effect event).foldl
        (PolicyObject.apply js) policy := by
  induction firings generalizing policy with
  | nil => rfl
  | cons firing firings ih =>
    rw [List.foldl_cons, ih, List.flatMap_cons, List.foldl_append]
    rfl

/-- **One dispatch.** What is left in the object is what the listeners on record wrote last. -/
theorem willHandle_eq (does : F → Handler V) (write : BaseValues.Value → Option String)
    (request : NavigationRequest) {event : EventName} (hevent : request.event = some event)
    (navigation : Navigation) {window : NWWindow F}
    (hcalls : (window.dispatch event "").calls = window.calls ++
      (window.outerEventCBs event).map fun r => ⟨event, r.callback, r.once⟩) :
    willHandleNavigationPolicy js does write request navigation window =
      (readPolicy js write navigation
        { val := asked (PolicyOp.writesVal js) (registeredOps does event window)
          manifest := asked PolicyOp.writesManifest (registeredOps does event window) },
        window.dispatch event "") := by
  have hops : ((window.outerEventCBs event).map fun r : Record F =>
        (⟨event, r.callback, r.once⟩ : Firing F)).flatMap
        (fun firing => (does (userFn firing.callback)).effect event) =
      registeredOps does event window := by
    rw [List.flatMap_map]
    rfl
  simp only [willHandleNavigationPolicy, hevent, hcalls, List.drop_left]
  rw [foldl_call, hops, foldl_apply, Option.or_none, Option.or_none]

/-- Listeners that write nothing else to `val` have a navigation ignored if one of them says so. -/
theorem asked_ignore {ops : List (PolicyOp V)}
    (h : ∀ op ∈ ops, op.isIgnore = true ∨ op.writesVal js = none) :
    asked (PolicyOp.writesVal js) ops =
      if ops.any PolicyOp.isIgnore then some (js.ofText "ignore") else none := by
  induction ops using List.reverseRecOn with
  | nil => rfl
  | append_singleton ops op ih =>
    rw [asked_concat, ih fun op' hop' => h op' (List.mem_append_left _ hop'), List.any_append,
      List.any_cons, List.any_nil, Bool.or_false]
    cases op with
    | ignore =>
      rw [show PolicyOp.isIgnore (V := V) .ignore = true from rfl, Bool.or_true]
      rfl
    | setNewWindowManifest m | assignManifest m =>
      rw [show PolicyOp.isIgnore (V := V) _ = false from rfl, Bool.or_false]
      rfl
    | _ =>
      -- what is left writes something else
      cases h _ (List.mem_append_right _ (List.mem_singleton_self _)) with
      | inl hignore => cases hignore
      | inr hnone => cases hnone

/-- What listeners that do not assign `val` do with a navigation: the methods for new windows are
not on the object, so `ignore` is all that is left to write. -/
theorem effect_navigation {handler : Handler V} (hassign : ∀ v, PolicyOp.assignVal v ∉ handler)
    {op : PolicyOp V} (h : op ∈ handler.effect .navigation) :
    op.isIgnore = true ∨ op.writesVal js = none := by
  have havailable : PolicyOp.available .navigation op := List.mem_takeWhile_imp h
  have hmem : op ∈ handler := (List.takeWhile_prefix _).subset h
  cases op with
  | ignore => exact Or.inl rfl
  | assignVal v => exact absurd hmem (hassign v)
  | assignManifest m => exact Or.inr rfl
  | _ => cases havailable

/-- A request for a new window is asked about with `new-win-policy`, another one with `navigation`
or not at all. -/
theorem NavigationRequest.event_cases {request : NavigationRequest} {event : EventName}
    (h : request.event = some event) :
    (request.newWin = true ∧ event = .newWinPolicy) ∨
      (request.newWin = false ∧ event = .navigation) := by
  unfold NavigationRequest.event at h
  cases hnew : request.newWin with
  | true =>
    rw [hnew, if_pos rfl] at h
    exact Or.inl ⟨rfl, (Option.some.inj h).symm⟩
  | false =>
    rw [hnew, if_neg Bool.false_ne_true] at h
    split at h
    · cases h
    · exact Or.inr ⟨rfl, (Option.some.inj h).symm⟩

/-! ## Runs -/

open NWWindow

/-- **The last listener decides.** In every state that a run of a window reaches whose steps meet
`StepOk`, the dispatch as well, the policy is the one that the listeners on record, in the order in
which they were registered, asked for last, or the caller's if what they left is no policy. By its
methods a listener of `navigation` can only have it ignored. The listeners that were registered by
`once` are used up, and the run goes on. -/
theorem navigation_policy (does : F → Handler V) (write : BaseValues.Value → Option String)
    (copy : Bool) {ops : List (NWWindow.Op F)} {s : NWWindow F} (hrun : AgreeingRun copy {} ops s)
    (request : NavigationRequest) {event : EventName} (hevent : request.event = some event)
    (hok : StepOk copy s (.dispatch event "")) (navigation : Navigation) :
    let result := willHandleNavigationPolicy js does write request navigation s
    result.1.policy =
      (((asked (PolicyOp.writesVal js) (registeredOps does event s)).bind js.text).bind
        WebNavigationPolicy.ofText).getD navigation.policy ∧
    (request.newWin = false → (∀ f v, PolicyOp.assignVal v ∉ does f) →
      result.1.policy =
        if (registeredOps does event s).any PolicyOp.isIgnore then .ignore
        else navigation.policy) ∧
    result.2.outerEventCBs event = (s.outerEventCBs event).filter (fun r => !r.once) ∧
    AgreeingRun copy s [.dispatch event ""] result.2 := by
  intro result
  have hcases := NavigationRequest.event_cases hevent
  have hdispatched : event ∈ EventName.dispatched := by
    cases hcases with
    | inl h => rw [h.2]; decide
    | inr h => rw [h.2]; decide
  have hpass : passes event "" = true := by
    cases hcases with
    | inl h => rw [h.2]; rfl
    | inr h => rw [h.2]; rfl
  -- the run keeps records and listeners in step, so the dispatch calls just those on record
  have hdispatch := (hrun.inv Inv.init).dispatch hdispatched hpass (hok hdispatched hpass)
  have hresult := willHandle_eq js does write request hevent navigation hdispatch.calls
  have hpolicy : result.1.policy =
      (((asked (PolicyOp.writesVal js) (registeredOps does event s)).bind js.text).bind
        WebNavigationPolicy.ofText).getD navigation.policy := by
    show (willHandleNavigationPolicy js does write request navigation s).1.policy = _
    rw [hresult]
    rfl
  have hafter : result.2 = s.dispatch event "" := congrArg Prod.snd hresult
  refine ⟨hpolicy, fun hold hassign => ?_, ?_, ?_⟩
  · -- without a new window the event is `navigation`
    have hnavigation : event = .navigation := by
      cases hcases with
      | inl h => exact absurd (h.1.symm.trans hold) Bool.noConfusion
      | inr h => exact h.2
    subst hnavigation
    have hops : ∀ op ∈ registeredOps does .navigation s,
        op.isIgnore = true ∨ op.writesVal js = none := by
      intro op hop
      obtain ⟨r, -, hr⟩ := List.mem_flatMap.mp hop
      exact effect_navigation js (hassign (userFn r.callback)) hr
    rw [hpolicy, asked_ignore js hops]
    split
    · rw [Option.bind_some, js.text_ofText]
      rfl
    · rfl
  · rw [hafter]
    exact hdispatch.records
  · rw [hafter]
    exact .single ⟨hok, rfl⟩

/-- Values that are texts or what a manifest is made of. -/
def manifestValues : JsValues BaseValues.Value where
  ofText := .string
  text := Value.toText
  text_ofText _ := rfl
  fromV8Value := some

/-- A manifest with a width. -/
def sized : BaseValues.Dictionary := Dictionary.empty.set "width" (.integer 300)

/-- Listener 0 wants a popup of that width, listener 1 wants nothing to be opened. -/
def popupListeners : Nat → Handler BaseValues.Value
  | 0 => [.forceNewPopup, .setNewWindowManifest sized.toValue]
  | _ => [.ignore]

/-- Both listeners are there once the page was loaded again. -/
def popupScript : List (NWWindow.Op Nat) :=
  [.on .newWinPolicy 0, .once .newWinPolicy 1, .reload]

theorem popupScript_run :
    AgreeingRun true {} popupScript (popupScript.foldl (NWWindow.step true) {}) := by
  refine .cons ⟨by decide, rfl⟩ (.cons ⟨by decide, rfl⟩ (.cons ⟨trivial, rfl⟩ (.nil _)))

/-- The second listener has the last word: it ignores the popup that the first one has made a window
of. -/
theorem navigation_policy_popup :
    (willHandleNavigationPolicy manifestValues popupListeners (fun _ => none) ⟨true, .other⟩
      ⟨.newForegroundTab, ""⟩ (popupScript.foldl (NWWindow.step true) {})).1.policy = .ignore :=
  (navigation_policy manifestValues popupListeners (fun _ => none) true popupScript_run
    ⟨true, .other⟩ rfl (by decide) ⟨.newForegroundTab, ""⟩).1

/-- The manifest that the listeners on record set last, if it is an object that can be written. -/
def askedManifest (write : BaseValues.Value → Option String) (ops : List (PolicyOp V)) :
    BaseValues.Dictionary :=
  (((((asked PolicyOp.writesManifest ops).bind js.fromV8Value).filter
    fun value => (write value).isSome).bind Value.toDictionary)).getD .empty

/-- What the listeners set is what `MergeManifest` reads, if the text is read as it was written. -/
theorem policyManifest_asked {write : BaseValues.Value → Option String}
    {readToValue : String → Option BaseValues.Value}
    (hjson : ∀ value text, write value = some text → readToValue text = some value)
    (hempty : readToValue "" = none) (ops : List (PolicyOp V)) :
    policyManifest readToValue
        ((((asked PolicyOp.writesManifest ops).bind js.fromV8Value).bind write).getD "") =
      askedManifest js write ops := by
  unfold policyManifest askedManifest
  cases (asked PolicyOp.writesManifest ops).bind js.fromV8Value with
  | none =>
    show ((readToValue "").bind Value.toDictionary).getD .empty = _
    rw [hempty]
    rfl
  | some value =>
    rw [Option.bind_some]
    cases hwrite : write value with
    | none =>
      -- a manifest that cannot be written leaves the empty text
      show ((readToValue "").bind Value.toDictionary).getD .empty = _
      rw [hempty, Option.filter_some, if_neg (by rw [hwrite]; decide)]
    | some text =>
      show ((readToValue text).bind Value.toDictionary).getD .empty = _
      rw [hjson value text hwrite, Option.filter_some, if_pos (by rw [hwrite]; rfl)]

/-! ## The browser -/

/-- The globals of `nw_base.cc` that the manifest of a new window passes through. -/
structure NwBase where
  currentNewWinManifest : String := ""

def NwBase.setCurrentNewWinManifest (base : NwBase) (manifest : String) : NwBase :=
  { base with currentNewWinManifest := manifest }

def NwBase.getCurrentNewWinManifest (base : NwBase) : String := base.currentNewWinManifest

/-- **The window that is opened.** In every state that a run whose steps meet `StepOk` reaches: when
the browser was given the text that the dispatch left, whatever it was given before, the window is
opened with the parameters of a manifest in which each key has what the listeners' manifest and the
package's section are merged to, where the listeners' manifest is the last one that a listener on
record sets. Without one it is empty, so that no manifest of an earlier window is used again. -/
theorem new_window_manifest (does : F → Handler V) (write : BaseValues.Value → Option String)
    {readToValue : String → Option BaseValues.Value} (setSize : Int32 → Int32) (copy : Bool)
    (hjson : ∀ value text, write value = some text → readToValue text = some value)
    (hempty : readToValue "" = none)
    {ops : List (NWWindow.Op F)} {s : NWWindow F} (hrun : AgreeingRun copy {} ops s)
    (hok : StepOk copy s (.dispatch .newWinPolicy "")) (context : RequestContext)
    (policy : WebNavigationPolicy) (base : NwBase) {m : Memory} {window : BaseValues.Dictionary}
    (hwindow : m.packageWindow = some window) :
    let result := willHandleNavigationPolicy js does write { newWin := true, context := context }
      { policy := policy, manifest := "" } s
    let browser := base.setCurrentNewWinManifest result.1.manifest
    ∃ d, calcNewWinParams setSize readToValue browser.getCurrentNewWinManifest m =
        some (createParams setSize d) ∧
      ∀ key, d.get key =
        merged window (askedManifest js write (registeredOps does .newWinPolicy s)) key := by
  intro result browser
  have hdispatched : EventName.newWinPolicy ∈ EventName.dispatched := by decide
  have hpass : passes .newWinPolicy "" = true := rfl
  have hdispatch := (hrun.inv Inv.init).dispatch hdispatched hpass (hok hdispatched hpass)
  have hresult := willHandle_eq js does write ⟨true, context⟩ rfl ⟨policy, ""⟩ hdispatch.calls
  -- the text that the renderer leaves is the one that the browser reads from its global
  have hmanifest : browser.getCurrentNewWinManifest =
      (((asked PolicyOp.writesManifest (registeredOps does .newWinPolicy s)).bind
        js.fromV8Value).bind write).getD "" :=
    congrArg (fun r => r.1.manifest) hresult
  obtain ⟨d, hget, hcall⟩ :=
    mergeManifest_spec readToValue browser.getCurrentNewWinManifest hwindow
  rw [hmanifest, policyManifest_asked js hjson hempty] at hget
  refine ⟨d, ?_, hget⟩
  rw [calcNewWinParams, hcall, Option.bind_some]
  simp [Memory.read]

/-! ### A popup with a width -/

def sizedText : String := "\x7b\"width\":300\x7d"

def writeSized (value : BaseValues.Value) : Option String :=
  (value.toDictionary.filter fun d =>
    d.keys = {"width"} ∧ d.getInteger "width" = some 300).map fun _ => sizedText

def readSized (text : String) : Option BaseValues.Value :=
  if text = sizedText then some sized.toValue else none

/-- The codec of the example writes dictionaries that have a width and nothing else, and reads back
what it has written. -/
theorem readSized_writeSized (value : BaseValues.Value) (text : String)
    (h : writeSized value = some text) : readSized text = some value := by
  obtain ⟨d, hd, rfl⟩ := Option.map_eq_some_iff.mp h
  obtain ⟨hvalue, hwidth⟩ := Option.filter_eq_some_iff.mp hd
  rw [decide_eq_true_iff] at hwidth
  rw [readSized, if_pos rfl, Value.toDictionary_eq_some_iff.mp hvalue]
  refine congrArg (fun d : BaseValues.Dictionary => some d.toValue) ?_
  refine Dictionary.ext_get fun key => ?_
  rw [sized, Dictionary.get_set, Dictionary.get_empty]
  split
  case isTrue hkey =>
    -- the one key, whose integer is the width
    have hinteger := hwidth.2
    unfold Dictionary.getInteger at hinteger
    split at hinteger
    · next i hget =>
      rw [hkey, hget, Option.some.inj hinteger]
    · cases hinteger
  case isFalse hkey =>
    -- no other key is there
    have hnot : ¬ (d.get key).isSome := by
      rw [Dictionary.isSome_get_iff, hwidth.1, Finset.mem_singleton]
      exact hkey
    exact (Option.not_isSome_iff_eq_none.mp hnot).symm

/-- Only the listener that wants a popup is registered. -/
def sizedScript : List (NWWindow.Op Nat) := [.on .newWinPolicy 0, .reload]

theorem sizedScript_run :
    AgreeingRun true {} sizedScript (sizedScript.foldl (NWWindow.step true) {}) := by
  refine .cons ⟨by decide, rfl⟩ (.cons ⟨trivial, rfl⟩ (.nil _))

/-- The popup is opened with the width that the listener set, in an app whose section has another
one, and after a window with a manifest of its own. -/
theorem new_window_manifest_popup :
    let result := willHandleNavigationPolicy manifestValues popupListeners writeSized
      ⟨true, .other⟩ ⟨.newForegroundTab, ""⟩ (sizedScript.foldl (NWWindow.step true) {})
    let section_ := Dictionary.empty.set "width" (.integer 800)
    let base : NwBase := { currentNewWinManifest := "\x7b\"width\":500\x7d" }
    result.1.policy = .newPopup ∧
      ∃ d, calcNewWinParams (max 0) readSized
          (base.setCurrentNewWinManifest result.1.manifest).getCurrentNewWinManifest
          { package := some (Dictionary.empty.set "window" section_.toValue) } =
            some (createParams (max 0) d) ∧
        d.get "width" = some (.integer 300) := by
  intro result section_ base
  refine ⟨rfl, ?_⟩
  obtain ⟨d, hparams, hget⟩ := new_window_manifest manifestValues popupListeners writeSized
    (max 0) true readSized_writeSized rfl sizedScript_run (by decide) .other .newForegroundTab
    base (packageWindow_set Dictionary.empty section_ [])
  refine ⟨d, hparams, ?_⟩
  rw [hget]
  rfl

end NodeWebkit.Content
