import Mathlib.Logic.Function.Basic
import Mathlib.Data.List.Basic

/-!
# nw.Window event listeners — the JavaScript of `api_nw_window.js`

A window keeps every listener twice: wrapped by `bind` on an event source of the current
document, and raw in `outerEventCBs`, a table of the background page that outlives the document
and is replayed by `__nw_initwindow` after a reload.

This module is the translation of `on`, `once`, `removeListener`, `removeAllListeners` and of
the `__nw_*` helpers, as functions on the pair of representations. Function objects are compared
by identity in the source, so the bound functions and the closures of `once` carry a number
(`NWWindow.nextRef` counts the function objects created so far). User callbacks are values of an
arbitrary type `F`.
-/

namespace NodeWebkit.Window

/-! ## Event names and the event maps -/

/-- The event names `on` looks at; `other` stands for every name none of its branches takes. -/
inductive EventName where
  | minimize | maximize | restore | enterFullscreen | closed | move | resize
  | zoom | close | documentStart | documentEnd
  | loaded | newWinPolicy | navigation
  | focus | blur
  | other (name : String)
  deriving DecidableEq

/-- The `Event` objects of the application window and of `NWWindow.prototype`. -/
inductive EventProp where
  | onMinimized | onMaximized | onRestored | onFullscreened | onClosed | onMoved | onResized
  | onZoom | onClose | onDocumentStart | onDocumentEnd
  | loadingStateChanged | onNewWinPolicy | onNavigation
  deriving DecidableEq

/-- The two handler properties of `appWindow.contentWindow` that `on` assigns. -/
inductive HandlerProp where
  | onfocus | onblur
  deriving DecidableEq

def appWinEventsMap : EventName → Option EventProp
  | .minimize => some .onMinimized
  | .maximize => some .onMaximized
  | .restore => some .onRestored
  | .enterFullscreen => some .onFullscreened
  | .closed => some .onClosed
  | .move => some .onMoved
  | .resize => some .onResized
  | _ => none

def nwWinEventsMap : EventName → Option EventProp
  | .zoom => some .onZoom
  | .close => some .onClose
  | .documentStart => some .onDocumentStart
  | .documentEnd => some .onDocumentEnd
  | _ => none

def nwWrapEventsMap : EventName → Option EventProp
  | .loaded => some .loadingStateChanged
  | .newWinPolicy => some .onNewWinPolicy
  | .navigation => some .onNavigation
  | _ => none

/-- The names `on` dispatches, in the order of the maps. -/
def EventName.dispatched : List EventName :=
  [.minimize, .maximize, .restore, .enterFullscreen, .closed, .move, .resize,
   .zoom, .close, .documentStart, .documentEnd,
   .loaded, .newWinPolicy, .navigation, .focus, .blur]

/-! ## The two representations -/

/-- A JavaScript function passed as a listener: one the app wrote, or the closure `g` that a
call of `once` made around `listener`. A closure is only ever registered for the event it
captured, so the event is not stored. -/
inductive JsFn (F : Type) where
  | user (f : F)
  | g (id : Nat) (listener : JsFn F)
  deriving DecidableEq

/-- An entry of `outerEventCBs`. -/
structure Record (F : Type) where
  callback : JsFn F
  once : Bool
  deriving DecidableEq

/-- The bound function returned by `wrap`, with its property `listener`. -/
structure Wrapped (F : Type) where
  ref : Nat
  listener : JsFn F
  deriving DecidableEq

/-- One invocation of a user callback, with the flag of the registration it went through. -/
structure Firing (F : Type) where
  event : EventName
  callback : JsFn F
  once : Bool
  deriving DecidableEq

structure NWWindow (F : Type) where
  /-- A key missing from the table reads as the empty list. -/
  outerEventCBs : EventName → List (Record F) := fun _ => []
  listeners : EventProp → List (Wrapped F) := fun _ => []
  handlers : HandlerProp → Option (Wrapped F) := fun _ => none
  /-- The closures `g` whose variable `fired` is true. -/
  fired : List Nat := []
  nextRef : Nat := 0
  /-- Every invocation of a user callback so far. -/
  calls : List (Firing F) := []

namespace NWWindow

variable {F : Type} [DecidableEq F]

/-! ## The helpers of the background page -/

/-- `__nw_record_event`. -/
def nwRecordEvent (self : NWWindow F) (event : EventName) (listener : JsFn F) (isOnce : Bool) :
    NWWindow F :=
  { self with
    outerEventCBs :=
      Function.update self.outerEventCBs event (self.outerEventCBs event ++ [⟨listener, isOnce⟩]) }

/-- `__nw_removeOuterEventCB`: splices out the first record of the callback, whatever its
`once` flag. -/
def nwRemoveOuterEventCB (self : NWWindow F) (event : EventName) (listener : JsFn F) :
    NWWindow F :=
  { self with
    outerEventCBs := Function.update self.outerEventCBs event
      ((self.outerEventCBs event).eraseP fun r => r.callback = listener) }

/-- `__nw_remove_all_listeners`. -/
def nwRemoveAllListeners (self : NWWindow F) (event : EventName) : NWWindow F :=
  { self with outerEventCBs := Function.update self.outerEventCBs event [] }

/-! ## Event sources -/

/-- `Event.addListener(wrap())`: appends a new bound function. -/
def addListener (self : NWWindow F) (p : EventProp) (callback : JsFn F) : NWWindow F :=
  { self with
    listeners := Function.update self.listeners p
      (self.listeners p ++ [⟨self.nextRef, callback⟩])
    nextRef := self.nextRef + 1 }

/-- `contentWindow.onfocus = wrap()`, and likewise for `onblur`. -/
def setHandler (self : NWWindow F) (h : HandlerProp) (callback : JsFn F) : NWWindow F :=
  { self with
    handlers := Function.update self.handlers h (some ⟨self.nextRef, callback⟩)
    nextRef := self.nextRef + 1 }

/-- `Event.removeListener`: removes the first listener that is this function object. -/
def eventRemoveListener (self : NWWindow F) (p : EventProp) (ref : Nat) : NWWindow F :=
  { self with
    listeners := Function.update self.listeners p ((self.listeners p).eraseP fun l => l.ref = ref) }

/-! ## `NWWindow.prototype` -/

/-- `on`; `record` is true where the source leaves its third argument undefined. -/
def on (self : NWWindow F) (event : EventName) (callback : JsFn F) (record : Bool) : NWWindow F :=
  let self := if record then self.nwRecordEvent event callback false else self
  match event with
  -- the names the `switch` takes, then those it leaves to the maps
  | .close => self.addListener .onClose callback
  | .focus => self.setHandler .onfocus callback
  | .blur => self.setHandler .onblur callback
  | .loaded => self.addListener .loadingStateChanged callback
  | .newWinPolicy => self.addListener .onNewWinPolicy callback
  | .navigation => self.addListener .onNavigation callback
  | .move => self.addListener .onMoved callback
  | .resize => self.addListener .onResized callback
  | event =>
    match appWinEventsMap event with
    | some p => self.addListener p callback
    | none =>
      match nwWinEventsMap event with
      | some p => self.addListener p callback
      | none => self

/-- `once`: records the raw listener and registers the closure `g` through `on`. -/
def once (self : NWWindow F) (event : EventName) (listener : JsFn F) (record : Bool) :
    NWWindow F :=
  let self := if record then self.nwRecordEvent event listener true else self
  let g := JsFn.g self.nextRef listener
  on { self with nextRef := self.nextRef + 1 } event g false

/-- One `for` loop of `removeListener`: removes the first listener whose property `listener` is
the callback; `none` where the loop runs to its end. -/
def removeFirst (self : NWWindow F) (p : EventProp) (callback : JsFn F) : Option (NWWindow F) :=
  ((self.listeners p).find? fun l => l.listener = callback).map
    fun l => self.eventRemoveListener p l.ref

/-- `if (onfocus && onfocus.listener === callback) onfocus = null`. -/
def clearHandler (self : NWWindow F) (h : HandlerProp) (callback : JsFn F) : NWWindow F :=
  { self with
    handlers := Function.update self.handlers h
      ((self.handlers h).filter fun l => l.listener ≠ callback) }

def removeListener (self : NWWindow F) (event : EventName) (callback : JsFn F) : NWWindow F :=
  -- the record goes, whether or not a loop below finds the listener
  let self := self.nwRemoveOuterEventCB event callback
  match (appWinEventsMap event).bind (self.removeFirst · callback) with
  | some self => self
  | none =>
    match (nwWinEventsMap event).bind (self.removeFirst · callback) with
    | some self => self
    | none =>
      match (nwWrapEventsMap event).bind (self.removeFirst · callback) with
      | some self => self
      | none =>
        match event with
        | .focus => self.clearHandler .onfocus callback
        | .blur => self.clearHandler .onblur callback
        | _ => self

/-- The loop of `removeAllListeners` over a copy of the listener array. -/
def removeEachCopy (self : NWWindow F) (p : EventProp) : NWWindow F :=
  (self.listeners p).foldl (fun self l => self.eventRemoveListener p l.ref) self

/-- The same loop over the live array: the iterator keeps its index while the array shrinks
under it. It runs at most once for each element there was at the start. -/
def removeEachLive (self : NWWindow F) (p : EventProp) : (fuel i : Nat) → NWWindow F
  | 0, _ => self
  | fuel + 1, i =>
    match (self.listeners p)[i]? with
    | none => self
    -- the next listener moves down to `i` and is passed over
    | some l => (self.eventRemoveListener p l.ref).removeEachLive p fuel (i + 1)

/-- `for (let l of getListeners()) removeListener(l.callback)`, with `getListeners` returning a
copy of the array or the array itself. -/
def removeEach (copy : Bool) (self : NWWindow F) (p : EventProp) : NWWindow F :=
  if copy then self.removeEachCopy p else self.removeEachLive p (self.listeners p).length 0

def removeAllListeners (copy : Bool) (self : NWWindow F) (event : EventName) : NWWindow F :=
  let self := self.nwRemoveAllListeners event
  match appWinEventsMap event with
  | some p => self.removeEach copy p
  | none =>
    match nwWinEventsMap event with
    | some p => self.removeEach copy p
    | none =>
      match nwWrapEventsMap event with
      | some p => self.removeEach copy p
      | none =>
        match event with
        | .focus => { self with handlers := Function.update self.handlers .onfocus none }
        | .blur => { self with handlers := Function.update self.handlers .onblur none }
        | _ => self

/-! ## Dispatch -/

/-- The bound functions registered for the event in the current document. -/
def live (self : NWWindow F) (event : EventName) : List (Wrapped F) :=
  match event with
  | .focus => (self.handlers .onfocus).toList
  | .blur => (self.handlers .onblur).toList
  | event =>
    match (appWinEventsMap event <|> nwWinEventsMap event <|> nwWrapEventsMap event) with
    | some p => self.listeners p
    | none => []

/-- The body of the function given to `wrap` calls its callback; only the one for `loaded` looks
at the loading status first. -/
def passes (event : EventName) (status : String) : Bool :=
  match event with
  | .loaded => status == "loaded"
  | _ => true

/-- A bound function is called: a user callback runs, a closure `g` first drops its record and
itself and then runs its listener unless `fired` is set. -/
def call (event : EventName) (status : String) (self : NWWindow F) (l : Wrapped F) :
    NWWindow F :=
  if passes event status then
    match l.listener with
    | .user f => { self with calls := self.calls ++ [⟨event, .user f, false⟩] }
    | .g id listener =>
      let self := self.nwRemoveOuterEventCB event listener
      -- for the record table `g` is a callback that was never recorded
      let self := self.removeListener event (.g id listener)
      if id ∈ self.fired then self
      else { self with
        fired := id :: self.fired
        calls := self.calls ++ [⟨event, listener, true⟩] }
  else self

/-- Dispatch to the listeners registered at the moment of the dispatch. -/
def dispatch (self : NWWindow F) (event : EventName) (status : String) : NWWindow F :=
  (self.live event).foldl (call event status) self

/-! ## Reload -/

/-- The replay of one record by `__nw_initwindow`. -/
def replay (event : EventName) (self : NWWindow F) (r : Record F) : NWWindow F :=
  if r.once then self.once event r.callback false else self.on event r.callback false

/-- `__nw_initwindow` in a new document: its event sources are empty, and the loops over
`outerEventCBs` register every record again. A name `on` does not dispatch replays to nothing. -/
def reload (self : NWWindow F) : NWWindow F :=
  let new := { self with listeners := fun _ => [], handlers := fun _ => none }
  EventName.dispatched.foldl
    (fun new event => (self.outerEventCBs event).foldl (replay event) new) new

/-! ## The system -/

/-- What can happen to a window. -/
inductive Op (F : Type) where
  | on (event : EventName) (callback : F)
  | once (event : EventName) (listener : F)
  | removeListener (event : EventName) (callback : F)
  | removeAllListeners (event : EventName)
  | dispatch (event : EventName) (status : String)
  | reload
  deriving DecidableEq

/-- `copy` says whether `Event.getListeners` returns a copy of the listener array. -/
def step (copy : Bool) (self : NWWindow F) : Op F → NWWindow F
  | .on event callback => self.on event (.user callback) true
  | .once event listener => self.once event (.user listener) true
  | .removeListener event callback => self.removeListener event (.user callback)
  | .removeAllListeners event => self.removeAllListeners copy event
  | .dispatch event status => self.dispatch event status
  | .reload => self.reload

end NWWindow

end NodeWebkit.Window
