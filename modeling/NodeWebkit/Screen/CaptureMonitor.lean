import NodeWebkit.Lib.Base64
import NodeWebkit.Lib.ListEdits
import NodeWebkit.Lib.Run

/-!
# nw.Screen.DesktopCaptureMonitor

The monitor is one for the whole browser. While it is started it has a media list, which it
observes: each change of the list is broadcast as an event, and every page that has called
`Screen.Init` emits it once more. The events say at which position a source is added, removed or
moved, and by its id which source has a new name or thumbnail.

* **`Change`** — what happens to a media list, and the observer's answer to it;
* **`hear`** — what an app does that keeps a list of its own by the events;
* **`System.step`** — pages that initialize, the start and the stop of the monitor, and changes;
* **`replay_sources`** — what the list of the app is at the end of a run.

A stop throws the media list away without an event, so a list that the app keeps over a stop has
the sources of the earlier media lists behind those of the current one.

* `primaryMonitorIndex` — `GetPrimaryMonitorIndex`, which is -1 but on Windows;
* `pngEncode` — `gfx::PNGCodec::EncodeBGRASkBitmap`.
-/

namespace NodeWebkit.Screen

open Lts ListEdits

variable {Image : Type}

/-! ## The media list -/

/-- `content::DesktopMediaID::Type` -/
inductive SourceType where
  | none | screen | window | other
  deriving DecidableEq

/-- `content::DesktopMediaID`, with the text that `ToString` makes of it. -/
structure DesktopMediaID where
  type : SourceType
  text : String
  deriving DecidableEq

/-- `DesktopMediaList::Source`; there is no thumbnail before the first one is captured. -/
structure Source (Image : Type) where
  id : DesktopMediaID
  name : String
  thumbnail : Option Image := Option.none

/-- `NativeDesktopMediaList`, with the kinds of sources it has a capturer for. -/
structure DesktopMediaList (Image : Type) where
  screens : Bool
  windows : Bool
  sources : List (Source Image) := []

/-- What happens to a list before its observer is called. -/
inductive Change (Image : Type) where
  | add (index : Nat) (id : DesktopMediaID) (name : String)
  | remove (index : Nat)
  | move (old new : Nat)
  | rename (index : Nat) (name : String)
  | thumbnail (index : Nat) (image : Image)

def Change.apply (sources : List (Source Image)) : Change Image → List (Source Image)
  | add index id name => (Edit.insert index { id := id, name := name }).apply sources
  | remove index => (Edit.remove index).apply sources
  | move old new => (Edit.move old new).apply sources
  | rename index name => sources.modify index fun source => { source with name := name }
  | thumbnail index image => sources.modify index fun source => { source with thumbnail := image }

/-- The positions are those of the list, and no two sources of a list have the same id. -/
def Change.Fits (sources : List (Source Image)) : Change Image → Prop
  | add index id _ => index ≤ sources.length ∧ id.text ∉ sources.map (·.id.text)
  | remove index | rename index _ | thumbnail index _ => index < sources.length
  | move old new => old < sources.length ∧ new < sources.length

instance (sources : List (Source Image)) : DecidablePred (Change.Fits sources)
  | .add index id _ =>
    inferInstanceAs (Decidable (index ≤ sources.length ∧ id.text ∉ sources.map (·.id.text)))
  | .remove index | .rename index _ | .thumbnail index _ =>
    inferInstanceAs (Decidable (index < sources.length))
  | .move old new => inferInstanceAs (Decidable (old < sources.length ∧ new < sources.length))

/-! ## `NwDesktopCaptureMonitor` -/

/-- An event of `Screen.DesktopCaptureMonitor`. -/
inductive Event where
  | added (id name : String) (order : Nat) (type : String) (primary : Bool)
  | removed (order : Nat)
  | orderchanged (id : String) (newOrder oldOrder : Nat)
  | namechanged (id name : String)
  | thumbnailchanged (id thumbnail : String)
  deriving DecidableEq

def SourceType.toText : SourceType → String
  | window => "window"
  | screen => "screen"
  | none => "none"
  | other => "unknown"

/-- The Base64 text of an image, empty where it cannot be encoded. -/
def base64 (pngEncode : Image → Option (List UInt8)) (image : Image) : String :=
  (pngEncode image).elim "" fun data => String.ofList (Base64.encode data)

section Monitor

variable (primaryMonitorIndex : Int) (pngEncode : Image → Option (List UInt8))

def onSourceAdded (src : Source Image) (index : Nat) : Event :=
  .added src.id.text src.name index src.id.type.toText
    (src.id.type = .screen ∧ primaryMonitorIndex = index)

def onSourceThumbnailChanged (src : Source Image) : Event :=
  .thumbnailchanged src.id.text ((src.thumbnail.map (base64 pngEncode)).getD "")

/-- The event of a change, with the source that the changed list has at its position. -/
def onChange (sources : List (Source Image)) : Change Image → Option Event
  | .add index _ _ =>
    sources[index]?.map fun src => onSourceAdded primaryMonitorIndex src index
  | .remove index => some (.removed index)
  | .move old new => sources[new]?.map fun src => .orderchanged src.id.text new old
  | .rename index _ => sources[index]?.map fun src => .namechanged src.id.text src.name
  | .thumbnail index _ => sources[index]?.map (onSourceThumbnailChanged pngEncode)

end Monitor

structure Monitor (Image : Type) where
  started : Bool := false
  mediaList : Option (DesktopMediaList Image) := none

namespace Monitor

def start (self : Monitor Image) (screens windows : Bool) : Monitor Image :=
  if self.started then self
  else { started := true, mediaList := some { screens := screens, windows := windows } }

def stop (_ : Monitor Image) : Monitor Image :=
  { started := false, mediaList := none }

def sources (self : Monitor Image) : List (Source Image) :=
  (self.mediaList.map (·.sources)).getD []

end Monitor

/-! ## Pages -/

/-- The script context of a page. -/
structure Page where
  inited : Bool := false
  /-- The listeners that emit the native events again. -/
  listeners : Nat := 0
  /-- What was emitted. -/
  heard : List Event := []

/-- `Screen.Init` -/
def Page.init (self : Page) : Page :=
  if self.inited then self else { self with inited := true, listeners := self.listeners + 1 }

/-- `BroadcastEventToRenderers` -/
def Page.dispatchEvent (event : Event) (self : Page) : Page :=
  { self with heard := self.heard ++ List.replicate self.listeners event }

structure System (Image : Type) where
  monitor : Monitor Image := {}
  pages : Nat → Page := fun _ => {}
  /-- The ids of the sources that were in a media list when it was stopped, the latest list first;
  the code has no such field. -/
  left : List String := []

inductive Op (Image : Type) where
  | init (page : Nat)
  | start (screens windows : Bool)
  | stop
  | change (change : Change Image)

def Op.isChange : Op Image → Bool
  | change _ => true
  | _ => false

def Op.isStop : Op Image → Bool
  | stop => true
  | _ => false

namespace System

variable (primaryMonitorIndex : Int) (pngEncode : Image → Option (List UInt8))

/-- A change of the media list, which is there while the monitor is started. -/
def change (s : System Image) (c : Change Image) : Option (System Image) :=
  s.monitor.mediaList.bind fun list =>
    if c.Fits list.sources then
      (onChange primaryMonitorIndex pngEncode (c.apply list.sources) c).map fun event =>
        { s with
          monitor.mediaList := some { list with sources := c.apply list.sources }
          pages := fun page => (s.pages page).dispatchEvent event }
    else none

def step (s : System Image) : Op Image → Option (System Image)
  | .init page => some { s with pages := Function.update s.pages page (s.pages page).init }
  | .start screens windows => some { s with monitor := s.monitor.start screens windows }
  | .stop => some { s with
      monitor := s.monitor.stop
      left := s.monitor.sources.map (·.id.text) ++ s.left }
  | .change c => s.change primaryMonitorIndex pngEncode c

end System

/-! ## An app's own list -/

/-- What an app shows of a source. -/
structure Shown where
  id : String
  name : String
  thumbnail : Option String := none
  deriving DecidableEq

def shown (pngEncode : Image → Option (List UInt8)) (src : Source Image) : Shown :=
  ⟨src.id.text, src.name, src.thumbnail.map (base64 pngEncode)⟩

/-- An app that keeps a list of the sources does with it what an event says. -/
def hear (list : List Shown) : Event → List Shown
  | .added id name order _ _ => (Edit.insert order { id := id, name := name }).apply list
  | .removed order => (Edit.remove order).apply list
  | .orderchanged _ newOrder oldOrder => (Edit.move oldOrder newOrder).apply list
  | .namechanged id name => list.map fun x => if x.id = id then { x with name := name } else x
  | .thumbnailchanged id thumbnail =>
    list.map fun x => if x.id = id then { x with thumbnail := some thumbnail } else x

/-- The list after some events, from the empty list. -/
def replay (events : List Event) : List Shown := events.foldl hear []

/-! ## One change -/

section Changes

variable {primaryMonitorIndex : Int} {pngEncode : Image → Option (List UInt8)}

theorem map_shown_id (pngEncode : Image → Option (List UInt8)) (sources : List (Source Image)) :
    (sources.map (shown pngEncode)).map (·.id) = sources.map (·.id.text) :=
  List.map_map

/-- An update by the id of a source is the update of the source; what stands behind the sources
keeps its ids. -/
theorem update_shown {sources : List (Source Image)}
    (hnodup : (sources.map (·.id.text)).Nodup) {f : Shown → Shown}
    {g : Source Image → Source Image} (hid : ∀ x, (f x).id = x.id)
    (hfg : ∀ src, shown pngEncode (g src) = f (shown pngEncode src)) {index : Nat}
    {src : Source Image} (hsrc : sources[index]? = some src) (rest : List Shown) :
    ∃ rest', ((sources.map (shown pngEncode) ++ rest).map fun x =>
        if x.id = src.id.text then f x else x) =
          (sources.modify index g).map (shown pngEncode) ++ rest' ∧
      rest'.map (·.id) = rest.map (·.id) := by
  refine ⟨_, List.map_append.trans (congrArg (· ++ _) ?_), ?_⟩
  · have hshown : (sources.map (shown pngEncode))[index]? = some (shown pngEncode src) := by
      rw [List.getElem?_map, hsrc, Option.map_some]
    rw [← map_shown_id pngEncode] at hnodup
    exact (map_eq_modify f hnodup hshown).trans (modify_map hfg sources index)
  · rw [List.map_map]
    apply List.map_congr_left
    intro x _
    show (if x.id = src.id.text then f x else x).id = x.id
    split
    · exact hid x
    · rfl

/-- **One change.** An app that hears the event of a change makes the change to the first part of
its list, and what stands behind keeps its ids. -/
theorem hear_onChange {sources : List (Source Image)} {c : Change Image} {event : Event}
    (hfits : c.Fits sources) (hnodup : (sources.map (·.id.text)).Nodup)
    (hevent : onChange primaryMonitorIndex pngEncode (c.apply sources) c = some event)
    (rest : List Shown) :
    ∃ rest', hear (sources.map (shown pngEncode) ++ rest) event =
        (c.apply sources).map (shown pngEncode) ++ rest' ∧
      rest'.map (·.id) = rest.map (·.id) := by
  cases c with
  | add index id name =>
    have hsrc : (Change.apply sources (.add index id name))[index]? =
        some { id := id, name := name } := by
      show (sources.insertIdx index _)[index]? = _
      rw [List.getElem?_insertIdx_self, if_pos hfits.1]
    simp only [onChange, hsrc, Option.map_some, Option.some.injEq] at hevent
    subst hevent
    exact ⟨rest, Edit.map_apply_append (shown pngEncode)
      (e := .insert index { id := id, name := name }) hfits.1 rest, rfl⟩
  | remove index =>
    cases hevent
    exact ⟨rest, Edit.map_apply_append (shown pngEncode) (e := .remove index) hfits rest, rfl⟩
  -- a move is a removal and an insertion, on both sides
  | move old new =>
    obtain ⟨src, -, rfl⟩ := Option.map_eq_some_iff.mp hevent
    exact ⟨rest, Edit.map_apply_append (shown pngEncode) (e := .move old new) hfits rest, rfl⟩
  | rename index name =>
    have hindex : index < sources.length := hfits
    have hsrc := List.getElem?_eq_getElem hindex
    have hnew : (Change.apply sources (.rename index name))[index]? =
        some { sources[index] with name := name } := by
      show (sources.modify index _)[index]? = _
      rw [List.getElem?_modify_eq, hsrc]
      rfl
    simp only [onChange, hnew, Option.map_some, Option.some.injEq] at hevent
    subst hevent
    exact update_shown hnodup (f := fun x => { x with name := name }) (fun _ => rfl)
      (fun _ => rfl) hsrc rest
  | thumbnail index image =>
    have hindex : index < sources.length := hfits
    have hsrc := List.getElem?_eq_getElem hindex
    have hnew : (Change.apply sources (.thumbnail index image))[index]? =
        some { sources[index] with thumbnail := some image } := by
      show (sources.modify index _)[index]? = _
      rw [List.getElem?_modify_eq, hsrc]
      rfl
    simp only [onChange, hnew, Option.map_some, Option.some.injEq] at hevent
    subst hevent
    exact update_shown hnodup (f := fun x => { x with thumbnail := some (base64 pngEncode image) })
      (fun _ => rfl) (fun _ => rfl) hsrc rest

/-- A change keeps the ids apart, since a source that is added has a new one. -/
theorem nodup_change {sources : List (Source Image)} {c : Change Image} (hfits : c.Fits sources)
    (hnodup : (sources.map (·.id.text)).Nodup) : ((c.apply sources).map (·.id.text)).Nodup := by
  cases c with
  | add index id name =>
    let e : Edit (Source Image) := .insert index { id := id, name := name }
    have hfresh : e.Fresh (·.id.text) sources := hfits.2
    exact Edit.nodup_map_apply (·.id.text) (e := e) hfits.1 hfresh hnodup
  | remove index => exact Edit.nodup_map_apply (·.id.text) (e := .remove index) hfits trivial hnodup
  | move old new => exact Edit.nodup_map_apply (·.id.text) (e := .move old new) hfits trivial hnodup
  | rename index name =>
    have hkeys := map_modify_key (·.id.text) (fun src : Source Image => { src with name := name })
      (fun _ => rfl) sources index
    exact hkeys ▸ hnodup
  | thumbnail index image =>
    have hkeys := map_modify_key (·.id.text)
      (fun src : Source Image => { src with thumbnail := some image }) (fun _ => rfl) sources index
    exact hkeys ▸ hnodup

end Changes

/-! ## Runs -/

/-- There is a media list while the monitor is started, its sources have different ids, and a page
that has initialized has one listener. -/
structure Ok (s : System Image) : Prop where
  started : s.monitor.mediaList.isSome = s.monitor.started
  nodup : (s.monitor.sources.map (·.id.text)).Nodup
  listeners : ∀ page, (s.pages page).listeners = if (s.pages page).inited then 1 else 0

/-- From one state to another a page hears one event for every change, and an app that had the
sources first in its list has them so again; behind them stand those that were left by a stop, and
what stood there before. -/
def Follows (pngEncode : Image → Option (List UInt8)) (page : Nat) (s t : System Image)
    (changes stops : Nat) : Prop :=
  ∀ rest, ∃ heard rest' left,
    (t.pages page).heard = (s.pages page).heard ++ heard ∧ heard.length = changes ∧
    heard.foldl hear (s.monitor.sources.map (shown pngEncode) ++ rest) =
      t.monitor.sources.map (shown pngEncode) ++ rest' ∧
    t.left = left ++ s.left ∧ rest'.map (·.id) = left ++ rest.map (·.id) ∧ (stops = 0 → left = [])

section Runs

variable {primaryMonitorIndex : Int} {pngEncode : Image → Option (List UInt8)} {page : Nat}
  {s t u : System Image}

/-- **Two stretches of a run, one after the other.** What is left over behind the list by the first
one is what the second one begins with. -/
theorem Follows.trans {changes stops changes' stops' : Nat}
    (h : Follows pngEncode page s t changes stops)
    (h' : Follows pngEncode page t u changes' stops') :
    Follows pngEncode page s u (changes + changes') (stops + stops') := by
  intro rest
  obtain ⟨heard, rest₁, left, hheard, hlength, hlist, hleft, hrest, hstops⟩ := h rest
  obtain ⟨heard', rest₂, left', hheard', hlength', hlist', hleft', hrest', hstops'⟩ := h' rest₁
  refine ⟨heard ++ heard', rest₂, left' ++ left, ?_, ?_, ?_, ?_, ?_, fun hnone => ?_⟩
  · rw [hheard', hheard, List.append_assoc]
  · rw [List.length_append, hlength, hlength']
  · rw [List.foldl_append, hlist, hlist']
  · rw [hleft', hleft, List.append_assoc]
  · rw [hrest', hrest, List.append_assoc]
  · rw [hstops (by omega), hstops' (by omega), List.append_nil]

/-- Where the sources and what the page has heard are as before there is nothing to follow. -/
theorem Follows.of_eq (hheard : (t.pages page).heard = (s.pages page).heard)
    (hsources : t.monitor.sources = s.monitor.sources) (hleft : t.left = s.left) :
    Follows pngEncode page s t 0 0 := by
  intro rest
  refine ⟨[], rest, [], ?_, rfl, ?_, hleft, rfl, fun _ => rfl⟩
  · rw [hheard, List.append_nil]
  · rw [List.foldl_nil, hsources]

/-! ### One operation -/

/-- Starting the monitor shows no sources: it has a new media list, or it was started already. -/
theorem sources_start (monitor : Monitor Image)
    (hstarted : monitor.mediaList.isSome = monitor.started) (screens windows : Bool) :
    (monitor.start screens windows).sources = monitor.sources := by
  unfold Monitor.start
  cases hmonitor : monitor.started with
  | true => rw [if_pos rfl]
  | false =>
    rw [hmonitor, Option.isSome_eq_false_iff, Option.isNone_iff_eq_none] at hstarted
    rw [if_neg (by decide)]
    show [] = _
    rw [Monitor.sources, hstarted]
    rfl

/-- A change of the media list that fits is told to every page by one event. -/
theorem change_spec {c : Change Image} (h : s.change primaryMonitorIndex pngEncode c = some t) :
    ∃ list event, s.monitor.mediaList = some list ∧ c.Fits list.sources ∧
      onChange primaryMonitorIndex pngEncode (c.apply list.sources) c = some event ∧
      t = { s with
        monitor.mediaList := some { list with sources := c.apply list.sources }
        pages := fun page => (s.pages page).dispatchEvent event } := by
  obtain ⟨list, hlist, h⟩ := Option.bind_eq_some_iff.mp h
  split at h
  · obtain ⟨event, hevent, rfl⟩ := Option.map_eq_some_iff.mp h
    exact ⟨list, event, hlist, ‹_›, hevent, rfl⟩
  · cases h

theorem Page.init_heard (self : Page) : self.init.heard = self.heard := by
  unfold Page.init
  split <;> rfl

/-- A page has one listener for the events once it has called `Screen.Init`, however often it calls
it. -/
theorem Page.init_listeners (self : Page)
    (h : self.listeners = if self.inited then 1 else 0) :
    self.init.listeners = if self.init.inited then 1 else 0 := by
  unfold Page.init
  cases hinited : self.inited with
  | true =>
    rw [if_pos rfl, h]
  | false =>
    rw [hinited, if_neg (by decide)] at h
    show self.listeners + 1 = 1
    omega

/-- **Every operation keeps `Ok`**: the monitor has a media list exactly while it is started, the
ids of the sources are different, and each page has the listeners that it should. -/
theorem step_ok (hs : Ok s) {op : Op Image}
    (hstep : s.step primaryMonitorIndex pngEncode op = some t) : Ok t := by
  cases op with
  | init page' =>
    cases hstep
    refine ⟨hs.started, hs.nodup, fun page => ?_⟩
    show (Function.update s.pages page' _ page).listeners =
      if (Function.update s.pages page' _ page).inited then 1 else 0
    by_cases hpage : page = page'
    · rw [hpage, Function.update_self]
      exact (s.pages page').init_listeners (hs.listeners page')
    · rw [Function.update_of_ne hpage]
      exact hs.listeners page
  | start screens windows =>
    cases hstep
    refine ⟨?_, ?_, hs.listeners⟩
    · -- a second start changes nothing
      show (s.monitor.start screens windows).mediaList.isSome =
        (s.monitor.start screens windows).started
      unfold Monitor.start
      split
      · exact hs.started
      · rfl
    · show ((s.monitor.start screens windows).sources.map _).Nodup
      rw [sources_start _ hs.started]
      exact hs.nodup
  | stop =>
    cases hstep
    exact ⟨rfl, List.nodup_nil, hs.listeners⟩
  | change c =>
    obtain ⟨list, event, hlist, hfits, -, rfl⟩ := change_spec hstep
    have hsources : s.monitor.sources = list.sources := by
      rw [Monitor.sources, hlist]
      rfl
    refine ⟨?_, ?_, hs.listeners⟩
    · show true = s.monitor.started
      rw [← hs.started, hlist]
      rfl
    · exact nodup_change hfits (hsources ▸ hs.nodup)

/-- A page that has called `Screen.Init` stays initialized. -/
theorem step_inited (hinited : (s.pages page).inited = true) {op : Op Image}
    (hstep : s.step primaryMonitorIndex pngEncode op = some t) :
    (t.pages page).inited = true := by
  cases op with
  | init page' =>
    cases hstep
    show (Function.update s.pages page' _ page).inited = true
    by_cases hpage : page = page'
    · rw [hpage, Function.update_self]
      -- `Screen.Init` is done once
      unfold Page.init
      split
      · assumption
      · rfl
    · rw [Function.update_of_ne hpage]
      exact hinited
  | start screens windows =>
    cases hstep
    exact hinited
  | stop =>
    cases hstep
    exact hinited
  | change c =>
    obtain ⟨list, event, -, -, -, rfl⟩ := change_spec hstep
    exact hinited

/-- **One operation.** Only a change is heard, once, and the app's list follows it. A stop is not
heard: the sources of the media list that is thrown away are left over in the app's list. -/
theorem step_follows (hs : Ok s) (hinited : (s.pages page).inited = true) {op : Op Image}
    (hstep : s.step primaryMonitorIndex pngEncode op = some t) :
    Follows pngEncode page s t (if op.isChange then 1 else 0) (if op.isStop then 1 else 0) := by
  cases op with
  | init page' =>
    cases hstep
    refine Follows.of_eq ?_ rfl rfl
    show (Function.update s.pages page' _ page).heard = _
    by_cases hpage : page = page'
    · rw [hpage, Function.update_self, Page.init_heard]
    · rw [Function.update_of_ne hpage]
  | start screens windows =>
    cases hstep
    exact Follows.of_eq rfl (sources_start _ hs.started screens windows) rfl
  | stop =>
    cases hstep
    -- the sources are no longer told of, and the app still shows them
    intro rest
    refine ⟨[], s.monitor.sources.map (shown pngEncode) ++ rest, s.monitor.sources.map (·.id.text),
      (List.append_nil _).symm, rfl, rfl, rfl, ?_, fun hnone => absurd hnone Nat.one_ne_zero⟩
    rw [List.map_append, map_shown_id]
  | change c =>
    obtain ⟨list, event, hlist, hfits, hevent, rfl⟩ := change_spec hstep
    have hsources : s.monitor.sources = list.sources := by
      rw [Monitor.sources, hlist]
      rfl
    intro rest
    -- the app makes the same change to its own list
    obtain ⟨rest', hhear, hrest⟩ := hear_onChange hfits (hsources ▸ hs.nodup) hevent rest
    refine ⟨[event], rest', [], ?_, rfl, ?_, rfl, hrest, fun _ => rfl⟩
    · show (s.pages page).heard ++ List.replicate (s.pages page).listeners event = _
      rw [hs.listeners page, if_pos hinited]
      rfl
    · rw [hsources]
      exact hhear

theorem run_follows (hs : Ok s) (hinited : (s.pages page).inited = true) {ops : List (Op Image)}
    (hrun : Run (ofPartial (System.step primaryMonitorIndex pngEncode)) s ops t) :
    Follows pngEncode page s t (ops.countP Op.isChange) (ops.countP Op.isStop) := by
  induction hrun with
  | nil s => exact Follows.of_eq rfl rfl rfl
  | cons head _ ih =>
    rw [List.countP_cons, List.countP_cons, Nat.add_comm, Nat.add_comm (List.countP Op.isStop _)]
    exact (step_follows hs hinited head).trans (ih (step_ok hs head) (step_inited hinited head))

end Runs

/-- **Sources.** In every run from a state where a page has initialized and the monitor is not
started, the page hears one event for every change of a media list. An app that replays them has the
sources of the current media list first, in their order, with their names and thumbnails; behind
them it has what was left by the stops of the run, the latest media list first. So it has the
sources and nothing else where the run has no stop. -/
theorem replay_sources (primaryMonitorIndex : Int) (pngEncode : Image → Option (List UInt8))
    {s t : System Image} {before ops : List (Op Image)} {page : Nat}
    (hreach : Run (ofPartial (System.step primaryMonitorIndex pngEncode)) {} before s)
    (hstopped : s.monitor.started = false) (hinited : (s.pages page).inited = true)
    (hrun : Run (ofPartial (System.step primaryMonitorIndex pngEncode)) s ops t) :
    ∃ heard rest left, (t.pages page).heard = (s.pages page).heard ++ heard ∧
      heard.length = ops.countP Op.isChange ∧
      replay heard = t.monitor.sources.map (shown pngEncode) ++ rest ∧
      t.left = left ++ s.left ∧ rest.map (·.id) = left ∧
      (ops.countP Op.isStop = 0 → rest = []) := by
  have hs : Ok s := hreach.invariant (fun _ _ _ h hstep => step_ok h hstep)
    ⟨rfl, List.nodup_nil, fun _ => rfl⟩
  obtain ⟨heard, rest, left, hheard, hlength, hlist, hleft, hrest, hstops⟩ :=
    run_follows hs hinited hrun []
  -- a stopped monitor has no sources, so the app begins with the empty list
  have hnone : s.monitor.mediaList = none := by
    rw [← Option.isNone_iff_eq_none, ← Option.isSome_eq_false_iff, hs.started]
    exact hstopped
  rw [List.map_nil, List.append_nil] at hrest
  refine ⟨heard, rest, left, hheard, hlength, ?_, hleft, hrest, fun hno => ?_⟩
  · rw [← hlist, Monitor.sources, hnone]
    rfl
  · rw [hstops hno] at hrest
    exact List.map_eq_nil_iff.mp hrest

/-- A screen and a window are added, the screen gets another name and moves behind the window. Then
the monitor is stopped and started again, and finds one screen. -/
def screenAndWindow : List (Op Unit) :=
  [.start true true, .change (.add 0 ⟨.screen, "screen:0"⟩ "Screen 1"),
    .change (.add 1 ⟨.window, "window:7"⟩ "Editor"), .change (.rename 0 "Main screen"),
    .change (.move 0 1), .stop, .start true false,
    .change (.add 0 ⟨.screen, "screen:0"⟩ "Screen 1")]

/-- The list of the app has the screen of the second start, and behind it what the stop left: the
window and the screen, in the order after the move. -/
theorem replay_sources_rename :
    ∃ (t : System Unit) (heard : List Event) (rest : List Shown), (t.pages 0).heard = heard ∧
      heard.length = 5 ∧ t.monitor.sources.map (·.name) = ["Screen 1"] ∧
      replay heard = { id := "screen:0", name := "Screen 1" } :: rest ∧
      rest.map (·.id) = ["window:7", "screen:0"] := by
  obtain ⟨s, t, hs, ht, hstopped, hinited, hheard, hleft, hsources, hleft'⟩ :
      ∃ s t : System Unit,
        exec (fun _ _ => True) (System.step (-1) fun _ => none) [.init 0] {} = some s ∧
        exec (fun _ _ => True) (System.step (-1) fun _ => none) screenAndWindow s = some t ∧
        s.monitor.started = false ∧ (s.pages 0).inited = true ∧ (s.pages 0).heard = [] ∧
        s.left = [] ∧ t.monitor.sources = [⟨⟨.screen, "screen:0"⟩, "Screen 1", none⟩] ∧
        t.left = ["window:7", "screen:0"] :=
    ⟨_, _, rfl, rfl, rfl, rfl, rfl, rfl, rfl, rfl⟩
  obtain ⟨heard, rest, left, hpage, hlength, hreplay, hstops, hrest, -⟩ :=
    replay_sources (-1) (fun _ => none) (Run.of_exec hs).unguard hstopped hinited
      (Run.of_exec ht).unguard
  rw [hsources] at hreplay
  rw [hheard, List.nil_append] at hpage
  rw [hleft', hleft, List.append_nil] at hstops
  exact ⟨t, heard, rest, hpage, hlength, by rw [hsources]; rfl, hreplay, hrest.trans hstops.symm⟩

end NodeWebkit.Screen
