import NodeWebkit.Lib.Run
import Mathlib.Logic.Function.Basic

/-!
# nw.Shortcut — global hot keys

A hot key is named twice. The JavaScript side (`api_nw_shortcut.js`) keeps a table `handlers` in
each context, whose keys are made of the modifiers and the code string of the key. The native side
(`nw_shortcut_api.cc`) registers a key code and modifiers with the one `GlobalShortcutListener` of
the process; a press comes back as a key code, is turned into a code string again, and is broadcast
to every context.

The conversion tables between code strings, `DomCode`s and key codes belong to Chromium and are
parameters. The listener is modelled by the table of what it has accepted: an accelerator is
accepted at most once, and a free one only where the platform lets it through.
-/

namespace NodeWebkit.Shortcuts

open Lts

/-! ## Accelerators -/

structure Modifiers where
  alt : Bool := false
  command : Bool := false
  ctrl : Bool := false
  shift : Bool := false
  deriving DecidableEq

structure Accelerator where
  key : String
  modifiers : Modifiers
  deriving DecidableEq

/-- `[alt, command, ctrl, shift, key].join('-')`. -/
def normalizeLocal (accelerator : Accelerator) : String :=
  let modifiers := accelerator.modifiers
  toString modifiers.alt ++ "-" ++ (toString modifiers.command ++ "-" ++
    (toString modifiers.ctrl ++ "-" ++ (toString modifiers.shift ++ "-" ++ accelerator.key)))

/-- The codes that `ALIAS_MAP` maps to. -/
def aliasCodes : List String :=
  ((List.range 26).map fun i => "Key" ++ String.singleton (Char.ofNat ('A'.toNat + i))) ++
  ((List.range 10).map fun i => "Digit" ++ toString i) ++
  ((List.range 10).map fun i => "Numpad" ++ toString i) ++
  ((List.range 24).map fun i => "F" ++ toString (i + 1)) ++
  ["ArrowDown", "ArrowLeft", "ArrowRight", "ArrowUp"] ++
  ["Backquote", "Backslash", "Backspace", "BracketLeft", "BracketRight", "Comma", "Equal",
    "IntlBackslash", "IntlHash", "IntlRo", "IntlYen", "Minus", "Period", "Quote", "Semicolon",
    "Slash"] ++
  ["Enter", "Space", "Tab"] ++
  ["Delete", "End", "Help", "Home", "Insert", "PageDown", "PageUp"] ++
  ["NumLock", "NumpadAdd", "NumpadBackspace", "NumpadClear", "NumpadClearEntry", "NumpadComma",
    "NumpadDecimal", "NumpadDivide", "NumpadEnter", "NumpadEqual", "NumpadHash",
    "NumpadMemoryAdd", "NumpadMemoryClear", "NumpadMemoryRecall", "NumpadMemoryStore",
    "NumpadMemorySubtract", "NumpadMultiply", "NumpadParenLeft", "NumpadParenRight", "NumpadStar",
    "NumpadSubtract"] ++
  ["Escape", "PrintScreen", "Pause", "ScrollLock"] ++
  ["BrowserBack", "BrowserFavorites", "BrowserForward", "BrowserHome", "BrowserRefresh",
    "BrowserSearch", "BrowserStop", "LaunchApp2", "LaunchMail", "MediaPlayPause", "MediaSelect",
    "MediaStop", "MediaTrackNext", "MediaTrackPrevious", "Power", "Sleep", "VolumeDown",
    "VolumeMute", "VolumeUp", "WakeUp"]

/-- A `Shortcut` object: which one it is, and the accelerator its constructor found. -/
structure Shortcut where
  object : Nat
  accelerator : Accelerator
  listed : accelerator.key ∈ aliasCodes

/-- The conversion tables of `ui/events/keycodes`. -/
structure Keycodes (DomCode KeyboardCode : Type) where
  codeStringToDomCode : String → DomCode
  domCodeToUsLayoutKeyboardCode : DomCode → KeyboardCode
  usLayoutKeyboardCodeToDomCode : KeyboardCode → DomCode
  domCodeToCodeString : DomCode → String

/-- A `ui::Accelerator`. Its modifiers are flags of different bits, one for each truth value. -/
structure UIAccelerator (KeyboardCode : Type) where
  keyCode : KeyboardCode
  modifiers : Modifiers
  deriving DecidableEq

variable {DomCode KeyboardCode : Type} [DecidableEq KeyboardCode]

def Keycodes.dictionaryToUIAccelerator (codes : Keycodes DomCode KeyboardCode)
    (accelerator : Accelerator) : UIAccelerator KeyboardCode where
  keyCode := codes.domCodeToUsLayoutKeyboardCode (codes.codeStringToDomCode accelerator.key)
  modifiers := accelerator.modifiers

def Keycodes.uiAcceleratorToAccelerator (codes : Keycodes DomCode KeyboardCode)
    (accelerator : UIAccelerator KeyboardCode) : Accelerator where
  key := codes.domCodeToCodeString (codes.usLayoutKeyboardCodeToDomCode accelerator.keyCode)
  modifiers := accelerator.modifiers

/-! ## The process -/

inductive Event where
  | active
  | failed
  deriving DecidableEq

/-- Who registered an accelerator with the `GlobalShortcutListener`: a call of
`registerGlobalHotKey`, or another user of the listener. The listener itself knows the observer
only, and all contexts share one. -/
inductive Holder where
  | nw (context : Nat) (shortcut : Shortcut)
  | other

structure Process (KeyboardCode : Type) where
  /-- Contexts are numbered in the order they were created in. -/
  contexts : Nat := 0
  handlers : Nat → String → Option Shortcut := fun _ _ => none
  acceleratorMap : UIAccelerator KeyboardCode → Option Holder := fun _ => none
  /-- The events emitted on `Shortcut` objects, the last one at the end. -/
  emitted : List (Nat × Shortcut × Event) := []

namespace Process

/-- `GlobalShortcutListener::RegisterAccelerator`; the last argument is the answer of the
platform. -/
def registerAccelerator (s : Process KeyboardCode) (accelerator : UIAccelerator KeyboardCode)
    (holder : Holder) (accepted : Bool) : Option (Process KeyboardCode) :=
  match s.acceleratorMap accelerator with
  | some _ => none
  | none =>
    if accepted then
      some { s with
        acceleratorMap := Function.update s.acceleratorMap accelerator (some holder) }
    else none

theorem registerAccelerator_held {s : Process KeyboardCode}
    {accelerator : UIAccelerator KeyboardCode} {old : Holder}
    (h : s.acceleratorMap accelerator = some old) (holder : Holder) (accepted : Bool) :
    s.registerAccelerator accelerator holder accepted = none := by
  rw [registerAccelerator, h]

theorem registerAccelerator_free {s : Process KeyboardCode}
    {accelerator : UIAccelerator KeyboardCode} (h : s.acceleratorMap accelerator = none)
    (holder : Holder) (accepted : Bool) :
    s.registerAccelerator accelerator holder accepted =
      if accepted then
        some { s with
          acceleratorMap := Function.update s.acceleratorMap accelerator (some holder) }
      else none := by
  rw [registerAccelerator, h]

def unregisterAccelerator (s : Process KeyboardCode) (accelerator : UIAccelerator KeyboardCode) :
    Process KeyboardCode :=
  { s with acceleratorMap := Function.update s.acceleratorMap accelerator none }

def setHandler (s : Process KeyboardCode) (context : Nat) (localKey : String)
    (handler : Option Shortcut) : Process KeyboardCode :=
  { s with handlers :=
      Function.update s.handlers context (Function.update (s.handlers context) localKey handler) }

def emit (s : Process KeyboardCode) (context : Nat) (shortcut : Shortcut) (event : Event) :
    Process KeyboardCode :=
  { s with emitted := s.emitted ++ [(context, shortcut, event)] }

variable (codes : Keycodes DomCode KeyboardCode)

/-- `Shortcut.registerGlobalHotKey`. -/
def registerGlobalHotKey (s : Process KeyboardCode) (context : Nat) (shortcut : Shortcut)
    (accepted : Bool) : Process KeyboardCode :=
  let accelerator := codes.dictionaryToUIAccelerator shortcut.accelerator
  match s.registerAccelerator accelerator (.nw context shortcut) accepted with
  | some s => s.setHandler context (normalizeLocal shortcut.accelerator) (some shortcut)
  | none => s.emit context shortcut .failed

/-- A registration goes through exactly when the accelerator is free and the platform accepts it. -/
theorem registerGlobalHotKey_cases (s : Process KeyboardCode) (context : Nat) (shortcut : Shortcut)
    (accepted : Bool) :
    (accepted = true ∧
      s.acceleratorMap (codes.dictionaryToUIAccelerator shortcut.accelerator) = none ∧
      s.registerGlobalHotKey codes context shortcut accepted =
        setHandler { s with
          acceleratorMap := Function.update s.acceleratorMap
            (codes.dictionaryToUIAccelerator shortcut.accelerator) (some (.nw context shortcut)) }
          context (normalizeLocal shortcut.accelerator) (some shortcut)) ∨
    ((accepted = true →
      s.acceleratorMap (codes.dictionaryToUIAccelerator shortcut.accelerator) ≠ none) ∧
      s.registerGlobalHotKey codes context shortcut accepted = s.emit context shortcut .failed) := by
  unfold registerGlobalHotKey
  cases h : s.acceleratorMap (codes.dictionaryToUIAccelerator shortcut.accelerator) with
  | some old =>
    refine Or.inr ⟨fun _ => Option.some_ne_none old, ?_⟩
    simp only [registerAccelerator_held h]
  | none =>
    simp only [registerAccelerator_free h]
    cases accepted with
    | true => exact Or.inl ⟨rfl, trivial, rfl⟩
    | false => exact Or.inr ⟨fun h => (nomatch h), rfl⟩

/-- `Shortcut.unregisterGlobalHotKey`. The native function answers true for any accelerator. -/
def unregisterGlobalHotKey (s : Process KeyboardCode) (context : Nat) (shortcut : Shortcut) :
    Process KeyboardCode :=
  match s.handlers context (normalizeLocal shortcut.accelerator) with
  | some _ =>
    (s.unregisterAccelerator (codes.dictionaryToUIAccelerator shortcut.accelerator)).setHandler
      context (normalizeLocal shortcut.accelerator) none
  | none => s.emit context shortcut .failed

/-- What the contexts do with a broadcast of `onKeyPressed`. -/
def onKeyPressed (s : Process KeyboardCode) (accelerator : UIAccelerator KeyboardCode) :
    List (Nat × Shortcut × Event) :=
  (List.range s.contexts).filterMap fun context =>
    (s.handlers context (normalizeLocal (codes.uiAcceleratorToAccelerator accelerator))).map
      fun handler => (context, handler, .active)

/-- One call of the API, one action of another user of the listener, or one press of an
accelerator the listener has accepted. -/
inductive Op (KeyboardCode : Type) where
  | createContext
  | registerGlobalHotKey (context : Nat) (shortcut : Shortcut) (accepted : Bool)
  | unregisterGlobalHotKey (context : Nat) (shortcut : Shortcut)
  | registerOther (accelerator : UIAccelerator KeyboardCode) (accepted : Bool)
  | unregisterOther (accelerator : UIAccelerator KeyboardCode)
  | press (accelerator : UIAccelerator KeyboardCode)

/-- Calls come from contexts that exist; another user unregisters only what it holds; only an
accepted accelerator can be pressed. -/
def step (s : Process KeyboardCode) : Op KeyboardCode → Option (Process KeyboardCode)
  | .createContext => some { s with contexts := s.contexts + 1 }
  | .registerGlobalHotKey context shortcut accepted =>
    if context < s.contexts then some (s.registerGlobalHotKey codes context shortcut accepted)
    else none
  | .unregisterGlobalHotKey context shortcut =>
    if context < s.contexts then some (s.unregisterGlobalHotKey codes context shortcut) else none
  | .registerOther accelerator accepted =>
    some ((s.registerAccelerator accelerator .other accepted).getD s)
  | .unregisterOther accelerator =>
    match s.acceleratorMap accelerator with
    | some .other => some (s.unregisterAccelerator accelerator)
    | _ => none
  | .press accelerator =>
    match s.acceleratorMap accelerator with
    | some (.nw _ _) => some { s with emitted := s.emitted ++ s.onKeyPressed codes accelerator }
    | some .other => some s
    | none => none

end Process

end NodeWebkit.Shortcuts
