import NodeWebkit.Lib.JsRegExp
import NodeWebkit.Shortcuts.Shortcut

/-!
# The key strings of a `Shortcut`

`keyToAccelerator` reads a string such as `Ctrl+Alt+A`: parts joined by `+`, the last one a key, the
others modifiers. A key is looked up in `ALIAS_MAP` under its lower case. A modifier is checked with
`/^ctrl|alt|shift|command$/i`, and its lower case becomes a property of the modifiers.

* **`WellFormed`** — the strings that the documentation describes: a key of the table behind the
  names of modifiers;
* **`Follows`** — the outcome that such a description asks for;
* **`Matched`** — what the expression finds: its anchors belong to `ctrl` and to `command`, each on
  one side only;
* **`keyToAccelerator_iff`** — the strings whose outcome is as described.

The table is an object, so a look-up also finds what it inherits. Only two inherited names are in
lower case.
-/

namespace NodeWebkit.Shortcuts

open JsString JsRegExp

/-! ## The table of keys -/

/-- The codes that stand for themselves. -/
def keys : List String :=
  ["Backquote", "Backslash", "Backspace", "BracketLeft", "BracketRight", "Comma", "Equal",
    "IntlBackslash", "IntlHash", "IntlRo", "IntlYen", "Minus", "Period", "Quote", "Semicolon",
    "Slash"] ++
  ["Enter", "Space", "Tab"] ++
  ["Delete", "End", "Help", "Home", "Insert", "PageDown", "PageUp"] ++
  ["NumLock", "NumpadAdd", "NumpadBackspace", "NumpadClear", "NumpadClearEntry", "NumpadComma",
    "NumpadDecimal", "NumpadDivide", "NumpadEnter", "NumpadEqual", "NumpadHash",
    "NumpadMemoryAdd", "NumpadMemoryClear", "NumpadMemoryRecall", "NumpadMemoryStore",
    "NumpadMemorySubtract", "NumpadMultiply", "NumpadParenLeft", "NumpadParenRight", "NumpadStar",
    "NumpadSubtract"] ++
  ["Escape", "PrintScreen", "Pause", "ScrollLock"] ++
  ["BrowserBack", "BrowserFavorites", "BrowserForward", "BrowserHome", "BrowserRefresh",
    "BrowserSearch", "BrowserStop", "BrowserStop", "BrowserStop", "LaunchApp2", "LaunchMail",
    "MediaPlayPause", "MediaSelect", "MediaStop", "MediaTrackNext", "MediaTrackPrevious", "Power",
    "Sleep", "VolumeDown", "VolumeMute", "VolumeUp", "WakeUp"]

/-- The lower case of an ASCII text. -/
def lower (name : String) : Text := (ascii name).map lowerUnit

/-- What `ALIAS_MAP` starts with. -/
def aliasLiteral : List (Text × String) :=
  [(ascii "`", "Backquote"), (ascii "\\", "Backslash"), (ascii "[", "BracketLeft"),
    (ascii "]", "BracketRight"), (ascii ",", "Comma"), (ascii "=", "Equal"), (ascii "-", "Minus"),
    (ascii ".", "Period"), (ascii "'", "Quote"), (ascii ";", "Semicolon"), (ascii "/", "Slash"),
    (ascii "\n", "Enter"), (ascii "\t", "Tab"),
    (ascii "medianexttrack", "MediaTrackNext"), (ascii "mediaprevtrack", "MediaTrackPrevious")]

/-- The assignments that build `ALIAS_MAP`, in their order. -/
def aliasEntries : List (Text × String) :=
  aliasLiteral ++
  ((List.range 26).flatMap fun i =>
    let alpha := "Key" ++ String.singleton (Char.ofNat ('A'.toNat + i))
    [(ascii (String.singleton (Char.ofNat ('a'.toNat + i))), alpha), (lower alpha, alpha)]) ++
  ((List.range 10).flatMap fun i =>
    let digit := "Digit" ++ toString i
    let numpad := "Numpad" ++ toString i
    [(ascii (toString i), digit), (lower digit, digit), (lower numpad, numpad)]) ++
  ((List.range 24).map fun i =>
    let func := "F" ++ toString (i + 1)
    (lower func, func)) ++
  (["Down", "Left", "Right", "Up"].flatMap fun a =>
    let arrow := "Arrow" ++ a
    [(lower a, arrow), (lower arrow, arrow)]) ++
  keys.map fun k => (lower k, k)

/-- An own property of `ALIAS_MAP`. -/
def aliasMap (name : Text) : Option String := aliasEntries.reverse.lookup name

/-- The properties of `Object.prototype`. -/
def objectPrototype : List Text :=
  ["constructor", "toString", "toLocaleString", "valueOf", "hasOwnProperty", "isPrototypeOf",
    "propertyIsEnumerable", "__defineGetter__", "__defineSetter__", "__lookupGetter__",
    "__lookupSetter__", "__proto__"].map ascii

/-- What a look-up in `ALIAS_MAP` can give: a code, or a function or an object that the table
inherits. -/
inductive KeyValue where
  | code (code : String)
  | inherited (name : Text)
  deriving DecidableEq

def KeyValue.truthy : KeyValue → Bool
  | .code value => value != ""
  | .inherited _ => true

/-- `ALIAS_MAP[name]` -/
def lookupAlias (name : Text) : Option KeyValue :=
  match aliasMap name with
  | some code => some (.code code)
  | none => if name ∈ objectPrototype then some (.inherited name) else none

theorem mem_aliasEntries {name : Text} {code : String} (h : aliasMap name = some code) :
    (name, code) ∈ aliasEntries := by
  obtain ⟨before, after, heq, -⟩ := List.lookup_eq_some_iff.mp h
  rw [← List.mem_reverse, heq]
  exact List.mem_append_right before List.mem_cons_self

theorem mem_aliasCodes_of_mem_keys {code : String} (h : code ∈ keys) : code ∈ aliasCodes := by
  simp only [keys, List.mem_append] at h
  simp only [aliasCodes, List.mem_append]
  rcases h with h | h
  · tauto
  · refine Or.inr ?_
    revert code
    decide +kernel

/-- Every alias stands for one of the codes that a `Shortcut` can carry. The table is made of a
literal and of five loops, and each of these has its own group of codes. -/
theorem aliasMap_mem_aliasCodes {name : Text} {code : String} (h : aliasMap name = some code) :
    code ∈ aliasCodes := by
  have hmem := mem_aliasEntries h
  rw [aliasEntries] at hmem
  simp only [List.mem_append] at hmem
  -- by the lines of the table: literals, letters, digits, function keys, arrows, the codes
  -- themselves
  rcases hmem with ((((hmem | hmem) | hmem) | hmem) | hmem) | hmem
  · refine mem_aliasCodes_of_mem_keys ?_
    have hall : ∀ e ∈ aliasLiteral, e.2 ∈ keys := by decide +kernel
    exact hall _ hmem
  · obtain ⟨i, hi, hmem⟩ := List.mem_flatMap.mp hmem
    have hletter : ∃ a ∈ List.range 26,
        "Key" ++ String.singleton (Char.ofNat ('A'.toNat + a)) = code := by
      simp only [List.mem_cons, List.not_mem_nil, or_false, Prod.mk.injEq] at hmem
      rcases hmem with hmem | hmem
      · exact ⟨i, hi, hmem.2.symm⟩
      · exact ⟨i, hi, hmem.2.symm⟩
    simp only [aliasCodes, List.mem_append, List.mem_map, hletter, true_or]
  · obtain ⟨i, hi, hmem⟩ := List.mem_flatMap.mp hmem
    have hdigit : (∃ a ∈ List.range 10, "Digit" ++ toString a = code) ∨
        ∃ a ∈ List.range 10, "Numpad" ++ toString a = code := by
      simp only [List.mem_cons, List.not_mem_nil, or_false, Prod.mk.injEq] at hmem
      rcases hmem with hmem | hmem | hmem
      · exact Or.inl ⟨i, hi, hmem.2.symm⟩
      · exact Or.inl ⟨i, hi, hmem.2.symm⟩
      · exact Or.inr ⟨i, hi, hmem.2.symm⟩
    rcases hdigit with hdigit | hdigit
    · simp only [aliasCodes, List.mem_append, List.mem_map, hdigit, true_or, or_true]
    · simp only [aliasCodes, List.mem_append, List.mem_map, hdigit, true_or, or_true]
  · obtain ⟨i, hi, heq⟩ := List.mem_map.mp hmem
    have hfunc : ∃ a ∈ List.range 24, "F" ++ toString (a + 1) = code :=
      ⟨i, hi, congrArg Prod.snd heq⟩
    simp only [aliasCodes, List.mem_append, List.mem_map, hfunc, true_or, or_true]
  · have hall : ∀ e ∈ ["Down", "Left", "Right", "Up"].flatMap (fun a =>
        [(lower a, "Arrow" ++ a), (lower ("Arrow" ++ a), "Arrow" ++ a)]),
        e.2 ∈ ["ArrowDown", "ArrowLeft", "ArrowRight", "ArrowUp"] := by decide +kernel
    have harrow := hall _ hmem
    simp only [aliasCodes, List.mem_append, harrow, true_or, or_true]
  · obtain ⟨k, hk, heq⟩ := List.mem_map.mp hmem
    cases heq
    exact mem_aliasCodes_of_mem_keys hk

theorem ne_empty_of_mem_aliasCodes {code : String} (h : code ∈ aliasCodes) : code ≠ "" := by
  have hall : ∀ code ∈ aliasCodes, code ≠ "" := by decide +kernel
  exact hall code h

/-! ## The modifiers -/

def modifierNames : List Text := [ascii "alt", ascii "command", ascii "ctrl", ascii "shift"]

/-- The properties of the modifiers, as they come to be. -/
abbrev Properties := Text → Option Bool

def Modifiers.toObject (modifiers : Modifiers) : Properties := fun name =>
  if name = ascii "alt" then some modifiers.alt
  else if name = ascii "command" then some modifiers.command
  else if name = ascii "ctrl" then some modifiers.ctrl
  else if name = ascii "shift" then some modifiers.shift
  else none

/-- `modifiers[name] = value`. The prototype is not set to a truth value. -/
def Properties.put (modifiers : Properties) (name : Text) (value : Bool) : Properties :=
  if name = ascii "__proto__" then modifiers else Function.update modifiers name (some value)

open Pattern in
/-- `/^ctrl|alt|shift|command$/` -/
def modifiersReg : Pattern CodeUnit :=
  alt (alt (alt (seq start (literal (ascii "ctrl"))) (literal (ascii "alt")))
    (literal (ascii "shift"))) (seq (literal (ascii "command")) finish)

/-- `MODIFIERS_REG.test(m)` -/
def testModifier (m : Text) : Bool := modifiersReg.test canonicalize m

/-- The `every` over the modifiers: the properties that are left if no part fails. -/
def everyModifier (c : CaseMapping) : List Text → Properties → Option Properties
  | [], modifiers => some modifiers
  | m :: parts, modifiers =>
    let modifiers := modifiers.put (c.toLowerCase m) (testModifier m)
    if testModifier m then everyModifier c parts modifiers else none

/-! ## The reading of a key string -/

structure TypeError where
  message : String
  deriving DecidableEq

def optionKeyInvalid : String := "Invalid 'key' format."

structure AcceleratorObject where
  key : KeyValue
  modifiers : Properties

def plus : CodeUnit := 0x2B

/-- The last part of `key.split('+')`. -/
def keyPart (key : Text) : Text := (key.splitOn plus).getLastD []

def modifierParts (key : Text) : List Text := (key.splitOn plus).dropLast

def keyToAccelerator (c : CaseMapping) (key : Text) : Except TypeError AcceleratorObject :=
  match (lookupAlias (c.toLowerCase (keyPart key))).filter KeyValue.truthy with
  | none => .error ⟨optionKeyInvalid⟩
  | some value =>
    match everyModifier c (modifierParts key) (Modifiers.toObject {}) with
    | none => .error ⟨optionKeyInvalid⟩
    | some modifiers => .ok { key := value, modifiers := modifiers }

/-! ## The strings that are meant -/

/-- A part that is the name of a modifier. -/
def IsModifier (c : CaseMapping) (m : Text) : Prop := c.toLowerCase m ∈ modifierNames

/-- A key of the table behind names of modifiers. -/
structure WellFormed (c : CaseMapping) (key : Text) : Prop where
  listed : (aliasMap (c.toLowerCase (keyPart key))).isSome = true
  named : ∀ m ∈ modifierParts key, IsModifier c m

/-- The modifiers that a string names. -/
def namedModifiers (c : CaseMapping) (key : Text) : Modifiers :=
  let names := (modifierParts key).map c.toLowerCase
  { alt := decide (ascii "alt" ∈ names)
    command := decide (ascii "command" ∈ names)
    ctrl := decide (ascii "ctrl" ∈ names)
    shift := decide (ascii "shift" ∈ names) }

def AcceleratorObject.ofAccelerator (accelerator : Accelerator) : AcceleratorObject where
  key := .code accelerator.key
  modifiers := accelerator.modifiers.toObject

/-- The outcome that the description of a string asks for. -/
def Follows (c : CaseMapping) (key : Text) : Except TypeError AcceleratorObject → Prop
  | .ok accelerator =>
    WellFormed c key ∧ ∃ code, aliasMap (c.toLowerCase (keyPart key)) = some code ∧
      accelerator = .ofAccelerator { key := code, modifiers := namedModifiers c key }
  | .error _ => ¬ WellFormed c key

/-! ## What is accepted -/

/-- What `MODIFIERS_REG` finds in a part, in any case: `ctrl` at the beginning, `alt` or `shift`
anywhere, or `command` at the end. -/
def Matched (m : Text) : Prop :=
  (ascii "ctrl").map canonicalize <+: m.map canonicalize ∨
  (ascii "alt").map canonicalize <:+: m.map canonicalize ∨
  (ascii "shift").map canonicalize <:+: m.map canonicalize ∨
  (ascii "command").map canonicalize <:+ m.map canonicalize

/-- **What the regular expression finds.** Its four alternatives have the anchors that they were
written with, so only the first is bound to the start and only the last to the end. -/
theorem testModifier_iff {m : Text} : testModifier m = true ↔ Matched m := by
  rw [testModifier, modifiersReg, Pattern.test_alt, Pattern.test_alt, Pattern.test_alt,
    Bool.or_eq_true, Bool.or_eq_true, Bool.or_eq_true, Pattern.test_start, Pattern.test_literal,
    Pattern.test_literal, Pattern.test_finish, or_assoc, or_assoc, Matched]

variable {c : CaseMapping}

/-- Where the lower case of a part is in ASCII and has no `k`, the expression finds in the part what
it finds in the lower case. -/
theorem testModifier_eq {m word : Text} (h : c.toLowerCase m = word)
    (hword : isAscii word = true) (hk : 0x6B ∉ word) : testModifier m = testModifier word :=
  Pattern.test_congr (c.canonicalize_eq h hword hk) modifiersReg

theorem testModifier_of_isModifier {m : Text} (h : IsModifier c m) : testModifier m = true := by
  have hascii : ∀ name ∈ modifierNames, isAscii name = true ∧ 0x6B ∉ name := by decide +kernel
  have hfound : ∀ name ∈ modifierNames, testModifier name = true := by decide +kernel
  rw [testModifier_eq rfl (hascii _ h).1 (hascii _ h).2]
  exact hfound _ h

/-- A part that is found does not set the prototype: in `__proto__` there is none of the four names.
-/
theorem ne_proto_of_testModifier {m : Text} (h : testModifier m = true) :
    c.toLowerCase m ≠ ascii "__proto__" := by
  intro heq
  have hproto := testModifier_eq heq (by decide +kernel) (by decide +kernel)
  rw [h] at hproto
  exact absurd hproto (by decide +kernel)

/-- The parts are all found, and each has set its property. The induction is on the parts; a part
that is not found ends the loop. -/
theorem everyModifier_eq (parts : List Text) (modifiers : Properties) :
    everyModifier c parts modifiers =
      if ∀ m ∈ parts, testModifier m = true then
        some fun name => if name ∈ parts.map c.toLowerCase then some true else modifiers name
      else none := by
  induction parts generalizing modifiers with
  | nil => simp [everyModifier]
  | cons m parts ih =>
    rw [everyModifier, ih]
    by_cases hm : testModifier m = true
    · simp only [hm, if_true, Properties.put, if_neg (ne_proto_of_testModifier hm),
        List.forall_mem_cons, true_and]
      by_cases hparts : ∀ m ∈ parts, testModifier m = true
      · rw [if_pos hparts, if_pos hparts]
        refine congrArg some (funext fun name => ?_)
        by_cases hname : name = c.toLowerCase m
        · simp [hname]
        · simp [hname]
      · rw [if_neg hparts, if_neg hparts]
    · rw [if_neg hm, if_neg fun hall => hm (hall m List.mem_cons_self)]

/-- A last part that names a property which every object inherits. -/
def Inherited (c : CaseMapping) (t : Text) : Prop :=
  c.toLowerCase t = ascii "constructor" ∨ c.toLowerCase t = ascii "__proto__"

/-- Of the names that an object inherits, two are in lower case, which is how a key is looked up. -/
theorem mem_objectPrototype_iff {t : Text} :
    c.toLowerCase t ∈ objectPrototype ↔ Inherited c t := by
  constructor
  · intro h
    have hascii : ∀ name ∈ objectPrototype, isAscii name = true := by decide +kernel
    have hlower : ∀ name ∈ objectPrototype, name.map lowerUnit = name →
        name = ascii "constructor" ∨ name = ascii "__proto__" := by decide +kernel
    exact hlower _ h (c.toLowerCase_fixed (hascii _ h))
  · rintro (h | h)
    · rw [h]
      decide +kernel
    · rw [h]
      decide +kernel

theorem aliasMap_of_inherited {t : Text} (h : Inherited c t) :
    aliasMap (c.toLowerCase t) = none := by
  have hall : ∀ name ∈ [ascii "constructor", ascii "__proto__"], aliasMap name = none := by
    decide +kernel
  exact hall _ (by simpa [Inherited] using h)

/-- The properties of the modifiers once every part has been found. -/
def setModifiers (c : CaseMapping) (key : Text) : Properties := fun name =>
  if name ∈ (modifierParts key).map c.toLowerCase then some true else Modifiers.toObject {} name

variable {key : Text}

/-- **A key of the table** is read, if all modifiers are found. -/
theorem keyToAccelerator_listed {code : String}
    (h : aliasMap (c.toLowerCase (keyPart key)) = some code) :
    keyToAccelerator c key =
      if ∀ m ∈ modifierParts key, testModifier m = true then
        .ok { key := .code code, modifiers := setModifiers c key }
      else .error ⟨optionKeyInvalid⟩ := by
  have hcode : (KeyValue.code code).truthy = true :=
    bne_iff_ne.mpr (ne_empty_of_mem_aliasCodes (aliasMap_mem_aliasCodes h))
  have hlookup : (lookupAlias (c.toLowerCase (keyPart key))).filter KeyValue.truthy =
      some (.code code) := by
    rw [lookupAlias, h]
    exact Option.filter_some_pos hcode
  rw [keyToAccelerator, hlookup, everyModifier_eq]
  by_cases hall : ∀ m ∈ modifierParts key, testModifier m = true
  · rw [if_pos hall, if_pos hall]
    rfl
  · rw [if_neg hall, if_neg hall]

/-- **An inherited name** is found in the table as well, and what is found counts as a key. So it is
read in the same way, with a value that is no code. -/
theorem keyToAccelerator_inherited (h : Inherited c (keyPart key)) :
    keyToAccelerator c key =
      if ∀ m ∈ modifierParts key, testModifier m = true then
        .ok { key := .inherited (c.toLowerCase (keyPart key)), modifiers := setModifiers c key }
      else .error ⟨optionKeyInvalid⟩ := by
  have hlookup : (lookupAlias (c.toLowerCase (keyPart key))).filter KeyValue.truthy =
      some (.inherited (c.toLowerCase (keyPart key))) := by
    rw [lookupAlias, aliasMap_of_inherited h]
    simp only [if_pos (mem_objectPrototype_iff.mpr h)]
    rfl
  rw [keyToAccelerator, hlookup, everyModifier_eq]
  by_cases hall : ∀ m ∈ modifierParts key, testModifier m = true
  · rw [if_pos hall, if_pos hall]
    rfl
  · rw [if_neg hall, if_neg hall]

theorem keyToAccelerator_unknown (h : aliasMap (c.toLowerCase (keyPart key)) = none)
    (hinherited : ¬ Inherited c (keyPart key)) :
    keyToAccelerator c key = .error ⟨optionKeyInvalid⟩ := by
  have hlookup : lookupAlias (c.toLowerCase (keyPart key)) = none := by
    rw [lookupAlias, h]
    simp only [if_neg (mem_objectPrototype_iff.not.mpr hinherited)]
  rw [keyToAccelerator, hlookup, Option.filter_none]

/-- Names of modifiers set no other property, so what the loop has set are the four flags. -/
theorem setModifiers_eq (h : ∀ m ∈ modifierParts key, IsModifier c m) :
    setModifiers c key = (namedModifiers c key).toObject := by
  have hnames : ∀ name ∈ (modifierParts key).map c.toLowerCase, name ∈ modifierNames := by
    intro name hname
    obtain ⟨m, hm, rfl⟩ := List.mem_map.mp hname
    exact h m hm
  funext name
  by_cases hname : name ∈ modifierNames
  · have hcases : name = ascii "alt" ∨ name = ascii "command" ∨ name = ascii "ctrl" ∨
        name = ascii "shift" := by simpa [modifierNames] using hname
    rcases hcases with rfl | rfl | rfl | rfl
    all_goals
      unfold setModifiers
      split
      · rename_i hmem
        exact (congrArg some (decide_eq_true hmem)).symm
      · rename_i hmem
        exact (congrArg some (decide_eq_false hmem)).symm
  · -- a name that is none of the four is no part of either object
    have hother : ∀ modifiers : Modifiers, modifiers.toObject name = none := by
      intro modifiers
      have hne : name ≠ ascii "alt" ∧ name ≠ ascii "command" ∧ name ≠ ascii "ctrl" ∧
          name ≠ ascii "shift" := by simpa [modifierNames] using hname
      rw [Modifiers.toObject, if_neg hne.1, if_neg hne.2.1, if_neg hne.2.2.1, if_neg hne.2.2.2]
    rw [setModifiers, if_neg fun hmem => hname (hnames name hmem), hother, hother]

/-! ## The strings that are read as meant -/

/-- If the expression finds something in every modifier part, then the last part is no inherited
name, and the parts in front of a key are names of modifiers and nothing longer. -/
def Anchored (c : CaseMapping) (key : Text) : Prop :=
  (∀ m ∈ modifierParts key, Matched m) →
    ¬ Inherited c (keyPart key) ∧
    ((aliasMap (c.toLowerCase (keyPart key))).isSome = true →
      ∀ m ∈ modifierParts key, IsModifier c m)

theorem keyToAccelerator_iff (c : CaseMapping) (key : Text) :
    Follows c key (keyToAccelerator c key) ↔ Anchored c key := by
  have hnamed : WellFormed c key → ∀ m ∈ modifierParts key, testModifier m = true :=
    fun h m hm => testModifier_of_isModifier (h.named m hm)
  simp only [Anchored, ← testModifier_iff]
  -- a key part that is the name of an inherited property, an unknown one, and a listed one
  by_cases hinherited : Inherited c (keyPart key)
  · have hnone := aliasMap_of_inherited hinherited
    have hnot : ¬ WellFormed c key := fun h => by simpa [hnone] using h.listed
    rw [keyToAccelerator_inherited hinherited]
    by_cases hall : ∀ m ∈ modifierParts key, testModifier m = true
    · rw [if_pos hall]
      exact ⟨fun h => absurd h.1 hnot, fun h => absurd hinherited (h hall).1⟩
    · rw [if_neg hall]
      exact ⟨fun _ h => absurd h hall, fun _ => hnot⟩
  cases hkey : aliasMap (c.toLowerCase (keyPart key)) with
  | none =>
    have hnot : ¬ WellFormed c key := fun h => by simpa [hkey] using h.listed
    rw [keyToAccelerator_unknown hkey hinherited]
    exact ⟨fun _ _ => ⟨hinherited, fun h => by cases h⟩, fun _ => hnot⟩
  | some code =>
    rw [keyToAccelerator_listed hkey]
    by_cases hall : ∀ m ∈ modifierParts key, testModifier m = true
    · rw [if_pos hall]
      constructor
      · exact fun h _ => ⟨hinherited, fun _ => h.1.named⟩
      · intro h
        have hmodifiers := (h hall).2 rfl
        refine ⟨⟨by rw [hkey]; rfl, hmodifiers⟩, code, hkey, ?_⟩
        rw [setModifiers_eq hmodifiers]
        rfl
    · rw [if_neg hall]
      exact ⟨fun _ h => absurd h hall, fun _ h => hall (hnamed h)⟩

/-- A word that begins with `ctrl` is taken for a modifier, and `constructor` for a key. -/
theorem stray_parts_accepted :
    ¬ Follows .basic (ascii "ctrlfoo+a") (keyToAccelerator .basic (ascii "ctrlfoo+a")) ∧
    ¬ Follows .basic (ascii "constructor") (keyToAccelerator .basic (ascii "constructor")) := by
  constructor
  · have hkey : aliasMap (CaseMapping.basic.toLowerCase (keyPart (ascii "ctrlfoo+a"))) =
        some "KeyA" := by decide +kernel
    have hall : ∀ m ∈ modifierParts (ascii "ctrlfoo+a"), testModifier m = true := by decide +kernel
    -- found, because nothing binds `ctrl` to the end
    have hstray : ¬ IsModifier .basic (ascii "ctrlfoo") := by
      unfold IsModifier
      decide +kernel
    rw [keyToAccelerator_listed hkey, if_pos hall]
    exact fun h => hstray (h.1.named _ (by decide +kernel))
  · -- every object has a `constructor`
    have hinherited : Inherited .basic (keyPart (ascii "constructor")) := by
      unfold Inherited
      decide +kernel
    have hall : ∀ m ∈ modifierParts (ascii "constructor"), testModifier m = true := by
      decide +kernel
    rw [keyToAccelerator_inherited hinherited, if_pos hall]
    intro h
    have hlisted := h.1.listed
    rw [aliasMap_of_inherited hinherited] at hlisted
    cases hlisted

end NodeWebkit.Shortcuts
