import NodeWebkit.Options.Constructors

/-!
# The native tray

`tray.cc` and `tray_aura.cc`. The tray makes a status icon and an observer for it, uses the icon
through `status_icon_`, and `Remove` destroys both. Where a null or a destroyed object is used the
process is gone, and the operation ends in a `Fault`.

* **`Tray.construct`**, **`Tray.call`**, **`Tray.click`** — the entry points;
* **`Tray.Valid`** — `status_icon_` is null exactly if the icon is destroyed, and the icon knows no
  observer that is;
* **`use_eq`** — a valid tray can use its icon as long as it is not null;
* **`remove_cases`** — what `Remove` does to a valid tray.
-/

namespace NodeWebkit.StatusTray

open Options

/-- What was used that is not there. -/
inductive Fault where
  | nullIcon
  | destroyedIcon
  | destroyedObserver
  | nullMenu
  deriving DecidableEq

abbrev Image := Nat

abbrev MenuModel := Nat

/-- What the files and the object manager answer at the time of a call. -/
structure World where
  /-- `GetImage`; `none` is an empty image. -/
  image : String → Option Image
  /-- `menu_model_` of `GetApiObject<Menu>`, which is null for an id that is not registered. -/
  menu : Int → Option MenuModel

/-- A `StatusIcon`; `observed` says that the observer of the tray is in its list. -/
structure StatusIcon where
  image : Option Image := none
  toolTip : String := ""
  contextMenu : Option MenuModel := none
  observed : Bool := false
  deriving DecidableEq

structure Tray where
  /-- `status_icon_` is not null. -/
  statusIcon : Bool
  /-- The status icon, until it is destroyed. -/
  icon : Option StatusIcon
  /-- The object of `status_observer_` has not been deleted. -/
  statusObserver : Bool
  /-- The `TrayClick` events that were sent. -/
  clicks : Nat
  deriving DecidableEq

namespace Tray

variable (world : World)

/-- A call through `status_icon_`. -/
def use (tray : Tray) (f : StatusIcon → StatusIcon) : Except Fault Tray :=
  if tray.statusIcon then
    match tray.icon with
    | none => .error .destroyedIcon
    | some icon => .ok { tray with icon := some (f icon) }
  else .error .nullIcon

/-- `Create`, where `CreateStatusIcon` makes this icon. -/
def create (made : Option StatusIcon) : Except Fault Tray :=
  use ⟨made.isSome, made, true, 0⟩ fun icon => { icon with observed := true }

def setTitle (tray : Tray) (_title : String) : Except Fault Tray := .ok tray

def setIcon (tray : Tray) (path : String) : Except Fault Tray :=
  match world.image path with
  | none => .ok tray
  | some image => tray.use fun icon => { icon with image := some image }

def setTooltip (tray : Tray) (tooltip : String) : Except Fault Tray :=
  tray.use fun icon => { icon with toolTip := tooltip }

/-- `SetMenu`: the model is taken out of the menu before the icon is called. -/
def setMenu (tray : Tray) (menu : Option MenuModel) : Except Fault Tray :=
  match menu with
  | none => .error .nullMenu
  | some model => tray.use fun icon => { icon with contextMenu := some model }

def setAltIcon (tray : Tray) (_path : String) : Except Fault Tray := .ok tray

def setIconsAreTemplates (tray : Tray) (_areTemplates : Bool) : Except Fault Tray := .ok tray

/-- `Remove`: the observer is taken from the icon and deleted, and the icon destroyed. -/
def remove (tray : Tray) : Except Fault Tray :=
  if tray.statusIcon then do
    let tray ← tray.use fun icon => { icon with observed := false }
    if tray.statusObserver then
      .ok { tray with statusObserver := false, icon := none, statusIcon := false }
    else .error .destroyedObserver
  else .ok tray

/-- `OnStatusIconClicked` of the observer, if there is an icon and it knows one. -/
def click (tray : Tray) : Except Fault Tray :=
  match tray.icon with
  | none => .ok tray
  | some icon =>
    if icon.observed then
      if tray.statusObserver then .ok { tray with clicks := tray.clicks + 1 }
      else .error .destroyedObserver
    else .ok tray

/-! ## Values of messages -/

def string : Option JsVal → Option String
  | some (.str s) => some s
  | _ => none

def integer : Option JsVal → Option Int
  | some (.num n) => some n
  | _ => none

def boolean : Option JsVal → Option Bool
  | some (.bool b) => some b
  | _ => none

/-- `Tray::Tray`. -/
def construct (made : Option StatusIcon) (option : OptionObject) : Except Fault Tray := do
  let tray ← create made
  let tray ← (string (option .title)).elim (.ok tray) tray.setTitle
  let tray ← (boolean (option .iconsAreTemplates)).elim (.ok tray) tray.setIconsAreTemplates
  let tray ← ((string (option .icon)).filter (· ≠ "")).elim (.ok tray) (tray.setIcon world)
  let tray ← ((string (option .alticon)).filter (· ≠ "")).elim (.ok tray) tray.setAltIcon
  let tray ← (string (option .tooltip)).elim (.ok tray) tray.setTooltip
  (integer (option .menu)).elim (.ok tray) fun menuId => tray.setMenu (world.menu menuId)

/-- `Tray::Call`. -/
def call (tray : Tray) (method : String) (arguments : List JsVal) : Except Fault Tray :=
  if method = "SetTitle" then tray.setTitle ((string arguments[0]?).getD "")
  else if method = "SetIcon" then tray.setIcon world ((string arguments[0]?).getD "")
  else if method = "SetAltIcon" then tray.setAltIcon ((string arguments[0]?).getD "")
  else if method = "SetIconsAreTemplates" then
    tray.setIconsAreTemplates ((boolean arguments[0]?).getD false)
  else if method = "SetTooltip" then tray.setTooltip ((string arguments[0]?).getD "")
  else if method = "SetMenu" then
    tray.setMenu (world.menu ((integer arguments[0]?).getD 0))
  else if method = "Remove" then tray.remove
  else .ok tray

/-! ## Valid trays -/

/-- `status_icon_` is null exactly if the icon is destroyed, and an icon has its observer. -/
def Valid (tray : Tray) : Prop :=
  if tray.statusIcon then
    tray.statusObserver = true ∧ ∃ icon, tray.icon = some icon ∧ icon.observed = true
  else tray.icon = none

variable {tray tray' : Tray}

/-- A valid tray can use its icon as long as it has it, and its observer is still known to the icon.
-/
theorem use_eq (h : tray.Valid) (hicon : tray.statusIcon = true)
    (f : StatusIcon → StatusIcon) :
    ∃ icon, tray.icon = some icon ∧ icon.observed = true ∧
      tray.use f = .ok { tray with icon := some (f icon) } := by
  unfold Valid at h
  rw [if_pos hicon] at h
  obtain ⟨_, icon, hsome, hobserved⟩ := h
  refine ⟨icon, hsome, hobserved, ?_⟩
  rw [use, if_pos hicon, hsome]

theorem use_null (hicon : tray.statusIcon = false) (f : StatusIcon → StatusIcon) :
    tray.use f = .error .nullIcon := by
  rw [use, hicon]
  rfl

/-- A use of the icon that keeps its observer leaves a valid tray with its icon. -/
theorem Valid.use (h : tray.Valid) (hicon : tray.statusIcon = true) {f : StatusIcon → StatusIcon}
    (hf : ∀ icon, (f icon).observed = icon.observed) :
    ∃ t, tray.use f = .ok t ∧ t.Valid ∧ t.statusIcon = true := by
  obtain ⟨icon, _, hobserved, heq⟩ := use_eq h hicon f
  refine ⟨_, heq, ?_, hicon⟩
  unfold Valid at h ⊢
  rw [if_pos hicon] at h ⊢
  exact ⟨h.1, f icon, rfl, (hf icon).trans hobserved⟩

/-- **Removal.** A valid tray that has its icon loses it, and one that does not is left as it is. -/
theorem remove_cases (h : tray.Valid) :
    ∃ t, tray.remove = .ok t ∧ t.Valid ∧ t.statusIcon = false ∧
      (tray.statusIcon = false → t = tray) := by
  by_cases hicon : tray.statusIcon = true
  · obtain ⟨icon, _, _, heq⟩ := use_eq h hicon fun icon => { icon with observed := false }
    unfold Valid at h
    rw [if_pos hicon] at h
    refine ⟨{ tray with statusObserver := false, icon := none, statusIcon := false },
      ?_, ?_, rfl, ?_⟩
    · rw [remove, if_pos hicon, heq]
      simp only [Except.bind, bind, h.1, if_true]
    · rfl
    · exact fun hnot => absurd hicon (by simp [hnot])
  · have hfalse : tray.statusIcon = false := Bool.eq_false_iff.mpr hicon
    refine ⟨tray, ?_, h, hfalse, fun _ => rfl⟩
    rw [remove, if_neg hicon]

/-- A click finds the observer of the icon that is clicked, and a tray without an icon is not
clicked. -/
theorem click_cases (h : tray.Valid) :
    ∃ t, tray.click = .ok t ∧ t.Valid ∧ t.statusIcon = tray.statusIcon := by
  unfold Valid at h
  by_cases hicon : tray.statusIcon = true
  · rw [if_pos hicon] at h
    obtain ⟨hobserver, icon, hsome, hobserved⟩ := h
    refine ⟨{ tray with clicks := tray.clicks + 1 }, ?_, ?_, rfl⟩
    · rw [click, hsome]
      simp only [hobserved, hobserver, if_true]
    · unfold Valid
      rw [if_pos hicon]
      exact ⟨hobserver, icon, hsome, hobserved⟩
  · rw [if_neg hicon] at h
    refine ⟨tray, ?_, ?_, rfl⟩
    · rw [click, h]
    · unfold Valid
      rw [if_neg hicon]
      exact h

end Tray

end NodeWebkit.StatusTray
