import NodeWebkit.Lib.Run
import NodeWebkit.Tray.StatusIcon

/-!
# A tray that is removed

The object of the page (`api_nw_tray.js`) can be used after `remove()`: its setters call the native
tray as before.

* **`State.step`** — assignments, `remove()` and clicks on the icon, in any order;
* **`Survives`** — nothing that is gone is used by a step, and a removed tray stays removed;
* **`survives_iff`** — the steps that are survived are those that do not use the icon of a tray that
  is removed;
* **`tray_survives_iff`** — the same for runs.

A step of the page is one request to the native tray (`native_step`), and a request uses the icon or
it does not (`Op.usesIcon`). A valid tray answers every request that does not need the icon, and the
others as long as it has it (`request_cases`); without it each of them ends in the same fault
(`request_null`). A menu without a native one ends in another fault, which the sources assert and
which is not about removal.
-/

namespace NodeWebkit.StatusTray

open Options JsObject Lts

/-- The properties of a tray that can be assigned. -/
inductive Property where
  | title | icon | alticon | iconsAreTemplates | tooltip | menu
  deriving DecidableEq

namespace Property

def key : Property → Key
  | .title => .title
  | .icon => .icon
  | .alticon => .alticon
  | .iconsAreTemplates => .iconsAreTemplates
  | .tooltip => .tooltip
  | .menu => .menu

/-- The method that the setter of the property calls. -/
def method : Property → String
  | .title => "SetTitle"
  | .icon => "SetIcon"
  | .alticon => "SetAltIcon"
  | .iconsAreTemplates => "SetIconsAreTemplates"
  | .tooltip => "SetTooltip"
  | .menu => "SetMenu"

end Property

/-- `assign` is `tray.property = v`, where the native call finds this world. -/
inductive Op where
  | assign (property : Property) (v : JsVal) (world : World)
  | remove
  | click

structure State where
  /-- `privates(this).option`. -/
  option : OptionObject
  /-- `privates(this).menu`. -/
  menu : Option JsVal
  /-- The tray is in `trayEvents.objs`. -/
  listed : Bool
  /-- The native tray, or the fault that ended the process. -/
  native : Except Fault Tray

section Env

variable (env : Env)

/-- What a setter passes on: the value that is kept, or the id of the menu. -/
def argument (option : OptionObject) (property : Property) (v : JsVal) : Except String JsVal :=
  match property with
  | .menu => v.id env
  | _ => .ok (get option property.key)

/-- A setter of the page. -/
def State.assign (s : State) (property : Property) (v : JsVal) (world : World) : State :=
  match exec s.option (Class.setter env .tray property.key v) with
  | (option, some _) => { s with option := option }
  | (option, none) =>
    let s := { s with
      option := option
      menu := if property = .menu then some v else s.menu }
    match argument env option property v with
    | .error _ => s
    | .ok value =>
      { s with native := s.native.bind fun tray => tray.call world property.method [value] }

/-- `remove()`. -/
def State.remove (s : State) (world : World) : State :=
  { s with
    native := s.native.bind fun tray => tray.call world "Remove" []
    listed := false }

def State.step (s : State) : Op → State
  | .assign property v world => s.assign env property v world
  | .remove => s.remove ⟨fun _ => none, fun _ => none⟩
  | .click => { s with native := s.native.bind Tray.click }

/-- A tray of the page whose native object is made with these options. -/
def State.start (world : World) (made : Option StatusIcon) (option : OptionObject)
    (menu : Option JsVal) : State where
  option := option
  menu := menu
  listed := true
  native := Tray.construct world made option

/-! ## What has to hold -/

/-- No null or destroyed status icon or observer has been used. A menu that is not registered is
another matter. -/
def State.Intact (s : State) : Prop := ∀ fault, s.native = .error fault → fault = .nullMenu

/-- `status_icon_` is null. -/
def State.Removed (s : State) : Prop := ∀ tray, s.native = .ok tray → tray.statusIcon = false

/-- The step uses nothing that is gone, a second `remove()` does nothing, and nothing brings a
removed tray back. -/
structure Survives (s : State) (op : Op) (t : State) : Prop where
  intact : t.Intact
  idle : s.Removed → op = .remove → t.native = s.native
  removed : s.Removed → t.Removed

/-! ## The condition -/

/-- The path that an assigned icon is looked for at. -/
def iconPath (v : JsVal) : String := if v.equals env "" then "" else env.absolutePath (v.string env)

/-- The operation uses the status icon: a tooltip, a menu that is there, or an icon that can be
read. -/
def Op.usesIcon : Op → Bool
  | .assign .tooltip _ _ => true
  | .assign .icon v world => (world.image (iconPath env v)).isSome
  | .assign .menu v world =>
    match v.isMenu env, v.id env with
    | .ok true, .ok id => (world.menu ((Tray.integer (some id)).getD 0)).isSome
    | _, _ => false
  | _ => false

/-- A tray that is removed is not asked to use its icon. -/
def StepOk (s : State) (op : Op) : Prop :=
  op.usesIcon env = true → ∀ tray, s.native = .ok tray → tray.statusIcon = true

/-! ## Steps -/

/-- What a step asks of the native tray, if anything. -/
def Op.request : Op → Tray → Except Fault Tray
  | .assign .tooltip v _ => fun tray => tray.setTooltip (v.string env)
  | .assign .icon v world => fun tray => tray.setIcon world (iconPath env v)
  | .assign .menu v world => fun tray =>
    match v.isMenu env, v.id env with
    | .ok true, .ok id => tray.setMenu (world.menu ((Tray.integer (some id)).getD 0))
    | _, _ => .ok tray
  | .remove => Tray.remove
  | .click => Tray.click
  | _ => .ok

theorem bind_ok {ε α : Type} (e : Except ε α) : e.bind .ok = e := by
  cases e <;> rfl

/-- **The native side of a step.** What the script does with the value that is assigned, and what it
passes on, is put into one request for each property. -/
theorem native_step (s : State) (op : Op) :
    (s.step env op).native = s.native.bind (op.request env) := by
  cases op with
  | remove => rfl
  | click => rfl
  | assign property v world =>
    cases property with
    | title | alticon | iconsAreTemplates => rfl
    | tooltip => rfl
    | icon =>
      change s.native.bind (fun tray => tray.setIcon world
        ((Tray.string (some (Class.realPath env v))).getD "")) = _
      -- an empty path is passed on as it is
      have hpath : (Tray.string (some (Class.realPath env v))).getD "" = iconPath env v := by
        unfold Class.realPath iconPath
        split <;> rfl
      rw [hpath]
      rfl
    | menu =>
      simp only [State.step, State.assign, Class.setter, Property.key, JsObject.exec, Op.request]
      cases hmenu : v.isMenu env with
      | error e => exact (bind_ok _).symm
      | ok isMenu =>
        cases isMenu with
        | false => exact (bind_ok _).symm
        | true =>
          simp only [argument]
          cases hid : v.id env with
          | error e => exact (bind_ok _).symm
          | ok id => rfl

theorem native_step_of_ok {s : State} {tray : Tray} (hs : s.native = .ok tray) (op : Op) :
    (s.step env op).native = op.request env tray := by
  rw [native_step, hs]
  rfl

theorem native_step_of_error {s : State} {fault : Fault} (hs : s.native = .error fault) (op : Op) :
    (s.step env op).native = .error fault := by
  rw [native_step, hs]
  rfl

/-- A tray without an icon that is asked to use it. All setters that reach the icon do so through
the same null pointer. -/
theorem request_null {op : Op} {tray : Tray} (hicon : tray.statusIcon = false)
    (huse : op.usesIcon env = true) : op.request env tray = .error .nullIcon := by
  cases op with
  | remove | click => cases huse
  | assign property v world =>
    cases property with
    | title | alticon | iconsAreTemplates => cases huse
    | tooltip => exact Tray.use_null hicon _
    | icon =>
      obtain ⟨image, himage⟩ := Option.isSome_iff_exists.mp huse
      simp only [Op.request, Tray.setIcon, himage]
      exact Tray.use_null hicon _
    | menu =>
      simp only [Op.usesIcon] at huse
      split at huse
      · rename_i id hmenu hid
        obtain ⟨model, hmodel⟩ := Option.isSome_iff_exists.mp huse
        simp only [Op.request, hmenu, hid, Tray.setMenu, hmodel]
        exact Tray.use_null hicon _
      · cases huse

/-- How a request ends that is not in vain: the tray stays valid, one without an icon gets none,
and is not changed by `remove()`. -/
structure Answered (op : Op) (tray t : Tray) : Prop where
  valid : t.Valid
  removed : tray.statusIcon = false → t.statusIcon = false
  idle : tray.statusIcon = false → op = .remove → t = tray

/-- A use of an icon that is there. The tray stays valid, and it still has the icon. -/
theorem answered_use {op : Op} {tray : Tray} (h : tray.Valid) (hicon : tray.statusIcon = true)
    {f : StatusIcon → StatusIcon} (hf : ∀ icon, (f icon).observed = icon.observed) :
    ∃ t, tray.use f = .ok t ∧ Answered op tray t := by
  obtain ⟨t, heq, hvalid, ht⟩ := h.use hicon hf
  have hnot : tray.statusIcon ≠ false := by
    rw [hicon]
    nofun
  exact ⟨t, heq, hvalid, fun h => absurd h hnot, fun h => absurd h hnot⟩

/-- A request that leaves the tray as it is, such as a property that has no native side here. -/
theorem Answered.refl {op : Op} {tray : Tray} (h : tray.Valid) : Answered op tray tray :=
  ⟨h, id, fun _ _ => rfl⟩

/-- A valid tray that is not asked for an icon it does not have answers, unless the menu is not
registered. -/
theorem request_cases {op : Op} {tray : Tray} (h : tray.Valid)
    (hok : op.usesIcon env = true → tray.statusIcon = true) :
    op.request env tray = .error .nullMenu ∨
      ∃ t, op.request env tray = .ok t ∧ Answered op tray t := by
  cases op with
  | remove =>
    obtain ⟨t, heq, hvalid, hnone, hidle⟩ := Tray.remove_cases h
    exact .inr ⟨t, heq, hvalid, fun _ => hnone, fun hgone _ => hidle hgone⟩
  | click =>
    obtain ⟨t, heq, hvalid, hsame⟩ := Tray.click_cases h
    exact .inr ⟨t, heq, hvalid, fun hgone => hsame.trans hgone, fun _ hop => nomatch hop⟩
  | assign property v world =>
    cases property with
    | title | alticon | iconsAreTemplates => exact .inr ⟨tray, rfl, .refl h⟩
    | tooltip => exact .inr (answered_use h (hok rfl) fun _ => rfl)
    | icon =>
      -- a path without an image does not reach the icon
      cases himage : world.image (iconPath env v) with
      | none =>
        refine .inr ⟨tray, ?_, .refl h⟩
        simp only [Op.request, Tray.setIcon, himage]
      | some image =>
        have huse : (Op.assign .icon v world).usesIcon env = true := by
          simp only [Op.usesIcon, himage, Option.isSome_some]
        simp only [Op.request, Tray.setIcon, himage]
        exact .inr (answered_use h (hok huse) fun _ => rfl)
    | menu =>
      simp only [Op.request]
      simp only [Op.usesIcon] at hok
      split
      · rename_i id hmenu hid
        simp only [hmenu, hid] at hok
        cases hmodel : world.menu ((Tray.integer (some id)).getD 0) with
        | none => exact .inl rfl
        | some model =>
          rw [hmodel] at hok
          exact .inr (answered_use h (hok rfl) fun _ => rfl)
      · exact .inr ⟨tray, rfl, .refl h⟩

/-! ## The invariant -/

/-- The tray is valid as long as the process is there. -/
structure Inv (s : State) : Prop where
  valid : ∀ tray, s.native = .ok tray → tray.Valid
  intact : s.Intact

/-- A step that ends in a missing menu, or comes after the process is gone. -/
theorem Survives.of_error {s t : State} {op : Op} (ht : t.native = .error .nullMenu)
    (hidle : op = .remove → t.native = s.native) : Survives s op t := by
  refine ⟨?_, fun _ => hidle, ?_⟩
  · intro fault hfault
    rw [ht] at hfault
    cases hfault
    rfl
  · intro _ tray htray
    rw [ht] at htray
    cases htray

/-- A request that was answered is survived. -/
theorem Survives.of_answered {s t : State} {op : Op} {tray tray' : Tray}
    (hs : s.native = .ok tray) (ht : t.native = .ok tray') (h : Answered op tray tray') :
    Survives s op t := by
  refine ⟨?_, ?_, ?_⟩
  · intro fault hfault
    rw [ht] at hfault
    cases hfault
  · intro hremoved hop
    rw [hs, ht, h.idle (hremoved tray hs) hop]
  · intro hremoved tray'' htray
    rw [ht] at htray
    cases htray
    exact h.removed (hremoved tray hs)

/-- When the process is gone there is no tray that could be invalid, and the fault is the one that
is allowed. -/
theorem Inv.of_error {t : State} {fault : Fault} (ht : t.native = .error fault)
    (hintact : t.Intact) : Inv t := by
  refine ⟨?_, hintact⟩
  intro tray htray
  rw [ht] at htray
  cases htray

/-- A step that does not use the icon of a removed tray is survived. -/
theorem Inv.survives {s : State} (h : Inv s) {op : Op} (hok : StepOk env s op) :
    Survives s op (s.step env op) ∧ Inv (s.step env op) := by
  cases hs : s.native with
  | error fault =>
    have hfault := h.intact fault hs
    subst hfault
    have hnative := native_step_of_error env hs op
    have hsurvives : Survives s op (s.step env op) :=
      .of_error hnative fun _ => hnative.trans hs.symm
    exact ⟨hsurvives, .of_error hnative hsurvives.intact⟩
  | ok tray =>
    have hnative := native_step_of_ok env hs op
    rcases request_cases env (h.valid tray hs) (fun huse => hok huse tray hs) with
      hmenu | ⟨t, ht, hanswered⟩
    · rw [hmenu] at hnative
      -- removing is never what meets the fault of the menu
      have hop : op ≠ .remove := by
        rintro rfl
        obtain ⟨t, ht, -⟩ := Tray.remove_cases (h.valid tray hs)
        cases (ht.symm.trans hmenu : Except.ok t = .error Fault.nullMenu)
      have hsurvives : Survives s op (s.step env op) :=
        .of_error hnative fun hremove => absurd hremove hop
      exact ⟨hsurvives, .of_error hnative hsurvives.intact⟩
    · rw [ht] at hnative
      have hsurvives : Survives s op (s.step env op) := .of_answered hs hnative hanswered
      refine ⟨hsurvives, ?_, hsurvives.intact⟩
      intro tray' htray'
      rw [hnative] at htray'
      cases htray'
      exact hanswered.valid

/-- Under the invariant a step is survived exactly if it does not use the icon of a tray that is
removed. -/
theorem survives_iff {s : State} (h : Inv s) (op : Op) :
    Survives s op (s.step env op) ↔ StepOk env s op := by
  constructor
  · intro hsurvives huse tray hs
    by_contra hicon
    have hnull := request_null env (Bool.eq_false_iff.mpr hicon) huse
    have hfault := hsurvives.intact .nullIcon (by rw [native_step_of_ok env hs, hnull])
    cases hfault
  · exact fun hok => (h.survives env hok).1

/-! ## The constructor -/

/-- There is a tray with its icon, unless a menu is not registered. -/
def Usable : Except Fault Tray → Prop
  | .ok tray => tray.Valid ∧ tray.statusIcon = true
  | .error fault => fault = .nullMenu

/-- One call after the other. -/
theorem Usable.bind {e : Except Fault Tray} {f : Tray → Except Fault Tray} (h : Usable e)
    (hf : ∀ tray, tray.Valid → tray.statusIcon = true → Usable (f tray)) : Usable (e >>= f) := by
  cases e with
  | error fault => exact h
  | ok tray => exact hf tray h.1 h.2

theorem usable_elim {α : Type} {tray : Tray} (h : tray.Valid) (hicon : tray.statusIcon = true)
    {f : α → Except Fault Tray} (hf : ∀ a, Usable (f a)) (o : Option α) :
    Usable (o.elim (.ok tray) f) := by
  cases o with
  | none => exact ⟨h, hicon⟩
  | some a => exact hf a

theorem usable_use {tray : Tray} (h : tray.Valid) (hicon : tray.statusIcon = true)
    {f : StatusIcon → StatusIcon} (hf : ∀ icon, (f icon).observed = icon.observed) :
    Usable (tray.use f) := by
  obtain ⟨t, heq, hvalid, ht⟩ := h.use hicon hf
  rw [heq]
  exact ⟨hvalid, ht⟩

theorem usable_setIcon {tray : Tray} (h : tray.Valid) (hicon : tray.statusIcon = true)
    (world : World) (path : String) : Usable (tray.setIcon world path) := by
  unfold Tray.setIcon
  split
  · exact ⟨h, hicon⟩
  · exact usable_use h hicon fun _ => rfl

theorem usable_setTooltip {tray : Tray} (h : tray.Valid) (hicon : tray.statusIcon = true)
    (tooltip : String) : Usable (tray.setTooltip tooltip) :=
  usable_use h hicon fun _ => rfl

/-- `SetMenu` uses it for a menu, and a menu that is not there is the fault that is allowed. -/
theorem usable_setMenu {tray : Tray} (h : tray.Valid) (hicon : tray.statusIcon = true)
    (menu : Option MenuModel) : Usable (tray.setMenu menu) := by
  unfold Tray.setMenu
  split
  · rfl
  · exact usable_use h hicon fun _ => rfl

/-- With a status icon the constructor makes a tray that has it: every option is set by a call that
leaves the icon. -/
theorem usable_construct (world : World) (made : StatusIcon) (option : OptionObject) :
    Usable (Tray.construct world (some made) option) := by
  unfold Tray.construct
  refine .bind (e := Tray.create (some made)) ⟨⟨rfl, _, rfl, rfl⟩, rfl⟩ fun t h hi => ?_
  refine .bind (usable_elim h hi (f := t.setTitle) (fun _ => ⟨h, hi⟩) _) fun t h hi => ?_
  refine .bind (usable_elim h hi (f := t.setIconsAreTemplates) (fun _ => ⟨h, hi⟩) _)
    fun t h hi => ?_
  refine .bind (usable_elim h hi (usable_setIcon h hi world) _) fun t h hi => ?_
  refine .bind (usable_elim h hi (f := t.setAltIcon) (fun _ => ⟨h, hi⟩) _) fun t h hi => ?_
  refine .bind (usable_elim h hi (usable_setTooltip h hi) _) fun t h hi => ?_
  exact usable_elim h hi (fun menuId => usable_setMenu h hi (world.menu menuId)) _

/-- A tray that the constructor has made is valid. -/
theorem Inv.start (world : World) (made : StatusIcon) (option : OptionObject)
    (menu : Option JsVal) : Inv (State.start world (some made) option menu) := by
  have h := usable_construct world made option
  refine ⟨?_, ?_⟩
  · intro tray htray
    rw [show Tray.construct world (some made) option = .ok tray from htray] at h
    exact h.1
  · intro fault hfault
    rw [show Tray.construct world (some made) option = .error fault from hfault] at h
    exact h

/-! ## Runs -/

/-- **A tray survives its removal** in the runs in which it gets a status icon, and is not asked to
use it once it is removed: no tooltip, no menu and no icon that can be read is assigned then. -/
theorem tray_survives_iff (world : World) (made : Option StatusIcon) (option : OptionObject)
    (menu : Option JsVal) (ops : List Op) (t : State) :
    (State.start world made option menu).Intact ∧
        Run (Guarded (fun s op => Survives s op (s.step env op)) (ofFn (State.step env)))
          (State.start world made option menu) ops t ↔
      made.isSome = true ∧
        Run (Guarded (StepOk env) (ofFn (State.step env)))
          (State.start world made option menu) ops t := by
  cases made with
  | none =>
    constructor
    · intro ⟨hintact, _⟩
      -- without a status icon the constructor itself uses the null pointer
      cases hintact .nullIcon rfl
    · exact fun ⟨hsome, _⟩ => nomatch hsome
  | some made =>
    have hinv := Inv.start world made option menu
    have hiff : Run (Guarded (fun s op => Survives s op (s.step env op)) (ofFn (State.step env)))
          (State.start world (some made) option menu) ops t ↔
        Run (Guarded (StepOk env) (ofFn (State.step env)))
          (State.start world (some made) option menu) ops t := by
      refine Run.guarded_iff (I := Inv) ?_ ?_ hinv
      · rintro s op _ h hsurvives rfl
        exact (h.survives env ((survives_iff env h op).mp hsurvives)).2
      · rintro s op _ h rfl
        exact survives_iff env h op
    rw [hiff]
    exact ⟨fun ⟨_, h⟩ => ⟨rfl, h⟩, fun ⟨_, h⟩ => ⟨hinv.intact, h⟩⟩

end Env

/-- A page on which other values are nothing in particular. -/
def plainEnv : Env where
  truthy _ := true
  string _ := "[object Object]"
  equals _ _ := false
  isFunction _ := false
  isMenu _ := false
  id _ := .undefined
  absolutePath path := path

/-- No image can be read, and no menu is registered. -/
def emptyWorld : World := ⟨fun _ => none, fun _ => none⟩

/-- `tray.remove(); tray.tooltip = "tip"` uses the null icon, as the setter asks nothing before. -/
theorem not_intact_tooltip :
    ¬ ([Op.remove, .assign .tooltip (.str "tip") emptyWorld].foldl (State.step plainEnv)
      (State.start emptyWorld (some {}) (fun _ => none) none)).Intact := by
  intro h
  cases h .nullIcon rfl

end NodeWebkit.StatusTray
