import NodeWebkit.Options.NativeMenuItem

/-!
# Options that are assigned

A menu item can be constructed with all its options, or with its type and label only, and then be
assigned the others in any order, before and after it is appended to a menu or inserted.

* **`Same`** — one and the other: the native items, the models of their menus, and the getters;
* **`AssignOk`** — the options that can be assigned;
* **`assignment_iff`** — the two items are the same exactly when all options can be assigned.

## How the proof goes

An assignment is about one property: it leaves the store of the others (`assign_store`) and the rest
of the native item (`native_frame`) alone. So in a list of assignments each property can be looked
at for itself (`assigned_component`, `foldl_component`), and its order plays no part. What comes out
is a closed form of the native item (`ItemOptions.assignedNative`), which is compared field by field
with that of the item made with all options (`ItemOptions.createdNative`):
`created_eq_assigned_iff` is where the conditions come from.
-/

namespace NodeWebkit.Options

open JsObject

namespace ItemOptions

/-- The type and the label. -/
def bare (options : ItemOptions) : ItemOptions where
  type := options.type
  label := options.label

/-- The other options that are there. -/
def assigned (options : ItemOptions) : List Key :=
  [.icon, .iconIsTemplate, .tooltip, .enabled, .checked, .submenu, .key, .modifiers].filter
    fun k => (options.toObject k).isSome

end ItemOptions

/-- How an item gets into the model of a menu. -/
inductive Attach where
  | append
  | insert (pos : Nat)

def Attach.pos (model : List LabelledEntry) : Attach → Nat
  | .append => model.length
  | .insert pos => pos

/-- `Menu::Append` and `Menu::Insert`. -/
def Attach.attach {Image : Type} (how : Attach) (model : List LabelledEntry)
    (item : NativeItem Image) : List LabelledEntry :=
  match item.entry with
  | none => model
  | some entry => model.insertIdx (how.pos model) entry

section Platform

variable {Image : Type} (platform : Platform Image) (env : Env)

/-- The assignments of options. -/
def PageItem.assignAll (item : PageItem Image) (options : ItemOptions) (keys : List Key) :
    PageItem Image :=
  keys.foldl (fun item k => item.assign platform env k (get options.toObject k)) item

/-- Two items, with the models of their menus, in which they are at `pos`. -/
structure Same (pos : Nat) (a b : PageItem Image) (model model' : List LabelledEntry) : Prop where
  native : a.native.unmodified = b.native.unmodified
  entries : model = model'
  shown : model[pos]?.map a.native.shownLabel = model'[pos]?.map b.native.shownLabel
  getter : ∀ k, a.getter env k = b.getter env k

/-- Both items are made, and are the same: the first with all options, the second assigned the
options `before` it is attached and `after`. -/
def AssignmentEquals (options : ItemOptions) (model : List LabelledEntry) (how : Attach)
    (before after : List Key) : Prop :=
  ∃ full bare : PageItem Image,
    PageItem.construct platform env options.toObject = .ok full ∧
      PageItem.construct platform env options.bare.toObject = .ok bare ∧
      Same env (how.pos model) full
        ((bare.assignAll platform env options before).assignAll platform env options after)
        (how.attach model full.native)
        (how.attach model (bare.assignAll platform env options before).native)

/-- The options can be assigned: there is no shortcut, a submenu is assigned before the item is
attached, there is no image where an empty path is made absolute, and only a checkbox is checked. -/
structure AssignOk (options : ItemOptions) (before : List Key) : Prop where
  key : getKeycodeFromText platform (options.key.getD "") = 0
  submenu : options.submenu.isSome = true → .submenu ∈ before
  icon : options.icon = some "" →
    env.absolutePath "" = "" ∨ platform.getImage (env.absolutePath "") = none
  checked : options.kind = .normal → options.checked ≠ some true

/-! ## What an assignment reaches -/

section Frame

variable (item : PageItem Image) (k : Key) (v : JsVal)

/-- An assignment stores its own property only; that of `icon` stores the shadow of the icon, too.
-/
theorem assign_store {k' : Key} (h : k' ≠ k) (hicon : k = .icon → k' ≠ .shadowIcon) :
    (item.assign platform env k v).store k' = item.store k' := by
  refine exec_of_not_mem (fun s hs heq => ?_) item.store
  cases k <;> simp only [Class.setter, List.mem_cons, List.not_mem_nil, or_false] at hs
  case icon =>
    rcases hs with rfl | rfl
    · exact hicon rfl heq.symm
    · exact h heq.symm
  all_goals
    subst hs
    exact h heq.symm

theorem assign_type : (item.assign platform env k v).store .type = item.store .type :=
  Class.exec_setter_type env .menuItem k v item.store

theorem assign_submenu (h : k ≠ .submenu) :
    (item.assign platform env k v).submenu = item.submenu := if_neg h

end Frame

section Native

variable (self : NativeItem Image) (method : Method) (argument : JsVal)

/-- `SetIcon` in one equation. An empty path takes the icon away, and a path without an image leaves
the icon that was there. -/
theorem setIcon_eq (icon : String) : self.setIcon platform icon =
    { self with
      isModified := true
      icon_ := if icon = "" then none else (platform.getImage icon).or self.icon_ } := by
  unfold NativeItem.setIcon
  by_cases hempty : icon = ""
  · simp only [if_pos hempty]
  · simp only [if_neg hempty]
    cases platform.getImage icon <;> rfl

/-- What a call changes: one field of the native item for each method, and the mark that it was
modified. -/
theorem call_eq : self.call platform method argument =
    { self with
      isModified := (self.call platform method argument).isModified
      label_ :=
        if method = .setLabel then (getString (some argument)).getD "" else self.label_
      icon_ :=
        if method = .setIcon then
          let icon := (getString (some argument)).getD ""
          if icon = "" then none else (platform.getImage icon).or self.icon_
        else self.icon_
      tooltip_ :=
        if method = .setTooltip then (getString (some argument)).getD "" else self.tooltip_
      isEnabled :=
        if method = .setEnabled then (getBoolean (some argument)).getD true else self.isEnabled
      isChecked :=
        if method = .setChecked then (getBoolean (some argument)).getD false else self.isChecked
      submenu_ :=
        if method = .setSubmenu then some ((getInteger (some argument)).getD 0)
        else self.submenu_ } := by
  cases method
  -- only an icon asks for its image, the other methods write one field
  case setIcon =>
    simp only [NativeItem.call, setIcon_eq]
    rfl
  all_goals rfl

end Native

/-- What an assignment calls natively: nothing where the setter throws. -/
def PageItem.called (item : PageItem Image) (k : Key) (v : JsVal) : Option (Method × JsVal) :=
  match (exec item.store (Class.setter env .menuItem k v)).2 with
  | none => PageItem.setterCall env k v
  | some _ => none

/-- An assignment reaches the native item by one call or, if the setter throws, not at all. -/
theorem assign_native (item : PageItem Image) (k : Key) (v : JsVal) :
    (item.assign platform env k v).native =
      match item.called env k v with
      | some (method, argument) => item.native.call platform method argument
      | none => item.native := by
  unfold PageItem.assign PageItem.called
  dsimp only
  cases (exec item.store (Class.setter env .menuItem k v)).2 with
  | some error => rfl
  | none => cases PageItem.setterCall env k v <;> rfl

/-- The property whose setter calls a method. -/
def Method.key : Method → Key
  | .setLabel => .label
  | .setIcon => .icon
  | .setIconIsTemplate => .iconIsTemplate
  | .setTooltip => .tooltip
  | .setEnabled => .enabled
  | .setChecked => .checked
  | .setSubmenu => .submenu
  | .setKey => .key
  | .setModifiers => .modifiers

/-- The method that a setter calls is the one of its property. -/
theorem called_key {item : PageItem Image} {k : Key} {v : JsVal} {call : Method × JsVal}
    (h : item.called env k v = some call) : call.1.key = k := by
  have hcall : PageItem.setterCall env k v = some call := by
    unfold PageItem.called at h
    split at h
    · exact h
    · cases h
  cases k <;> simp only [PageItem.setterCall, Option.some.injEq, reduceCtorEq] at hcall
  all_goals
    subst hcall
    rfl

/-- A component that only one method changes is left by the other properties. This is the frame rule
that lets each field be followed through a list of assignments by itself. -/
theorem native_frame {α : Type} (component : NativeItem Image → α) (method : Method)
    (hcall : ∀ self method' argument, method' ≠ method →
      component (self.call platform method' argument) = component self)
    (item : PageItem Image) {k : Key} (v : JsVal) (hk : k ≠ method.key) :
    component (item.assign platform env k v).native = component item.native := by
  rw [assign_native]
  split
  · rename_i method' argument hcalled
    refine hcall _ _ _ fun heq => hk ?_
    rw [← heq]
    exact (called_key env hcalled).symm
  · rfl

/-- No assignment of an option changes the type, the label and the shortcut. Type and label are what
the item was made with, and for the shortcut the native item has no method. -/
theorem assigned_fixed {options : ItemOptions} {keys : List Key}
    (hkeys : ∀ k ∈ keys, k ∈ options.assigned) (item : PageItem Image) :
    let native := (item.assignAll platform env options keys).native
    native.type_ = item.native.type_ ∧ native.label_ = item.native.label_ ∧
      native.enableShortcut = item.native.enableShortcut ∧
      native.accelerator_ = item.native.accelerator_ ∧
      native.metaDownFlag = item.native.metaDownFlag := by
  let component (native : NativeItem Image) :=
    (native.type_, native.label_, native.enableShortcut, native.accelerator_, native.metaDownFlag)
  have hcomponent : component (item.assignAll platform env options keys).native =
      component item.native := by
    refine foldl_frame (fun item : PageItem Image => component item.native) (fun item k hk => ?_)
      item
    refine native_frame platform env component .setLabel (fun self method argument h => ?_) item _
      fun heq => ?_
    · rw [call_eq]
      simp only [component, if_neg h]
    · have hmem := hkeys k hk
      rw [heq] at hmem
      exact absurd (List.mem_of_mem_filter hmem) (by decide)
  simpa only [component, Prod.mk.injEq] using hcomponent

/-! ## The native item of the options -/

namespace ItemOptions

/-- The image of a path. -/
def image (path : String) : Option Image := if path = "" then none else platform.getImage path

/-- The native item of the options it is created with. -/
def createdNative (options : ItemOptions) : NativeItem Image :=
  let code := getKeycodeFromText platform (options.key.getD "")
  let modifiers := options.modifiers.getD ""
  { isChecked := options.checked.getD false
    isEnabled := options.enabled.getD true
    icon_ := options.icon.bind fun icon => image platform (env.absolutePath icon)
    type_ := options.kind.string
    label_ := options.label
    tooltip_ := options.tooltip.getD ""
    submenu_ := options.submenu.bind fun menu => getInteger (some (env.id menu))
    enableShortcut := decide (code ≠ 0)
    accelerator_ := if code = 0 then {} else ⟨code, readModifiers modifiers⟩
    metaDownFlag := decide (code ≠ 0) && finds modifiers "meta" }

/-- The native item that the options are assigned to. -/
def assignedNative (options : ItemOptions) : NativeItem Image where
  isChecked := decide (options.kind = .checkbox) && options.checked.getD false
  isEnabled := options.enabled.getD true
  icon_ := options.icon.bind fun icon =>
    if icon = "" then none else image platform (env.absolutePath icon)
  type_ := options.kind.string
  label_ := options.label
  tooltip_ := options.tooltip.getD ""
  submenu_ := options.submenu.bind fun menu => getInteger (some (env.id menu))

end ItemOptions

/-- A shortcut needs a key that has a code; without one the accelerator stays as it was. -/
theorem createShortcut_eq (self : NativeItem Image) (key modifiers : String) :
    self.createShortcut platform key modifiers =
      { self with
        enableShortcut := decide (getKeycodeFromText platform key ≠ 0)
        accelerator_ :=
          if getKeycodeFromText platform key = 0 then self.accelerator_
          else ⟨getKeycodeFromText platform key, readModifiers modifiers⟩
        metaDownFlag := self.metaDownFlag ||
          (decide (getKeycodeFromText platform key ≠ 0) && finds modifiers "meta") } := by
  unfold NativeItem.createShortcut
  by_cases hkey : getKeycodeFromText platform key = 0
  · simp [hkey]
  · simp [hkey]

/-- **The native item as `create` makes it**, field by field, from what the dictionary has under
each name. -/
theorem create_eq (option : OptionObject) :
    (NativeItem.create platform option).unmodified =
      ({ isChecked := (getBoolean (option .checked)).getD false
         isEnabled := (getBoolean (option .enabled)).getD true
         icon_ := (getString (option .icon)).bind (ItemOptions.image platform)
         type_ := (getString (option .type)).getD "normal"
         label_ := (getString (option .label)).getD ""
         tooltip_ := (getString (option .tooltip)).getD ""
         submenu_ := getInteger (option .submenu) } : NativeItem Image).createShortcut platform
          ((getString (option .key)).getD "") ((getString (option .modifiers)).getD "") := by
  unfold NativeItem.create NativeItem.unmodified
  simp only [createShortcut_eq, setIcon_eq]
  cases getInteger (option .submenu) <;> cases getString (option .icon)
  case none.none => rfl
  case some.none => rfl
  all_goals
    rename_i icon
    by_cases hempty : icon = "" <;> simp [ItemOptions.image, hempty]

/-- From documented options the dictionary has the converted values, so each field is that of the
option or its default. -/
theorem create_store (options : ItemOptions) :
    (NativeItem.create platform (options.store env)).unmodified =
      options.createdNative platform env := by
  have hchecked : (getBoolean (options.store env .checked)).getD false =
      options.checked.getD false := by
    simp only [ItemOptions.store, ItemOptions.converted]
    cases options.kind <;> cases options.checked <;> rfl
  have hicon : (getString (options.store env .icon)).bind (ItemOptions.image platform) =
      options.icon.bind fun icon => ItemOptions.image platform (env.absolutePath icon) := by
    simp only [ItemOptions.store, ItemOptions.converted]
    cases options.icon <;> rfl
  have hsubmenu : getInteger (options.store env .submenu) =
      options.submenu.bind fun menu => getInteger (some (env.id menu)) := by
    simp only [ItemOptions.store, ItemOptions.converted]
    cases options.submenu <;> rfl
  rw [create_eq, createShortcut_eq, hchecked, hicon, hsubmenu]
  rfl

/-- The item that is constructed with all options. -/
def ItemOptions.fullItem (options : ItemOptions) : PageItem Image where
  store := options.store env
  submenu := options.submenu.map .other
  native := NativeItem.create platform (options.store env)

theorem construct_eq (options : ItemOptions) (hnative : options.native = none) :
    PageItem.construct platform env options.toObject = .ok (options.fullItem platform env) := by
  unfold PageItem.construct
  rw [ItemOptions.construct_options]
  simp only [ItemOptions.made, hnative]
  rfl

/-! ## The native item after the assignments -/

/-- A component that only one method changes, after assignments that call it at most once. -/
theorem assigned_component {α : Type} (component : NativeItem Image → α) (method : Method)
    {options : ItemOptions} {keys : List Key} (hnodup : keys.Nodup)
    (hcall : ∀ self method' argument, method' ≠ method →
      component (self.call platform method' argument) = component self)
    (heffect : ∀ item item' : PageItem Image, component item.native = component item'.native →
      component (item.assign platform env method.key (get options.toObject method.key)).native =
        component (item'.assign platform env method.key (get options.toObject method.key)).native)
    (item : PageItem Image) :
    component (item.assignAll platform env options keys).native =
      if method.key ∈ keys then
        component (item.assign platform env method.key (get options.toObject method.key)).native
      else component item.native := by
  refine foldl_component (fun item : PageItem Image => component item.native) (fun item k hk => ?_)
    ?_ hnodup item
  · exact native_frame platform env component method hcall item _ hk
  · exact heffect

section Assigned

variable {options : ItemOptions} {keys : List Key} (hnodup : keys.Nodup) (item : PageItem Image)

include hnodup

theorem assigned_tooltip :
    (item.assignAll platform env options keys).native.tooltip_ =
      if .tooltip ∈ keys then (get options.toObject .tooltip).string env
      else item.native.tooltip_ := by
  refine assigned_component platform env NativeItem.tooltip_ .setTooltip hnodup
    (fun self method argument h => ?_) (fun _ _ _ => rfl) item
  rw [call_eq]
  exact if_neg h

theorem assigned_isEnabled :
    (item.assignAll platform env options keys).native.isEnabled =
      if .enabled ∈ keys then (get options.toObject .enabled).truthy env
      else item.native.isEnabled := by
  refine assigned_component platform env NativeItem.isEnabled .setEnabled hnodup
    (fun self method argument h => ?_) (fun _ _ _ => rfl) item
  rw [call_eq]
  exact if_neg h

/-- An item without an image gets that of the path. Where there is no image under the path, it still
has none. -/
theorem assigned_icon (hicon : item.native.icon_ = none) :
    (item.assignAll platform env options keys).native.icon_ =
      if .icon ∈ keys then
        ItemOptions.image platform
          ((getString (some (Class.realPath env (get options.toObject .icon)))).getD "")
      else none := by
  -- what one assignment of an icon leaves
  have hassign : ∀ item : PageItem Image,
      (item.assign platform env .icon (get options.toObject .icon)).native.icon_ =
        let icon := (getString (some (Class.realPath env (get options.toObject .icon)))).getD ""
        if icon = "" then none else (platform.getImage icon).or item.native.icon_ := by
    intro item
    rw [assign_native]
    change (item.native.call platform .setIcon _).icon_ = _
    rw [call_eq]
    rfl
  refine (assigned_component platform env NativeItem.icon_ .setIcon hnodup
    (fun self method argument h => ?_) (fun item item' h => ?_) item).trans ?_
  · rw [call_eq]
    exact if_neg h
  · refine (hassign item).trans (Eq.trans ?_ (hassign item').symm)
    rw [h]
  · change (if .icon ∈ keys then _ else _) = _
    rw [hicon]
    congr 1
    refine (hassign item).trans ?_
    rw [hicon]
    simp only [Option.or_none]
    rfl

/-- The submenu is the one whose id is assigned. A value that has no id throws, and then nothing is
called. -/
theorem assigned_submenu :
    (item.assignAll platform env options keys).native.submenu_ =
      if .submenu ∈ keys then
        match (get options.toObject .submenu).id env with
        | .ok id => some ((getInteger (some id)).getD 0)
        | .error _ => item.native.submenu_
      else item.native.submenu_ := by
  -- the id of the menu is what the setter hands over, if it can be read
  have hassign : ∀ item : PageItem Image,
      (item.assign platform env .submenu (get options.toObject .submenu)).native.submenu_ =
        match (get options.toObject .submenu).id env with
        | .ok id => some ((getInteger (some id)).getD 0)
        | .error _ => item.native.submenu_ := by
    intro item
    rw [assign_native]
    cases hid : (get options.toObject .submenu).id env <;>
      simp only [PageItem.called, Class.setter, exec, hid, PageItem.setterCall] <;> rfl
  refine (assigned_component platform env NativeItem.submenu_ .setSubmenu hnodup
    (fun self method argument h => ?_) (fun item item' h => ?_) item).trans ?_
  · rw [call_eq]
    exact if_neg h
  · refine (hassign item).trans (Eq.trans ?_ (hassign item').symm)
    rw [h]
  · exact congrArg (ite _ · _) (hassign item)

/-- Only a checkbox is checked: the setter looks at the type first and throws for the other ones. -/
theorem assigned_isChecked :
    (item.assignAll platform env options keys).native.isChecked =
      if .checked ∈ keys ∧ (get item.store .type).equals env "checkbox" = true then
        (get options.toObject .checked).truthy env
      else item.native.isChecked := by
  have hassign : ∀ item : PageItem Image,
      (item.assign platform env .checked (get options.toObject .checked)).native.isChecked =
        if (get item.store .type).equals env "checkbox" = true then
          (get options.toObject .checked).truthy env
        else item.native.isChecked := by
    intro item
    rw [assign_native]
    by_cases htype : (get item.store .type).equals env "checkbox" = true
    · simp only [PageItem.called, Class.setter, exec, htype, if_true]
      rfl
    · simp only [PageItem.called, Class.setter, exec, htype, Bool.false_eq_true, if_false]
  -- the setter asks for the type, which stays
  let component (item : PageItem Image) := (item.store .type, item.native.isChecked)
  have hboth : component (item.assignAll platform env options keys) =
      if .checked ∈ keys then
        component (item.assign platform env .checked (get options.toObject .checked))
      else component item := by
    refine foldl_component component (fun item k hk => ?_) (fun item item' h => ?_) hnodup item
    · refine Prod.ext (assign_type platform env item k _) ?_
      refine native_frame platform env NativeItem.isChecked .setChecked
        (fun self method argument h => ?_) item _ hk
      rw [call_eq]
      exact if_neg h
    · obtain ⟨htype, hchecked⟩ := Prod.mk.inj h
      refine Prod.ext ?_ ?_
      · exact (assign_type platform env item .checked _).trans
          (htype.trans (assign_type platform env item' .checked _).symm)
      · refine (hassign item).trans (Eq.trans ?_ (hassign item').symm)
        unfold get
        rw [htype, hchecked]
  refine (congrArg Prod.snd hboth).trans ?_
  by_cases hmem : .checked ∈ keys
  · simp only [hmem, true_and]
    exact hassign item
  · simp only [hmem, false_and, if_false]
    rfl

/-- A property that its setter puts. What is stored is the converted value, or what was there if it
is not assigned. -/
theorem assigned_store {k : Key} {f : JsVal → JsVal}
    (hput : ∀ v, Class.setter env .menuItem k v = [Class.put k (f v)]) (hk : k ≠ .shadowIcon) :
    (item.assignAll platform env options keys).store k =
      if k ∈ keys then some (f (get options.toObject k)) else item.store k := by
  have hassign : ∀ item : PageItem Image,
      (item.assign platform env k (get options.toObject k)).store k =
        some (f (get options.toObject k)) := by
    intro item
    simp only [PageItem.assign, hput, exec, Class.put, set_self]
  rw [← hassign item]
  refine foldl_component (fun item : PageItem Image => item.store k) (fun item k' hk' => ?_)
    (fun item item' _ => ?_) hnodup item
  · exact assign_store platform env item k' _ (Ne.symm hk') fun _ => hk
  · exact (hassign item).trans (hassign item').symm

/-- The path as the page wrote it is kept beside the one that is used. -/
theorem assigned_shadowIcon :
    (item.assignAll platform env options keys).store .shadowIcon =
      if .icon ∈ keys then some (toStr env (get options.toObject .icon))
      else item.store .shadowIcon := by
  refine foldl_component (fun item : PageItem Image => item.store .shadowIcon)
    (fun item k' hk' => ?_) (fun _ _ _ => rfl) hnodup item
  by_cases hshadow : k' = .shadowIcon
  · subst hshadow
    rfl
  · exact assign_store platform env item k' _ (Ne.symm hshadow) fun h => absurd h hk'

theorem assigned_private :
    (item.assignAll platform env options keys).submenu =
      if .submenu ∈ keys then some (get options.toObject .submenu) else item.submenu := by
  refine foldl_component (fun item : PageItem Image => item.submenu) (fun item k' hk' => ?_)
    (fun _ _ _ => rfl) hnodup item
  exact assign_submenu platform env item k' _ hk'

omit hnodup in
theorem assigned_other {k : Key} (hk : k ∉ keys) (hshadow : k ≠ .shadowIcon) :
    (item.assignAll platform env options keys).store k = item.store k := by
  refine foldl_frame (fun item : PageItem Image => item.store k) (fun item k' hk' => ?_) item
  refine assign_store platform env item k' _ (fun heq => hk ?_) fun _ => hshadow
  rw [heq]
  exact hk'

end Assigned

/-! ## All options -/

/-- The item that is constructed with the type and the label. -/
def ItemOptions.bareItem (options : ItemOptions) : PageItem Image :=
  options.bare.fullItem platform env

/-- The item that is made with type and label only is made of the options without the others. -/
theorem bareItem_native (options : ItemOptions) :
    (options.bareItem platform env).native.unmodified =
      options.bare.createdNative platform env := create_store platform env options.bare

/-- The type of the item is that of the options, which is what the setter of `checked` asks for. -/
theorem bareItem_type (options : ItemOptions) :
    (get (options.bareItem platform env).store .type).equals env "checkbox" = true ↔
      options.kind = .checkbox := by
  change (JsVal.str options.kind.string).equals env "checkbox" = true ↔ _
  rw [JsVal.equals]
  cases options.kind <;> simp [ItemKind.string]

section All

variable {platform env} {options : ItemOptions} {keys : List Key}

theorem mem_assigned {k : Key} (h : k ∈ [Key.icon, .iconIsTemplate, .tooltip, .enabled, .checked,
    .submenu, .key, .modifiers]) : k ∈ options.assigned ↔ (options.toObject k).isSome = true := by
  unfold ItemOptions.assigned
  rw [List.mem_filter]
  exact and_iff_right h

/-- The submenu is the native one once it is assigned. Its id is that of a menu, so the setter does
not throw. -/
theorem bareItem_submenu (hnodup : keys.Nodup)
    (hmenu : ∀ menu, options.submenu = some menu → ∃ id, env.id menu = .num id)
    (hmem : .submenu ∈ keys → options.submenu.isSome = true) :
    ((options.bareItem platform env).assignAll platform env options keys).native.submenu_ =
      if .submenu ∈ keys then options.submenu.bind fun menu => getInteger (some (env.id menu))
      else none := by
  have hbare : (options.bareItem platform env).native.submenu_ = none :=
    congrArg NativeItem.submenu_ (bareItem_native platform env options)
  rw [assigned_submenu platform env hnodup, hbare]
  split
  · rename_i hin
    obtain ⟨menu, hsome⟩ := Option.isSome_iff_exists.mp (hmem hin)
    obtain ⟨id, hid⟩ := hmenu menu hsome
    simp only [get, ItemOptions.toObject, hsome, Option.map_some, Option.getD_some, JsVal.id, hid,
      Option.bind_some]
    rfl
  · rfl

variable (hnodup : keys.Nodup) (hkeys : ∀ k, k ∈ keys ↔ k ∈ options.assigned)

include hnodup hkeys

/-- A checkbox is checked as its options say, and an item of another type is not. -/
theorem bareItem_isChecked :
    ((options.bareItem platform env).assignAll platform env options keys).native.isChecked =
      (decide (options.kind = .checkbox) && options.checked.getD false) := by
  have hmem : .checked ∈ keys ↔ (options.toObject .checked).isSome = true :=
    (hkeys _).trans (mem_assigned (by decide))
  have hbare : (options.bareItem platform env).native.isChecked = false :=
    (congrArg NativeItem.isChecked (bareItem_native platform env options) :)
  rw [assigned_isChecked platform env hnodup, hbare]
  simp only [hmem, bareItem_type]
  simp only [get, ItemOptions.toObject]
  by_cases hkind : options.kind = .checkbox
  · simp only [hkind, and_true, decide_true, Bool.true_and]
    cases options.checked <;> rfl
  · simp [hkind]

/-- **The native item after all assignments**, in closed form. Each field is one of the lemmas
above, or is not reached by any assignment. -/
theorem bareItem_assigned
    (hmenu : ∀ menu, options.submenu = some menu → ∃ id, env.id menu = .num id) :
    ((options.bareItem platform env).assignAll platform env options keys).native.unmodified =
      options.assignedNative platform env := by
  have hbare := bareItem_native platform env options
  obtain ⟨htype, hlabel, hshortcut, haccelerator, hmetaDown⟩ :=
    assigned_fixed platform env (fun k hk => (hkeys k).mp hk) (options.bareItem platform env)
  have hmem : ∀ {k}, k ∈ [Key.icon, .iconIsTemplate, .tooltip, .enabled, .checked, .submenu, .key,
      .modifiers] → (k ∈ keys ↔ (options.toObject k).isSome = true) :=
    fun h => (hkeys _).trans (mem_assigned h)
  -- field by field: five are as they were made, the others have the last assignment
  simp only [ItemOptions.assignedNative, NativeItem.unmodified, NativeItem.mk.injEq, true_and]
  refine ⟨?checked, ?enabled, ?icon, ?type, ?label, ?tooltip, ?submenu, ?shortcut, ?accelerator,
    ?metaDown⟩
  case checked => exact bareItem_isChecked hnodup hkeys
  case enabled =>
    have hdefault : (options.bareItem platform env).native.isEnabled = true :=
      (congrArg NativeItem.isEnabled hbare :)
    rw [assigned_isEnabled platform env hnodup, hdefault]
    simp only [hmem (k := .enabled) (by decide), get, ItemOptions.toObject]
    cases options.enabled <;> rfl
  case icon =>
    rw [assigned_icon platform env hnodup _ (congrArg NativeItem.icon_ hbare)]
    simp only [hmem (k := .icon) (by decide), get, ItemOptions.toObject]
    cases options.icon with
    | none => rfl
    | some icon =>
      by_cases hempty : icon = ""
      · -- an empty path is not made absolute, and clears the icon
        simp [Class.realPath, JsVal.equals, hempty, getString, ItemOptions.image]
      · simp [Class.realPath, JsVal.equals, hempty, getString, JsVal.absolutePath, JsVal.string]
  case tooltip =>
    have hdefault : (options.bareItem platform env).native.tooltip_ = "" :=
      (congrArg NativeItem.tooltip_ hbare :)
    rw [assigned_tooltip platform env hnodup, hdefault]
    simp only [hmem (k := .tooltip) (by decide), get, ItemOptions.toObject]
    cases options.tooltip <;> rfl
  case submenu =>
    have hsubmenu : .submenu ∈ keys ↔ options.submenu.isSome = true := by
      rw [hmem (by decide), ItemOptions.toObject, Option.isSome_map]
    rw [bareItem_submenu hnodup hmenu hsubmenu.mp]
    simp only [hsubmenu]
    cases options.submenu <;> rfl
  case type => exact htype.trans (congrArg NativeItem.type_ hbare)
  case label => exact hlabel.trans (congrArg NativeItem.label_ hbare)
  case shortcut => exact hshortcut.trans (congrArg NativeItem.enableShortcut hbare)
  case accelerator => exact haccelerator.trans (congrArg NativeItem.accelerator_ hbare)
  case metaDown => exact hmetaDown.trans (congrArg NativeItem.metaDownFlag hbare)

/-- What a setter puts is in the end what the constructor makes of the option. -/
theorem bareItem_store {k : Key} {f : JsVal → JsVal}
    (hput : ∀ v, Class.setter env .menuItem k v = [Class.put k (f v)])
    (hk : k ∈ [Key.iconIsTemplate, .tooltip, .enabled, .key, .modifiers])
    (hstore : options.store env k =
      (options.toObject k).elim (options.bare.store env k) fun v => some (f v)) :
    ((options.bareItem platform env).assignAll platform env options keys).store k =
      options.store env k := by
  have hmem : k ∈ keys ↔ (options.toObject k).isSome = true := by
    refine (hkeys k).trans (mem_assigned ?_)
    simp only [List.mem_cons, List.not_mem_nil, or_false] at hk ⊢
    tauto
  have hshadow : k ≠ .shadowIcon := fun heq => absurd (heq ▸ hk) (by decide)
  rw [assigned_store platform env hnodup _ hput hshadow, hstore]
  simp only [hmem, get]
  cases options.toObject k <;> rfl

/-- The properties whose setters only store: after the assignments the store has what the
constructor would have put there. -/
theorem bareItem_puts {k : Key}
    (hk : k ∈ [Key.iconIsTemplate, .tooltip, .enabled, .key, .modifiers]) :
    ((options.bareItem platform env).assignAll platform env options keys).store k =
      options.store env k := by
  cases k
  case iconIsTemplate =>
    refine bareItem_store hnodup hkeys (f := toBool env) (fun _ => rfl) hk ?_
    simp only [ItemOptions.toObject, ItemOptions.store, ItemOptions.converted]
    cases options.iconIsTemplate <;> rfl
  case tooltip =>
    refine bareItem_store hnodup hkeys (f := toStr env) (fun _ => rfl) hk ?_
    simp only [ItemOptions.toObject, ItemOptions.store]
    cases options.tooltip <;> rfl
  case enabled =>
    refine bareItem_store hnodup hkeys (f := toBool env) (fun _ => rfl) hk ?_
    simp only [ItemOptions.toObject, ItemOptions.store]
    cases options.enabled <;> rfl
  case key =>
    refine bareItem_store hnodup hkeys (f := toStr env) (fun _ => rfl) hk ?_
    simp only [ItemOptions.toObject, ItemOptions.store]
    cases options.key <;> rfl
  case modifiers =>
    refine bareItem_store hnodup hkeys (f := toStr env) (fun _ => rfl) hk ?_
    simp only [ItemOptions.toObject, ItemOptions.store]
    cases options.modifiers <;> rfl
  all_goals exact absurd hk (by simp)

omit hnodup hkeys in
theorem getter_store (item : PageItem Image) {k : Key} (hk : k ∈ [Key.type, .label, .iconIsTemplate,
    .tooltip, .key, .modifiers, .enabled, .native]) : item.getter env k = get item.store k := by
  cases k <;> first | rfl | exact absurd hk (by simp)

omit hnodup hkeys in
theorem getter_icon (item : PageItem Image) :
    item.getter env .icon = get item.store .shadowIcon := rfl

omit hnodup hkeys in
theorem getter_checked (item : PageItem Image) : item.getter env .checked =
    if (get item.store .type).equals env "checkbox" then .bool item.native.isChecked
    else .undefined := rfl

/-- The getters after the assignments give what those of the item with all options give. One case
for each property. -/
theorem bareItem_getter (hnative : options.native = none) (k : Key) :
    ((options.bareItem platform env).assignAll platform env options keys).getter env k =
      (options.fullItem platform env).getter env k := by
  have hmem : ∀ {k}, k ∈ [Key.icon, .iconIsTemplate, .tooltip, .enabled, .checked, .submenu, .key,
      .modifiers] → (k ∈ keys ↔ (options.toObject k).isSome = true) :=
    fun h => (hkeys _).trans (mem_assigned h)
  -- what is not assigned keeps what the constructor stored
  have hother : ∀ {k}, k ∉ [Key.icon, .iconIsTemplate, .tooltip, .enabled, .checked, .submenu, .key,
      .modifiers] → k ∉ keys :=
    fun h hk => h (List.mem_of_mem_filter ((hkeys _).mp hk))
  -- the stored properties, all in one
  have hput : ∀ {k}, k ∈ [Key.iconIsTemplate, .tooltip, .enabled, .key, .modifiers] →
      get ((options.bareItem platform env).assignAll platform env options keys).store k =
        get (options.store env) k :=
    fun h => congrArg (·.getD .undefined) (bareItem_puts hnodup hkeys h)
  cases k
  case iconIsTemplate => exact hput (by decide)
  case tooltip => exact hput (by decide)
  case enabled => exact hput (by decide)
  case key => exact hput (by decide)
  case modifiers => exact hput (by decide)
  case type =>
    rw [getter_store _ (by decide), getter_store _ (by decide), get,
      assigned_other platform env _ (hother (k := .type) (by decide)) (by decide)]
    rfl
  case label =>
    rw [getter_store _ (by decide), getter_store _ (by decide), get,
      assigned_other platform env _ (hother (k := .label) (by decide)) (by decide)]
    rfl
  case native =>
    rw [getter_store _ (by decide), getter_store _ (by decide), get,
      assigned_other platform env _ (hother (k := .native) (by decide)) (by decide)]
    simp only [get, ItemOptions.bareItem, ItemOptions.fullItem, ItemOptions.store,
      ItemOptions.converted, ItemOptions.toObject, ItemOptions.bare, hnative]
  case icon =>
    rw [getter_icon, getter_icon, get, assigned_shadowIcon platform env hnodup]
    simp only [hmem (k := .icon) (by decide), get, ItemOptions.toObject, ItemOptions.fullItem,
      ItemOptions.store]
    cases options.icon <;> rfl
  case submenu =>
    change Option.getD _ _ = Option.getD _ _
    rw [assigned_private platform env hnodup]
    simp only [hmem (k := .submenu) (by decide), get, ItemOptions.toObject, ItemOptions.fullItem]
    cases options.submenu <;> rfl
  case checked =>
    -- `checked` is asked of the native item, and only for a check box
    have hfull := congrArg NativeItem.isChecked (create_store platform env options)
    have htype : get ((options.bareItem platform env).assignAll platform env options keys).store
        .type = .str options.kind.string := by
      rw [get, assigned_other platform env _ (hother (k := .type) (by decide)) (by decide)]
      rfl
    have hkind : (JsVal.str options.kind.string).equals env "checkbox" = true ↔
        options.kind = .checkbox := bareItem_type platform env options
    rw [getter_checked, getter_checked, htype, bareItem_isChecked hnodup hkeys]
    change _ = if (JsVal.str options.kind.string).equals env "checkbox" = true then _ else _
    split
    · rename_i hcheckbox
      rw [decide_eq_true (hkind.mp hcheckbox), Bool.true_and]
      exact congrArg JsVal.bool hfull.symm
    · rfl
  all_goals rfl

end All

/-! ## The two items -/

/-- The native items differ in the shortcut, in the image of an empty path, and in a normal item
that is checked. -/
theorem created_eq_assigned_iff (options : ItemOptions) :
    options.createdNative platform env = options.assignedNative platform env ↔
      getKeycodeFromText platform (options.key.getD "") = 0 ∧
        (options.icon = some "" →
          env.absolutePath "" = "" ∨ platform.getImage (env.absolutePath "") = none) ∧
        (options.kind = .normal → options.checked ≠ some true) := by
  -- `create` checks an item of any type, the setter a checkbox only
  have hchecked : (options.checked.getD false =
      (decide (options.kind = .checkbox) && options.checked.getD false)) ↔
        (options.kind = .normal → options.checked ≠ some true) := by
    cases options.kind <;> cases options.checked with
    | none => simp
    | some checked => cases checked <;> simp
  have hicon : ((options.icon.bind fun icon => ItemOptions.image platform (env.absolutePath icon)) =
      options.icon.bind fun icon =>
        if icon = "" then none else ItemOptions.image platform (env.absolutePath icon)) ↔
        (options.icon = some "" →
          env.absolutePath "" = "" ∨ platform.getImage (env.absolutePath "") = none) := by
    cases options.icon with
    | none => simp
    | some icon =>
      by_cases hempty : icon = ""
      · subst hempty
        by_cases hpath : env.absolutePath "" = "" <;> simp [ItemOptions.image, hpath]
      · simp [hempty]
  simp only [ItemOptions.createdNative, ItemOptions.assignedNative, NativeItem.mk.injEq, true_and,
    hchecked, hicon]
  constructor
  · rintro ⟨hchecked, hicon, hshortcut, -, -⟩
    exact ⟨by simpa using hshortcut, hicon, hchecked⟩
  · rintro ⟨hkey, hicon, hchecked⟩
    refine ⟨hchecked, hicon, ?_⟩
    simp [hkey]

/-- The entry of an item that is no separator has its label and its submenu. -/
theorem entry_of_kind {item : NativeItem Image} {kind : ItemKind} (h : item.type_ = kind.string) :
    ∃ type, item.entry = some ⟨type, item.label_, item.submenu_⟩ := by
  unfold NativeItem.entry
  rw [h]
  cases item.submenu_ with
  | some menu => exact ⟨.submenu, rfl⟩
  | none =>
    cases kind with
    | normal => exact ⟨.command, rfl⟩
    | checkbox => exact ⟨.check, rfl⟩

theorem entry_congr {item item' : NativeItem Image} (htype : item.type_ = item'.type_)
    (hlabel : item.label_ = item'.label_) (hsubmenu : item.submenu_ = item'.submenu_) :
    item.entry = item'.entry := by
  unfold NativeItem.entry
  rw [htype, hlabel, hsubmenu]

/-- The entry stands where it was put, at the end or at the position of the insert. -/
theorem attach_getElem? {how : Attach} {model : List LabelledEntry}
    (hpos : how.pos model ≤ model.length) {item : NativeItem Image} {entry : LabelledEntry}
    (h : item.entry = some entry) :
    (how.attach model item)[how.pos model]? = some entry := by
  unfold Attach.attach
  rw [h]
  rw [List.getElem?_insertIdx_self, if_pos hpos]

/-- An item that has its entry is shown with its label, changed or not. -/
theorem shownLabel_eq (item : NativeItem Image) {entry : LabelledEntry}
    (h : entry.label = item.label_) : item.shownLabel entry = item.label_ := by
  unfold NativeItem.shownLabel
  split
  · rfl
  · exact h

/-- The submenu is there when the item is attached, or there is none: the entry copies the submenu
at that moment and is not changed afterwards. -/
theorem early_submenu_iff {options : ItemOptions} {before : List Key} (hnodup : before.Nodup)
    (hmenu : ∀ menu, options.submenu = some menu → ∃ id, env.id menu = .num id)
    (hbefore : ∀ k ∈ before, k ∈ options.assigned) :
    (options.createdNative platform env).submenu_ =
        ((options.bareItem platform env).assignAll platform env options before).native.submenu_ ↔
      (options.submenu.isSome = true → .submenu ∈ before) := by
  have hmem : .submenu ∈ before → options.submenu.isSome = true := by
    intro hin
    have hsome := (mem_assigned (by decide)).mp (hbefore _ hin)
    rwa [ItemOptions.toObject, Option.isSome_map] at hsome
  rw [bareItem_submenu hnodup hmenu hmem]
  simp only [ItemOptions.createdNative]
  by_cases hin : .submenu ∈ before
  · simp [hin]
  · cases hsubmenu : options.submenu with
    | none => simp
    | some menu =>
      obtain ⟨id, hid⟩ := hmenu menu hsubmenu
      simp [hin, hid, getInteger]

/-- Items with the same getters are the same where the native ones are, and the submenu was there
when the item was attached. -/
theorem same_iff {full early late : PageItem Image} {kind : ItemKind} {model : List LabelledEntry}
    {how : Attach} (hpos : how.pos model ≤ model.length) (hfull : full.native.type_ = kind.string)
    (hearly : early.native.type_ = kind.string)
    (hlabel : full.native.label_ = early.native.label_)
    (hlate : late.native.label_ = early.native.label_)
    (hgetter : ∀ k, full.getter env k = late.getter env k) :
    Same env (how.pos model) full late (how.attach model full.native)
        (how.attach model early.native) ↔
      full.native.unmodified = late.native.unmodified ∧
        full.native.submenu_ = early.native.submenu_ := by
  obtain ⟨type, hentry⟩ := entry_of_kind hfull
  obtain ⟨type', hentry'⟩ := entry_of_kind hearly
  -- both menus have their new entry at the same position
  have hat := attach_getElem? hpos hentry
  have hat' := attach_getElem? hpos hentry'
  constructor
  · rintro ⟨hnative, hentries, -, -⟩
    refine ⟨hnative, ?_⟩
    -- equal menus have equal entries there, so the submenus agree
    rw [hentries, hat'] at hat
    exact (congrArg LabelledEntry.submenu (Option.some.inj hat)).symm
  · rintro ⟨hnative, hsubmenu⟩
    refine ⟨hnative, ?_, ?_, hgetter⟩
    · unfold Attach.attach
      rw [entry_congr (hfull.trans hearly.symm) hlabel hsubmenu]
    · rw [hat, hat', Option.map_some, Option.map_some, shownLabel_eq _ rfl,
        shownLabel_eq _ hlate.symm, hlabel, hlate]

/-- **Construction and assignment.** An item that is constructed with all its options and one that
is assigned them are the same exactly when the options can be assigned. -/
theorem assignment_iff (options : ItemOptions) (hnative : options.native = none)
    (hmenu : ∀ menu, options.submenu = some menu → ∃ id, env.id menu = .num id)
    (model : List LabelledEntry) (how : Attach) (hpos : how.pos model ≤ model.length)
    (before after : List Key) (hperm : (before ++ after).Perm options.assigned) :
    AssignmentEquals platform env options model how before after ↔
      AssignOk platform env options before := by
  -- the properties are assigned once each
  have hnodup : (before ++ after).Nodup :=
    hperm.nodup_iff.mpr ((by decide : [Key.icon, .iconIsTemplate, .tooltip, .enabled, .checked,
      .submenu, .key, .modifiers].Nodup).filter _)
  have hkeys : ∀ k, k ∈ before ++ after ↔ k ∈ options.assigned := fun k => hperm.mem_iff
  have hbefore : ∀ k ∈ before, k ∈ options.assigned :=
    fun k hk => (hkeys k).mp (List.mem_append_left _ hk)
  let full : PageItem Image := options.fullItem platform env
  let bare : PageItem Image := options.bareItem platform env
  let early := bare.assignAll platform env options before
  have happend : bare.assignAll platform env options (before ++ after) =
      early.assignAll platform env options after := List.foldl_append
  -- the native items
  have hcreated := create_store platform env options
  have hassigned : (early.assignAll platform env options after).native.unmodified =
      options.assignedNative platform env := by
    rw [← happend]
    exact bareItem_assigned hnodup hkeys hmenu
  have hbare := bareItem_native platform env options
  obtain ⟨hearlyType, hearlyLabel, -⟩ := assigned_fixed platform env hbefore bare
  have htype : early.native.type_ = options.kind.string :=
    hearlyType.trans (congrArg NativeItem.type_ hbare)
  have hlabel : early.native.label_ = options.label :=
    hearlyLabel.trans (congrArg NativeItem.label_ hbare)
  have hsame := same_iff env hpos (congrArg NativeItem.type_ hcreated) htype
    ((congrArg NativeItem.label_ hcreated).trans hlabel.symm)
    ((congrArg NativeItem.label_ hassigned).trans hlabel.symm)
    (fun k => ((bareItem_getter hnodup hkeys hnative k).symm.trans (by rw [happend])))
  have hsubmenu := early_submenu_iff platform env (List.Nodup.of_append_left hnodup) hmenu hbefore
  have hfull : full.native.submenu_ = (options.createdNative platform env).submenu_ :=
    (congrArg NativeItem.submenu_ hcreated :)
  -- both constructors succeed, so the two runs can be compared
  have hequals : AssignmentEquals platform env options model how before after ↔
      Same env (how.pos model) full (early.assignAll platform env options after)
        (how.attach model full.native) (how.attach model early.native) := by
    unfold AssignmentEquals
    rw [construct_eq platform env options hnative, construct_eq platform env options.bare rfl]
    constructor
    · rintro ⟨full, bare', hfull, hbare', h⟩
      cases hfull
      cases hbare'
      exact h
    · exact fun h => ⟨_, _, rfl, rfl, h⟩
  refine hequals.trans (hsame.trans ?_)
  constructor
  · rintro ⟨hnativeEq, hsubmenuEq⟩
    obtain ⟨hkey, hicon, hchecked⟩ := (created_eq_assigned_iff platform env options).mp
      (hcreated.symm.trans (hnativeEq.trans hassigned))
    exact ⟨hkey, hsubmenu.mp (hfull.symm.trans hsubmenuEq), hicon, hchecked⟩
  · rintro ⟨hkey, hin, hicon, hchecked⟩
    refine ⟨?_, hfull.trans (hsubmenu.mpr hin)⟩
    have heq := (created_eq_assigned_iff platform env options).mpr ⟨hkey, hicon, hchecked⟩
    exact hcreated.trans (heq.trans hassigned.symm)

end Platform

/-- A keyboard on which only S has a code, and files that are all images. -/
def letterPlatform : Platform String where
  keyboardCode := fun name => if name = "KeyS" then 0x53 else 0
  getImage := fun path => some path

/-- A page whose menus have the id 5. -/
def menuEnv : Env where
  truthy := fun _ => true
  string := fun _ => "[object Object]"
  equals := fun _ _ => false
  isFunction := fun _ => false
  isMenu := fun _ => true
  id := fun _ => .num 5
  absolutePath := fun path => "/app/" ++ path

/-- A tooltip, a submenu and an icon: the item can be assigned them, the submenu before it is
inserted. -/
theorem assignment_tooltip :
    AssignmentEquals letterPlatform menuEnv
      { label := "File", icon := some "a.png", tooltip := some "t", submenu := some 0 }
      [⟨.command, "Edit", none⟩] (.insert 0) [.submenu, .tooltip] [.icon] :=
  (assignment_iff letterPlatform menuEnv
    { label := "File", icon := some "a.png", tooltip := some "t", submenu := some 0 } rfl
    (fun _ _ => ⟨5, rfl⟩) [⟨.command, "Edit", none⟩] (.insert 0) (Nat.zero_le _)
    [.submenu, .tooltip] [.icon] (by decide)).mpr
      ⟨rfl, fun _ => by decide, nofun, nofun⟩

/-- `item.key = 's'` on an item that is not appended yet: the native side has no method for it, so
the item has no shortcut. -/
theorem key_not_assigned :
    ¬ AssignmentEquals letterPlatform menuEnv { label := "Save", key := some "s" } [] .append
      [.key] [] := by
  rintro ⟨full, bare, hfull, hbare, hsame⟩
  rw [construct_eq letterPlatform menuEnv _ rfl] at hfull hbare
  cases hfull
  cases hbare
  exact absurd (congrArg NativeItem.enableShortcut hsame.native) (by decide +kernel)

end NodeWebkit.Options
