import NodeWebkit.Lib.Run
import NodeWebkit.Options.Constructors

/-!
# Objects made of shared options

A page makes menu items, trays and menus of option objects that it may use again, and assigns their
properties. `State.step` is one construction or assignment over the page's option objects, and over
what the native side answers to `GetChecked`.

* **`Independent`** — the option objects are as they were, and every object is as if it was alone:
  made of a fresh copy, with only its own assignments;
* **`StepOk`** — what is set is there already, and no other checkbox has the id natively;
* **`shared_options_iff`** — the runs in which every step leaves the objects independent are those
  whose steps all meet `StepOk`.

The `id` of an object, which names the native one, is not assigned. `items` of a menu is not a
property that is set.

## How the proof goes

Being as if it was alone speaks of another run, the one of this object. `Alone` is that run with its
state, and **`Inv`** says that the option objects are the original ones and that each object has an
`Alone` run which agrees with the common one in the only thing that a getter reads beside the
object: whether the native checkbox under its id is checked. A construction begins the run of a new
object, an assignment makes one of them longer, and the other runs are left alone exactly where no
other checkbox has the id.
-/

namespace NodeWebkit.Options

open JsObject Lts

/-! ## Objects of the page -/

/-- What a constructor is called with. -/
inductive Arg where
  | notObject
  | null
  /-- One of the page's option objects. -/
  | object (r : Nat)
  deriving DecidableEq

inductive Op where
  /-- `new Class(option)`, with the id that is next. -/
  | construct (cls : Class) (arg : Arg) (allocated : Int)
  /-- `objects[i].k = v`. -/
  | assign (i : Nat) (k : Key) (v : JsVal)

/-- `privates(this).option`. -/
inductive Store where
  | caller (r : Nat)
  | own (o : OptionObject)

structure Instance where
  cls : Class
  /-- The call that made it. -/
  arg : Arg
  allocated : Int
  id : JsVal
  store : Store
  /-- `privates(this).submenu`, or `privates(this).menu`. -/
  menu : Option JsVal
  /-- Its own properties, `id` apart. -/
  props : OptionObject
  /-- What `nw.Obj.create` was given. -/
  created : Option OptionObject
  /-- What it was assigned. -/
  assigned : List (Key × JsVal)

structure State where
  /-- The option objects of the page. -/
  options : Nat → OptionObject
  /-- What `GetChecked` answers for an id. -/
  native : JsVal → Option Bool
  objects : List Instance

section Env

variable (env : Env)

/-- The object that is kept. -/
def Instance.option (inst : Instance) (options : Nat → OptionObject) : OptionObject :=
  match inst.store with
  | .caller r => options r
  | .own o => o

/-- `this.type == 'checkbox'`. -/
def Instance.IsCheckbox (inst : Instance) (options : Nat → OptionObject) : Prop :=
  inst.cls = .menuItem ∧ (get (inst.option options) .type).equals env "checkbox" = true

instance (inst : Instance) (options : Nat → OptionObject) :
    Decidable (inst.IsCheckbox env options) := inferInstanceAs (Decidable (_ ∧ _))

/-- `inst.k`. -/
def State.getter (s : State) (inst : Instance) (k : Key) : JsVal :=
  if k = .id then inst.id
  else
    inst.cls.getter env (inst.option s.options) inst.menu (s.native inst.id) inst.props k

/-! ## Constructions -/

/-- The own properties that a constructor sets. -/
def Class.props (cls : Class) (made : Made) : OptionObject
  | .type => if cls = .menu then some (get made.store .type) else none
  | .click => made.click
  | _ => none

def Class.instance (cls : Class) (arg : Arg) (allocated : Int) (made : Made) : Instance where
  cls := cls
  arg := arg
  allocated := allocated
  id := made.id
  store :=
    match arg with
    | .object r => if made.own then .own made.store else .caller r
    | _ => .own made.store
  menu := made.menu
  props := cls.props made
  created := made.created
  assigned := []

/-- What the native object of a class answers to `GetChecked` when it is created: an item that is
not told has it off, and the others do not know it. -/
def Class.checked (cls : Class) (option : OptionObject) : Option Bool :=
  match cls with
  | .menuItem => some (decide (option .checked = some (.bool true)))
  | _ => none

/-- What becomes of the option objects, and the object that is made. -/
def construct (options : Nat → OptionObject) (cls : Class) (arg : Arg) (allocated : Int) :
    (Nat → OptionObject) × Except String Made :=
  match arg with
  | .notObject => (options, cls.constructAbsent env allocated "TypeError: Invalid option.")
  | .null =>
    (options, cls.constructAbsent env allocated
      "TypeError: Cannot read property 'hasOwnProperty' of null")
  | .object r =>
    let (o, made) := cls.construct env allocated (options r)
    (Function.update options r o, made)

def State.construct (s : State) (cls : Class) (arg : Arg) (allocated : Int) : State :=
  match Options.construct env s.options cls arg allocated with
  | (options, .error _) => { s with options := options }
  | (options, .ok made) =>
    { options := options
      native :=
        match made.created with
        | none => s.native
        | some option => Function.update s.native made.id (cls.checked option)
      objects := s.objects ++ [cls.instance arg allocated made] }

/-! ## Assignments -/

/-- The object after an assignment, its store apart. -/
def Instance.assign (inst : Instance) (k : Key) (v : JsVal) (thrown : Bool) : Instance :=
  let inst := { inst with assigned := inst.assigned ++ [(k, v)] }
  match inst.cls, k with
  | .menuItem, .submenu => { inst with menu := some v }
  | .tray, .menu => if thrown then inst else { inst with menu := some v }
  | cls, k => if k ∈ cls.accessors then inst else { inst with props := set inst.props k v }

/-- The option objects and the object after an assignment. -/
def Instance.after (inst : Instance) (options : Nat → OptionObject) (k : Key) (v : JsVal) :
    (Nat → OptionObject) × Instance :=
  let (o, thrown) := exec (inst.option options) (inst.cls.setter env k v)
  let inst' := inst.assign k v thrown.isSome
  match inst.store with
  | .caller r => (Function.update options r o, inst')
  | .own _ => (options, { inst' with store := .own o })

/-- What `SetChecked` is called with. -/
def Instance.setChecked (inst : Instance) (options : Nat → OptionObject) (k : Key) (v : JsVal) :
    Option Bool :=
  if k = .checked ∧ inst.IsCheckbox env options then some (v.truthy env) else none

/-- What `GetChecked` answers after `SetChecked`. -/
def State.setChecked (s : State) (id : JsVal) : Option Bool → JsVal → Option Bool
  | none => s.native
  | some checked => Function.update s.native id ((s.native id).map fun _ => checked)

def State.assign (s : State) (i : Nat) (inst : Instance) (k : Key) (v : JsVal) : State :=
  let (options, inst') := inst.after env s.options k v
  { options := options
    native := s.setChecked inst.id (inst.setChecked env s.options k v)
    objects := s.objects.set i inst' }

/-- One operation of the page; `none` where it is none. -/
def State.step (s : State) : Op → Option State
  | .construct cls arg allocated => some (s.construct env cls arg allocated)
  | .assign i k v =>
    match s.objects[i]? with
    | none => none
    | some inst => if k = .id then none else some (s.assign env i inst k v)

def State.run (s : State) (ops : List Op) : Option State := ops.foldlM (State.step env) s

/-- Before the first construction. -/
def State.init (original : Nat → OptionObject) (outside : JsVal → Option Bool) : State where
  options := original
  native := outside
  objects := []

/-! ## Independence -/

/-- The operations on an object, if there was no other. -/
def Instance.ops (inst : Instance) : List Op :=
  .construct inst.cls inst.arg inst.allocated ::
    inst.assigned.map fun (k, v) => .assign 0 k v

/-- The page's option objects are as they were, and the native options and the properties of every
object are as if it was alone. -/
def Independent (original : Nat → OptionObject) (outside : JsVal → Option Bool) (s : State) :
    Prop :=
  s.options = original ∧
    ∀ inst ∈ s.objects, ∃ t own,
      (State.init original outside).run env inst.ops = some t ∧ t.objects = [own] ∧
        inst.created = own.created ∧ ∀ k, s.getter env inst k = t.getter env own k

/-! ## The condition -/

/-- The object that a constructor finds. -/
def Arg.option (options : Nat → OptionObject) : Arg → OptionObject
  | .object r => options r
  | _ => fun _ => none

/-- What a constructor keeps of an object that is settled. -/
def Class.kept (cls : Class) (o : OptionObject) : OptionObject :=
  match cls with
  | .menuItem =>
    if MenuItem.isSeparator env o then (exec MenuItem.separator MenuItem.defaultStmts).1 else o
  | _ => o

/-- `option.id || nw.Obj.allocateId()`. -/
def Class.idOf (cls : Class) (allocated : Int) (o : OptionObject) : JsVal :=
  match cls with
  | .menuItem =>
    if (get (cls.kept env o) .id).truthy env then get (cls.kept env o) .id else .num allocated
  | _ => .num allocated

/-- The item is there natively. -/
def Class.isNative (cls : Class) (o : OptionObject) : Bool :=
  match cls with
  | .menuItem => (get (cls.kept env o) .native).truthy env
  | _ => false

/-- The checkboxes that have an id, the object `i` apart, have `checked` natively. -/
def State.Agree (s : State) (i : Option Nat) (id : JsVal) (checked : Option Bool) : Prop :=
  ∀ j inst, s.objects[j]? = some inst → some j ≠ i → inst.IsCheckbox env s.options →
    inst.id = id → s.native id = checked

/-- What is set is there already, and no other checkbox has the id natively. -/
def StepOk (outside : JsVal → Option Bool) (s : State) : Op → Prop
  | .construct cls arg allocated =>
    let o := arg.option s.options
    (∀ r, arg = .object r → Settled o (cls.stmts env allocated o)) ∧
      ((construct env s.options cls arg allocated).2.isOk = true →
        if cls.isNative env o then
          (get (cls.kept env o) .type).equals env "checkbox" = true →
            outside (cls.idOf env allocated o) = s.native (cls.idOf env allocated o)
        else s.Agree env none (cls.idOf env allocated o) (cls.checked (cls.kept env o)))
  | .assign i k v =>
    ∀ inst, s.objects[i]? = some inst →
      (∀ r, inst.store = .caller r → Settled (s.options r) (inst.cls.setter env k v)) ∧
        ∀ checked, inst.setChecked env s.options k v = some checked →
          s.Agree env (some i) inst.id ((s.native inst.id).map fun _ => checked)

/-! ## Getters -/

/-- `checked` of a checkbox is what the native side answers for its id, and undefined where there is
none. -/
theorem Instance.IsCheckbox.getter {inst : Instance} {s : State}
    (h : inst.IsCheckbox env s.options) :
    s.getter env inst .checked = (s.native inst.id).elim .undefined .bool := by
  unfold State.getter
  rw [h.1]
  exact if_pos h.2

theorem elim_bool_injective {a b : Option Bool}
    (h : a.elim JsVal.undefined .bool = b.elim JsVal.undefined .bool) : a = b := by
  cases a <;> cases b <;> simp_all

/-- A getter reads the object that is kept, the object itself, and natively what `GetChecked`
answers. -/
theorem getter_congr {s t : State} {inst : Instance} (hoptions : s.options = t.options)
    (hnative : inst.IsCheckbox env t.options → s.native inst.id = t.native inst.id) (k : Key) :
    s.getter env inst k = t.getter env inst k := by
  unfold State.getter
  rw [hoptions]
  by_cases hcheckbox : inst.IsCheckbox env t.options
  · rw [hnative hcheckbox]
  · -- only a checkbox asks the native side
    unfold Class.getter
    congr 1
    split <;> try rfl
    rename_i hcls
    have htype : ¬ (get (inst.option t.options) .type).equals env "checkbox" = true :=
      fun htype => hcheckbox ⟨hcls, htype⟩
    rw [if_neg htype, if_neg htype]

/-! ## What a settled construction makes -/

/-- **What a settled construction makes**: an object with the id that was found or allocated, a
native one unless there is one already, and the option object itself as its store. -/
theorem Class.construct_ok {cls : Class} {allocated : Int} {o o' : OptionObject} {made : Made}
    (h : cls.construct env allocated o = (o', .ok made))
    (hsettled : Settled o (cls.stmts env allocated o)) :
    made.id = cls.idOf env allocated o ∧
      made.created = (if cls.isNative env o then none else some (cls.kept env o)) ∧
      (if made.own then made.store else o) = cls.kept env o := by
  -- a settled object comes out of the constructor as it went in
  have hfst := hsettled.exec_fst
  cases cls with
  | menuItem =>
    replace h : MenuItem.construct env allocated o = (o', .ok made) := h
    replace hfst : (exec o (MenuItem.stmts env o)).1 = o := hfst
    unfold MenuItem.construct at h
    split at h
    · cases h
    · rename_i hexec
      rw [hexec] at hfst
      obtain rfl := hfst
      cases h
      refine ⟨rfl, rfl, ?_⟩
      cases hown : MenuItem.isSeparator env o' <;> simp [kept, hown]
  | tray =>
    replace h : Tray.construct env allocated o = (o', .ok made) := h
    replace hfst : (exec o (Tray.stmts env)).1 = o := hfst
    unfold Tray.construct at h
    split at h
    · cases h
    · rename_i hexec
      rw [hexec] at hfst
      obtain rfl := hfst
      cases h
      exact ⟨rfl, rfl, rfl⟩
  | menu =>
    replace h : Menu.construct env allocated o = (o', .ok made) := h
    replace hfst : (exec o (Menu.stmts env allocated)).1 = o := hfst
    unfold Menu.construct at h
    split at h
    · cases h
    · rename_i hexec
      rw [hexec] at hfst
      obtain rfl := hfst
      cases h
      exact ⟨rfl, rfl, rfl⟩

/-- Without an option object only a menu can be made, with an id of its own. -/
theorem Class.constructAbsent_ok {cls : Class} {allocated : Int} {error : String} {made : Made}
    (h : cls.constructAbsent env allocated error = .ok made) :
    cls = .menu ∧ made.id = .num allocated ∧ made.created.isSome := by
  cases cls with
  | menuItem => cases h
  | tray => cases h
  | menu =>
    cases h
    exact ⟨rfl, rfl, rfl⟩

/-- The option objects are left as they were exactly when the one that is passed is settled. -/
theorem construct_eq_self_iff (options : Nat → OptionObject) (cls : Class) (arg : Arg)
    (allocated : Int) : (construct env options cls arg allocated).1 = options ↔
      ∀ r, arg = .object r →
        Settled (arg.option options) (cls.stmts env allocated (arg.option options)) := by
  cases arg with
  | notObject => exact iff_of_true rfl nofun
  | null => exact iff_of_true rfl nofun
  | object r =>
    refine Iff.trans ?_ (Iff.trans (cls.construct_eq_self_iff env allocated (options r)) ?_)
    · exact Function.update_eq_self_iff
    · exact ⟨fun h _ _ => h, fun h => h r rfl⟩

theorem construct_absent (options : Nat → OptionObject) (cls : Class) {arg : Arg}
    (allocated : Int) (h : ∀ r, arg ≠ .object r) : ∃ error,
      construct env options cls arg allocated =
        (options, cls.constructAbsent env allocated error) := by
  cases arg with
  | notObject => exact ⟨_, rfl⟩
  | null => exact ⟨_, rfl⟩
  | object r => exact absurd rfl (h r)

/-- The same for a construction of the page, whatever it passes. The object is a checkbox exactly if
the options that it keeps say so. -/
theorem construct_ok {options options' : Nat → OptionObject} {cls : Class} {arg : Arg}
    {allocated : Int} {made : Made}
    (h : construct env options cls arg allocated = (options', .ok made))
    (hsettled : ∀ r, arg = .object r →
      Settled (arg.option options) (cls.stmts env allocated (arg.option options))) :
    made.id = cls.idOf env allocated (arg.option options) ∧
      made.created.map cls.checked =
        (if cls.isNative env (arg.option options) then none
          else some (cls.checked (cls.kept env (arg.option options)))) ∧
      ((cls.instance arg allocated made).IsCheckbox env options ↔ cls = .menuItem ∧
        (get (cls.kept env (arg.option options)) .type).equals env "checkbox" = true) := by
  by_cases harg : ∃ r, arg = .object r
  · obtain ⟨r, rfl⟩ := harg
    obtain ⟨-, hmade⟩ := Prod.mk.inj h
    obtain ⟨hid, hcreated, hstore⟩ := Class.construct_ok env
      (Prod.ext rfl hmade : cls.construct env allocated (options r) = (_, .ok made))
      (hsettled r rfl)
    refine ⟨hid, ?_, and_congr_right fun _ => ?_⟩
    · rw [hcreated, apply_ite (Option.map cls.checked)]
      rfl
    · -- the object that is kept
      have hoption : (cls.instance (.object r) allocated made).option options =
          cls.kept env (options r) := by
        rw [← hstore]
        unfold Instance.option Class.instance
        cases made.own <;> rfl
      rw [hoption]
      exact Iff.rfl
  · -- only a menu is made without an object
    obtain ⟨error, habsent⟩ :=
      construct_absent env options cls allocated fun r heq => harg ⟨r, heq⟩
    rw [habsent] at h
    obtain ⟨rfl, hid, hcreated⟩ := Class.constructAbsent_ok env (Prod.mk.inj h).2
    obtain ⟨option, hoption⟩ := Option.isSome_iff_exists.mp hcreated
    rw [hoption]
    exact ⟨hid, rfl, iff_of_false (fun hcheckbox => nomatch hcheckbox.1) nofun⟩

/-! ## Alone -/

section Alone

variable (original : Nat → OptionObject) (outside : JsVal → Option Bool)

/-- The state of the operations on an object, if there was no other. -/
structure Alone (inst : Instance) (t : State) : Prop where
  run : (State.init original outside).run env inst.ops = some t
  options : t.options = original
  objects : t.objects = [inst]

/-- Every object is as if it was alone. -/
structure Inv (s : State) : Prop where
  options : s.options = original
  alone : ∀ inst ∈ s.objects, ∃ t, Alone env original outside inst t ∧
    (inst.IsCheckbox env original → t.native inst.id = s.native inst.id)

variable {env original outside} {s t : State} {inst : Instance}

theorem Inv.init : Inv env original outside (State.init original outside) :=
  ⟨rfl, fun _ hmem => absurd hmem List.not_mem_nil⟩

/-- **The invariant gives independence.** A getter of an object reads its own properties, the option
object and the native checkbox, which are the same in the run of this object alone. -/
theorem Inv.independent (h : Inv env original outside s) : Independent env original outside s := by
  refine ⟨h.options, fun inst hmem => ?_⟩
  obtain ⟨t, ht, hnative⟩ := h.alone inst hmem
  refine ⟨t, inst, ht.run, ht.objects, rfl, fun k => ?_⟩
  refine getter_congr env (h.options.trans ht.options.symm) (fun hcheckbox => ?_) k
  rw [ht.options] at hcheckbox
  exact (hnative hcheckbox).symm

/-- An independent checkbox has the state that it has alone, as its getter tells the two apart. -/
theorem Independent.native (h : Independent env original outside s) (hmem : inst ∈ s.objects)
    (ht : Alone env original outside inst t) (hcheckbox : inst.IsCheckbox env original) :
    t.native inst.id = s.native inst.id := by
  obtain ⟨hoptions, halone⟩ := h
  obtain ⟨t', own, hrun, hobjects, -, hgetter⟩ := halone inst hmem
  obtain rfl : t' = t := Option.some.inj (hrun.symm.trans ht.run)
  obtain rfl : own = inst := by
    rw [ht.objects] at hobjects
    exact (List.cons.inj hobjects).1.symm
  have hchecked := hgetter .checked
  rw [Instance.IsCheckbox.getter env (hoptions ▸ hcheckbox),
    Instance.IsCheckbox.getter env (ht.options ▸ hcheckbox)] at hchecked
  exact (elim_bool_injective hchecked).symm

/-! ## Constructions -/

/-- What `GetChecked` answers after a construction that is settled. -/
def Class.register (cls : Class) (env : Env) (o : OptionObject) (id : JsVal)
    (native : JsVal → Option Bool) : JsVal → Option Bool :=
  if cls.isNative env o then native
  else Function.update native id (cls.checked (cls.kept env o))

/-- A settled construction writes to no option object. It adds the object, and the native one if it
makes it. -/
theorem construct_settled {options' : Nat → OptionObject} {cls : Class} {arg : Arg}
    {allocated : Int} {made : Made}
    (h : construct env s.options cls arg allocated = (options', .ok made))
    (hsettled : ∀ r, arg = .object r →
      Settled (arg.option s.options) (cls.stmts env allocated (arg.option s.options))) :
    s.construct env cls arg allocated =
      { options := s.options
        native := cls.register env (arg.option s.options) made.id s.native
        objects := s.objects ++ [cls.instance arg allocated made] } := by
  have hoptions : options' = s.options := by
    have hfst := (construct_eq_self_iff env s.options cls arg allocated).mpr hsettled
    rwa [h] at hfst
  obtain ⟨-, hcreated, -⟩ := construct_ok env h hsettled
  unfold State.construct Class.register
  rw [h, hoptions]
  -- what was created is what the class says, or the option is native
  cases hmade : made.created with
  | none =>
    rw [hmade] at hcreated
    split at hcreated
    · rename_i hnative
      simp only [hmade, hnative, if_true]
    · cases hcreated
  | some option =>
    rw [hmade] at hcreated
    split at hcreated
    · cases hcreated
    · rename_i hnative
      simp only [hmade, hnative, Bool.false_eq_true, if_false]
      rw [← Option.some.inj hcreated]

/-- An object is alone after its construction out of the original options, which is where its run
begins. -/
theorem Alone.construct {options' : Nat → OptionObject} {cls : Class} {arg : Arg}
    {allocated : Int} {made : Made}
    (h : construct env original cls arg allocated = (options', .ok made))
    (hsettled : ∀ r, arg = .object r →
      Settled (arg.option original) (cls.stmts env allocated (arg.option original))) :
    Alone env original outside (cls.instance arg allocated made)
      ((State.init original outside).construct env cls arg allocated) := by
  have hspec := construct_settled (s := State.init original outside) h hsettled
  rw [hspec]
  exact ⟨congrArg some hspec, rfl, rfl⟩

/-- **A construction keeps the invariant.** The new object begins its own run. The others still
agree with theirs, because the condition says that no checkbox had the id of the new native object.
-/
theorem Inv.construct (h : Inv env original outside s) {cls : Class} {arg : Arg} {allocated : Int}
    (hok : StepOk env outside s (.construct cls arg allocated)) :
    Inv env original outside (s.construct env cls arg allocated) := by
  obtain ⟨hsettled, hnative⟩ := hok
  have hfst := (construct_eq_self_iff env s.options cls arg allocated).mpr hsettled
  cases hresult : Options.construct env s.options cls arg allocated with
  | mk options' result =>
  rw [hresult] at hfst hnative
  cases result with
  | error error =>
    have hconstruct : s.construct env cls arg allocated = s := by
      unfold State.construct
      rw [hresult, show options' = s.options from hfst]
    rw [hconstruct]
    exact h
  | ok made =>
    replace hnative := hnative rfl
    obtain ⟨hid, -, hcheckbox⟩ := construct_ok env hresult hsettled
    rw [construct_settled hresult hsettled]
    refine ⟨h.options, fun inst hmem => ?_⟩
    rcases List.mem_append.mp hmem with hmem | hmem
    · obtain ⟨t, ht, hsame⟩ := h.alone inst hmem
      refine ⟨t, ht, fun hinst => (hsame hinst).trans ?_⟩
      by_cases hisNative : cls.isNative env (arg.option s.options) = true
      · simp only [Class.register, if_pos hisNative]
      · -- the new item may have the id
        simp only [Class.register, if_neg hisNative]
        rw [if_neg hisNative] at hnative
        by_cases heq : inst.id = made.id
        · obtain ⟨j, hj⟩ := List.mem_iff_getElem?.mp hmem
          rw [heq, Function.update_self, hid]
          refine hnative j inst hj nofun ?_ (heq.trans hid)
          rw [h.options]
          exact hinst
        · rw [Function.update_of_ne heq]
    · obtain rfl := List.mem_singleton.mp hmem
      rw [h.options] at hresult hsettled hnative hcheckbox hid ⊢
      refine ⟨_, Alone.construct hresult hsettled, fun hinst => ?_⟩
      rw [construct_settled (s := State.init original outside) hresult hsettled]
      change cls.register env (arg.option original) made.id outside made.id =
        cls.register env (arg.option original) made.id s.native made.id
      unfold Class.register
      by_cases hisNative : cls.isNative env (arg.option original) = true
      · rw [if_pos hisNative] at hnative
        rw [if_pos hisNative, if_pos hisNative, hid]
        exact hnative (hcheckbox.mp hinst).2
      · rw [if_neg hisNative, if_neg hisNative, Function.update_self, Function.update_self]

/-! ## Assignments -/

/-- An assignment notes itself in the object and changes its own properties at most. -/
theorem Instance.assign_eq (inst : Instance) (k : Key) (v : JsVal) (thrown : Bool) :
    inst.assign k v thrown =
      { inst with
        menu := (inst.assign k v thrown).menu
        props := (inst.assign k v thrown).props
        assigned := inst.assigned ++ [(k, v)] } := by
  unfold Instance.assign
  dsimp only
  split
  · rfl
  · split <;> rfl
  · split <;> rfl

section After

variable (inst : Instance) (options : Nat → OptionObject) (k : Key) (v : JsVal)

theorem after_ops : (inst.after env options k v).2.ops = inst.ops ++ [.assign 0 k v] := by
  unfold Instance.after
  dsimp only
  rw [Instance.assign_eq]
  split <;> simp only [Instance.ops, List.map_append, List.map_cons, List.map_nil,
    List.cons_append]

theorem after_id : (inst.after env options k v).2.id = inst.id := by
  unfold Instance.after
  dsimp only
  rw [Instance.assign_eq]
  split <;> rfl

/-- The option objects are left as they were exactly when the object that is kept is settled, or
is its own. -/
theorem after_eq_self_iff : (inst.after env options k v).1 = options ↔
    ∀ r, inst.store = .caller r → Settled (options r) (inst.cls.setter env k v) := by
  unfold Instance.after
  cases hstore : inst.store with
  | own o => exact iff_of_true rfl nofun
  | caller r =>
    have hoption : inst.option options = options r := by rw [Instance.option, hstore]
    dsimp only
    rw [Function.update_eq_self_iff, hoption, Class.setter_eq_self_iff]
    refine ⟨fun h r' hr' => ?_, fun h => h r rfl⟩
    cases hr'
    exact h

/-- An assignment makes no checkbox: the type of an item is read from the object it keeps, where no
setter sets it. -/
theorem isCheckbox_of_after
    (h : (inst.after env options k v).2.IsCheckbox env (inst.after env options k v).1) :
    inst.IsCheckbox env options := by
  have htype := inst.cls.exec_setter_type env k v (inst.option options)
  unfold Instance.after at h
  unfold Instance.IsCheckbox get
  rw [← htype]
  dsimp only at h
  rw [Instance.assign_eq] at h
  cases hstore : inst.store with
  | own o =>
    rw [hstore] at h
    exact h
  | caller r =>
    rw [hstore] at h
    simp only [Instance.IsCheckbox, Instance.option, hstore, Function.update_self] at h
    rw [Instance.option, hstore]
    exact h

end After

theorem run_append {s t u : State} {ops : List Op} {op : Op} (h : s.run env ops = some t)
    (hop : t.step env op = some u) : s.run env (ops ++ [op]) = some u := by
  unfold State.run at h ⊢
  rw [List.foldlM_append, h]
  exact (bind_pure _).trans hop

/-- The assignment in the state in which the object is alone. It does there to the object what it
does in the common run. -/
theorem Alone.assign (ht : Alone env original outside inst t) {k : Key} {v : JsVal} (hk : k ≠ .id)
    (hkeeps : (inst.after env original k v).1 = original) :
    Alone env original outside (inst.after env original k v).2 (t.assign env 0 inst k v) := by
  obtain ⟨hrun, hoptions, hobjects⟩ := ht
  refine ⟨?_, ?_, ?_⟩
  · rw [after_ops]
    refine run_append hrun ?_
    simp only [State.step, hobjects, List.getElem?_cons_zero, if_neg hk]
  · simp only [State.assign, hoptions, hkeeps]
  · simp only [State.assign, hoptions, hobjects, List.set_cons_zero]

/-- **An assignment keeps the invariant.** The run of the object that is assigned gets longer. For
another object the native state under its id is what it was: no other checkbox has the id that is
set, or the value is the one it has. -/
theorem Inv.assign (h : Inv env original outside s) {i : Nat} {k : Key} {v : JsVal} (hk : k ≠ .id)
    (hinst : s.objects[i]? = some inst) (hok : StepOk env outside s (.assign i k v)) :
    Inv env original outside (s.assign env i inst k v) := by
  obtain ⟨hsettled, hagree⟩ := hok inst hinst
  have hkeeps := (after_eq_self_iff inst s.options k v).mpr hsettled
  rw [h.options] at hkeeps hagree
  refine ⟨?_, fun other hmem => ?_⟩
  · simp only [State.assign, h.options, hkeeps]
  simp only [State.assign, h.options] at hmem ⊢
  obtain ⟨j, hj⟩ := List.mem_iff_getElem?.mp hmem
  by_cases hij : j = i
  · -- the object itself
    rw [hij, List.getElem?_set_self (List.getElem?_eq_some_iff.mp hinst).1] at hj
    obtain rfl := Option.some.inj hj
    obtain ⟨t, ht, hsame⟩ := h.alone inst (List.mem_of_getElem? hinst)
    refine ⟨_, ht.assign hk hkeeps, fun hcheckbox => ?_⟩
    have hbefore := hsame (isCheckbox_of_after inst original k v (by rwa [hkeeps]))
    simp only [State.assign, ht.options, after_id]
    -- only `checked` of a checkbox reaches the native side
    cases inst.setChecked env original k v with
    | none => exact hbefore
    | some checked =>
      simp only [State.setChecked, Function.update_self]
      rw [hbefore]
  · -- another one, which may have the id
    rw [List.getElem?_set_ne (Ne.symm hij)] at hj
    obtain ⟨t, ht, hsame⟩ := h.alone other (List.mem_of_getElem? hj)
    refine ⟨t, ht, fun hcheckbox => (hsame hcheckbox).trans ?_⟩
    cases hset : inst.setChecked env original k v with
    | none => rfl
    | some checked =>
      by_cases heq : other.id = inst.id
      · simp only [State.setChecked, heq, Function.update_self]
        refine hagree checked hset j other hj (by simpa using hij) ?_ heq
        rwa [h.options]
      · simp only [State.setChecked, Function.update_of_ne heq]

/-- Every step under the condition keeps the invariant. -/
theorem Inv.step (h : Inv env original outside s) {op : Op} (hok : StepOk env outside s op)
    (hst : s.step env op = some t) : Inv env original outside t := by
  cases op with
  | construct cls arg allocated =>
    cases hst
    exact h.construct hok
  | assign i k v =>
    simp only [State.step] at hst
    split at hst
    · cases hst
    · rename_i inst hinst
      split at hst
      · cases hst
      · rename_i hk
        cases hst
        exact h.assign hk hinst hok

/-! ## Independence needs the condition -/

/-- **The way back for a construction.** If the objects are independent afterwards, no option object
was written to, so the construction was settled; and a checkbox that had the id would now show the
state of the new native object. -/
theorem Inv.stepOk_construct (h : Inv env original outside s) {cls : Class} {arg : Arg}
    {allocated : Int}
    (hafter : Independent env original outside (s.construct env cls arg allocated)) :
    StepOk env outside s (.construct cls arg allocated) := by
  cases hresult : Options.construct env s.options cls arg allocated with
  | mk options' result =>
  have hoptions : (Options.construct env s.options cls arg allocated).1 = s.options := by
    have hsame := hafter.1.trans h.options.symm
    rw [hresult]
    unfold State.construct at hsame
    rw [hresult] at hsame
    cases result <;> exact hsame
  have hsettled := (construct_eq_self_iff env s.options cls arg allocated).mp hoptions
  refine ⟨hsettled, fun hmakes => ?_⟩
  rw [hresult] at hmakes
  cases result with
  | error error => cases hmakes
  | ok made =>
    obtain ⟨hid, -, hcheckbox⟩ := construct_ok env hresult hsettled
    rw [construct_settled hresult hsettled] at hafter
    rw [h.options] at hresult hsettled hcheckbox hid hafter ⊢
    split
    · -- the item is there natively
      rename_i hisNative
      intro htype
      have hcls : cls = .menuItem := by
        cases cls <;> first | rfl | cases hisNative
      have hsame := hafter.native (List.mem_append_right _ (List.mem_singleton.mpr rfl))
        (Alone.construct hresult hsettled) (hcheckbox.mpr ⟨hcls, htype⟩)
      rw [construct_settled (s := State.init original outside) hresult hsettled] at hsame
      change cls.register env (arg.option original) made.id outside made.id =
        cls.register env (arg.option original) made.id s.native made.id at hsame
      simp only [Class.register, if_pos hisNative] at hsame
      rw [← hid]
      exact hsame
    · -- a checkbox that has the id
      rename_i hisNative
      intro j inst hj _ hinst heq
      rw [h.options] at hinst
      obtain ⟨t, ht, hsame⟩ := h.alone inst (List.mem_of_getElem? hj)
      have hnative := hafter.native (List.mem_append_left _ (List.mem_of_getElem? hj)) ht hinst
      rw [hsame hinst] at hnative
      simp only [Class.register, if_neg hisNative, heq, hid, Function.update_self] at hnative
      exact hnative

/-- **The way back for an assignment.** The option object is the original one, so the setter was
settled; and another checkbox under the id has the state that it has alone, which is the one that
was set. -/
theorem Inv.stepOk_assign (h : Inv env original outside s) {i : Nat} {k : Key} {v : JsVal}
    (hinst : s.objects[i]? = some inst)
    (hafter : Independent env original outside (s.assign env i inst k v)) :
    StepOk env outside s (.assign i k v) := by
  intro inst' hinst'
  obtain rfl : inst' = inst := Option.some.inj (hinst'.symm.trans hinst)
  refine ⟨?_, fun checked hset j other hj hne hother heq => ?_⟩
  · refine (after_eq_self_iff inst' s.options k v).mp ?_
    exact hafter.1.trans h.options.symm
  · rw [h.options] at hother
    obtain ⟨t, ht, hsame⟩ := h.alone other (List.mem_of_getElem? hj)
    have hmem : other ∈ (s.assign env i inst' k v).objects := by
      refine List.mem_of_getElem? (i := j) ?_
      simp only [State.assign]
      rw [List.getElem?_set_ne (fun hij => hne (congrArg some hij.symm))]
      exact hj
    have hnative := hafter.native hmem ht hother
    rw [hsame hother] at hnative
    simp only [State.assign, hset, State.setChecked, heq, Function.update_self] at hnative
    exact hnative

end Alone

/-! ## All runs -/

/-- **Shared options.** The runs after each step of which the objects are independent and the
page's option objects are as they were are those whose steps find what they set. -/
theorem shared_options_iff (original : Nat → OptionObject) (outside : JsVal → Option Bool)
    (ops : List Op) (t : State) :
    Run (Guarded (fun s op => ∀ t, s.step env op = some t → Independent env original outside t)
        (ofPartial (State.step env))) (State.init original outside) ops t ↔
      Run (Guarded (StepOk env outside) (ofPartial (State.step env)))
        (State.init original outside) ops t := by
  refine Run.owed_iff (fun _ _ _ h hok hst => Inv.step h hok hst) (fun _ h => h.independent) ?_
    Inv.init
  intro s op t h hst hafter
  cases op with
  | construct cls arg allocated =>
    cases hst
    exact h.stepOk_construct hafter
  | assign i k v =>
    simp only [State.step] at hst
    split at hst
    · cases hst
    · rename_i inst hinst
      split at hst
      · cases hst
      · cases hst
        exact h.stepOk_assign hinst hafter

end Env

/-- A page with a menu whose id is 5. -/
def fileEnv : Env where
  truthy := fun _ => true
  string := fun _ => "[object Object]"
  equals := fun _ _ => false
  isFunction := fun _ => false
  isMenu := fun _ => true
  id := fun _ => .num 5
  absolutePath := fun path => path

/-- `{ label: 'File', submenu: menu }`. -/
def fileOption : OptionObject := ItemOptions.toObject { label := "File", submenu := some 0 }

/-- Two items made of it: the constructor has put the id of the menu in its place, and the second
item has a number for its submenu. -/
theorem fileOption_not_independent :
    ¬ ∀ t, (State.init (fun _ => fileOption) fun _ => none).run fileEnv
        [.construct .menuItem (.object 0) 6, .construct .menuItem (.object 0) 7] = some t →
      Independent fileEnv (fun _ => fileOption) (fun _ => none) t := by
  intro h
  obtain ⟨-, halone⟩ := h _ rfl
  obtain ⟨t, own, hrun, hobjects, -, hgetter⟩ :=
    halone _ (List.mem_append_right _ (List.mem_singleton.mpr rfl))
  cases hrun
  cases hobjects
  cases hgetter .submenu

end NodeWebkit.Options
