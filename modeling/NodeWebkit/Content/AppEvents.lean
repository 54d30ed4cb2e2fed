import NodeWebkit.Lib.BaseValues

/-!
# Events for the running apps

A second instance hands its command line to the first one, and the system its URLs; both go to the
apps as `nw.App.onOpen`. `SendEventToApp` goes through the enabled extensions and dispatches an
event to each app that runs, and the list of arguments is moved into the first of these events.

* **`sendEventToApp_eq`** — what is dispatched: the first recipient gets the arguments, the others a
  null list;
* **`nodup_extensionId_sendEventToApp`** — no one gets two events;
* **`delivered_sendEventToApp_iff`** — every recipient gets the arguments exactly if there is at
  most one of them;
* **`appEvents_iff`** — the same for the hooks that send events.
-/

namespace NodeWebkit.Content.AppEvents

open BaseValues

/-- `Manifest::Location`, as far as it is compared. -/
inductive Location where
  | commandLine
  | other
  deriving DecidableEq

structure Extension where
  id : String
  location : Location
  deriving DecidableEq

/-- The enabled extensions, which are kept by id, and those that run. -/
structure Apps where
  enabled : List Extension
  distinct : (enabled.map Extension.id).Nodup
  isRunning : String → Bool

/-- An event on its way to an extension; the list of arguments is a `scoped_ptr`. -/
structure Dispatch where
  extensionId : String
  eventName : String
  eventArgs : Option (List String)
  deriving DecidableEq

/-- The extension is one that `SendEventToApp` sends to. -/
def Apps.isApp (apps : Apps) (extension : Extension) : Bool :=
  apps.isRunning extension.id && extension.location = .commandLine

/-- The loop of `SendEventToApp`: `std::move` leaves a null pointer behind. -/
def Apps.dispatchTo (apps : Apps) (eventName : String) :
    Option (List String) → List Extension → List Dispatch
  | _, [] => []
  | eventArgs, extension :: rest =>
    if apps.isApp extension then
      ⟨extension.id, eventName, eventArgs⟩ :: apps.dispatchTo eventName none rest
    else apps.dispatchTo eventName eventArgs rest

def Apps.sendEventToApp (apps : Apps) (eventName : String) (eventArgs : List String) :
    List Dispatch :=
  apps.dispatchTo eventName (some eventArgs) apps.enabled

/-- `ProcessSingletonNotificationCallbackHook`, for the root of the package and the command line of
the second instance: what it answers, and what it dispatches. -/
def Apps.processSingletonNotificationCallbackHook (apps : Apps) (root : Dictionary)
    (cmd : String) : Bool × List Dispatch :=
  let singleInstance := (root.getBoolean "single-instance").getD true
  (singleInstance, if singleInstance then apps.sendEventToApp "nw.App.onOpen" [cmd] else [])

/-- `OSXOpenURLsHook`. -/
def Apps.osxOpenURLsHook (apps : Apps) (startupUrls : List String) : List Dispatch :=
  apps.sendEventToApp "nw.App.onOpen" startupUrls

/-! ## What has to arrive -/

/-- The apps that run. -/
def Apps.recipients (apps : Apps) : List Extension := apps.enabled.filter apps.isApp

/-- Each app that runs gets exactly one event with the arguments, and no one else gets any. -/
def Apps.Delivered (apps : Apps) (eventName : String) (eventArgs : List String)
    (dispatched : List Dispatch) : Prop :=
  ∀ id, dispatched.filter (fun d => decide (d.extensionId = id)) =
    if id ∈ apps.recipients.map Extension.id then [⟨id, eventName, some eventArgs⟩] else []

/-- The second instance is reported to the apps exactly if the package is not one of many
instances. -/
def Apps.SecondInstance (apps : Apps) (root : Dictionary) (cmd : String)
    (result : Bool × List Dispatch) : Prop :=
  if root.getBoolean "single-instance" = some false then result = (false, [])
  else result.1 = true ∧ apps.Delivered "nw.App.onOpen" [cmd] result.2

/-! ## What is dispatched -/

variable (apps : Apps) (eventName : String)

/-- After the first recipient the list is null for good: what is moved from stays empty for the rest
of the loop. -/
theorem dispatchTo_none (extensions : List Extension) :
    apps.dispatchTo eventName none extensions =
      (extensions.filter apps.isApp).map fun e => ⟨e.id, eventName, none⟩ := by
  induction extensions with
  | nil => rfl
  | cons e rest ih =>
    rw [Apps.dispatchTo, List.filter_cons]
    by_cases h : apps.isApp e = true
    · rw [if_pos h, if_pos h, List.map_cons, ih]
    · rw [if_neg h, if_neg h, ih]

/-- The loop up to the first recipient. Extensions that are no running app are passed, and the list
is still there when the first one is reached. -/
theorem dispatchTo_some (eventArgs : List String) (extensions : List Extension) :
    apps.dispatchTo eventName (some eventArgs) extensions =
      match extensions.filter apps.isApp with
      | [] => []
      | first :: others =>
        ⟨first.id, eventName, some eventArgs⟩ ::
          others.map fun e => ⟨e.id, eventName, none⟩ := by
  induction extensions with
  | nil => rfl
  | cons e rest ih =>
    rw [Apps.dispatchTo, List.filter_cons]
    by_cases h : apps.isApp e = true
    · rw [if_pos h, if_pos h, dispatchTo_none]
    · rw [if_neg h, if_neg h, ih]

/-- **What `SendEventToApp` dispatches:** the arguments to the first recipient, in the order of the
enabled extensions, and an event with a null list to each of the others. -/
theorem sendEventToApp_eq (eventArgs : List String) :
    apps.sendEventToApp eventName eventArgs =
      match apps.recipients with
      | [] => []
      | first :: others =>
        ⟨first.id, eventName, some eventArgs⟩ ::
          others.map fun e => ⟨e.id, eventName, none⟩ :=
  dispatchTo_some apps eventName eventArgs apps.enabled

/-- Each recipient gets one event, whatever its arguments are, and in the order of the enabled
extensions. -/
theorem map_extensionId_sendEventToApp (eventArgs : List String) :
    (apps.sendEventToApp eventName eventArgs).map Dispatch.extensionId =
      apps.recipients.map Extension.id := by
  rw [sendEventToApp_eq]
  cases apps.recipients with
  | nil => rfl
  | cons first others => simp

/-- No extension gets two events, as the set of enabled extensions has each of them once. -/
theorem nodup_extensionId_sendEventToApp (eventArgs : List String) :
    ((apps.sendEventToApp eventName eventArgs).map Dispatch.extensionId).Nodup := by
  rw [map_extensionId_sendEventToApp]
  exact (List.filter_sublist.map Extension.id).nodup apps.distinct

/-! ## When it arrives -/

/-- **All recipients get the arguments exactly if they are not two**: the first one always does, and
any other gets the null list. -/
theorem delivered_sendEventToApp_iff (eventArgs : List String) :
    apps.Delivered eventName eventArgs (apps.sendEventToApp eventName eventArgs) ↔
      apps.recipients.length ≤ 1 := by
  unfold Apps.Delivered
  rw [sendEventToApp_eq]
  match h : apps.recipients with
  | [] => simp
  | [first] =>
    simp only [List.length_singleton, Nat.le_refl, iff_true, List.map_nil, List.map_cons]
    intro id
    by_cases hid : first.id = id
    · simp [hid]
    · simp [hid, Ne.symm hid]
  | first :: second :: others =>
    constructor
    · intro hall
      -- the second recipient is given a null list
      have hsecond := hall second.id
      rw [if_pos (by simp)] at hsecond
      have hmem : (⟨second.id, eventName, none⟩ : Dispatch) ∈
          [(⟨second.id, eventName, some eventArgs⟩ : Dispatch)] := by
        rw [← hsecond]
        simp
      cases List.mem_singleton.mp hmem
    · intro hle
      simp at hle

/-- **Events reach the apps.** `SendEventToApp` gives every running app the arguments exactly if
there is at most one; a second instance and URLs are reported as they should be exactly then, or if
there is nothing to report. -/
theorem appEvents_iff (eventArgs : List String) (root : Dictionary) (cmd : String)
    (startupUrls : List String) :
    (apps.Delivered eventName eventArgs (apps.sendEventToApp eventName eventArgs) ↔
        apps.recipients.length ≤ 1) ∧
      (apps.SecondInstance root cmd (apps.processSingletonNotificationCallbackHook root cmd) ↔
        root.getBoolean "single-instance" = some false ∨ apps.recipients.length ≤ 1) ∧
      (apps.Delivered "nw.App.onOpen" startupUrls (apps.osxOpenURLsHook startupUrls) ↔
        apps.recipients.length ≤ 1) := by
  refine ⟨delivered_sendEventToApp_iff apps eventName eventArgs, ?_,
    delivered_sendEventToApp_iff apps "nw.App.onOpen" startupUrls⟩
  unfold Apps.SecondInstance Apps.processSingletonNotificationCallbackHook
  by_cases hfalse : root.getBoolean "single-instance" = some false
  · simp [hfalse]
  · have htrue : (root.getBoolean "single-instance").getD true = true := by
      match hb : root.getBoolean "single-instance" with
      | none => rfl
      | some true => rfl
      | some false => exact absurd hb hfalse
    rw [if_neg hfalse]
    simp only [htrue, if_true, true_and, hfalse, false_or]
    exact delivered_sendEventToApp_iff apps "nw.App.onOpen" [cmd]

/-- Two apps that run. -/
def twoApps : Apps where
  enabled := [⟨"first", .commandLine⟩, ⟨"second", .commandLine⟩]
  distinct := by decide
  isRunning _ := true

/-- The second of two apps does not get the command line: it gets the event, with the null list for
its arguments. -/
theorem not_delivered_twoApps :
    ¬ twoApps.Delivered "nw.App.onOpen" ["app file"]
      (twoApps.sendEventToApp "nw.App.onOpen" ["app file"]) := by
  intro h
  exact absurd (h "second") (by decide)

end NodeWebkit.Content.AppEvents
