import NodeWebkit.Menus.MenuBarView

/-!
# The buttons of a menu bar and the model behind them

The buttons of a `MenuBarView` are made when the menu is set. Looking for the button at a point, and
a click on a button, go by index into the model as it is then.

* **`MenuBarView.Aligned`** — looking for a button stays among the buttons and finds the submenu of
  the entry that the button was made for; a click opens and activates that entry;
* **`MenuBarView.aligned_iff`** — this is so, for all points and clicks, exactly if the entries are
  those that the buttons were made for, in what can be seen of an entry;
* **`ButtonsOk`** — the condition on a step: no entry is added to or taken from a menu that a view
  shows;
* **`buttons_aligned`** — the runs that keep the views aligned are those that meet the condition.

A view is looked at while it is a child of the root view, and as long as a menu opened from it runs:
the controller of the menu asks it for the button under the mouse.
-/

namespace NodeWebkit.Menus

open Lts

/-- The submenu of an entry that has the type for it. -/
def Entry.opened (entry : Entry) : Option (Option Nat) :=
  if entry.type = .submenu then some entry.submenu else none

/-- What can be seen of an entry in a menu bar: the item and its submenu. -/
def Entry.shown (entry : Entry) : Nat × Option (Option Nat) := (entry.item, entry.opened)

structure Point where
  x : Int
  y : Int

structure Bounds where
  x : Int := 0
  y : Int := 0
  width : Int := 0
  height : Int := 0

/-- `gfx::Rect::Contains` -/
def Bounds.contains (r : Bounds) (p : Point) : Bool :=
  r.x ≤ p.x && p.x < r.x + r.width && r.y ≤ p.y && p.y < r.y + r.height

/-- The size of a view and the bounds of its children. -/
structure Geometry where
  width : Int
  height : Int
  bounds : Nat → Bounds

/-- The point is in the view and on the child at an index. -/
def Geometry.On (geometry : Geometry) (loc : Point) (i : Nat) : Prop :=
  (0 ≤ loc.x ∧ loc.x < geometry.width ∧ 0 ≤ loc.y ∧ loc.y < geometry.height) ∧
    (geometry.bounds i).contains loc = true

namespace MenuBarView

/-- The loop of `GetMenuButtonAtLocation` from index `i` on, with the entries from there on. It ends
with an error where `child_at` has no child. -/
def scan (view : MenuBarView) (hit : Nat → Bool) :
    Nat → List Entry → Except Nat (Option (Nat × Option Nat))
  | _, [] => .ok none
  | i, entry :: rest =>
    if i < view.buttons.length then
      if hit i = true ∧ entry.type = .submenu then .ok (some (i, entry.submenu))
      else scan view hit (i + 1) rest
    else .error i

/-- The button at a point and the submenu to open there. -/
def getMenuButtonAtLocation (view : MenuBarView) (model : List Entry) (geometry : Geometry)
    (loc : Point) : Except Nat (Option (Nat × Option Nat)) :=
  if view.model_ = none then .ok none
  else if loc.x < 0 ∨ geometry.width ≤ loc.x ∨ loc.y < 0 ∨ geometry.height ≤ loc.y then .ok none
  else view.scan (fun i => (geometry.bounds i).contains loc) 0 model

/-- The menu that `OnMenuButtonClicked` runs for the button at an index, if it runs one. -/
def opens (model : List Entry) (button : Nat) : Except Nat (Option (Option Nat)) :=
  match model[button]? with
  | some entry => .ok entry.opened
  | none => .error button

/-- The item that `ActivatedAt` activates. -/
def activates (model : List Entry) (button : Nat) : Except Nat Nat :=
  match model[button]? with
  | some entry => .ok entry.item
  | none => .error button

/-- An answer as it should be, where the buttons from index `i` on are asked: a button at the point
with the submenu of its entry, or none if no button there has a submenu. -/
def Answers (view : MenuBarView) (on : Nat → Prop) (i : Nat) :
    Except Nat (Option (Nat × Option Nat)) → Prop
  | .error _ => False
  | .ok none => ∀ button entry, i ≤ button → view.buttons[button]? = some entry → on button →
      entry.opened = none
  | .ok (some (button, submenu)) =>
    on button ∧ ∃ entry, view.buttons[button]? = some entry ∧ entry.opened = some submenu

/-- For every point and every click, the view does what its buttons show. -/
structure Aligned (view : MenuBarView) (model : List Entry) : Prop where
  located : ∀ geometry loc,
    view.Answers (geometry.On loc) 0 (view.getMenuButtonAtLocation model geometry loc)
  clicked : ∀ button entry, view.buttons[button]? = some entry →
    opens model button = .ok entry.opened ∧ activates model button = .ok entry.item

variable {view : MenuBarView} {model : List Entry}

/-- Where no button contains the point, the loop goes through all indices of the model. -/
theorem scan_miss {hit : Nat → Bool} (hmiss : ∀ i, hit i = false) {rest : List Entry} {i : Nat}
    (hi : i ≤ view.buttons.length) (hlong : view.buttons.length < i + rest.length) :
    view.scan hit i rest = .error view.buttons.length := by
  induction rest generalizing i with
  | nil => exact absurd hlong (by simpa using hi)
  | cons entry rest ih =>
    rw [List.length_cons] at hlong
    rw [scan]
    by_cases hlt : i < view.buttons.length
    · rw [if_pos hlt, if_neg (by simp [hmiss]), ih (by omega) (by omega)]
    · rw [if_neg hlt]
      have heq : i = view.buttons.length := by omega
      rw [heq]

/-- A button that is not to be found does not change the answer, so the search may begin behind it.
-/
theorem Answers.of_succ {on : Nat → Prop} {i : Nat}
    {answer : Except Nat (Option (Nat × Option Nat))} (h : view.Answers on (i + 1) answer)
    (hskip : ∀ entry, view.buttons[i]? = some entry → on i → entry.opened = none) :
    view.Answers on i answer := by
  match answer, h with
  | .ok none, h =>
    intro button entry hle hbutton hon
    rcases Nat.eq_or_lt_of_le hle with rfl | hlt
    · exact hskip entry hbutton hon
    · exact h button entry hlt hbutton hon
  | .ok (some (button, submenu)), h => exact h

/-- Where the entries are what the buttons show, the answer is as it should be. -/
theorem answers_scan (hit : Nat → Bool) {rest : List Entry} {i : Nat}
    (h : (view.buttons.drop i).map Entry.shown = rest.map Entry.shown) :
    view.Answers (fun j => hit j = true) i (view.scan hit i rest) := by
  induction rest generalizing i with
  | nil =>
    intro button entry hle hbutton
    -- no entry is left, so no button is either
    have hlen := congrArg List.length h
    have hlt := (List.getElem?_eq_some_iff.mp hbutton).1
    simp only [List.length_map, List.length_drop, List.length_nil] at hlen
    omega
  | cons entry rest ih =>
    have hlt : i < view.buttons.length := by
      have hlen := congrArg List.length h
      simp only [List.length_map, List.length_drop, List.length_cons] at hlen
      omega
    rw [List.drop_eq_getElem_cons hlt, List.map_cons, List.map_cons, List.cons.injEq] at h
    have hopened : view.buttons[i].opened = entry.opened := congrArg Prod.snd h.1
    rw [scan, if_pos hlt]
    -- the button is at the point and opens a menu, or the search goes on
    by_cases hhit : hit i = true ∧ entry.type = .submenu
    · rw [if_pos hhit]
      refine ⟨hhit.1, view.buttons[i], List.getElem?_eq_getElem hlt, ?_⟩
      rw [hopened, Entry.opened, if_pos hhit.2]
    · rw [if_neg hhit]
      refine (ih h.2).of_succ fun button hbutton hon => ?_
      rw [List.getElem?_eq_getElem hlt] at hbutton
      cases hbutton
      rw [hopened, Entry.opened, if_neg fun htype => hhit ⟨hon, htype⟩]

theorem Answers.congr {on on' : Nat → Prop} (hon : ∀ i, on i ↔ on' i) {i : Nat}
    {answer : Except Nat (Option (Nat × Option Nat))} (h : view.Answers on i answer) :
    view.Answers on' i answer := by
  rwa [← funext fun i => propext (hon i)]

/-- No entry is behind the last button: the search for a point that is on no button would go past
the buttons there. -/
theorem Aligned.length_le (h : view.Aligned model) (hmodel : view.model_ ≠ none) :
    model.length ≤ view.buttons.length := by
  by_contra hlong
  -- a point of the bar that is on no button
  have hlocated := h.located ⟨1, 1, fun _ => {}⟩ ⟨0, 0⟩
  have hmiss : ∀ i : Nat, ((fun _ => {} : Nat → Bounds) i).contains ⟨0, 0⟩ = false := fun _ => rfl
  rw [getMenuButtonAtLocation, if_neg hmodel, if_neg (by decide),
    scan_miss hmiss (Nat.zero_le _) (by omega)] at hlocated
  exact hlocated

/-- The entry at the index of a button is the one the button shows. -/
theorem Aligned.shown_eq (h : view.Aligned model) {button : Nat} {entry : Entry}
    (hbutton : view.buttons[button]? = some entry) :
    model[button]?.map Entry.shown = some entry.shown := by
  obtain ⟨hopens, hactivates⟩ := h.clicked button entry hbutton
  unfold opens at hopens
  unfold activates at hactivates
  split at hopens
  · rename_i live hlive
    rw [hlive] at hactivates
    have hopened : live.opened = entry.opened := Except.ok.inj hopens
    have hitem : live.item = entry.item := Except.ok.inj hactivates
    rw [hlive, Option.map_some, Entry.shown, Entry.shown, hopened, hitem]
  · cases hopens

/-- **A view is aligned exactly if the model still has what its buttons show.** -/
theorem aligned_iff (hmodel : view.model_ ≠ none) :
    view.Aligned model ↔ view.buttons.map Entry.shown = model.map Entry.shown := by
  constructor
  · intro h
    apply List.ext_getElem?
    intro button
    rw [List.getElem?_map, List.getElem?_map]
    cases hbutton : view.buttons[button]? with
    | some entry => rw [h.shown_eq hbutton, Option.map_some]
    | none =>
      have hbeyond := List.getElem?_eq_none_iff.mp hbutton
      have hle := h.length_le hmodel
      rw [List.getElem?_eq_none (by omega), Option.map_none]
  · intro h
    refine ⟨fun geometry loc => ?_, fun button entry hbutton => ?_⟩
    · rw [getMenuButtonAtLocation, if_neg hmodel]
      split
      · -- outside of the view there is no button
        rename_i houtside
        intro button entry _ _ hon
        have hinside := hon.1
        omega
      · rename_i hinside
        have hin : 0 ≤ loc.x ∧ loc.x < geometry.width ∧ 0 ≤ loc.y ∧ loc.y < geometry.height := by
          omega
        exact (answers_scan (i := 0) _ h).congr fun i => (and_iff_right hin).symm
    · have hat := congrArg (fun shown => shown[button]?) h
      simp only [List.getElem?_map, hbutton, Option.map_some] at hat
      obtain ⟨live, hlive, hshown⟩ := Option.map_eq_some_iff.mp hat.symm
      have hitem : live.item = entry.item := congrArg Prod.fst hshown
      have hopened : live.opened = entry.opened := congrArg Prod.snd hshown
      rw [opens, activates, hlive]
      exact ⟨congrArg Except.ok hopened, congrArg Except.ok hitem⟩

end MenuBarView

namespace WindowViews

/-- The views that are looked at or clicked. -/
def views (s : WindowViews) : List MenuBarView :=
  s.menuBars ++ (s.running.map Prod.fst).toList

def Aligned (s : WindowViews) : Prop := ∀ view ∈ s.views, view.Aligned (s.live view)

/-- A view shows the menu. -/
def Shows (s : WindowViews) (m : Nat) : Prop := ∃ view ∈ s.views, view.model_ = some m

instance (s : WindowViews) (m : Nat) : Decidable (s.Shows m) :=
  inferInstanceAs (Decidable (∃ view ∈ s.views, view.model_ = some m))

variable (addSeparator : List Entry → Bool)

/-- What a step owes. -/
def StepAligned (s : WindowViews) (op : Op) : Prop :=
  ∀ t, s.step addSeparator op = some t → t.Aligned

/-- The condition on a step: while a view shows the menu, a separator is appended where none is
added, and insertions and removals are at positions that are not accepted. -/
def ButtonsOk (s : WindowViews) : Op → Prop
  | .append m entry => s.Shows m → entry.type = .separator ∧ addSeparator (s.models m) = false
  | .insert m _ pos => s.Shows m → ¬(0 ≤ pos ∧ pos ≤ (s.models m).length)
  | .remove m pos => s.Shows m → ¬(0 ≤ pos ∧ pos < (s.models m).length)
  | _ => True

instance (s : WindowViews) : DecidablePred (s.ButtonsOk addSeparator)
  | .append m entry => inferInstanceAs (Decidable (s.Shows m →
      entry.type = .separator ∧ addSeparator (s.models m) = false))
  | .insert m _ pos => inferInstanceAs (Decidable (s.Shows m →
      ¬(0 ≤ pos ∧ pos ≤ (s.models m).length)))
  | .remove m pos => inferInstanceAs (Decidable (s.Shows m →
      ¬(0 ≤ pos ∧ pos < (s.models m).length)))
  | .setMenu _ | .clearMenu | .click _ _ | .menuClosed => inferInstanceAs (Decidable True)

/-- The buttons of every view were made for the entries that its menu has. -/
def Fresh (s : WindowViews) : Prop :=
  ∀ view ∈ s.views, ∃ m, view.model_ = some m ∧ view.buttons = s.models m

variable {s t : WindowViews}

/-- The model of a view as it is now is that of the menu it was made for. -/
theorem live_eq {view : MenuBarView} {m : Nat} (h : view.model_ = some m) :
    s.live view = s.models m := by
  rw [live, h, Option.elim_some]

/-- **Fresh buttons are aligned**: if the entries are those that the buttons were made for, then
they agree with them in what can be seen of an entry. -/
theorem Fresh.aligned (h : s.Fresh) : s.Aligned := by
  intro view hview
  obtain ⟨m, hm, hbuttons⟩ := h view hview
  have hmodel : view.model_ ≠ none := by
    rw [hm]
    exact Option.some_ne_none m
  rw [MenuBarView.aligned_iff hmodel, live_eq hm, hbuttons]

/-- A model that changes is one that no view shows, or does not change. Only the views of this menu
look at it. -/
theorem Fresh.updateModel (h : s.Fresh) {m : Nat} {model : List Entry}
    (hsame : s.Shows m → model = s.models m) : (s.updateModel m model).Fresh := by
  intro view hview
  obtain ⟨k, hk, hbuttons⟩ := h view hview
  refine ⟨k, hk, ?_⟩
  show view.buttons = Function.update s.models m model k
  by_cases hkm : k = m
  · subst hkm
    rw [Function.update_self, hsame ⟨view, hview, hk⟩, hbuttons]
  · rw [Function.update_of_ne hkm, hbuttons]

/-- A step after which no other view is looked at. It may take a view away, or stop looking at the
one whose menu was running. -/
theorem Fresh.of_views (h : s.Fresh) (hmodels : t.models = s.models)
    (hviews : ∀ view ∈ t.views, view ∈ s.views) : t.Fresh := by
  intro view hview
  rw [hmodels]
  exact h view (hviews view hview)

/-- The view that is added has a button for each entry of the menu as it is at this moment. -/
theorem Fresh.setMenu (h : s.Fresh) (m : Nat) : (s.setMenu m).Fresh := by
  intro view hview
  have hcases : view ∈ s.views ∨
      view = { id := s.nextView, model_ := m, buttons := s.models m } := by
    have hmem : view ∈ (s.menuBars ++ [_]) ++ (s.running.map Prod.fst).toList := hview
    rw [List.mem_append, List.mem_append, List.mem_singleton] at hmem
    rw [views, List.mem_append]
    tauto
  rcases hcases with hold | rfl
  · exact h view hold
  · exact ⟨m, rfl, rfl⟩

/-- Clearing takes at most one view out. The view whose menu is running is still looked at until the
menu is closed. -/
theorem Fresh.clearMenu (h : s.Fresh) : s.clearMenu.Fresh := by
  refine h.of_views rfl fun view hview => ?_
  have hmem : view ∈ s.menu_bar_.elim s.menuBars (removeChildView s.menuBars) ++
      (s.running.map Prod.fst).toList := hview
  rw [List.mem_append] at hmem
  rw [views, List.mem_append]
  refine hmem.imp_left fun hbar => ?_
  cases hlayout : s.menu_bar_ with
  | none => rwa [hlayout] at hbar
  | some id =>
    rw [hlayout] at hbar
    exact List.mem_of_mem_eraseP hbar

/-- A click opens a menu from a view that is a child of the root view, so no view is looked at that
was not before. -/
theorem Fresh.click (h : s.Fresh) {view : MenuBarView} (hview : view ∈ s.menuBars)
    (button : Nat) : (s.click view button).Fresh := by
  rcases click_eq view button with heq | heq
  · exact heq.symm ▸ h
  · rw [heq]
    refine h.of_views rfl fun other hother => ?_
    have hmem : other ∈ s.menuBars ++ [view] := hother
    rw [List.mem_append, List.mem_singleton] at hmem
    refine List.mem_append_left _ ?_
    rcases hmem with hmem | rfl
    · exact hmem
    · exact hview

/-! ## What the operations do to the number of entries -/

/-- An entry that is added makes the model longer; only a separator may be refused. -/
theorem length_addEntry {model : List Entry} {entry : Entry}
    (h : ¬(entry.type = .separator ∧ addSeparator model = false)) :
    (addEntry addSeparator model entry).length = model.length + 1 := by
  rw [addEntry, if_neg h, List.length_append, List.length_singleton]

theorem length_insertEntryAt {model : List Entry} {entry : Entry} {pos : Int}
    (h : 0 ≤ pos ∧ pos ≤ model.length) :
    (insertEntryAt model entry pos).length = model.length + 1 := by
  rw [insertEntryAt, if_pos h, List.length_insertIdx_of_le_length (by omega)]

theorem length_removeItemAt {model : List Entry} {pos : Int}
    (h : 0 ≤ pos ∧ pos < model.length) :
    (removeItemAt model pos).length + 1 = model.length := by
  rw [removeItemAt, if_pos h, List.length_eraseIdx_of_lt (by omega)]
  omega

/-- An operation on a menu that a view shows leaves the view aligned only if the number of entries
stays. -/
theorem Fresh.length_eq (h : s.Fresh) {m : Nat} {model : List Entry} (hshows : s.Shows m)
    (haligned : (s.updateModel m model).Aligned) : model.length = (s.models m).length := by
  obtain ⟨view, hview, hm⟩ := hshows
  obtain ⟨k, hk, hbuttons⟩ := h view hview
  obtain rfl : k = m := Option.some.inj (hk.symm.trans hm)
  have hmodel : view.model_ ≠ none := by
    rw [hm]
    exact Option.some_ne_none k
  have hlive : (s.updateModel k model).live view = model := by
    rw [live_eq hm]
    exact Function.update_self k model s.models
  have hsame := (MenuBarView.aligned_iff hmodel).mp (haligned view hview)
  rw [hlive, hbuttons] at hsame
  simpa using (congrArg List.length hsame).symm

variable {addSeparator} {op : Op}

/-- **A step under `ButtonsOk` keeps the buttons fresh.** The calls that change a model are about
menus that no view shows, or change nothing; the others change no model. -/
theorem Fresh.step (h : s.Fresh) (hok : s.ButtonsOk addSeparator op)
    (hst : s.step addSeparator op = some t) : t.Fresh := by
  cases op with
  | append m entry =>
    cases hst
    -- the model of a shown menu stays as the buttons have it
    exact h.updateModel fun hshows => by rw [addEntry, if_pos (hok hshows)]
  | insert m entry pos =>
    cases hst
    exact h.updateModel fun hshows => by rw [insertEntryAt, if_neg (hok hshows)]
  | remove m pos =>
    cases hst
    exact h.updateModel fun hshows => by rw [removeItemAt, if_neg (hok hshows)]
  | setMenu m =>
    cases hst
    exact h.setMenu m
  | clearMenu =>
    cases hst
    exact h.clearMenu
  | click view button =>
    simp only [WindowViews.step] at hst
    split at hst
    · rename_i hclick
      cases hst
      exact h.click hclick.1 button
    · cases hst
  | menuClosed =>
    simp only [WindowViews.step] at hst
    split at hst
    · cases hst
      refine h.of_views rfl fun view hview => ?_
      have hmem : view ∈ s.menuBars ++ [] := hview
      rw [List.append_nil] at hmem
      exact List.mem_append_left _ hmem
    · cases hst

/-- **A step after which the views are aligned meets `ButtonsOk`.** An entry more or less in a menu
that a view shows makes the lengths of the two lists different, and then they are not aligned. -/
theorem Fresh.buttonsOk_of_step (h : s.Fresh) (hst : s.step addSeparator op = some t)
    (haligned : t.Aligned) : s.ButtonsOk addSeparator op := by
  cases op with
  | append m entry =>
    cases hst
    intro hshows
    by_contra hadded
    -- the model would have one entry more than there are buttons
    have hlen := h.length_eq hshows haligned
    rw [length_addEntry addSeparator hadded] at hlen
    omega
  | insert m entry pos =>
    cases hst
    intro hshows hpos
    have hlen := h.length_eq hshows haligned
    rw [length_insertEntryAt hpos] at hlen
    omega
  | remove m pos =>
    cases hst
    intro hshows hpos
    have hlen := h.length_eq hshows haligned
    have hless := length_removeItemAt hpos
    omega
  | setMenu m => trivial
  | clearMenu => trivial
  | click view button => trivial
  | menuClosed => trivial

/-- **Buttons stay aligned with the menu.** The runs after each step of which every view is aligned
are the runs that leave the entries of the menus that are shown as they are. -/
theorem buttons_aligned (addSeparator : List Entry → Bool) (ops : List Op) (s : WindowViews) :
    (Run (Guarded (StepAligned addSeparator) (ofPartial (step addSeparator))) {} ops s ↔
      Run (Guarded (ButtonsOk addSeparator) (ofPartial (step addSeparator))) {} ops s) ∧
    (Run (Guarded (ButtonsOk addSeparator) (ofPartial (step addSeparator))) {} ops s →
      s.Aligned) := by
  have hinit : Fresh {} := by
    intro view hview
    cases hview
  constructor
  · refine Run.owed_iff (fun _ _ _ h hok hst => Fresh.step h hok hst) (fun _ h => h.aligned) ?_
      hinit
    exact fun s op t h hst haligned => h.buttonsOk_of_step hst haligned
  · intro hrun
    exact (hrun.invariant (fun _ _ _ h hst => h.step hst.1 hst.2) hinit).aligned

def fileEntry : Entry := ⟨0, .submenu, some 1⟩
def quitEntry : Entry := ⟨1, .command, none⟩

/-- A menu is filled and set; its submenu is filled while it is open, and the menu itself is changed
only after it was cleared. -/
def filledBefore : List Op :=
  [.append 0 fileEntry, .insert 0 quitEntry 0, .setMenu 0,
    .click { id := 0, model_ := some 0, buttons := [quitEntry, fileEntry] } 1,
    .append 1 quitEntry, .remove 0 7, .menuClosed, .clearMenu, .remove 0 0, .setMenu 0]

/-- The view that is set last has one button, for the entry that is left, and the views were aligned
after each step. -/
theorem buttons_aligned_filledBefore :
    ∃ s, Run (Guarded (StepAligned separates) (ofPartial (step separates))) {} filledBefore s ∧
      s.Aligned ∧ s.menuBars.map MenuBarView.buttons = [[fileEntry]] := by
  obtain ⟨s, hs, hbuttons⟩ : ∃ s,
      exec (ButtonsOk separates) (step separates) filledBefore {} = some s ∧
        s.menuBars.map MenuBarView.buttons = [[fileEntry]] := ⟨_, rfl, rfl⟩
  obtain ⟨hiff, haligned⟩ := buttons_aligned separates filledBefore s
  have hrun := Run.of_exec hs
  exact ⟨s, hiff.mpr hrun, haligned hrun, hbuttons⟩

/-- An item is appended after the menu was set: the loop asks for a child that does not exist. -/
theorem appended_after_not_aligned :
    ¬ ∀ (ops : List Op) (s : WindowViews), Run (ofPartial (step separates)) {} ops s →
      s.Aligned := by
  intro hall
  obtain ⟨s, hs, hviews, hmodel⟩ : ∃ s,
      exec (fun _ _ => True) (step separates) [.setMenu 0, .append 0 fileEntry] {} = some s ∧
        s.views = [{ id := 0, model_ := some 0, buttons := [] }] ∧ s.models 0 = [fileEntry] :=
    ⟨_, rfl, rfl, rfl⟩
  have haligned := hall _ s (Run.of_exec hs).unguard _ (hviews ▸ List.mem_singleton_self _)
  have hlive : s.live { id := 0, model_ := some 0, buttons := [] } = [fileEntry] := hmodel
  rw [hlive] at haligned
  exact haligned.located ⟨100, 25, fun _ => {}⟩ ⟨10, 10⟩

end WindowViews

end NodeWebkit.Menus
