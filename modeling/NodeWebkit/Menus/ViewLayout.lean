import Mathlib.Algebra.GroupWithZero.Nat
import NodeWebkit.Menus.MenuBarView

/-!
# The layout of a window

`BrowserViewLayout` puts the menu bar on top of a window, the tool bar below it and the web view
into what is left. A window is laid out when its menu is set or cleared, and when its size changes.

The views get the *size* of `GetContentsBounds`, but they start at the corner of the window and not
at the corner of its contents, which is where the insets of the window end. So the views always tile
a rectangle of that size (`countP_children`), but whether this covers the contents depends on the
insets at the left and on top.

* **`layout`** — where the views are put;
* **`LaidOut`** — the views are where the layout puts them;
* **`Covered`** — the contents do not reach beyond the views;
* **`views_tile`** — in every run that sets a menu only where there is none the views are laid out,
  and they cover the contents without an overlap exactly where these are `Covered`, however small
  the window is;
* **`layout_preferredSize`** — a window of its preferred size gives the web view its own.
-/

namespace NodeWebkit.Menus

open Lts

/-- `gfx::Rect`, which has no negative size. -/
structure Rect where
  x : Int
  y : Int
  width : Nat
  height : Nat
  deriving DecidableEq

namespace Rect

/-- `SetBounds` -/
def of (x y width height : Int) : Rect := ⟨x, y, width.toNat, height.toNat⟩

def Contains (r : Rect) (x y : Int) : Prop :=
  r.x ≤ x ∧ x < r.x + r.width ∧ r.y ≤ y ∧ y < r.y + r.height

instance (r : Rect) (x y : Int) : Decidable (r.Contains x y) :=
  inferInstanceAs (Decidable (_ ∧ _ ∧ _ ∧ _))

end Rect

structure Insets where
  top : Nat := 0
  left : Nat := 0
  bottom : Nat := 0
  right : Nat := 0
  deriving DecidableEq

def kMenuHeight : Nat := 25

/-- A window with the bounds of its views. -/
structure Frame where
  views : WindowViews := {}
  width : Nat := 0
  height : Nat := 0
  insets : Insets := {}
  /-- The preferred height of the tool bar. -/
  tool_bar_ : Option Nat := none
  /-- The preferred size of the web view. -/
  preferred : Nat × Nat := (0, 0)
  menuBarBounds : Nat → Rect := fun _ => ⟨0, 0, 0, 0⟩
  toolBarBounds : Rect := ⟨0, 0, 0, 0⟩
  webViewBounds : Rect := ⟨0, 0, 0, 0⟩

namespace Frame

/-- The size of `GetContentsBounds`. -/
def contentsSize (s : Frame) : Nat × Nat :=
  (s.width - (s.insets.left + s.insets.right), s.height - (s.insets.top + s.insets.bottom))

/-- `GetContentsBounds` -/
def contentsBounds (s : Frame) : Rect :=
  ⟨s.insets.left, s.insets.top, s.contentsSize.1, s.contentsSize.2⟩

def menuBarHeight (s : Frame) : Nat := if s.views.menu_bar_.isSome then kMenuHeight else 0

/-- The height of the bars together. -/
def barsHeight (s : Frame) : Nat := s.menuBarHeight + s.tool_bar_.getD 0

/-- `BrowserViewLayout::Layout` -/
def layout (s : Frame) : Frame :=
  { s with
    menuBarBounds := s.views.menu_bar_.elim s.menuBarBounds fun view =>
      Function.update s.menuBarBounds view (Rect.of 0 0 s.contentsSize.1 kMenuHeight)
    toolBarBounds := s.tool_bar_.elim s.toolBarBounds fun height =>
      Rect.of 0 s.menuBarHeight s.contentsSize.1 height
    webViewBounds :=
      Rect.of 0 s.barsHeight s.contentsSize.1 (s.contentsSize.2 - s.barsHeight) }

/-- `BrowserViewLayout::GetPreferredSize` -/
def getPreferredSize (s : Frame) : Nat × Nat :=
  (s.preferred.1 + (s.insets.left + s.insets.right),
    s.preferred.2 + (s.insets.top + s.insets.bottom) + s.barsHeight)

inductive FrameOp where
  | views (op : WindowViews.Op)
  | resize (width height : Nat)

variable (addSeparator : List Entry → Bool)

/-- The operations that lay the window out again. -/
def relayouts : FrameOp → Bool
  | .views (.setMenu _) | .views .clearMenu | .resize _ _ => true
  | .views _ => false

/-- An operation before the layout. -/
def change (s : Frame) : FrameOp → Option Frame
  | .views op => (s.views.step addSeparator op).map fun views => { s with views := views }
  | .resize width height => some { s with width := width, height := height }

def step (s : Frame) (op : FrameOp) : Option Frame :=
  (s.change addSeparator op).map fun s : Frame => if relayouts op then s.layout else s

/-- The views of the window. -/
def children (s : Frame) : List Rect :=
  (s.views.menuBars.map fun view => s.menuBarBounds view.id) ++
    (s.tool_bar_.toList.map fun _ => s.toolBarBounds) ++ [s.webViewBounds]

/-- The views are where the layout puts them. -/
structure LaidOut (s : Frame) : Prop where
  menuBar : ∀ view, s.views.menu_bar_ = some view →
    s.menuBarBounds view = Rect.of 0 0 s.contentsSize.1 kMenuHeight
  toolBar : ∀ height, s.tool_bar_ = some height →
    s.toolBarBounds = Rect.of 0 s.menuBarHeight s.contentsSize.1 height
  webView : s.webViewBounds =
    Rect.of 0 s.barsHeight s.contentsSize.1 (s.contentsSize.2 - s.barsHeight)

/-- The contents are empty, or they start at the left of the window and end no lower than the web
view, or than the bars where these are higher than the contents. -/
def Covered (s : Frame) : Prop :=
  s.contentsSize.1 = 0 ∨ s.contentsSize.2 = 0 ∨
    (s.insets.left = 0 ∧ s.insets.top + s.contentsSize.2 ≤ max s.contentsSize.2 s.barsHeight)

/-- A menu is set where there is none. -/
def BarOk (s : Frame) : FrameOp → Prop
  | .views op => s.views.BarOk op
  | .resize _ _ => True

instance (s : Frame) : DecidablePred s.BarOk
  | .views op => inferInstanceAs (Decidable (s.views.BarOk op))
  | .resize _ _ => inferInstanceAs (Decidable True)

/-! ## Layouts -/

/-- A layout puts the views where it puts them, whatever the window was before. -/
theorem layout_laidOut (s : Frame) : s.layout.LaidOut := by
  refine ⟨fun view hbar => ?_, fun height hbar => ?_, rfl⟩
  · have hview : s.views.menu_bar_ = some view := hbar
    show (s.views.menu_bar_.elim s.menuBarBounds _) view = _
    rw [hview]
    exact Function.update_self ..
  · have hheight : s.tool_bar_ = some height := hbar
    show s.tool_bar_.elim s.toolBarBounds _ = _
    rw [hheight]
    rfl

/-- The layout depends on the views by the menu bar that is noted, so other changes of the views
leave a window laid out. -/
theorem LaidOut.of_views {s : Frame} (h : s.LaidOut) {views : WindowViews}
    (hbar : views.menu_bar_ = s.views.menu_bar_) : LaidOut { s with views := views } := by
  have hheight : menuBarHeight { s with views := views } = s.menuBarHeight := by
    show (if views.menu_bar_.isSome then kMenuHeight else 0) = _
    rw [hbar]
    rfl
  refine ⟨fun view hview => ?_, fun height hview => ?_, ?_⟩
  · exact h.menuBar view (hbar ▸ hview)
  · rw [hheight]
    exact h.toolBar height hview
  · rw [barsHeight, hheight]
    exact h.webView

/-- Only setting and clearing a menu changes the noted menu bar, and these are the operations after
which the window is laid out again. -/
theorem menu_bar_of_not_relayouts {addSeparator : List Entry → Bool} {views views' : WindowViews}
    {op : WindowViews.Op} (hop : relayouts (.views op) = false)
    (hstep : views.step addSeparator op = some views') : views'.menu_bar_ = views.menu_bar_ := by
  cases op with
  | append m entry =>
    cases hstep
    rfl
  | insert m entry pos =>
    cases hstep
    rfl
  | remove m pos =>
    cases hstep
    rfl
  | setMenu m => cases hop
  | clearMenu => cases hop
  | click view button =>
    simp only [WindowViews.step] at hstep
    split at hstep
    · cases hstep
      -- a click changes nothing, or opens a menu
      rcases WindowViews.click_eq view button with heq | heq
      · rw [heq]
      · rw [heq]
    · cases hstep
  | menuClosed =>
    simp only [WindowViews.step] at hstep
    split at hstep
    · cases hstep
      rfl
    · cases hstep

/-- **Every step leaves the window laid out**: it is laid out again, or what the layout looks at has
not changed. -/
theorem LaidOut.step {addSeparator : List Entry → Bool} {s t : Frame} {op : FrameOp}
    (h : s.LaidOut) (hstep : s.step addSeparator op = some t) : t.LaidOut := by
  obtain ⟨u, hchange, rfl⟩ := Option.map_eq_some_iff.mp hstep
  cases hop : relayouts op with
  | true =>
    rw [if_pos rfl]
    exact layout_laidOut u
  | false =>
    rw [if_neg (by decide)]
    cases op with
    | views op =>
      obtain ⟨views, hviews, rfl⟩ := Option.map_eq_some_iff.mp hchange
      exact h.of_views (menu_bar_of_not_relayouts hop hviews)
    | resize width height => cases hop

/-- What happens to the views in a window is what happens to them anywhere, and a new size is
nothing to them. -/
theorem step_oneMenuBar {addSeparator : List Entry → Bool} {s t : Frame} {op : FrameOp}
    (h : s.views.OneMenuBar) (hok : s.BarOk op) (hstep : s.step addSeparator op = some t) :
    t.views.OneMenuBar := by
  obtain ⟨u, hchange, rfl⟩ := Option.map_eq_some_iff.mp hstep
  have hu : u.views.OneMenuBar := by
    cases op with
    | views op =>
      obtain ⟨views, hviews, rfl⟩ := Option.map_eq_some_iff.mp hchange
      exact WindowViews.OneMenuBar.step h hok hviews
    | resize width height =>
      cases hchange
      exact h
  split
  · exact hu
  · exact hu

/-! ## Tiles -/

/-- Rectangles on top of each other. -/
def stack (width : Nat) : Nat → List Nat → List Rect
  | _, [] => []
  | y, height :: heights => ⟨0, y, width, height⟩ :: stack width (y + height) heights

/-- A point is in one of the rectangles, or beside them, or above or below them all. -/
theorem countP_stack (width : Nat) (x y : Int) (heights : List Nat) (top : Nat) :
    (stack width top heights).countP (fun r => r.Contains x y) =
      if (0 ≤ x ∧ x < width) ∧ top ≤ y ∧ y < top + heights.sum then 1 else 0 := by
  induction heights generalizing top with
  | nil =>
    rw [if_neg]
    · rfl
    · rw [List.sum_nil]
      omega
  | cons height heights ih =>
    have hcontains : (⟨0, top, width, height⟩ : Rect).Contains x y ↔
        (0 ≤ x ∧ x < width) ∧ top ≤ y ∧ y < top + height := by
      show 0 ≤ x ∧ x < 0 + (width : Int) ∧ (top : Int) ≤ y ∧ y < top + height ↔ _
      omega
    rw [stack, List.countP_cons, ih, List.sum_cons]
    simp only [decide_eq_true_eq, hcontains, Int.natCast_add]
    split <;> split <;> split <;> omega

/-- The views of a window that is laid out and has one menu bar or none. -/
theorem children_eq_stack {s : Frame} (h : s.LaidOut) (hone : s.views.OneMenuBar) :
    s.children = stack s.contentsSize.1 0
      ((if s.views.menu_bar_.isSome then [kMenuHeight] else []) ++ s.tool_bar_.toList ++
        [s.contentsSize.2 - s.barsHeight]) := by
  -- the web view has what the bars leave of the height
  have hweb : s.webViewBounds =
      ⟨0, s.barsHeight, s.contentsSize.1, s.contentsSize.2 - s.barsHeight⟩ := by
    rw [h.webView, Rect.of]
    congr 1
    omega
  have htool : ∀ height, s.tool_bar_ = some height →
      s.toolBarBounds = ⟨0, s.menuBarHeight, s.contentsSize.1, height⟩ :=
    fun height hbar => h.toolBar height hbar
  -- there is one menu bar, the one that is noted, or none
  have hbars : (s.views.menuBars.map fun view => s.menuBarBounds view.id) =
      (if s.views.menu_bar_.isSome then [⟨0, 0, s.contentsSize.1, kMenuHeight⟩] else []) := by
    unfold WindowViews.OneMenuBar at hone
    split at hone
    · obtain ⟨view, hviews, hbar⟩ := hone
      rw [hviews, hbar, List.map_singleton, h.menuBar view hbar]
      rfl
    · rw [hone.1, hone.2]
      rfl
  rw [children, hbars, hweb]
  cases hbar : s.views.menu_bar_.isSome with
  | true =>
    have hheight : s.menuBarHeight = kMenuHeight := if_pos hbar
    cases htoolBar : s.tool_bar_ with
    | none =>
      rw [barsHeight, hheight, htoolBar]
      rfl
    | some height =>
      rw [barsHeight, hheight, htoolBar, htool height htoolBar, hheight]
      rfl
  | false =>
    have hheight : s.menuBarHeight = 0 := if_neg (by rw [hbar]; decide)
    cases htoolBar : s.tool_bar_ with
    | none =>
      rw [barsHeight, hheight, htoolBar]
      rfl
    | some height =>
      rw [barsHeight, hheight, htoolBar, htool height htoolBar, hheight, Option.getD_some,
        Nat.zero_add]
      show [_, _] = stack _ 0 [_, _]
      rw [stack, stack, stack, Nat.zero_add]

/-- **No gap and no overlap.** The views tile the rectangle of the contents' size that starts at the
corner of the window; the bars reach further down where they are higher than the contents. -/
theorem countP_children {s : Frame} (h : s.LaidOut) (hone : s.views.OneMenuBar) (x y : Int) :
    s.children.countP (fun r => r.Contains x y) =
      if (0 ≤ x ∧ x < s.contentsSize.1) ∧ 0 ≤ y ∧
        y < (max s.contentsSize.2 s.barsHeight : Nat) then 1 else 0 := by
  have hbars : s.barsHeight =
      ((if s.views.menu_bar_.isSome then [kMenuHeight] else []) ++ s.tool_bar_.toList).sum := by
    unfold barsHeight menuBarHeight
    cases s.views.menu_bar_.isSome with
    | true => cases s.tool_bar_ <;> rfl
    | false =>
      cases s.tool_bar_ with
      | none => rfl
      | some height => exact Nat.add_comm 0 height
  rw [children_eq_stack h hone, countP_stack, List.sum_append, ← hbars, List.sum_singleton]
  refine if_congr ?_ rfl rfl
  omega

/-- The contents are tiled exactly where they do not reach beyond the views. The corner of the
contents that is furthest from that of the window decides. -/
theorem contents_tiled_iff {s : Frame} (h : s.LaidOut) (hone : s.views.OneMenuBar) :
    (∀ x y, s.contentsBounds.Contains x y →
      s.children.countP (fun r => r.Contains x y) = 1) ↔ s.Covered := by
  have hcontains : ∀ x y, s.contentsBounds.Contains x y ↔
      ((s.insets.left : Int) ≤ x ∧ x < s.insets.left + s.contentsSize.1) ∧
        (s.insets.top : Int) ≤ y ∧ y < s.insets.top + s.contentsSize.2 :=
    fun x y => and_assoc.symm
  simp only [countP_children h hone, hcontains]
  constructor
  · intro htiled
    unfold Covered
    by_contra hnot
    have hcorner := htiled (s.insets.left + s.contentsSize.1 - 1)
      (s.insets.top + s.contentsSize.2 - 1) ⟨by omega, by omega⟩
    split at hcorner
    · omega
    · cases hcorner
  · rintro hcovered x y ⟨hx, hy⟩
    rw [if_pos]
    unfold Covered at hcovered
    omega

/-- A window of its preferred size gives the web view its own. The preferred size is that of the web
view with the bars and the insets added, and the layout takes them off again. -/
theorem layout_preferredSize (s : Frame) (hwidth : s.width = s.getPreferredSize.1)
    (hheight : s.height = s.getPreferredSize.2) :
    (s.layout.webViewBounds.width, s.layout.webViewBounds.height) = s.preferred := by
  have hcontents : s.contentsSize = (s.preferred.1, s.preferred.2 + s.barsHeight) := by
    unfold contentsSize
    rw [hwidth, hheight]
    show (_ - _, _ - _) = _
    unfold getPreferredSize
    congr 1 <;> omega
  show (((s.contentsSize.1 : Nat) : Int).toNat,
    ((s.contentsSize.2 : Int) - s.barsHeight).toNat) = s.preferred
  rw [hcontents]
  show (_, ((s.preferred.2 + s.barsHeight : Nat) - s.barsHeight : Int).toNat) = s.preferred
  rw [Int.toNat_natCast, Int.natCast_add, Int.add_sub_cancel, Int.toNat_natCast]

/-! ## Runs -/

/-- **The layout.** In every run in which a menu is set only where there is none, with menus that
change and windows that get any size, the views are laid out, and every point of the contents of the
window is in exactly one of them exactly where the contents do not reach beyond the views: where
they are empty, or start at the corner of the window. -/
theorem views_tile (addSeparator : List Entry → Bool) {s t : Frame} {ops : List FrameOp}
    (hs : s.LaidOut) (hone : s.views.OneMenuBar)
    (hrun : Run (Guarded BarOk (ofPartial (Frame.step addSeparator))) s ops t) :
    t.LaidOut ∧
      ((∀ x y, t.contentsBounds.Contains x y →
        t.children.countP (fun r => r.Contains x y) = 1) ↔ t.Covered) := by
  have hinv : t.LaidOut ∧ t.views.OneMenuBar := by
    refine hrun.invariant (I := fun s => s.LaidOut ∧ s.views.OneMenuBar) ?_ ⟨hs, hone⟩
    intro s op t h hstep
    exact ⟨h.1.step hstep.2, step_oneMenuBar h.2 hstep.1 hstep.2⟩
  exact ⟨hinv.1, contents_tiled_iff hinv.1 hinv.2⟩

/-- A window with a tool bar and a border at the right and at the bottom. -/
def bordered : Frame :=
  layout { insets := { bottom := 4, right := 4 }, tool_bar_ := some 30 }

/-- A menu is set, cleared and set again, and the window is made lower than its bars: menu bar, tool
bar and an empty web view tile its contents. -/
theorem views_tile_low :
    ∃ t : Frame, t.contentsBounds = ⟨0, 0, 296, 40⟩ ∧ t.barsHeight = 55 ∧ t.children.length = 3 ∧
      ∀ x y, t.contentsBounds.Contains x y →
        t.children.countP (fun r => r.Contains x y) = 1 := by
  obtain ⟨t, hexec, hbounds, hbars, hlength, hcovered⟩ : ∃ t : Frame,
      exec BarOk (Frame.step separates) [.views (.setMenu 0), .views .clearMenu,
        .views (.setMenu 0), .resize 300 44] bordered = some t ∧
        t.contentsBounds = ⟨0, 0, 296, 40⟩ ∧ t.barsHeight = 55 ∧ t.children.length = 3 ∧
        t.insets.left = 0 ∧ t.insets.top + t.contentsSize.2 = 40 :=
    ⟨_, rfl, rfl, rfl, rfl, rfl, rfl⟩
  have htile := views_tile separates (s := bordered) (layout_laidOut _) ⟨rfl, rfl⟩
    (Run.of_exec hexec)
  refine ⟨t, hbounds, hbars, hlength, htile.2.mpr (Or.inr (Or.inr ⟨hcovered.1, ?_⟩))⟩
  rw [hcovered.2, hbars]
  omega

end Frame

end NodeWebkit.Menus
