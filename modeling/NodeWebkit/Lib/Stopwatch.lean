import Mathlib.Algebra.Order.Group.Defs

/-!
# A stopwatch that is read at ticks

A watch is started and stopped at any time but learns what time it is at its ticks only: the time
from one tick to the next one counts if the watch was running at the first of them.

* **`Watch.tick_first`**, **`Watch.tick_later`** — what a tick adds;
* **`Watch.Within`** — the watch never shows more than the time since its first tick;
* **`Watch.value_le_tick`** — it never goes back.
-/

namespace Stopwatch

/-- `counting` says whether the watch was running at its last tick. -/
structure Watch (T : Type*) where
  running : Bool
  counting : Bool
  last : Option T
  value : T

namespace Watch

variable {T : Type*} [AddCommGroup T]

/-- A running watch before its first tick. -/
def fresh : Watch T := ⟨true, true, none, 0⟩

def setRunning (running : Bool) (w : Watch T) : Watch T := { w with running := running }

/-- The time since the last tick, if it counts. -/
def gap (w : Watch T) (time : T) : T :=
  match w.last with
  | some last => if w.counting then time - last else 0
  | none => 0

def tick (w : Watch T) (time : T) : Watch T where
  running := w.running
  counting := w.running
  last := some time
  value := w.value + w.gap time

/-- The first tick only says what time it is: nothing was counted before it. -/
theorem tick_first {w : Watch T} (h : w.last = none) (time : T) :
    (w.tick time).value = w.value := by
  show w.value + w.gap time = w.value
  rw [gap, h]
  exact add_zero w.value

/-- A later tick adds the time since the one before it, if the watch was running by then. -/
theorem tick_later {w : Watch T} {last : T} (h : w.last = some last) (time : T) :
    (w.tick time).value = w.value + if w.counting then time - last else 0 := by
  show w.value + w.gap time = _
  rw [gap, h]

/-! ## Ticks in order -/

variable [LinearOrder T]

/-- The watch ticked at `base` first, and shows no more than the time since then. -/
structure Within (base : T) (w : Watch T) : Prop where
  nonneg : 0 ≤ w.value
  elapsed : ∀ last, w.last = some last → w.value ≤ last - base
  first : w.last = none → w.value = 0

/-- A watch that was not ticked yet shows nothing. -/
theorem Within.fresh (base : T) : Within base (fresh : Watch T) where
  nonneg := le_refl 0
  elapsed := by
    intro last hlast
    cases hlast
  first := fun _ => rfl

variable [IsOrderedAddMonoid T]

theorem gap_nonneg {w : Watch T} {time : T} (h : ∀ last, w.last = some last → last ≤ time) :
    0 ≤ w.gap time := by
  unfold gap
  split
  next last hlast =>
    split
    · exact sub_nonneg.mpr (h last hlast)
    · exact le_refl 0
  next => exact le_refl 0

/-- **A watch never goes back**, as long as the ticks come in order. -/
theorem value_le_tick {w : Watch T} {time : T} (h : ∀ last, w.last = some last → last ≤ time) :
    w.value ≤ (w.tick time).value :=
  le_add_of_nonneg_right (gap_nonneg h)

/-- **A tick in order keeps the watch within the time since its first tick.** The time that was
counted before and the time from the last tick to this one do not overlap. -/
theorem Within.tick {base time : T} {w : Watch T} (hw : Within base w)
    (hbase : w.last = none → time = base) (h : ∀ last, w.last = some last → last ≤ time) :
    Within base (w.tick time) where
  nonneg := hw.nonneg.trans (value_le_tick h)
  elapsed := by
    intro last hlast
    cases hlast
    cases hl : w.last with
    | none =>
      rw [tick_first hl, hw.first hl, hbase hl, sub_self]
    | some before =>
      have hbefore := hw.elapsed before hl
      rw [tick_later hl]
      split
      · -- the gap counts: the two spans are put together
        calc w.value + (time - before) ≤ (before - base) + (time - before) :=
              add_le_add_left hbefore _
          _ = time - base := by rw [add_comm, sub_add_sub_cancel]
      · rw [add_zero]
        exact hbefore.trans (sub_le_sub_right (h before hl) base)
  first := by
    intro hnone
    cases hnone

end Watch

end Stopwatch
