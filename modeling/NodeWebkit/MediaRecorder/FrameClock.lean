import Mathlib.Data.Rat.Floor
import Mathlib.Algebra.Order.Round

/-!
# The frame clock — from capture times to frame positions

`UpdateVideo` and `UpdateAudio` turn the time since the first frame into a position on the time base
of the stream. The position is taken exact; what the conversion of a `double` to `int` gives is left
to `toInt`, of which only what it does inside the range of `int` is fixed (`Truncates`).
-/

namespace NodeWebkit.MediaRecorder

/-- `base::TimeTicks` in microseconds; zero is the null time. -/
abbrev TimeTicks := Int

def TimeTicks.isNull (time : TimeTicks) : Bool := time == 0

/-- `AVRational`. -/
structure TimeBase where
  num : Nat
  den : Nat
  deriving DecidableEq

/-- `dt.InSecondsF() / c->time_base.num * c->time_base.den`. -/
def TimeBase.position (base : TimeBase) (dt : Int) : ℚ := dt / 1000000 / base.num * base.den

def FitsInt (x : Int) : Prop := -2 ^ 31 ≤ x ∧ x < 2 ^ 31

instance (x : Int) : Decidable (FitsInt x) := by unfold FitsInt; infer_instance

/-- The integer part, towards zero. -/
def truncate (q : ℚ) : Int := if 0 ≤ q then ⌊q⌋ else ⌈q⌉

/-- A conversion to `int` truncates what has an integer part that fits. -/
def Truncates (toInt : ℚ → Int) : Prop := ∀ q, FitsInt (truncate q) → toInt q = truncate q

/-- `int expectedPts = dExpectedPts + 0.5`. -/
def TimeBase.expectedPts (base : TimeBase) (toInt : ℚ → Int) (dt : Int) : Int :=
  toInt (base.position dt + 1 / 2)

/-- A 64-bit value kept in an `int`. -/
def narrow (x : Int) : Int := Int.bmod x (2 ^ 32)

@[simp] theorem position_zero (base : TimeBase) : base.position 0 = 0 := by
  simp [TimeBase.position]

/-- Rounding to the nearest is off by a half at most, and does not make a time negative. -/
theorem truncate_add_half {q : ℚ} (h : 0 ≤ q) :
    0 ≤ truncate (q + 1 / 2) ∧ q - 1 / 2 < truncate (q + 1 / 2) ∧
      (truncate (q + 1 / 2) : ℚ) ≤ q + 1 / 2 := by
  have hpos : 0 ≤ q + 1 / 2 := by linarith
  have hfloor : truncate (q + 1 / 2) = ⌊q + 1 / 2⌋ := if_pos hpos
  rw [hfloor]
  refine ⟨Int.floor_nonneg.mpr hpos, ?_, Int.floor_le _⟩
  have hlt := Int.lt_floor_add_one (q + 1 / 2)
  linarith

end NodeWebkit.MediaRecorder
