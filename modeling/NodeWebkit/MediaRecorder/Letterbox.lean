import NodeWebkit.MediaRecorder.FrameClock

/-!
# The letterbox — where a picture goes on a frame of another shape

A source picture is scaled to the height of the target, or to its width if it would be too wide, and
centred. The scale factors are taken exact.

* **`scaleBy_div`**, **`scaledSize_cases`** — the scaled size in natural numbers, by which of the two
  sides is met;
* **`fits`** — the picture is not larger than the target, touches it, and keeps its shape;
* **`plane_fits`** — with its offset it stays inside every plane.

The source computes with factors, the proofs with products: `scaleBy` truncates `n * a / b`, which
is the division of natural numbers. In a plane with halved chroma size and offset are halved apart,
one up and one down, so that they fit together is a lemma of its own
(`ceilRShift_centred_add_le`).
-/

namespace NodeWebkit.MediaRecorder.Video

/-- The size of a picture in pixels. -/
structure Size where
  width : Nat
  height : Nat
  deriving DecidableEq

/-- A product with a scale factor kept in an `int`. -/
def scaleBy (n : Nat) (scale : ℚ) : Nat := (truncate (n * scale)).toNat

/-- `dstW` and `dstH`. -/
def scaledSize (target src : Size) : Size :=
  let scale : ℚ := target.height / src.height
  let dstW := scaleBy src.width scale
  if dstW ≤ target.width then ⟨dstW, scaleBy src.height scale⟩
  else
    let scale : ℚ := target.width / src.width
    ⟨scaleBy src.width scale, scaleBy src.height scale⟩

/-- `FF_CEIL_RSHIFT`. -/
def ceilRShift (n shift : Nat) : Nat := (n + (2 ^ shift - 1)) / 2 ^ shift

/-- `FFMAX(0, (outer - inner) / 2)`; the quotient is cut off towards zero. -/
def centred (outer inner : Nat) : Nat := (max 0 (((outer : Int) - inner).tdiv 2)).toNat

/-- The planes of a format: `log2_chroma_w` and `log2_chroma_h` hold for the planes 1 and 2. -/
structure ChromaShifts where
  log2ChromaW : Nat
  log2ChromaH : Nat
  deriving DecidableEq

def isChroma (p : Nat) : Bool := p == 1 || p == 2

/-- The part of a picture, or of an offset, that lies in plane `p`. -/
def ChromaShifts.inPlane (shifts : ChromaShifts) (p : Nat) (size : Size) : Size :=
  if isChroma p then
    ⟨ceilRShift size.width shifts.log2ChromaW, ceilRShift size.height shifts.log2ChromaH⟩
  else size

/-- The offset of the scaled picture in plane `p`. -/
def ChromaShifts.sliceOffset (shifts : ChromaShifts) (target dst : Size) (p : Nat) : Size :=
  shifts.inPlane p ⟨centred target.width dst.width, centred target.height dst.height⟩

/-! ## The scaled size -/

theorem scaleBy_div (n a b : Nat) : scaleBy n ((a : ℚ) / b) = n * a / b := by
  have hprod : (n : ℚ) * (a / b) = ((n * a : Nat) : ℚ) / (b : ℚ) := by
    push_cast
    ring
  have hpos : (0 : ℚ) ≤ ((n * a : Nat) : ℚ) / (b : ℚ) := by positivity
  rw [scaleBy, hprod, truncate, if_pos hpos, Rat.floor_natCast_div_natCast]
  exact Int.toNat_natCast _

variable {target src : Size}

theorem scaleBy_self {n : Nat} (hn : 0 < n) (a : Nat) : scaleBy n ((a : ℚ) / n) = a := by
  rw [scaleBy_div, Nat.mul_div_cancel_left a hn]

/-- The picture is as high as the target, or as wide. Which of the two is decided by the width that
it has at the target's height. -/
theorem scaledSize_cases (target : Size) (hw : 0 < src.width) (hh : 0 < src.height) :
    (src.width * target.height / src.height ≤ target.width ∧
      scaledSize target src = ⟨src.width * target.height / src.height, target.height⟩) ∨
    (target.width < src.width * target.height / src.height ∧
      scaledSize target src = ⟨target.width, src.height * target.width / src.width⟩) := by
  unfold scaledSize
  simp only [scaleBy_div, scaleBy_self hw, scaleBy_self hh]
  split
  case isTrue hle => exact Or.inl ⟨hle, rfl⟩
  case isFalse hgt => exact Or.inr ⟨by omega, rfl⟩

/-- A picture that is too wide at the height of the target is not too high at its width. -/
theorem height_le_of_wide (hh : 0 < src.height)
    (hwide : target.width < src.width * target.height / src.height) :
    src.height * target.width / src.width ≤ target.height := by
  have hmul := (Nat.lt_div_iff_mul_lt hh).mp hwide
  apply Nat.div_le_of_le_mul
  calc src.height * target.width = target.width * src.height := Nat.mul_comm _ _
    _ ≤ src.width * target.height := by omega

/-- One side of the scaled picture is that of the target, the other is what keeps the shape, cut
off to whole pixels. -/
def KeepsShape (target src dst : Size) : Prop :=
  (dst.height = target.height ∧ dst.width * src.height ≤ src.width * dst.height ∧
    src.width * dst.height < (dst.width + 1) * src.height) ∨
  (dst.width = target.width ∧ dst.height * src.width ≤ src.height * dst.width ∧
    src.height * dst.width < (dst.height + 1) * src.width)

/-- **The picture is not larger than the target, touches it on two sides, and keeps its shape** up
to the rounding of the other side. -/
theorem fits (target : Size) (hw : 0 < src.width) (hh : 0 < src.height) :
    (scaledSize target src).width ≤ target.width ∧
      (scaledSize target src).height ≤ target.height ∧
      KeepsShape target src (scaledSize target src) := by
  have hcut : ∀ a b : Nat, 0 < b → a / b * b ≤ a ∧ a < (a / b + 1) * b := fun a b hb =>
    ⟨Nat.div_mul_le_self a b, Nat.lt_mul_of_div_lt (Nat.lt_succ_self _) hb⟩
  rcases scaledSize_cases target hw hh with ⟨hle, heq⟩ | ⟨hwide, heq⟩
  · rw [heq]
    exact ⟨hle, Nat.le_refl _, Or.inl ⟨rfl, hcut _ _ hh⟩⟩
  · rw [heq]
    exact ⟨Nat.le_refl _, height_le_of_wide hh hwide, Or.inr ⟨rfl, hcut _ _ hw⟩⟩

/-! ## Inside the planes -/

/-- The offset of something that is not larger than what it is centred in. -/
theorem centred_eq {outer inner : Nat} (h : inner ≤ outer) :
    centred outer inner = (outer - inner) / 2 := by
  unfold centred
  have hsub : ((outer : Int) - inner).tdiv 2 = ((outer - inner : Nat) : Int) / 2 := by
    rw [Int.tdiv_eq_ediv_of_nonneg (by omega)]
    omega
  omega

/-- Two roundings up are one pixel more at most, and half of an odd border leaves that pixel. -/
theorem ceilRShift_centred_add_le {outer inner shift : Nat} (h : inner ≤ outer)
    (hshift : shift ≤ 1) :
    ceilRShift (centred outer inner) shift + ceilRShift inner shift ≤ ceilRShift outer shift := by
  rw [centred_eq h]
  unfold ceilRShift
  obtain hzero | hone : shift = 0 ∨ shift = 1 := by omega
  · rw [hzero]
    omega
  · rw [hone]
    omega

/-- The whole scaled picture lies inside plane `p`. -/
def PlaneFits (shifts : ChromaShifts) (target dst : Size) (p : Nat) : Prop :=
  (shifts.sliceOffset target dst p).width + (shifts.inPlane p dst).width ≤
      (shifts.inPlane p target).width ∧
    (shifts.sliceOffset target dst p).height + (shifts.inPlane p dst).height ≤
      (shifts.inPlane p target).height

/-- **With its offset the picture stays inside every plane**, with chroma halved or not. -/
theorem plane_fits {shifts : ChromaShifts} (hshiftW : shifts.log2ChromaW ≤ 1)
    (hshiftH : shifts.log2ChromaH ≤ 1) {dst : Size} (hw : dst.width ≤ target.width)
    (hh : dst.height ≤ target.height) (p : Nat) : PlaneFits shifts target dst p := by
  unfold PlaneFits ChromaShifts.sliceOffset ChromaShifts.inPlane
  split
  · exact ⟨ceilRShift_centred_add_le hw hshiftW, ceilRShift_centred_add_le hh hshiftH⟩
  · simp only [centred_eq hw, centred_eq hh]
    omega

/-- **The letterbox stays inside the frame.** For every source that is not empty and every target,
the scaled picture is not larger than the target, has one side in common with it, keeps its shape up
to a pixel, and lies with its offset inside every plane. -/
theorem letterbox_inside (target : Size) (hw : 0 < src.width) (hh : 0 < src.height)
    {shifts : ChromaShifts} (hshiftW : shifts.log2ChromaW ≤ 1)
    (hshiftH : shifts.log2ChromaH ≤ 1) :
    (scaledSize target src).width ≤ target.width ∧
      (scaledSize target src).height ≤ target.height ∧
      ((scaledSize target src).width = target.width ∨
        (scaledSize target src).height = target.height) ∧
      KeepsShape target src (scaledSize target src) ∧
      ∀ p, PlaneFits shifts target (scaledSize target src) p := by
  obtain ⟨hwidth, hheight, hshape⟩ := fits target hw hh
  refine ⟨hwidth, hheight, ?_, hshape, fun p => plane_fits hshiftW hshiftH hwidth hheight p⟩
  rcases hshape with ⟨hsame, _⟩ | ⟨hsame, _⟩
  · exact Or.inr hsame
  · exact Or.inl hsame

/-- A portrait source on an odd landscape target with halved chroma: the picture is as high as the
target, and its chroma planes end inside those of the frame. -/
theorem letterbox_inside_portrait :
    scaledSize ⟨641, 361⟩ ⟨479, 639⟩ = ⟨270, 361⟩ ∧
      PlaneFits ⟨1, 1⟩ ⟨641, 361⟩ (scaledSize ⟨641, 361⟩ ⟨479, 639⟩) 1 := by
  have hinside := letterbox_inside ⟨641, 361⟩ (show 0 < (⟨479, 639⟩ : Size).width by decide)
    (by decide) (show (⟨1, 1⟩ : ChromaShifts).log2ChromaW ≤ 1 by decide) (by decide)
  exact ⟨by decide +kernel, hinside.2.2.2.2 1⟩

end NodeWebkit.MediaRecorder.Video
