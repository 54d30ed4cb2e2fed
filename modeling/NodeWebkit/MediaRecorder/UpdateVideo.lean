import NodeWebkit.Lib.Run
import NodeWebkit.MediaRecorder.Letterbox

/-!
# Video on its way to the encoder — UpdateVideo

`UpdateVideo` gives a frame its time or drops it, brings the picture to the size and format of the
encoder in `video_st.frame`, and hands that frame over. The destination frame, the scaler and the
offsets of the picture are kept from one call to the next.

A picture is read and written by plane, row and column, a byte for each sample: the encoder has the
format of the first frame, and `VideoPixelFormatToAVPixelFormat` knows formats of this kind only.
What `sws_scale` makes of a source is left to `scale`; whether `sws_getContext` gives a scaler comes
with each frame.
-/

namespace NodeWebkit.MediaRecorder.Video

/-- The samples of a picture by plane, row and column. -/
abbrev Picture := Nat → Nat → Nat → UInt8

/-- A captured frame; `format` is its `AVPixelFormat`. -/
structure VideoFrame where
  size : Size
  format : Nat
  data : Picture

/-- `AVPixFmtDescriptor` of the encoder's format, with what the scaler makes of a black pixel. -/
structure Descriptor where
  shifts : ChromaShifts
  components : Nat
  planar : Bool
  rgb : Bool
  blackPixel : Nat → UInt8 := fun _ => 0

/-- The codec context of the encoder. -/
structure Codec where
  size : Size
  pixFmt : Nat
  timeBase : TimeBase
  desc : Descriptor

/-- An `SwsContext`. -/
structure Scaler where
  src : Size
  srcFormat : Nat
  dst : Size
  deriving DecidableEq

/-- What is done to bring a frame to the encoder's size and format. -/
inductive Drawn where
  | noScaler
  | scaled (sws : Scaler)
  | copied
  deriving DecidableEq

/-- A frame handed to the encoder: what was captured when, and what the encoder is given. -/
structure Encoded where
  src : Size
  srcFormat : Nat
  time : TimeTicks
  drawn : Drawn
  pts : Int
  data : Picture

/-- What becomes of a frame. -/
inductive Outcome where
  | ignored
  | dropped
  | noScaler
  | encoded
  deriving DecidableEq

/-- A value kept in a `short`. -/
def toShort (n : Nat) : Int := Int.bmod n (2 ^ 16)

/-- Writes part of a picture at an offset: `offset` and `extent` are given for each plane. -/
def paint (data : Picture) (components : Nat) (offset extent : Nat → Size) (picture : Picture) :
    Picture :=
  fun p y x =>
    if p < components ∧
        (offset p).height ≤ y ∧ y < (offset p).height + (extent p).height ∧
        (offset p).width ≤ x ∧ x < (offset p).width + (extent p).width then
      picture p (y - (offset p).height) (x - (offset p).width)
    else data p y x

/-- The sample that is black in plane `p`: planar formats are filled with a colour, others are
scaled from a black pixel. -/
def Descriptor.black (desc : Descriptor) (p : Nat) : UInt8 :=
  if desc.planar then
    -- YUV black value is 0, 128, 128
    if isChroma p && !desc.rgb then 128 else 0
  else desc.blackPixel p

/-- The black destination frame. -/
def blackPicture (desc : Descriptor) : Picture := fun p _ _ => desc.black p

/-- The destination frame with the scaler that draws on it. -/
structure Canvas where
  data : Picture
  sws : Option Scaler := none
  lastSrcW : Int := 0
  lastSrcH : Int := 0
  dstSlice : Nat → Size := fun _ => ⟨0, 0⟩
  /-- The picture copied last since the scaler was made. -/
  copied : Option Picture := none

namespace Canvas

/-- A scaler for a source of another size is freed. -/
def freeScaler (src : Size) (self : Canvas) : Canvas :=
  if self.sws.isSome ∧ (self.lastSrcW ≠ src.width ∨ self.lastSrcH ≠ src.height) then
    { self with sws := none }
  else self

/-- A new scaler: the size is kept in two `short`s, the frame gets black, and the offsets are those
of the centred picture. -/
def newScaler (c : Codec) (frame : VideoFrame) (self : Canvas) : Canvas :=
  let dst := scaledSize c.size frame.size
  { self with
    sws := some ⟨frame.size, frame.format, dst⟩
    lastSrcW := toShort frame.size.width
    lastSrcH := toShort frame.size.height
    data := blackPicture c.desc
    dstSlice := c.desc.shifts.sliceOffset c.size dst
    copied := none }

/-- `sws_scale` into `dstSlice_`. -/
def swsScale (scale : Scaler → Picture → Picture) (c : Codec) (sws : Scaler) (frame : VideoFrame)
    (self : Canvas) : Canvas :=
  { self with
    data := paint self.data c.desc.components self.dstSlice
      (fun p => c.desc.shifts.inPlane p sws.dst) (scale sws frame.data) }

/-- `av_image_copy`. -/
def imageCopy (c : Codec) (frame : VideoFrame) (self : Canvas) : Canvas :=
  { self with
    data := paint self.data c.desc.components (fun _ => ⟨0, 0⟩)
      (fun p => c.desc.shifts.inPlane p c.size) frame.data
    copied := some frame.data }

/-- The picture is scaled unless it has the encoder's size and format. -/
def draw (scale : Scaler → Picture → Picture) (c : Codec) (frame : VideoFrame) (scalerOk : Bool)
    (self : Canvas) : Canvas × Drawn :=
  if c.size ≠ frame.size ∨ c.pixFmt ≠ frame.format then
    let self := self.freeScaler frame.size
    match self.sws with
    | some sws => (self.swsScale scale c sws frame, .scaled sws)
    | none =>
      if scalerOk then
        let self := self.newScaler c frame
        let sws : Scaler := ⟨frame.size, frame.format, scaledSize c.size frame.size⟩
        (self.swsScale scale c sws frame, .scaled sws)
      else (self, .noScaler)
  else (self.imageCopy c frame, .copied)

end Canvas

/-- What `UpdateVideo` reads and writes of the recorder. -/
structure Recorder where
  haveVideo : Bool
  fileReady : Bool := false
  videoStart : TimeTicks := 0
  /-- `dstFrame->pts`, `AV_NOPTS_VALUE` at first. -/
  pts : Int := -2 ^ 63
  canvas : Canvas
  /-- The capture time of the first frame that was not ignored. -/
  firstTime : Option TimeTicks := none
  encoded : List Encoded := []

namespace Recorder

/-- The time of the frame; a frame that is early is not kept. -/
def schedule (toInt : ℚ → Int) (c : Codec) (time : TimeTicks) (self : Recorder) :
    Recorder × Bool :=
  if self.videoStart.isNull then
    ({ self with
        videoStart := time
        pts := 0 }, true)
  else
    let dt := time - self.videoStart
    let expectedPts := c.timeBase.expectedPts toInt dt
    let pts := self.pts + 1
    if pts < expectedPts then ({ self with pts := expectedPts }, true)
    else if (pts : ℚ) - c.timeBase.position dt > 1 then ({ self with pts := pts - 1 }, false)
    else ({ self with pts := pts }, true)

/-- The frame on the canvas goes to the encoder. -/
def encode (frame : VideoFrame) (time : TimeTicks) (drawn : Drawn) (self : Recorder) : Recorder :=
  { self with
    encoded := self.encoded ++
      [⟨frame.size, frame.format, time, drawn, self.pts, self.canvas.data⟩] }

def updateVideo (toInt : ℚ → Int) (scale : Scaler → Picture → Picture) (c : Codec)
    (frame : VideoFrame) (time : TimeTicks) (scalerOk : Bool) (self : Recorder) :
    Recorder × Outcome :=
  if !self.haveVideo || !self.fileReady then (self, .ignored)
  else
    let self := { self with firstTime := self.firstTime.or (some time) }
    match self.schedule toInt c time with
    | (self, false) => (self, .dropped)
    | (self, true) =>
      match self.canvas.draw scale c frame scalerOk with
      | (canvas, .noScaler) => ({ self with canvas := canvas }, .noScaler)
      | (canvas, drawn) => ({ self with canvas := canvas }.encode frame time drawn, .encoded)

inductive Op where
  /-- `InitFile`. -/
  | initFile
  | updateVideo (frame : VideoFrame) (time : TimeTicks) (scalerOk : Bool)

def step (toInt : ℚ → Int) (scale : Scaler → Picture → Picture) (c : Codec) (self : Recorder) :
    Op → Recorder
  | .initFile => { self with fileReady := true }
  | .updateVideo frame time scalerOk => (self.updateVideo toInt scale c frame time scalerOk).1

/-- The recorder after `InitVideo`; the samples of the new frame may be anything. -/
def initVideo (haveVideo : Bool) (data : Picture) : Recorder where
  haveVideo := haveVideo
  canvas := { data := data }

/-! What a call does. -/

/-- `UpdateVideo` does not return at once. -/
def Accepts (self : Recorder) : Prop := self.haveVideo = true ∧ self.fileReady = true

instance (self : Recorder) : Decidable self.Accepts := by unfold Accepts; infer_instance

/-- The first capture time is on record. -/
def noted (time : TimeTicks) (self : Recorder) : Recorder :=
  { self with firstTime := self.firstTime.or (some time) }

variable {toInt : ℚ → Int} {scale : Scaler → Picture → Picture} {c : Codec} {s : Recorder}

/-- What becomes of the time of a frame: the first one is at zero, one that is behind is moved on,
one that is early is dropped, any other comes next. -/
theorem schedule_cases (toInt : ℚ → Int) (c : Codec) (time : TimeTicks) (s : Recorder) :
    (s.videoStart.isNull = true ∧
      s.schedule toInt c time = ({ s with videoStart := time, pts := 0 }, true)) ∨
    (s.videoStart.isNull = false ∧
      ((s.pts + 1 < c.timeBase.expectedPts toInt (time - s.videoStart) ∧
        s.schedule toInt c time =
          ({ s with pts := c.timeBase.expectedPts toInt (time - s.videoStart) }, true)) ∨
      (((s.pts + 1 : Int) : ℚ) - c.timeBase.position (time - s.videoStart) > 1 ∧
        s.schedule toInt c time = (s, false)) ∨
      (c.timeBase.expectedPts toInt (time - s.videoStart) ≤ s.pts + 1 ∧
        ((s.pts + 1 : Int) : ℚ) - c.timeBase.position (time - s.videoStart) ≤ 1 ∧
        s.schedule toInt c time = ({ s with pts := s.pts + 1 }, true)))) := by
  unfold schedule
  split
  case isTrue hnull => exact Or.inl ⟨hnull, rfl⟩
  case isFalse hnull =>
    refine Or.inr ⟨by simpa using hnull, ?_⟩
    dsimp only
    split
    -- behind its time: the frame jumps to the expected position
    case isTrue hbehind => exact Or.inl ⟨hbehind, rfl⟩
    case isFalse hbehind =>
      split
      -- more than one ahead: the frame is dropped
      case isTrue hearly =>
        refine Or.inr (Or.inl ⟨hearly, ?_⟩)
        rw [Int.add_sub_cancel]
      -- in time: one more than the last position
      case isFalse hearly =>
        exact Or.inr (Or.inr ⟨not_lt.mp hbehind, not_lt.mp hearly, rfl⟩)

/-- Giving a frame its time draws nothing and hands nothing over, it only changes the start time and
the position. -/
theorem schedule_kept (toInt : ℚ → Int) (c : Codec) (time : TimeTicks) (s : Recorder) :
    (s.schedule toInt c time).1.canvas = s.canvas ∧
      (s.schedule toInt c time).1.encoded = s.encoded := by
  rcases schedule_cases toInt c time s with ⟨_, heq⟩ | ⟨_, ⟨_, heq⟩ | ⟨_, heq⟩ | ⟨_, _, heq⟩⟩ <;>
    rw [heq] <;> exact ⟨rfl, rfl⟩

/-- Without a video track or before the file is ready a call of `UpdateVideo` changes nothing, not
even the first capture time. -/
theorem updateVideo_of_not_accepts (h : ¬ s.Accepts) (frame : VideoFrame) (time : TimeTicks)
    (scalerOk : Bool) : s.updateVideo toInt scale c frame time scalerOk = (s, .ignored) := by
  have hignored : (!s.haveVideo || !s.fileReady) = true := by
    unfold Accepts at h
    revert h
    cases s.haveVideo <;> cases s.fileReady <;> decide
  rw [updateVideo, if_pos hignored]

/-- **What a call of `UpdateVideo` does** unless it returns at once: the frame is dropped, or drawn
and, where that needed no scaler that could not be had, handed over. -/
theorem updateVideo_cases (toInt : ℚ → Int) (scale : Scaler → Picture → Picture) (c : Codec)
    (h : s.Accepts) (frame : VideoFrame) (time : TimeTicks) (scalerOk : Bool) :
    (((s.noted time).schedule toInt c time).2 = false ∧
      s.updateVideo toInt scale c frame time scalerOk =
        (((s.noted time).schedule toInt c time).1, .dropped)) ∨
    (((s.noted time).schedule toInt c time).2 = true ∧
      ∃ canvas drawn,
        ((s.noted time).schedule toInt c time).1.canvas.draw scale c frame scalerOk =
          (canvas, drawn) ∧
        (drawn = .noScaler ∧
            s.updateVideo toInt scale c frame time scalerOk =
              ({ ((s.noted time).schedule toInt c time).1 with canvas := canvas }, .noScaler) ∨
          drawn ≠ .noScaler ∧
            s.updateVideo toInt scale c frame time scalerOk =
              ({ ((s.noted time).schedule toInt c time).1 with canvas := canvas }.encode
                frame time drawn, .encoded))) := by
  have haccepted : ¬ (!s.haveVideo || !s.fileReady) = true := by
    rw [h.1, h.2]
    decide
  -- the three ends of a call, once the checks of the flags are behind
  have hr : s.updateVideo toInt scale c frame time scalerOk =
      match (s.noted time).schedule toInt c time with
      | (self, false) => (self, Outcome.dropped)
      | (self, true) =>
        match self.canvas.draw scale c frame scalerOk with
        | (canvas, .noScaler) => ({ self with canvas := canvas }, .noScaler)
        | (canvas, drawn) =>
          ({ self with canvas := canvas }.encode frame time drawn, .encoded) := by
    rw [updateVideo, if_neg haccepted]
    rfl
  rw [hr]
  cases hschedule : (s.noted time).schedule toInt c time with
  | mk s₁ kept =>
    cases kept with
    | false => exact Or.inl ⟨rfl, rfl⟩
    | true =>
      refine Or.inr ⟨rfl, ?_⟩
      dsimp only
      cases hdraw : s₁.canvas.draw scale c frame scalerOk with
      | mk canvas drawn =>
        refine ⟨canvas, drawn, rfl, ?_⟩
        cases drawn with
        | noScaler => exact Or.inl ⟨rfl, rfl⟩
        | scaled sws => exact Or.inr ⟨by simp, rfl⟩
        | copied => exact Or.inr ⟨by simp, rfl⟩

end Recorder

end NodeWebkit.MediaRecorder.Video
