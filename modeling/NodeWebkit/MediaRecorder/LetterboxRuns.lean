import NodeWebkit.MediaRecorder.VideoPts

/-!
# The border stays black — what is left on the destination frame

The destination frame is cleared when a scaler is made, and a scaler is made when there is none or
the size of the source changes. In between pictures of the encoder's own size and format are copied
over the whole frame, and the format of a source may change.

* **`InPicture`** — where the picture of a source belongs;
* **`Framed`**, **`Fitting`** — what a frame handed over must be like;
* **`Canvas.Sound`** — what the destination frame shows beside the picture: black, or what was
  copied last;
* **`StepBoxed`** — the condition on a step that uses a scaler again.

Every step keeps `Canvas.Sound`, without a condition (`sound_step`). It says enough of the frame to
decide what a scaler that is used again leaves beside its picture (`Canvas.reused_iff`), and by it a
step hands over a good frame exactly under the condition (`boxed_step_iff`).

`letterbox_iff` is the statement about runs.
-/

namespace NodeWebkit.MediaRecorder.Video

/-! ## The picture and its border -/

/-- The sample lies in the part of plane `p` from `offset` that has size `extent`. -/
def Inside (offset extent : Size) (y x : Nat) : Prop :=
  offset.height ≤ y ∧ y < offset.height + extent.height ∧
    offset.width ≤ x ∧ x < offset.width + extent.width

instance (offset extent : Size) (y x : Nat) : Decidable (Inside offset extent y x) := by
  unfold Inside; infer_instance

/-- The sample belongs to the centred picture of a source. -/
def InPicture (c : Codec) (src : Size) (p y x : Nat) : Prop :=
  Inside (c.desc.shifts.sliceOffset c.size (scaledSize c.size src) p)
    (c.desc.shifts.inPlane p (scaledSize c.size src)) y x

instance (c : Codec) (src : Size) (p y x : Nat) : Decidable (InPicture c src p y x) := by
  unfold InPicture; infer_instance

/-- The sample is one of the destination frame. -/
def InFrame (c : Codec) (p y x : Nat) : Prop :=
  p < c.desc.components ∧ y < (c.desc.shifts.inPlane p c.size).height ∧
    x < (c.desc.shifts.inPlane p c.size).width

instance (c : Codec) (p y x : Nat) : Decidable (InFrame c p y x) := by
  unfold InFrame; infer_instance

/-- Beside the centred picture of a source everything is black. -/
def BlackBeside (c : Codec) (src : Size) (data : Picture) : Prop :=
  ∀ p y x, InFrame c p y x → ¬ InPicture c src p y x → data p y x = c.desc.black p

/-- The scaler was made for this source. -/
def Scaler.For (sws : Scaler) (size : Size) (format : Nat) : Prop :=
  sws.src = size ∧ sws.srcFormat = format

/-- The frame handed over is the centred picture on black. -/
def Framed (c : Codec) (e : Encoded) : Prop := BlackBeside c e.src e.data

/-- The scaler it was drawn with was made for its source. -/
def Fitting (e : Encoded) : Prop := ∀ sws, e.drawn = .scaled sws → sws.For e.src e.srcFormat

theorem paint_inside {data picture : Picture} {components : Nat} {offset extent : Nat → Size}
    {p y x : Nat} (hp : p < components) (h : Inside (offset p) (extent p) y x) :
    paint data components offset extent picture p y x =
      picture p (y - (offset p).height) (x - (offset p).width) :=
  if_pos ⟨hp, h.1, h.2.1, h.2.2.1, h.2.2.2⟩

theorem paint_outside {data picture : Picture} {components : Nat} {offset extent : Nat → Size}
    {p y x : Nat} (h : ¬ Inside (offset p) (extent p) y x) :
    paint data components offset extent picture p y x = data p y x :=
  if_neg fun hin => h ⟨hin.2.1, hin.2.2.1, hin.2.2.2.1, hin.2.2.2.2⟩

/-- The picture of a source that has the size of the target fills it. -/
theorem scaledSize_self {target : Size} (hh : 0 < target.height) :
    scaledSize target target = target := by
  have hwidth : target.width * target.height / target.height = target.width :=
    Nat.mul_div_cancel _ hh
  unfold scaledSize
  simp only [scaleBy_div, scaleBy_self hh, hwidth, Nat.le_refl, if_true]

/-- A source of the frame's own size fills all of it: there is no border in any plane. -/
theorem inPicture_self {c : Codec} {p y x : Nat} (h : InFrame c p y x) :
    InPicture c c.size p y x := by
  obtain ⟨_, hy, hx⟩ := h
  have hh : 0 < c.size.height := by
    by_contra hzero
    have hheight : c.size.height = 0 := by omega
    -- a frame without rows has none in any plane
    have hrows : (c.desc.shifts.inPlane p c.size).height = 0 := by
      unfold ChromaShifts.inPlane
      split
      · show ceilRShift c.size.height _ = 0
        rw [hheight, ceilRShift, Nat.zero_add]
        exact Nat.div_eq_of_lt (Nat.sub_lt (Nat.two_pow_pos _) Nat.one_pos)
      · exact hheight
    omega
  unfold InPicture
  rw [scaledSize_self hh]
  have hoffset : c.desc.shifts.sliceOffset c.size c.size p = ⟨0, 0⟩ := by
    unfold ChromaShifts.sliceOffset
    rw [centred_eq (Nat.le_refl _), centred_eq (Nat.le_refl _), Nat.sub_self, Nat.sub_self]
    unfold ChromaShifts.inPlane
    split
    · have hzero : ∀ shift, ceilRShift (0 / 2) shift = 0 := by
        intro shift
        rw [ceilRShift, Nat.zero_div, Nat.zero_add]
        exact Nat.div_eq_of_lt (Nat.sub_lt (Nat.two_pow_pos _) Nat.one_pos)
      rw [hzero, hzero]
    · rfl
  rw [hoffset]
  exact ⟨Nat.zero_le _, by rw [Nat.zero_add]; exact hy, Nat.zero_le _,
    by rw [Nat.zero_add]; exact hx⟩

/-! ## Drawing

One lemma for each thing that happens to the frame: a scaler is freed, one is made and the frame
cleared, a scaled picture is painted, a picture is copied over the whole frame. -/

namespace Canvas

variable {scale : Scaler → Picture → Picture} {c : Codec} {s : Canvas}

/-- What the destination frame shows in the border of the scaler: black, or what was copied last. -/
def border (c : Codec) (s : Canvas) (p y x : Nat) : UInt8 :=
  match s.copied with
  | none => c.desc.black p
  | some picture => picture p y x

/-- The scaler draws the centred picture of its source, and nothing else was drawn beside it than
what was copied. -/
structure Sound (c : Codec) (s : Canvas) : Prop where
  dst : ∀ sws, s.sws = some sws → sws.dst = scaledSize c.size sws.src
  slice : ∀ sws, s.sws = some sws → s.dstSlice = c.desc.shifts.sliceOffset c.size sws.dst
  beside : ∀ sws, s.sws = some sws → ∀ p y x, InFrame c p y x → ¬ InPicture c sws.src p y x →
    s.data p y x = s.border c p y x

theorem freeScaler_cases (src : Size) (s : Canvas) :
    s.freeScaler src = s ∨ s.freeScaler src = { s with sws := none } := by
  unfold freeScaler
  split
  · exact Or.inr rfl
  · exact Or.inl rfl

/-- A scaler that is freed has nothing to say about the frame any more. -/
theorem Sound.freeScaler (h : Sound c s) (src : Size) : Sound c (s.freeScaler src) := by
  rcases freeScaler_cases src s with heq | heq
  · rw [heq]
    exact h
  · rw [heq]
    refine ⟨?_, ?_, ?_⟩ <;> intro sws hsome <;> cases hsome

theorem copied_freeScaler (src : Size) (s : Canvas) : (s.freeScaler src).copied = s.copied := by
  rcases freeScaler_cases src s with heq | heq <;> rw [heq]

/-- `sws_scale` draws inside the picture of the source that the scaler was made for. -/
theorem swsScale_beside (h : Sound c s) {sws : Scaler} (hsws : s.sws = some sws)
    (frame : VideoFrame) {p y x : Nat} (hout : ¬ InPicture c sws.src p y x) :
    (s.swsScale scale c sws frame).data p y x = s.data p y x := by
  apply paint_outside
  rw [h.slice sws hsws, h.dst sws hsws]
  exact hout

/-- A scaled picture is painted where it belongs, so what is beside it stays. -/
theorem Sound.swsScale (h : Sound c s) {sws : Scaler} (hsws : s.sws = some sws)
    (frame : VideoFrame) : Sound c (s.swsScale scale c sws frame) where
  dst := h.dst
  slice := h.slice
  beside := by
    intro sws' hsws' p y x hin hout
    have hsame : sws' = sws := Option.some.inj (hsws'.symm.trans hsws)
    rw [hsame] at hout
    rw [swsScale_beside h hsws frame hout]
    exact h.beside sws hsws p y x hin hout

theorem Sound.newScaler (c : Codec) (frame : VideoFrame) (s : Canvas) :
    Sound c (s.newScaler c frame) := by
  refine ⟨?_, ?_, ?_⟩ <;> intro sws hsws <;> cases hsws
  · rfl
  · rfl
  · intro p y x _ _
    rfl

/-- After a copy the frame shows what was copied, in all of its planes. -/
theorem data_imageCopy (frame : VideoFrame) {p y x : Nat} (hin : InFrame c p y x) :
    (s.imageCopy c frame).data p y x = frame.data p y x := by
  simp only [Canvas.imageCopy]
  rw [paint_inside hin.1]
  · rfl
  · exact ⟨Nat.zero_le _, by rw [Nat.zero_add]; exact hin.2.1, Nat.zero_le _,
      by rw [Nat.zero_add]; exact hin.2.2⟩

/-- The copy is what is beside the picture of a scaler from before, too. -/
theorem Sound.imageCopy (h : Sound c s) (frame : VideoFrame) : Sound c (s.imageCopy c frame) where
  dst := h.dst
  slice := h.slice
  beside _ _ _ _ _ hin _ := data_imageCopy frame hin

/-- The frame has another size or format than the encoder, and there is a scaler for a source of its
size, as far as the two `short`s tell. -/
def Reuses (c : Codec) (frame : VideoFrame) (sws : Scaler) (s : Canvas) : Prop :=
  (c.size ≠ frame.size ∨ c.pixFmt ≠ frame.format) ∧ s.sws = some sws ∧
    s.lastSrcW = frame.size.width ∧ s.lastSrcH = frame.size.height

/-- A scaler is kept exactly if the source has the size of the last one. The format of the source is
not compared, which is what the condition is about. -/
theorem sws_freeScaler_iff (src : Size) (sws : Scaler) (s : Canvas) :
    (s.freeScaler src).sws = some sws ↔
      s.sws = some sws ∧ s.lastSrcW = src.width ∧ s.lastSrcH = src.height := by
  unfold Canvas.freeScaler
  split
  case isTrue hfree =>
    constructor
    · intro h
      cases h
    · intro ⟨_, hw, hh⟩
      rcases hfree.2 with hne | hne
      · exact absurd hw hne
      · exact absurd hh hne
  case isFalse hkeep =>
    constructor
    · intro hsws
      have hsome : s.sws.isSome = true := by rw [hsws, Option.isSome_some]
      by_contra hno
      -- a scaler of another size would have been freed
      refine hkeep ⟨hsome, ?_⟩
      by_contra hboth
      exact hno ⟨hsws, by omega, by omega⟩
    · exact fun h => h.1

/-- A scaler that is used again was made for this source, and what was copied since is black in the
border. -/
def DrawOk (c : Codec) (frame : VideoFrame) (s : Canvas) : Prop :=
  ∀ sws, s.Reuses c frame sws →
    sws.For frame.size frame.format ∧
      ∀ picture, s.copied = some picture → BlackBeside c frame.size picture

/-- Drawing a frame, by any of the ways, keeps the canvas sound. -/
theorem Sound.draw (scale : Scaler → Picture → Picture) (h : Sound c s) (frame : VideoFrame)
    (scalerOk : Bool) : Sound c (s.draw scale c frame scalerOk).1 := by
  unfold Canvas.draw
  split
  · have hfree := h.freeScaler frame.size
    dsimp only
    split
    next sws hsws => exact hfree.swsScale hsws frame
    next =>
      split
      · exact (Sound.newScaler c frame _).swsScale rfl frame
      · exact hfree
  · exact h.imageCopy frame

/-- Where no scaler is left for the source, none is used again, and the condition asks nothing. -/
theorem drawOk_of_none {frame : VideoFrame} (hnone : (s.freeScaler frame.size).sws = none) :
    s.DrawOk c frame := by
  intro sws hsws
  have hkept := (sws_freeScaler_iff frame.size sws s).mpr hsws.2
  rw [hnone] at hkept
  cases hkept

/-- A frame that needed a new scaler and got none used no scaler from before. -/
theorem drawOk_of_noScaler {frame : VideoFrame} {scalerOk : Bool} {s' : Canvas}
    (hdraw : s.draw scale c frame scalerOk = (s', .noScaler)) : s.DrawOk c frame := by
  unfold Canvas.draw at hdraw
  split at hdraw
  · dsimp only at hdraw
    split at hdraw
    next => cases hdraw
    next hnone => exact drawOk_of_none hnone
  · cases hdraw

/-- Beside the picture of the scaler that is used again the border is what it was. -/
theorem swsScale_reused (h : Sound c s) {frame : VideoFrame} {sws : Scaler}
    (hreuses : s.Reuses c frame sws) {p y x : Nat} (hin : InFrame c p y x)
    (hout : ¬ InPicture c sws.src p y x) :
    ((s.freeScaler frame.size).swsScale scale c sws frame).data p y x = s.border c p y x := by
  have hfree := h.freeScaler frame.size
  have hsws := (sws_freeScaler_iff frame.size sws s).mpr hreuses.2
  rw [swsScale_beside hfree hsws frame hout, hfree.beside sws hsws p y x hin hout]
  unfold border
  rw [copied_freeScaler]

/-- **A scaler from before draws the picture on black exactly under the condition**: it was made for
the format of the source, and what was copied in between is black beside the picture. -/
theorem reused_iff (h : Sound c s) {frame : VideoFrame} {sws : Scaler}
    (hreuses : s.Reuses c frame sws) :
    BlackBeside c frame.size ((s.freeScaler frame.size).swsScale scale c sws frame).data ∧
        sws.For frame.size frame.format ↔ s.DrawOk c frame := by
  constructor
  · intro ⟨hblack, hfor⟩ sws' hsws'
    have hsame : sws' = sws := Option.some.inj (hsws'.2.1.symm.trans hreuses.2.1)
    rw [hsame]
    refine ⟨hfor, ?_⟩
    intro picture hcopied p y x hin hout
    -- beside the picture the frame shows what was copied, or black
    have hshown := hblack p y x hin hout
    rw [swsScale_reused h hreuses hin (by rw [hfor.1]; exact hout)] at hshown
    unfold border at hshown
    rw [hcopied] at hshown
    exact hshown
  · intro hok
    obtain ⟨hfor, hcopies⟩ := hok sws hreuses
    refine ⟨?_, hfor⟩
    intro p y x hin hout
    rw [swsScale_reused h hreuses hin (by rw [hfor.1]; exact hout)]
    unfold border
    cases hcopied : s.copied with
    | none => rfl
    | some picture => exact hcopies picture hcopied p y x hin hout

/-- **What is handed over is right exactly if the reused scaler and the copies are.** -/
theorem draw_iff (h : Sound c s) (frame : VideoFrame) (scalerOk : Bool) {s' : Canvas}
    {drawn : Drawn} (hdraw : s.draw scale c frame scalerOk = (s', drawn))
    (hsome : drawn ≠ .noScaler) :
    (BlackBeside c frame.size s'.data ∧
        ∀ sws, drawn = .scaled sws → sws.For frame.size frame.format) ↔
      s.DrawOk c frame := by
  unfold Canvas.draw at hdraw
  split at hdraw
  case isTrue hscale =>
    dsimp only at hdraw
    split at hdraw
    next sws hsws =>
      -- a scaler from before
      cases hdraw
      have hreuses : s.Reuses c frame sws :=
        ⟨hscale, (sws_freeScaler_iff frame.size sws s).mp hsws⟩
      rw [← reused_iff h hreuses]
      refine and_congr_right fun _ => ⟨fun hfor => hfor sws rfl, ?_⟩
      intro hfor sws' heq
      cases heq
      exact hfor
    next hnone =>
      split at hdraw
      case isFalse =>
        cases hdraw
        exact absurd rfl hsome
      case isTrue =>
        -- a new scaler, on a black frame
        cases hdraw
        refine ⟨fun _ => drawOk_of_none hnone, fun _ => ⟨?_, ?_⟩⟩
        · intro p y x _ hout
          apply paint_outside
          exact hout
        · intro sws heq
          cases heq
          exact ⟨rfl, rfl⟩
  case isFalse hsame =>
    cases hdraw
    have hsize : c.size = frame.size := by
      by_contra hne
      exact hsame (Or.inl hne)
    refine ⟨fun _ sws hsws => absurd hsws.1 hsame, fun _ => ⟨?_, ?_⟩⟩
    · -- the picture is the whole frame
      intro p y x hin hout
      rw [← hsize] at hout
      exact absurd (inPicture_self hin) hout
    · intro sws heq
      cases heq

end Canvas

/-! ## Runs -/

namespace Recorder

variable {toInt : ℚ → Int} {scale : Scaler → Picture → Picture} {c : Codec} {s t : Recorder}

/-- Every frame handed over is the centred picture of its source on black, drawn with a scaler that
was made for it. -/
def Boxed (c : Codec) (s : Recorder) : Prop := ∀ e ∈ s.encoded, Framed c e ∧ Fitting e

/-- The condition on a frame that is not dropped, where it is drawn with a scaler from before. -/
def StepBoxed (toInt : ℚ → Int) (c : Codec) (s : Recorder) : Op → Prop
  | .updateVideo frame time _ =>
    s.Accepts → ((s.noted time).schedule toInt c time).2 = true → s.canvas.DrawOk c frame
  | _ => True

/-- **Every step keeps the canvas sound**: a frame is dropped, cannot be drawn, or is drawn by one
of the ways above. -/
theorem sound_step (h : s.canvas.Sound c) (op : Op) : (s.step toInt scale c op).canvas.Sound c := by
  cases op with
  | initFile => exact h
  | updateVideo frame time scalerOk =>
    show (s.updateVideo toInt scale c frame time scalerOk).1.canvas.Sound c
    by_cases haccepts : s.Accepts
    case neg =>
      rw [updateVideo_of_not_accepts haccepts]
      exact h
    have hcanvas := (schedule_kept toInt c time (s.noted time)).1
    rcases updateVideo_cases toInt scale c haccepts frame time scalerOk with
      ⟨_, heq⟩ | ⟨_, canvas, drawn, hdraw, hend⟩
    · rw [heq]
      show ((s.noted time).schedule toInt c time).1.canvas.Sound c
      rw [hcanvas]
      exact h
    · have hsound := Canvas.Sound.draw scale h frame scalerOk
      rw [hcanvas] at hdraw
      have hdraw : s.canvas.draw scale c frame scalerOk = (canvas, drawn) := hdraw
      rw [hdraw] at hsound
      rcases hend with ⟨_, heq⟩ | ⟨_, heq⟩ <;> rw [heq] <;> exact hsound

/-- One more frame that was handed over has to be good, too. -/
theorem boxed_append {e : Encoded} (h : t.encoded = s.encoded ++ [e]) :
    t.Boxed c ↔ s.Boxed c ∧ Framed c e ∧ Fitting e := by
  unfold Boxed
  rw [h]
  constructor
  · intro hall
    refine ⟨fun e' he' => hall e' (List.mem_append_left _ he'), ?_⟩
    exact hall e (List.mem_append_right _ (List.mem_singleton.mpr rfl))
  · intro ⟨hold, hnew⟩ e' he'
    rcases List.mem_append.mp he' with he' | he'
    · exact hold e' he'
    · rw [List.mem_singleton.mp he']
      exact hnew

/-- What handing a frame over asks of the canvas: black beside the picture, and a scaler for the
source. -/
theorem boxed_encode (frame : VideoFrame) (time : TimeTicks) (drawn : Drawn) (canvas : Canvas)
    (h : t.encoded = s.encoded) :
    ({ t with canvas := canvas }.encode frame time drawn).Boxed c ↔
      s.Boxed c ∧ BlackBeside c frame.size canvas.data ∧
        ∀ sws, drawn = .scaled sws → sws.For frame.size frame.format := by
  have hlog : ({ t with canvas := canvas }.encode frame time drawn).encoded =
      s.encoded ++ [⟨frame.size, frame.format, time, drawn, t.pts, canvas.data⟩] := by
    rw [← h]
    rfl
  rw [boxed_append hlog]
  rfl

/-- **One step.** What was handed over stays as it was, and what is handed over now is right exactly
under the condition. -/
theorem boxed_step_iff (h : s.canvas.Sound c) (op : Op) :
    (s.step toInt scale c op).Boxed c ↔ s.Boxed c ∧ s.StepBoxed toInt c op := by
  cases op with
  | initFile => exact ⟨fun hb => ⟨hb, trivial⟩, fun hb => hb.1⟩
  | updateVideo frame time scalerOk =>
    show (s.updateVideo toInt scale c frame time scalerOk).1.Boxed c ↔ _
    by_cases haccepts : s.Accepts
    case neg =>
      rw [updateVideo_of_not_accepts haccepts]
      exact ⟨fun hb => ⟨hb, fun hyes => absurd hyes haccepts⟩, fun hb => hb.1⟩
    obtain ⟨hcanvas, hencoded⟩ := schedule_kept toInt c time (s.noted time)
    have hencoded : ((s.noted time).schedule toInt c time).1.encoded = s.encoded := hencoded
    rcases updateVideo_cases toInt scale c haccepts frame time scalerOk with
      ⟨hdropped, heq⟩ | ⟨hkept, canvas, drawn, hdraw, hend⟩
    · have hstay : ((s.noted time).schedule toInt c time).1.Boxed c ↔ s.Boxed c := by
        unfold Boxed
        rw [hencoded]
      have hok : s.StepBoxed toInt c (.updateVideo frame time scalerOk) := by
        intro _ hkept
        rw [hdropped] at hkept
        cases hkept
      rw [heq]
      exact hstay.trans ⟨fun hb => ⟨hb, hok⟩, fun hb => hb.1⟩
    · rw [hcanvas] at hdraw
      have hdraw : s.canvas.draw scale c frame scalerOk = (canvas, drawn) := hdraw
      have hok : s.StepBoxed toInt c (.updateVideo frame time scalerOk) ↔
          s.canvas.DrawOk c frame := ⟨fun h => h haccepts hkept, fun h _ _ => h⟩
      rw [hok]
      -- a frame that could not be drawn is not handed over
      rcases hend with ⟨hnone, heq⟩ | ⟨hsome, heq⟩
      · rw [hnone] at hdraw
        have hdrawOk := Canvas.drawOk_of_noScaler hdraw
        rw [heq]
        unfold Boxed
        rw [show ({ ((s.noted time).schedule toInt c time).1 with
          canvas := canvas } : Recorder).encoded = s.encoded from hencoded]
        exact ⟨fun hb => ⟨hb, hdrawOk⟩, fun hb => hb.1⟩
      · have hright := Canvas.draw_iff h frame scalerOk hdraw hsome
        rw [heq, ← hright]
        exact boxed_encode frame time drawn canvas hencoded

/-- **Only the picture of the source is on a frame, exactly under the condition.** For every
sequence of frames of any size and format, every scaler and every encoder: each frame handed over is
the centred picture of its source on black, drawn with a scaler made for the size and the format of
its source, if and only if at every step a scaler that is used again was made for the source and
what was copied since is black in the border. -/
theorem letterbox_iff (toInt : ℚ → Int) (scale : Scaler → Picture → Picture) (c : Codec)
    (haveVideo : Bool) (data : Picture) (ops : List Op) (t : Recorder) :
    (Lts.Run (Lts.ofFn (step toInt scale c)) (initVideo haveVideo data) ops t ∧ t.Boxed c) ↔
      Lts.Run (Lts.Guarded (StepBoxed toInt c) (Lts.ofFn (step toInt scale c)))
        (initVideo haveVideo data) ops t := by
  have hstart : (initVideo haveVideo data).canvas.Sound c := by
    refine ⟨?_, ?_, ?_⟩ <;> intro sws hsws <;> cases hsws
  have hsound : ∀ s op t, s.canvas.Sound c → Lts.ofFn (step toInt scale c) s op t →
      t.canvas.Sound c := by
    intro s op t hs heq
    rw [← heq]
    exact sound_step hs op
  constructor
  · intro ⟨hrun, hboxed⟩
    -- the log of frames only grows, so a good log at the end was good at every step
    refine (hrun.guarded_of_last (I := fun s => s.canvas.Sound c) (P := Boxed c) hsound ?_ hstart
      hboxed).1
    intro s op t hs heq ht
    rw [← heq] at ht
    exact ((boxed_step_iff hs op).mp ht).symm
  · intro hrun
    refine ⟨hrun.unguard, ?_⟩
    refine (hrun.invariant (I := fun s => s.canvas.Sound c ∧ s.Boxed c) ?_
      ⟨hstart, fun _ he => (List.not_mem_nil he).elim⟩).2
    intro s op t hs hst
    refine ⟨hsound s op t hs.1 hst.2, ?_⟩
    rw [← hst.2]
    exact (boxed_step_iff hs.1 op).mpr ⟨hs.2, hst.1⟩

/-- A narrow frame. -/
def narrowFrame : VideoFrame := ⟨⟨32, 48⟩, 0, fun _ _ _ => 16⟩

/-- A frame of the encoder's size and format between two narrow ones. -/
def exactBetween : List Op :=
  [.initFile, .updateVideo narrowFrame 1000000 true, .updateVideo greyFrame 1100000 true,
    .updateVideo narrowFrame 1200000 true]

def afterExact : Recorder :=
  exactBetween.foldl (step truncate (fun _ picture => picture) thirtyFps)
    (initVideo true (fun _ _ _ => 0))

/-- The third frame has the grey of the second one beside its picture: the second frame was of the
encoder's own size and was copied over the black. -/
theorem exactBetween_not_boxed :
    Lts.Run (Lts.ofFn (step truncate (fun _ picture => picture) thirtyFps))
        (initVideo true (fun _ _ _ => 0)) exactBetween afterExact ∧
      ¬ afterExact.Boxed thirtyFps := by
  refine ⟨.cons rfl (.cons rfl (.cons rfl (.cons rfl (.nil _)))), ?_⟩
  intro h
  have hcorner : ∀ e ∈ afterExact.encoded, InFrame thirtyFps 0 0 0 →
      ¬ InPicture thirtyFps e.src 0 0 0 → e.data 0 0 0 = thirtyFps.desc.black 0 :=
    fun e he => (h e he).1 0 0 0
  revert hcorner
  decide +kernel

end Recorder

end NodeWebkit.MediaRecorder.Video
