import Mathlib.Algebra.Order.Group.Int
import Mathlib.Data.List.Basic

/-!
# The sample rate of the audio encoder — the choice `add_stream` makes from a table

An encoder lists the sample rates and the channel layouts it supports in tables that end with a
zero. `add_stream` starts with the first entry of a table and replaces it by every later one that
suits, so what it ends with is the last entry that suits.

## The crux

The loop for the rates asks whether an entry is at least the requested rate, and never whether it is
smaller than the one it has. The choice is therefore the smallest suited rate only where the table
lists it last, which some encoders of FFmpeg do and some do not.

## The architecture

* **`scan_eq`** — the loop over a table in closed form;
* **`channelLayout_eq`** — for the layouts, of which at most one value suits, that is enough;
* **`suited_iff_least`**, **`suited_iff_largest`** — what a suited rate is, where some rate reaches
  the request and where none does;
* **`suited_iff`** — for the rates it is enough if and only if the order of the table is right;
* **`wellOrdered_of_descending`** — which it is in a table that descends.
-/

namespace NodeWebkit.MediaRecorder.Encoder

/-- A table of an encoder: what stands before the zero that ends it. -/
structure Table where
  entries : List Int
  nonzero : ∀ x ∈ entries, x ≠ 0

/-- The values in memory from the pointer to the table on. -/
def Table.memory (table : Table) : List Int := table.entries ++ [0]

/-- `*table`. -/
def Table.deref (table : Table) : Int := table.memory.headD 0

/-- `for (; *p; p++) if (suits(*p)) choice = *p`. -/
def scan (suits : Int → Bool) : List Int → Int → Int
  | [], choice => choice
  | x :: p, choice => if x = 0 then choice else scan suits p (if suits x then x else choice)

/-- What `add_stream` reads of an `AVCodec` for audio. A table is null where the encoder supports
anything; of the sample formats only the first is read. -/
structure AVCodec where
  sampleFmt : Option Int
  supportedSamplerates : Option Table
  channelLayouts : Option Table

/-- What `add_stream` writes to the `AVCodecContext` of an audio stream. -/
structure AVCodecContext where
  sampleFmt : Int
  sampleRate : Int
  channels : Int
  channelLayout : Int
  deriving DecidableEq

/-- `AV_SAMPLE_FMT_FLTP`. -/
def fltp : Int := 8

/-- `av_get_default_channel_layout`, which is not part of the repository. -/
abbrev DefaultLayout := Int → Int

/-- The audio case of `add_stream`. -/
def addStream (defaultLayout : DefaultLayout) (codec : AVCodec) (samplerate channels : Int) :
    AVCodecContext :=
  { sampleFmt := codec.sampleFmt.getD fltp
    sampleRate :=
      match codec.supportedSamplerates with
      | none => samplerate
      | some table => scan (fun rate => samplerate ≤ rate) table.memory table.deref
    channels := channels
    channelLayout :=
      match codec.channelLayouts with
      | none => defaultLayout channels
      | some table => scan (fun layout => layout == defaultLayout channels) table.memory table.deref }

/-! ## The loop -/

/-- **The loop over a table** ends with the last entry that suits, if there is one. -/
theorem scan_eq (suits : Int → Bool) {entries : List Int} (h : ∀ x ∈ entries, x ≠ 0)
    (choice : Int) :
    scan suits (entries ++ [0]) choice = (entries.filter suits).getLast?.getD choice := by
  induction entries generalizing choice with
  | nil => simp [scan]
  | cons x rest ih =>
    have hx : x ≠ 0 := h x (List.mem_cons_self ..)
    have hrest : ∀ y ∈ rest, y ≠ 0 := fun y hy => h y (List.mem_cons_of_mem _ hy)
    rw [List.cons_append, scan, if_neg hx, ih hrest, List.filter_cons]
    by_cases hs : suits x = true
    · rw [if_pos hs, if_pos hs, List.getLast?_cons, Option.getD_some]
    · rw [if_neg hs, if_neg hs]

/-- **The loop over a table of an encoder.** It starts from what the pointer points to, which is the
first entry or, in an empty table, the zero at its end. -/
theorem Table.scan_eq (suits : Int → Bool) (table : Table) :
    scan suits table.memory table.deref =
      (table.entries.filter suits).getLast?.getD (table.entries.headD 0) := by
  have hderef : table.deref = table.entries.headD 0 := by
    unfold Table.deref Table.memory
    cases table.entries <;> rfl
  rw [hderef]
  exact Encoder.scan_eq suits table.nonzero _

/-- The layout chosen is the default one where the encoder supports it. The loop looks for one
value, so whichever entry is the last that suits, it is this value. -/
theorem channelLayout_eq (defaultLayout : DefaultLayout) (codec : AVCodec) (table : Table)
    (samplerate channels : Int) (h : defaultLayout channels ∈ table.entries) :
    (addStream defaultLayout { codec with channelLayouts := some table } samplerate
      channels).channelLayout = defaultLayout channels := by
  have hsuits : defaultLayout channels ∈
      table.entries.filter fun layout => layout == defaultLayout channels :=
    List.mem_filter.mpr ⟨h, beq_self_eq_true _⟩
  have hlast := List.getLast?_eq_some_getLast (List.ne_nil_of_mem hsuits)
  have hmem := (List.mem_filter.mp (List.mem_of_getLast? hlast)).2
  simp only [addStream, Table.scan_eq, hlast, Option.getD_some]
  exact eq_of_beq hmem

/-! ## The rate -/

/-- The choice of a rate: the requested one if it is supported, otherwise the smallest supported
rate above it, otherwise the largest supported rate. -/
structure Suited (rates : List Int) (request choice : Int) : Prop where
  supported : choice ∈ rates
  requested : request ∈ rates → choice = request
  nextAbove : request ∉ rates → (∃ x ∈ rates, request < x) →
    request < choice ∧ ∀ x ∈ rates, request < x → choice ≤ x
  largest : request ∉ rates → (∀ x ∈ rates, x < request) → ∀ x ∈ rates, x ≤ choice

/-- There is a rate; of those not below the request the last one is the smallest; and if all are
below it, the first one is the largest. -/
structure WellOrdered (rates : List Int) (request : Int) : Prop where
  nonempty : rates ≠ []
  lastSmallest : ∀ last ∈ (rates.filter fun rate => decide (request ≤ rate)).getLast?,
    ∀ x ∈ rates, request ≤ x → last ≤ x
  firstLargest : (∀ x ∈ rates, x < request) → ∀ first ∈ rates.head?, ∀ x ∈ rates, x ≤ first

variable {rates : List Int} {request choice : Int}

/-- Where some rate is not below the request, a suited one is the smallest of these. -/
theorem suited_iff_least (h : ∃ x ∈ rates, request ≤ x) :
    Suited rates request choice ↔
      choice ∈ rates ∧ request ≤ choice ∧ ∀ x ∈ rates, request ≤ x → choice ≤ x := by
  constructor
  · intro hs
    refine ⟨hs.supported, ?_⟩
    by_cases hmem : request ∈ rates
    · have heq := hs.requested hmem
      exact ⟨heq.ge, fun x _ hx => heq ▸ hx⟩
    · -- a rate that is not below the request is above it
      have habove : ∀ x ∈ rates, request ≤ x → request < x := fun x hx hle =>
        lt_of_le_of_ne hle fun heq => hmem (heq ▸ hx)
      obtain ⟨y, hy, hle⟩ := h
      obtain ⟨hlt, hleast⟩ := hs.nextAbove hmem ⟨y, hy, habove y hy hle⟩
      exact ⟨hlt.le, fun x hx hx' => hleast x hx (habove x hx hx')⟩
  · rintro ⟨hmem, hge, hleast⟩
    refine ⟨hmem, ?_, ?_, ?_⟩
    · exact fun hreq => le_antisymm (hleast request hreq le_rfl) hge
    · intro hreq _
      refine ⟨lt_of_le_of_ne hge fun heq => hreq (heq ▸ hmem), ?_⟩
      exact fun x hx hlt => hleast x hx hlt.le
    · intro _ hbelow
      obtain ⟨y, hy, hle⟩ := h
      exact absurd (hbelow y hy) (not_lt.mpr hle)

/-- Where all rates are below the request, a suited one is the largest: no entry reaches the
request, and among those that do not the nearest is asked for. -/
theorem suited_iff_largest (h : ∀ x ∈ rates, x < request) :
    Suited rates request choice ↔ choice ∈ rates ∧ ∀ x ∈ rates, x ≤ choice := by
  have hreq : request ∉ rates := fun hmem => lt_irrefl _ (h request hmem)
  constructor
  · exact fun hs => ⟨hs.supported, hs.largest hreq h⟩
  · rintro ⟨hmem, hmax⟩
    refine ⟨hmem, fun hr => absurd hr hreq, ?_, fun _ _ => hmax⟩
    rintro _ ⟨x, hx, hlt⟩
    exact absurd (h x hx) (not_lt.mpr hlt.le)

/-- The last rate that is not below the request, or else the first rate, is suited exactly if the
rates are well ordered. -/
theorem suited_last_iff :
    Suited rates request ((rates.filter fun rate => decide (request ≤ rate)).getLast?.getD
      (rates.headD 0)) ↔ WellOrdered rates request := by
  cases hlast : (rates.filter fun rate => decide (request ≤ rate)).getLast? with
  | some last =>
    have hmem := List.mem_filter.mp (List.mem_of_getLast? hlast)
    have hge : request ≤ last := of_decide_eq_true hmem.2
    -- a rate reaches the request, and the last one that does is chosen
    have hsome : ∃ x ∈ rates, request ≤ x := ⟨last, hmem.1, hge⟩
    rw [Option.getD_some, suited_iff_least hsome]
    constructor
    · rintro ⟨_, _, hleast⟩
      refine ⟨List.ne_nil_of_mem hmem.1, ?_, ?_⟩
      · intro last' hlast'
        rw [hlast] at hlast'
        cases hlast'
        exact hleast
      · exact fun hbelow => absurd (hbelow last hmem.1) (not_lt.mpr hge)
    · exact fun hw => ⟨hmem.1, hge, hw.lastSmallest last hlast⟩
  | none =>
    -- no rate reaches the request, and the choice stays at the first entry
    have hbelow : ∀ x ∈ rates, x < request := by
      intro x hx
      have hnot := List.filter_eq_nil_iff.mp (List.getLast?_eq_none_iff.mp hlast) x hx
      exact not_le.mp fun hle => hnot (decide_eq_true hle)
    rw [Option.getD_none, suited_iff_largest hbelow]
    cases rates with
    | nil =>
      constructor
      · exact fun h => nomatch h.1
      · exact fun hw => absurd rfl hw.nonempty
    | cons first rest =>
      constructor
      · rintro ⟨_, hmax⟩
        refine ⟨List.cons_ne_nil _ _, ?_, ?_⟩
        · intro last' hlast'
          rw [hlast] at hlast'
          cases hlast'
        · intro _ first' hfirst'
          cases hfirst'
          exact hmax
      · exact fun hw => ⟨List.mem_cons_self .., hw.firstLargest hbelow first rfl⟩

/-- **The rate chosen** is the requested one, or else the next one above it, or else the largest
one, exactly if the table is well ordered for the request. -/
theorem suited_iff (defaultLayout : DefaultLayout) (codec : AVCodec) (table : Table)
    (samplerate channels : Int) :
    Suited table.entries samplerate
        (addStream defaultLayout { codec with supportedSamplerates := some table } samplerate
          channels).sampleRate ↔
      WellOrdered table.entries samplerate := by
  simp only [addStream, Table.scan_eq]
  exact suited_last_iff

/-- A table that descends is well ordered for every request. The entries that reach the request are
at its front, in descending order, so the last of them is the smallest. -/
theorem wellOrdered_of_descending (hne : rates ≠ []) (hdesc : rates.Pairwise (· ≥ ·))
    (request : Int) : WellOrdered rates request := by
  refine ⟨hne, ?_, ?_⟩
  · -- what is chosen stands behind every other rate that reaches the request
    intro last hlast x hx hle
    obtain ⟨before, hsplit⟩ := List.getLast?_eq_some_iff.mp hlast
    have hpair := hdesc.filter fun rate => decide (request ≤ rate)
    have hmem : x ∈ before ++ [last] := by
      rw [← hsplit]
      exact List.mem_filter.mpr ⟨hx, decide_eq_true hle⟩
    rw [hsplit, List.pairwise_append] at hpair
    rcases List.mem_append.mp hmem with hbefore | hlast'
    · exact hpair.2.2 x hbefore last (List.mem_singleton_self _)
    · exact (List.mem_singleton.mp hlast').ge
  · -- the first entry is the largest
    intro _ first hfirst x hx
    cases rates with
    | nil => exact absurd rfl hne
    | cons y rest =>
      cases hfirst
      rcases List.mem_cons.mp hx with rfl | hrest
      · exact le_rfl
      · exact List.rel_of_pairwise_cons hdesc hrest

/-- An MP3 encoder, with the rates in the order in which it lists them. -/
def mp3Encoder : AVCodec where
  sampleFmt := some fltp
  supportedSamplerates :=
    some ⟨[44100, 48000, 32000, 22050, 24000, 16000, 11025, 12000, 8000], by decide⟩
  channelLayouts := some ⟨[4, 3], by decide⟩

/-- The table of the mp3 encoder is in no order. For 44100 it is left at 48000, the rate that is
listed after the requested one. -/
theorem not_suited_mp3 :
    ¬ Suited [44100, 48000, 32000, 22050, 24000, 16000, 11025, 12000, 8000] 44100
      (addStream (fun channels => if channels = 1 then 4 else 3) mp3Encoder 44100 2).sampleRate := by
  intro h
  have hcode : (addStream (fun channels => if channels = 1 then 4 else 3) mp3Encoder 44100
      2).sampleRate = 48000 := rfl
  have heq := h.requested (by decide)
  rw [hcode] at heq
  exact absurd heq (by decide)

end NodeWebkit.MediaRecorder.Encoder
