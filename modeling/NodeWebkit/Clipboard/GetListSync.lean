import Mathlib.Data.List.Forall2
import NodeWebkit.Clipboard.SetListSync
import NodeWebkit.Lib.Base64

/-!
# nw.Clipboard.getListSync

Each entry of the request is read from the clipboard and gets its `data`; the first one that cannot
be encoded ends the call. An image is read as the Base64 text of its encoding, in a data URI unless
`raw` is set, and where there is none the entry is left as it was.

* **`read`** — what an entry of a request becomes;
* **`getListSync`** — the call;
* **`recode`** — what becomes of content that is read as a type and written again;
* **`copied`** — what the writer makes of an entry that was read.

`set_then_get` is about reading what was set, `get_then_set` about setting what was read.
-/

namespace NodeWebkit.Clipboard

variable {Bitmap : Type}

/-- `gfx::PNGCodec::EncodeA8SkBitmap` and `gfx::JPEGCodec::Encode`. -/
structure Encoders (Bitmap : Type) where
  pngEncode : Bitmap → Option (List UInt8)
  jpegEncode : Bitmap → Option (List UInt8)

/-- Each kind of content is in its own place. -/
structure SystemClipboard (Bitmap : Type) where
  text : Option String
  /-- The markup, with the address that it is from. -/
  html : Option (String × String)
  rtf : Option String
  image : Option Bitmap

def SystemClipboard.contents (clipboard : SystemClipboard Bitmap) : Contents Bitmap
  | .text => clipboard.text.map .text
  | .html => clipboard.html.map fun html => .html html.1 html.2
  | .rtf => clipboard.rtf.map .rtf
  | .image => clipboard.image.map .image

/-! ## `ClipboardReader` -/

namespace SystemClipboard

/-- What is read of a kind that is not there is empty. -/
def readText (self : SystemClipboard Bitmap) (data : ClipboardData) : ClipboardData :=
  { data with data := some (self.text.getD "") }

def readHTML (self : SystemClipboard Bitmap) (data : ClipboardData) : ClipboardData :=
  { data with data := some ((self.html.map Prod.fst).getD "") }

def readRTF (self : SystemClipboard Bitmap) (data : ClipboardData) : ClipboardData :=
  { data with data := some (self.rtf.getD "") }

/-- The encoding of an image of a type that is `png` or `jpeg`. -/
def encodeImage (encoders : Encoders Bitmap) (type : DataType) (bitmap : Bitmap) :
    Except String (List UInt8) :=
  if type = .png then
    match encoders.pngEncode bitmap with
    | none => .error "Failed to encode as PNG"
    | some encoded => .ok encoded
  else
    match encoders.jpegEncode bitmap with
    | none => .error "Failed to encode as JPEG"
    | some encoded => .ok encoded

/-- The header of a data URI is put before the text unless `raw` is set. -/
def addHeader (type : DataType) (raw : Option Bool) (encoded : String) : String :=
  if raw = some true then encoded
  else (if type = .png then pngDataUriPrefix else jpegDataUriPrefix) ++ encoded

def readImage (encoders : Encoders Bitmap) (self : SystemClipboard Bitmap) (data : ClipboardData) :
    Except String ClipboardData :=
  match self.image with
  | none => .ok data
  | some bitmap =>
    (encodeImage encoders data.type bitmap).map fun encoded =>
      { data with
        data := some (addHeader data.type data.raw (String.ofList (Base64.encode encoded))) }

def read (encoders : Encoders Bitmap) (self : SystemClipboard Bitmap) (data : ClipboardData) :
    Except String ClipboardData :=
  match data.type with
  | .text => .ok (self.readText data)
  | .html => .ok (self.readHTML data)
  | .rtf => .ok (self.readRTF data)
  | .png | .jpeg => self.readImage encoders data

/-- `NwClipboardGetListSyncFunction::RunNWSync`. -/
def getListSync (encoders : Encoders Bitmap) (self : SystemClipboard Bitmap) :
    List ClipboardData → Except String (List ClipboardData)
  | [] => .ok []
  | data :: rest =>
    match self.read encoders data with
    | .error error => .error error
    | .ok data =>
      match self.getListSync encoders rest with
      | .error error => .error error
      | .ok rest => .ok (data :: rest)

end SystemClipboard

/-! ## What is carried -/

/-- The image of an encoding of a type that is `png` or `jpeg`. -/
def decodeBytes (codecs : Codecs Bitmap) (type : DataType) (encoded : List UInt8) :
    Except String Bitmap :=
  if type = .png then (codecs.pngDecode encoded).elim (.error "Failed to decode as PNG") .ok
  else (codecs.jpegDecode encoded).elim (.error "Failed to decode as JPEG") .ok

/-- An image is encoded and decoded, as the type that it is asked for; all else is as it was. -/
def recode (codecs : Codecs Bitmap) (encoders : Encoders Bitmap) (type : DataType) :
    Content Bitmap → Except String (Content Bitmap)
  | .image bitmap =>
    (SystemClipboard.encodeImage encoders type bitmap >>= decodeBytes codecs type).map .image
  | other => .ok other

/-- What the writer makes of an entry that was read: what was not there is empty, and no address
of a markup is kept. -/
def copied (codecs : Codecs Bitmap) (encoders : Encoders Bitmap) (self : SystemClipboard Bitmap)
    (data : ClipboardData) : Except String (Content Bitmap) :=
  match data.type with
  | .text => .ok (.text (self.text.getD ""))
  | .html => .ok (.html ((self.html.map Prod.fst).getD "") "")
  | .rtf => .ok (.rtf (self.rtf.getD ""))
  | .png | .jpeg =>
    match self.image with
    | none => content codecs data
    | some bitmap => recode codecs encoders data.type (.image bitmap)

/-! ## One entry

An entry that was read has the type and the flag it was asked with. What it stands for when it is
written again is `copied`: text as it is, markup without its address, an image encoded and decoded.
-/

section Entries

variable {codecs : Codecs Bitmap} {encoders : Encoders Bitmap} {self : SystemClipboard Bitmap}

/-- The header of a data URI is found again in front of what it was put before. -/
theorem startsWith_append (uri text : String) : startsWith (uri ++ text) uri = true := by
  unfold startsWith
  rw [String.toList_append, ← String.length_toList, List.take_left]
  exact beq_self_eq_true _

theorem substr_append (uri text : String) : substr (uri ++ text) uri.length = text := by
  unfold substr
  rw [String.toList_append, ← String.length_toList, List.drop_left, String.ofList_toList]

/-- The header that was put before the text of an image is stripped off. -/
theorem stripHeader_addHeader {type : DataType} (himage : type.kind = .image)
    (raw : Option Bool) (text : String) :
    stripHeader type raw (SystemClipboard.addHeader type raw text) = .ok text := by
  by_cases hraw : raw = some true
  · rw [SystemClipboard.addHeader, if_pos hraw, stripHeader, if_pos hraw]
  · rw [SystemClipboard.addHeader, if_neg hraw]
    cases type with
    | png =>
      rw [if_pos rfl, stripHeader, if_neg hraw, if_pos ⟨rfl, startsWith_append ..⟩, substr_append]
    | jpeg =>
      rw [if_neg (by decide), stripHeader, if_neg hraw, if_neg (fun h => absurd h.1 (by decide)),
        if_pos ⟨rfl, startsWith_append ..⟩, substr_append]
    | text => cases himage
    | html => cases himage
    | rtf => cases himage

/-- An image is decoded from the bytes that its text stands for, and by nothing else of the text. -/
theorem decodeImage_of_base64 {text : String} {bytes : List UInt8}
    (h : codecs.base64Decode text = some bytes) (type : DataType) :
    decodeImage codecs type text = decodeBytes codecs type bytes := by
  unfold decodeImage decodeBytes
  rw [h]
  by_cases hpng : type = .png
  · simp only [hpng, if_true]
    cases codecs.pngDecode bytes <;> rfl
  · simp only [hpng, if_false]
    cases codecs.jpegDecode bytes <;> rfl

/-- An image that is read: it was encoded, and the text is put into the entry. -/
theorem readImage_some {bitmap : Bitmap} (hself : self.image = some bitmap)
    {data data' : ClipboardData} (h : self.readImage encoders data = .ok data') :
    ∃ encoded, SystemClipboard.encodeImage encoders data.type bitmap = .ok encoded ∧
      data' = { data with
        data := some (SystemClipboard.addHeader data.type data.raw
          (String.ofList (Base64.encode encoded))) } := by
  unfold SystemClipboard.readImage at h
  cases hencode : SystemClipboard.encodeImage encoders data.type bitmap with
  | error error =>
    simp only [hself, hencode, Except.map] at h
    cases h
  | ok encoded =>
    simp only [hself, hencode, Except.map] at h
    cases h
    exact ⟨encoded, rfl, rfl⟩

/-- An entry keeps its type, and lacks data only where it had none and there is no image. -/
theorem read_frame {data data' : ClipboardData} (h : self.read encoders data = .ok data') :
    data'.type = data.type ∧ data'.raw = data.raw ∧
      (data'.data = none ↔ data.data = none ∧ data.type.kind = .image ∧ self.image = none) := by
  obtain ⟨type, raw, text⟩ := data
  have himage : type.kind = .image → self.readImage encoders ⟨type, raw, text⟩ = .ok data' →
      data'.type = type ∧ data'.raw = raw ∧
        (data'.data = none ↔ text = none ∧ type.kind = .image ∧ self.image = none) := by
    intro hkind h
    cases hself : self.image with
    | none =>
      unfold SystemClipboard.readImage at h
      rw [hself] at h
      cases h
      exact ⟨rfl, rfl, fun hnone => ⟨hnone, hkind, rfl⟩, And.left⟩
    | some bitmap =>
      obtain ⟨encoded, -, rfl⟩ := readImage_some hself h
      exact ⟨rfl, rfl, nofun, fun hnone => absurd hnone.2.2 nofun⟩
  -- text, markup and RTF get data in every case; an image only where there is one
  cases type with
  | text =>
    cases h
    exact ⟨rfl, rfl, nofun, fun hnone => absurd hnone.2.1 nofun⟩
  | html =>
    cases h
    exact ⟨rfl, rfl, nofun, fun hnone => absurd hnone.2.1 nofun⟩
  | rtf =>
    cases h
    exact ⟨rfl, rfl, nofun, fun hnone => absurd hnone.2.1 nofun⟩
  | png => exact himage rfl h
  | jpeg => exact himage rfl h

/-- **An entry that was read stands for what is copied.** Reading puts the header in front of the
Base64 text exactly where writing takes one off, so what is decoded are the bytes that were encoded.
-/
theorem content_read
    (hbase64 : ∀ bytes, codecs.base64Decode (String.ofList (Base64.encode bytes)) = some bytes)
    {data data' : ClipboardData} (h : self.read encoders data = .ok data') :
    content codecs data' = copied codecs encoders self data := by
  obtain ⟨type, raw, text⟩ := data
  have himage : type.kind = .image → self.readImage encoders ⟨type, raw, text⟩ = .ok data' →
      content codecs data' = match self.image with
        | none => content codecs ⟨type, raw, text⟩
        | some bitmap => recode codecs encoders type (.image bitmap) := by
    intro hkind h
    cases hself : self.image with
    | none =>
      unfold SystemClipboard.readImage at h
      rw [hself] at h
      cases h
      rfl
    | some bitmap =>
      obtain ⟨encoded, hencode, rfl⟩ := readImage_some hself h
      -- how the writer takes an image entry apart; `raw` decides both ways about the header
      have hcontent : ∀ text, content codecs ⟨type, raw, some text⟩ =
          (stripHeader type raw text >>= decodeImage codecs type).map .image := by
        intro text
        cases type with
        | png => rfl
        | jpeg => rfl
        | text => cases hkind
        | html => cases hkind
        | rtf => cases hkind
      rw [hcontent, stripHeader_addHeader hkind]
      show (decodeImage codecs type (String.ofList (Base64.encode encoded))).map Content.image =
        (SystemClipboard.encodeImage encoders type bitmap >>= decodeBytes codecs type).map _
      rw [decodeImage_of_base64 (hbase64 encoded), hencode]
      rfl
  cases type with
  | text =>
    cases h
    rfl
  | html =>
    cases h
    rfl
  | rtf =>
    cases h
    rfl
  | png => exact himage rfl h
  | jpeg => exact himage rfl h

/-- The markup of an entry has no address: `setListSync` writes it without one, so a page can only
copy markup that came without it. -/
theorem content_plain {data : ClipboardData} {markup url : String}
    (h : content codecs data = .ok (.html markup url)) : url = "" := by
  obtain ⟨type, raw, text⟩ := data
  have himage : ∀ image : Except String Bitmap,
      image.map .image ≠ .ok (Content.html markup url) := by
    intro image himage
    cases image with
    | error error => cases himage
    | ok bitmap => cases himage
  cases text with
  | none => cases h
  | some text =>
    cases type with
    | text => cases h
    | html =>
      cases h
      rfl
    | rtf => cases h
    | png => exact absurd h (himage _)
    | jpeg => exact absurd h (himage _)

/-- What is copied of content without an address is that content, read back: the same `recode` that
an entry undergoes when it is set and read. -/
theorem copied_of_contents {data : ClipboardData} {c : Content Bitmap}
    (h : self.contents data.type.kind = some c)
    (hplain : ∀ markup url, c = .html markup url → url = "") :
    copied codecs encoders self data = recode codecs encoders data.type c := by
  obtain ⟨type, raw, text⟩ := data
  cases type with
  | text =>
    obtain ⟨text, htext, rfl⟩ := Option.map_eq_some_iff.mp h
    simp only [copied, htext, Option.getD_some, recode]
  | html =>
    obtain ⟨⟨markup, url⟩, hhtml, rfl⟩ := Option.map_eq_some_iff.mp h
    simp only [copied, hhtml, Option.map_some, Option.getD_some, recode, hplain markup url rfl]
  | rtf =>
    obtain ⟨rtf, hrtf, rfl⟩ := Option.map_eq_some_iff.mp h
    simp only [copied, hrtf, Option.getD_some, recode]
  | png =>
    obtain ⟨bitmap, himage, rfl⟩ := Option.map_eq_some_iff.mp h
    simp only [copied, himage]
  | jpeg =>
    obtain ⟨bitmap, himage, rfl⟩ := Option.map_eq_some_iff.mp h
    simp only [copied, himage]

/-- What is not on the clipboard reads as the empty text. An image is not read at all: its entry
keeps the data it was asked with, mostly none. -/
theorem read_of_contents_none {data data' : ClipboardData}
    (hnone : self.contents data.type.kind = none) (h : self.read encoders data = .ok data') :
    data'.data = if data.type.kind = .image then data.data else some "" := by
  obtain ⟨type, raw, text⟩ := data
  -- an image that is not there leaves the data of the request
  have himage : self.image = none → self.readImage encoders ⟨type, raw, text⟩ = .ok data' →
      data'.data = text := by
    intro hself h
    unfold SystemClipboard.readImage at h
    rw [hself] at h
    cases h
    rfl
  cases type with
  | text =>
    have htext : self.text = none := Option.map_eq_none_iff.mp hnone
    cases h
    show some (self.text.getD "") = _
    rw [htext]
    rfl
  | html =>
    have hhtml : self.html = none := Option.map_eq_none_iff.mp hnone
    cases h
    show some ((self.html.map Prod.fst).getD "") = _
    rw [hhtml]
    rfl
  | rtf =>
    have hrtf : self.rtf = none := Option.map_eq_none_iff.mp hnone
    cases h
    show some (self.rtf.getD "") = _
    rw [hrtf]
    rfl
  | png => exact himage (Option.map_eq_none_iff.mp hnone) h
  | jpeg => exact himage (Option.map_eq_none_iff.mp hnone) h

end Entries

/-! ## The list -/

section Lists

variable {codecs : Codecs Bitmap} {encoders : Encoders Bitmap} {self : SystemClipboard Bitmap}

/-- The entries are read one by one, each from the whole clipboard, and the responses are in the
order of the requests. -/
theorem getListSync_forall₂ {requests responses : List ClipboardData}
    (h : self.getListSync encoders requests = .ok responses) :
    List.Forall₂ (fun data data' => self.read encoders data = .ok data') requests responses := by
  induction requests generalizing responses with
  | nil =>
    cases h
    exact .nil
  | cons data rest ih =>
    unfold SystemClipboard.getListSync at h
    cases hread : self.read encoders data with
    -- one request that cannot be read makes the whole call fail
    | error error =>
      rw [hread] at h
      cases h
    | ok data' =>
      rw [hread] at h
      cases hrest : self.getListSync encoders rest with
      | error error =>
        rw [hrest] at h
        cases h
      | ok rest' =>
        rw [hrest] at h
        cases h
        exact .cons hread (ih hrest)

/-- The writer takes a list whole exactly when every entry is valid, where it does not crash on the
way. -/
theorem writeAll_iff {list : List ClipboardData} {writer writer' : ClipboardWriter Bitmap}
    {success : Bool} (h : writer.writeAll codecs list = some (success, writer')) :
    success = true ↔ ∀ data ∈ list, (content codecs data).isOk = true := by
  induction list generalizing writer with
  | nil =>
    cases h
    exact iff_of_true rfl (List.forall_mem_nil _)
  | cons data rest ih =>
    rw [ClipboardWriter.writeAll, write_spec] at h
    cases hdata : data.data with
    -- an entry without data stops the function, which then has no result
    | none =>
      rw [hdata] at h
      cases h
    | some text =>
      rw [hdata] at h
      rw [List.forall_mem_cons]
      cases hcontent : content codecs data with
      -- the first failure ends the loop
      | error error =>
        rw [hcontent] at h
        cases h
        exact iff_of_false Bool.false_ne_true fun hall => Bool.false_ne_true hall.1
      | ok c =>
        rw [hcontent] at h
        exact (ih h).trans ⟨fun hrest => ⟨rfl, hrest⟩, And.right⟩

theorem setListSync_nil {clipboard : Contents Bitmap} {result : Result Bitmap}
    {commit : Contents Bitmap → Contents Bitmap → Contents Bitmap}
    (hset : setListSync codecs commit clipboard [] = some result) :
    result.clipboard = clipboard := by
  cases hset
  rfl

/-- What is written of a list that is not empty replaces the clipboard. -/
theorem setListSync_ok {list : List ClipboardData} (hlist : list ≠ []) {clipboard : Contents Bitmap}
    {result : Result Bitmap}
    (hset : setListSync codecs (fun _ written => written) clipboard list = some result)
    (hsuccess : result.success = true) (kind : Kind) :
    match lastOf kind list with
    | some data => ∃ c, content codecs data = .ok c ∧ result.clipboard kind = some c
    | none => result.clipboard kind = none := by
  unfold setListSync at hset
  cases hwrite : ClipboardWriter.writeAll codecs {} list with
  | none =>
    rw [hwrite] at hset
    cases hset
  | some written =>
    obtain ⟨success, writer⟩ := written
    rw [hwrite] at hset
    cases hset
    cases hsuccess
    obtain ⟨-, hlast⟩ := writeAll_ok hwrite
    -- the kind of the first entry is written
    have hany : writer.scw.any = true := by
      obtain ⟨data, rest, rfl⟩ := List.exists_cons_of_ne_nil hlist
      have hkind := hlast data.type.kind
      rw [lastOf_cons, if_pos rfl] at hkind
      cases hrest : lastOf data.type.kind rest with
      | none =>
        rw [hrest] at hkind
        obtain ⟨c, -, hc⟩ := hkind
        exact Contents.any_of_some hc
      | some data' =>
        rw [hrest] at hkind
        obtain ⟨c, -, hc⟩ := hkind
        exact Contents.any_of_some hc
    have hkind := hlast kind
    simp only [hany, if_true]
    exact hkind

end Lists

/-! ## There and back -/

/-- The bytes of an image are the image. -/
def byteCodecs : Codecs (List UInt8) where
  base64Decode text := Base64.decode text.toList
  pngDecode := some
  jpegDecode _ := none

/-- The Base64 texts of the reader are read back by the decoder of the writer. -/
theorem byteCodecs_base64 (bytes : List UInt8) :
    byteCodecs.base64Decode (String.ofList (Base64.encode bytes)) = some bytes := by
  show Base64.decode (String.ofList (Base64.encode bytes)).toList = some bytes
  rw [String.toList_ofList]
  exact Base64.decode_encode bytes

/-- **What was set is read.** After a list was set, on a system where a commit replaces the whole
clipboard and which hands back what was written: an empty list leaves the clipboard as it was. After
any other one every entry of a request keeps its type and `raw`, and is read as what the last entry
of its kind stands for, an image as it is read back from its encoding; of a kind that was not set an
empty text is read, and no image. -/
theorem set_then_get (codecs : Codecs Bitmap) (encoders : Encoders Bitmap)
    (hbase64 : ∀ bytes, codecs.base64Decode (String.ofList (Base64.encode bytes)) = some bytes)
    {clipboard : Contents Bitmap} {list : List ClipboardData} {result : Result Bitmap}
    (hset : setListSync codecs (fun _ written => written) clipboard list = some result)
    (hsuccess : result.success = true) {self : SystemClipboard Bitmap}
    (hself : self.contents = result.clipboard) {requests responses : List ClipboardData}
    (hget : self.getListSync encoders requests = .ok responses) :
    (list = [] → result.clipboard = clipboard) ∧
    (list ≠ [] → List.Forall₂ (fun request response =>
      response.type = request.type ∧ response.raw = request.raw ∧
        match lastOf request.type.kind list with
        | some data => content codecs response =
            (content codecs data >>= recode codecs encoders request.type)
        | none => response.data = if request.type.kind = .image then request.data else some "")
      requests responses) := by
  refine ⟨fun hnil => setListSync_nil (hnil ▸ hset), fun hlist => ?_⟩
  refine (getListSync_forall₂ hget).imp fun request response hread => ?_
  obtain ⟨htype, hraw, -⟩ := read_frame hread
  refine ⟨htype, hraw, ?_⟩
  -- what the clipboard has of this kind after the commit
  have hkind := setListSync_ok hlist hset hsuccess request.type.kind
  cases hlast : lastOf request.type.kind list with
  | none =>
    rw [hlast, ← hself] at hkind
    exact read_of_contents_none hkind hread
  | some data =>
    rw [hlast, ← hself] at hkind
    -- the last entry of the kind is there, and is read in the type that is asked for
    obtain ⟨c, hc, hcontents⟩ := hkind
    show content codecs response = content codecs data >>= recode codecs encoders request.type
    rw [content_read hbase64 hread, hc]
    exact copied_of_contents hcontents fun markup url hhtml => content_plain (hhtml ▸ hc)

/-- A text and an image, read as a text, as a data URI and as markup that was not set. -/
theorem set_then_get_text :
    List.Forall₂ (fun request response : ClipboardData =>
      response.type = request.type ∧ response.raw = request.raw ∧
        match lastOf request.type.kind
            [⟨.text, none, some "a"⟩, ⟨.png, some true, some "TWE="⟩] with
        | some data => content byteCodecs response =
            (content byteCodecs data >>= recode byteCodecs ⟨some, fun _ => none⟩ request.type)
        | none => response.data = if request.type.kind = .image then request.data else some "")
      [⟨.text, none, none⟩, ⟨.png, none, none⟩, ⟨.html, none, none⟩]
      [⟨.text, none, some "a"⟩, ⟨.png, none, some "data:image/png;base64,TWE="⟩,
        ⟨.html, none, some ""⟩] :=
  (@set_then_get _ byteCodecs ⟨some, fun _ => none⟩ byteCodecs_base64 (fun _ => none)
    [⟨.text, none, some "a"⟩, ⟨.png, some true, some "TWE="⟩] _ rfl rfl
    ⟨some "a", none, none, some [77, 97]⟩ (funext fun kind => by cases kind <;> decide) _ _ rfl).2
    (by decide)

/-! ## Copies -/

section Copies

variable {codecs : Codecs Bitmap} {encoders : Encoders Bitmap} {self : SystemClipboard Bitmap}

/-- Text, markup and RTF are always copied; only an image can fail to be encoded or decoded. -/
theorem copied_isOk {data : ClipboardData} (hkind : data.type.kind ≠ .image) :
    (copied codecs encoders self data).isOk = true := by
  obtain ⟨type, raw, text⟩ := data
  cases type with
  | text => rfl
  | html => rfl
  | rtf => rfl
  | png => exact absurd rfl hkind
  | jpeg => exact absurd rfl hkind

/-- Where every entry with data is valid, the first one without is reached, since nothing before it
ends the call. -/
theorem not_dataFirst {list : List ClipboardData}
    (hvalid : ∀ data ∈ list, data.data ≠ none → (content codecs data).isOk = true)
    (hnone : ∃ data ∈ list, data.data = none) : ¬ DataFirst codecs list := by
  obtain ⟨data, hmem, hdata⟩ := hnone
  have hfind : (list.find? fun data => data.data.isNone).isSome = true :=
    List.find?_isSome.mpr ⟨data, hmem, by rw [hdata]; rfl⟩
  obtain ⟨first, hfirst⟩ := Option.isSome_iff_exists.mp hfind
  obtain ⟨hfirst, before, after, hlist, hbefore⟩ := List.find?_eq_some_iff_append.mp hfirst
  intro hdataFirst
  apply hdataFirst before first after hlist _ (Option.isNone_iff_eq_none.mp hfirst)
  intro data hmem
  have hsome := hbefore data hmem
  refine hvalid data (hlist ▸ List.mem_append_left _ hmem) fun hnone => ?_
  rw [hnone] at hsome
  cases hsome

/-- What holds of one entry where it holds of the other holds of all of them where it does. -/
theorem forall_mem_iff {R : ClipboardData → ClipboardData → Prop} {P Q : ClipboardData → Prop}
    (hiff : ∀ data data', R data data' → (P data ↔ Q data')) {list list' : List ClipboardData}
    (h : List.Forall₂ R list list') : (∀ data ∈ list, P data) ↔ ∀ data ∈ list', Q data := by
  induction h with
  | nil => exact iff_of_true (by nofun) (by nofun)
  | cons hdata _ ih => rw [List.forall_mem_cons, List.forall_mem_cons, hiff _ _ hdata, ih]

/-- Lists whose entries agree in their types have their last entries at the same places. -/
theorem lastOf_rel {R : ClipboardData → ClipboardData → Prop}
    (htype : ∀ data data', R data data' → data'.type = data.type)
    {list list' : List ClipboardData} (h : List.Forall₂ R list list') (kind : Kind) :
    Option.Rel R (lastOf kind list) (lastOf kind list') := by
  induction h with
  | nil => exact .none
  | @cons data data' rest rest' hdata _ ih =>
    rw [lastOf_cons, lastOf_cons, htype data data' hdata]
    generalize lastOf kind rest = last at ih
    generalize lastOf kind rest' = last' at ih
    cases ih with
    | some hlast => exact .some hlast
    | none =>
      rw [Option.none_or, Option.none_or]
      by_cases hkind : data.type.kind = kind
      · rw [if_pos hkind, if_pos hkind]
        exact .some hdata
      · rw [if_neg hkind, if_neg hkind]
        exact .none

/-- What is known of a request without data and its response. -/
structure ReadAs (codecs : Codecs Bitmap) (encoders : Encoders Bitmap)
    (clipboard : SystemClipboard Bitmap) (request response : ClipboardData) : Prop where
  type_eq : response.type = request.type
  missing : response.data = none ↔ request.type.kind = .image ∧ clipboard.image = none
  content_eq : content codecs response = copied codecs encoders clipboard request

/-- What is known of the responses, entry by entry: the type of the request, data unless it is an
image that is not there, and what it stands for. -/
theorem readAs_of_getListSync
    (hbase64 : ∀ bytes, codecs.base64Decode (String.ofList (Base64.encode bytes)) = some bytes)
    {requests responses : List ClipboardData} (hdata : ∀ request ∈ requests, request.data = none)
    (hget : self.getListSync encoders requests = .ok responses) :
    List.Forall₂ (ReadAs codecs encoders self) requests responses := by
  apply List.Forall₂.imp _ ((List.forall₂_and_left requests responses).mpr
    ⟨hdata, getListSync_forall₂ hget⟩)
  intro request response h
  have hframe := read_frame h.2
  refine ⟨hframe.1, ?_, content_read hbase64 h.2⟩
  rw [hframe.2.2]
  exact and_iff_right h.1

/-- An entry that was read is without data where an image was asked for and there is none. -/
theorem missing_iff {requests responses : List ClipboardData}
    (hread : List.Forall₂ (ReadAs codecs encoders self) requests responses) :
    (∃ response ∈ responses, response.data = none) ↔
      self.image = none ∧ ∃ request ∈ requests, request.type.kind = .image := by
  have hall := forall_mem_iff
    (P := fun request => ¬ (request.type.kind = .image ∧ self.image = none))
    (Q := fun response => response.data ≠ none)
    (fun request response h => (not_congr h.missing).symm) hread
  constructor
  · intro ⟨response, hmem, hresponse⟩
    by_contra hno
    apply hall.mp _ response hmem hresponse
    intro request hrequest himage
    exact hno ⟨himage.2, request, hrequest, himage.1⟩
  · intro ⟨himage, request, hmem, hkind⟩
    by_contra hno
    apply hall.mpr _ request hmem ⟨hkind, himage⟩
    intro response hresponse hnone
    exact hno ⟨response, hresponse, hnone⟩

/-- The writer gets to an entry without data if there is one, that is where an image was asked for
that is not on the clipboard: the entries before it are texts, which are valid. -/
theorem dataFirst_of_read {requests responses : List ClipboardData}
    (hread : List.Forall₂ (ReadAs codecs encoders self) requests responses) :
    ¬ DataFirst codecs responses ↔
      self.image = none ∧ ∃ request ∈ requests, request.type.kind = .image := by
  rw [← missing_iff hread]
  constructor
  · intro hfirst
    by_contra hno
    apply hfirst
    intro before data after hlist _ hdata
    exact hno ⟨data, hlist ▸ List.mem_append_right _ (List.mem_cons_self ..), hdata⟩
  · intro hsome
    refine not_dataFirst ?_ hsome
    refine (forall_mem_iff (P := fun _ => True) ?_ hread).mp fun _ _ => trivial
    intro request response h
    refine iff_of_true trivial fun hresponse => ?_
    rw [h.content_eq]
    apply copied_isOk
    intro hkind
    exact hresponse (h.missing.mpr ⟨hkind, ((missing_iff hread).mp hsome).1⟩)

end Copies

/-- **What was read is set.** When the entries of a request come without data, the writer crashes
at what was read exactly when an image was asked for and there is none. Else it takes all of it
exactly when every image is decoded from its own encoding, and the clipboard then has what the last
entry of every kind copies, and nothing of a kind that was not asked for; if nothing was asked for,
it has what it had. -/
theorem get_then_set (codecs : Codecs Bitmap) (encoders : Encoders Bitmap)
    (hbase64 : ∀ bytes, codecs.base64Decode (String.ofList (Base64.encode bytes)) = some bytes)
    {self : SystemClipboard Bitmap} {requests responses : List ClipboardData}
    (hdata : ∀ request ∈ requests, request.data = none)
    (hget : self.getListSync encoders requests = .ok responses) (clipboard : Contents Bitmap) :
    (setListSync codecs (fun _ written => written) clipboard responses = none ↔
      self.image = none ∧ ∃ request ∈ requests, request.type.kind = .image) ∧
    ∀ result, setListSync codecs (fun _ written => written) clipboard responses = some result →
      (result.success = true ↔
        ∀ request ∈ requests, (copied codecs encoders self request).isOk = true) ∧
      (requests = [] → result.clipboard = clipboard) ∧
      (result.success = true → requests ≠ [] → ∀ kind,
        match lastOf kind requests with
        | some request =>
          ∃ c, copied codecs encoders self request = .ok c ∧ result.clipboard kind = some c
        | none => result.clipboard kind = none) := by
  have hread := readAs_of_getListSync hbase64 hdata hget
  constructor
  · unfold setListSync
    rw [Option.map_eq_none_iff, writeAll_eq_none_iff]
    exact dataFirst_of_read hread
  · intro result hset
    refine ⟨?_, ?_, ?_⟩
    · obtain ⟨written, hwrite, rfl⟩ := Option.map_eq_some_iff.mp hset
      apply (writeAll_iff hwrite).trans
      refine (forall_mem_iff (fun request response h => ?_) hread).symm
      rw [h.content_eq]
    · intro hnil
      rw [hnil, List.forall₂_nil_left_iff] at hread
      exact setListSync_nil (hread ▸ hset)
    · intro hsuccess hrequests kind
      -- something was asked for, so something is written and the commit replaces the clipboard
      have hresponses : responses ≠ [] := by
        intro hnil
        rw [hnil, List.forall₂_nil_right_iff] at hread
        exact hrequests hread
      have hkind := setListSync_ok hresponses hset hsuccess kind
      have hlast := lastOf_rel (fun _ _ h => h.type_eq) hread kind
      generalize lastOf kind responses = response at hkind hlast
      generalize lastOf kind requests = request at hlast
      cases hlast with
      | none => exact hkind
      | some hlast =>
        obtain ⟨c, hc, hclipboard⟩ := hkind
        exact ⟨c, hlast.content_eq ▸ hc, hclipboard⟩

/-- Markup from a page, and an image: the address of the page is not copied. -/
theorem get_then_set_markup :
    ∃ result, setListSync byteCodecs (fun _ written => written) (fun _ => none)
        [⟨.html, none, some "<b>"⟩, ⟨.png, none, some "data:image/png;base64,TWE="⟩] =
          some result ∧
      result.clipboard .html = some (.html "<b>" "") := by
  have hcopies := @get_then_set _ byteCodecs ⟨some, fun _ => none⟩ byteCodecs_base64
    ⟨none, some ("<b>", "http://a/"), none, some [77, 97]⟩
    [⟨.html, none, none⟩, ⟨.png, none, none⟩]
    [⟨.html, none, some "<b>"⟩, ⟨.png, none, some "data:image/png;base64,TWE="⟩]
    (by decide) rfl (fun _ => none)
  cases hset : setListSync byteCodecs (fun _ written => written) (fun _ => none)
      [⟨.html, none, some "<b>"⟩, ⟨.png, none, some "data:image/png;base64,TWE="⟩] with
  | none => exact absurd (hcopies.1.mp hset).1 (by nofun)
  | some result =>
    obtain ⟨hsuccess, -, hkinds⟩ := hcopies.2 result hset
    obtain ⟨c, hc, hclipboard⟩ := hkinds (hsuccess.mpr (by decide)) (by nofun) .html
    cases hc
    exact ⟨result, rfl, hclipboard⟩

end NodeWebkit.Clipboard
