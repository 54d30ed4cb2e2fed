import Mathlib.Data.List.Basic
import Mathlib.Logic.Function.Basic
import NodeWebkit.Lib.Base64

/-!
# nw.Clipboard.setListSync

The entries of the list are written one by one, each to the place of its kind of content, and the
first one that cannot be written ends the call, which then discards what was written. What was
written gets to the clipboard when the writer goes out of scope. The `data` of an entry is optional,
and the writer takes it from its pointer without a look at it.

* **`content`** — what an entry stands for;
* **`Owed`** — the call is all or nothing;
* **`DataFirst`** — the condition: no entry without data is reached.

* `codecs` — `base::Base64Decode` and the image codecs;
* `commit` — what a `ScopedClipboardWriter` that something was written to makes of the clipboard.
-/

namespace NodeWebkit.Clipboard

/-! ## Entries

An entry is checked for its type, has a header taken off and is decoded, in this order; the first of
these that fails gives the error of the entry. -/

/-- `Type` of `nw_clipboard.idl`. -/
inductive DataType where
  | text | png | jpeg | html | rtf
  deriving DecidableEq

structure ClipboardData where
  type : DataType
  raw : Option Bool := none
  data : Option String := none
  deriving DecidableEq

/-- The kinds of content of a clipboard. -/
inductive Kind where
  | text | html | rtf | image
  deriving DecidableEq

def DataType.kind : DataType → Kind
  | .text => .text
  | .html => .html
  | .rtf => .rtf
  | .png | .jpeg => .image

inductive Content (Bitmap : Type) where
  | text (text : String)
  | html (markup sourceUrl : String)
  | rtf (rtf : String)
  | image (bitmap : Bitmap)
  deriving DecidableEq

/-- What a clipboard, or a writer, has of each kind. -/
abbrev Contents (Bitmap : Type) := Kind → Option (Content Bitmap)

structure Codecs (Bitmap : Type) where
  base64Decode : String → Option (List UInt8)
  pngDecode : List UInt8 → Option Bitmap
  jpegDecode : List UInt8 → Option Bitmap

/-! ## `ClipboardWriter` -/

def pngDataUriPrefix : String := "data:image/png;base64,"

def jpegDataUriPrefix : String := "data:image/jpeg;base64,"

/-- `base::StartsWith` with `INSENSITIVE_ASCII`. -/
def startsWith (content uri : String) : Bool :=
  (content.toList.take uri.length).map Char.toLower == uri.toList.map Char.toLower

def substr (content : String) (n : Nat) : String := String.ofList (content.toList.drop n)

/-- The header of a data URI is stripped off unless `raw` is set. -/
def stripHeader (type : DataType) (raw : Option Bool) (content : String) : Except String String :=
  if raw = some true then .ok content
  else if type = .png ∧ startsWith content pngDataUriPrefix then
    .ok (substr content pngDataUriPrefix.length)
  else if type = .jpeg ∧ startsWith content jpegDataUriPrefix then
    .ok (substr content jpegDataUriPrefix.length)
  else
    .error ("Invalid data URI. Only \"" ++ pngDataUriPrefix ++ "\" or \"" ++ jpegDataUriPrefix ++
      "\" is accepted.")

variable {Bitmap : Type}

/-- The image of a type that is `png` or `jpeg`. -/
def decodeImage (codecs : Codecs Bitmap) (type : DataType) (content : String) :
    Except String Bitmap :=
  match codecs.base64Decode content with
  | none => .error "Bad base64 string"
  | some decoded =>
    if type = .png then
      match codecs.pngDecode decoded with
      | none => .error "Failed to decode as PNG"
      | some bitmap => .ok bitmap
    else
      match codecs.jpegDecode decoded with
      | none => .error "Failed to decode as JPEG"
      | some bitmap => .ok bitmap

structure ClipboardWriter (Bitmap : Type) where
  error : String := ""
  /-- What was written to the `ScopedClipboardWriter`. -/
  scw : Contents Bitmap := fun _ => none

namespace ClipboardWriter

def put (self : ClipboardWriter Bitmap) (kind : Kind) (content : Content Bitmap) :
    ClipboardWriter Bitmap :=
  { self with scw := Function.update self.scw kind (some content) }

/-- What a write returns, with the writer after it; `none` where it takes the data from a null
pointer. -/
abbrev Written (Bitmap : Type) := Option (Bool × ClipboardWriter Bitmap)

def writeText (self : ClipboardWriter Bitmap) (data : ClipboardData) : Written Bitmap :=
  data.data.map fun text => (true, self.put .text (.text text))

def writeHTML (self : ClipboardWriter Bitmap) (data : ClipboardData) : Written Bitmap :=
  data.data.map fun markup => (true, self.put .html (.html markup ""))

def writeRTF (self : ClipboardWriter Bitmap) (data : ClipboardData) : Written Bitmap :=
  data.data.map fun rtf => (true, self.put .rtf (.rtf rtf))

def writeImage (codecs : Codecs Bitmap) (self : ClipboardWriter Bitmap) (data : ClipboardData) :
    Written Bitmap :=
  data.data.map fun content =>
    match stripHeader data.type data.raw content >>= decodeImage codecs data.type with
    | .error error => (false, { self with error := error })
    | .ok bitmap => (true, self.put .image (.image bitmap))

def write (codecs : Codecs Bitmap) (self : ClipboardWriter Bitmap) (data : ClipboardData) :
    Written Bitmap :=
  match data.type with
  | .text => self.writeText data
  | .html => self.writeHTML data
  | .rtf => self.writeRTF data
  | .png | .jpeg => self.writeImage codecs data

def reset (self : ClipboardWriter Bitmap) : ClipboardWriter Bitmap :=
  { self with scw := fun _ => none }

/-- The entries are written in turn, up to the first that is not. -/
def writeAll (codecs : Codecs Bitmap) (self : ClipboardWriter Bitmap) :
    List ClipboardData → Written Bitmap
  | [] => some (true, self)
  | data :: rest =>
    match self.write codecs data with
    | none => none
    | some (true, self) => self.writeAll codecs rest
    | some (false, self) => some (false, self.reset)

end ClipboardWriter

open ClipboardWriter

/-- Something was written. -/
def Contents.any (written : Contents Bitmap) : Bool :=
  [Kind.text, .html, .rtf, .image].any fun kind => (written kind).isSome

/-- What a call of `setListSync` leaves. -/
structure Result (Bitmap : Type) where
  success : Bool
  error : String
  clipboard : Contents Bitmap

/-- `NwClipboardSetListSyncFunction::RunNWSync`, with the end of its writer; `none` where it crashes
at a null pointer. -/
def setListSync (codecs : Codecs Bitmap)
    (commit : Contents Bitmap → Contents Bitmap → Contents Bitmap) (clipboard : Contents Bitmap)
    (list : List ClipboardData) : Option (Result Bitmap) :=
  (writeAll codecs {} list).map fun (success, writer) =>
    { success := success
      error := if success then "" else writer.error
      clipboard := if writer.scw.any then commit clipboard writer.scw else clipboard }

/-! ## All or nothing -/

/-- What an entry stands for, `error` for no valid one. -/
def content (codecs : Codecs Bitmap) (data : ClipboardData) : Except String (Content Bitmap) :=
  match data.data with
  | none => .error "No data"
  | some text =>
    match data.type with
    | .text => .ok (.text text)
    | .html => .ok (.html text "")
    | .rtf => .ok (.rtf text)
    | .png | .jpeg =>
      (stripHeader data.type data.raw text >>= decodeImage codecs data.type).map .image

/-- The last entry of a kind. -/
def lastOf (kind : Kind) (list : List ClipboardData) : Option ClipboardData :=
  (list.filter fun data => data.type.kind = kind).getLast?

/-- The call succeeds, with data in every entry, and the clipboard has the last entry of every kind;
or it reports an error, and the clipboard is as before. -/
def Owed (codecs : Codecs Bitmap) (commit : Contents Bitmap → Contents Bitmap → Contents Bitmap)
    (clipboard : Contents Bitmap) (list : List ClipboardData) : Prop :=
  ∃ result, setListSync codecs commit clipboard list = some result ∧
    ((result.success = true ∧ (∀ data ∈ list, data.data ≠ none) ∧
        ∀ kind data, lastOf kind list = some data →
          ∃ c, content codecs data = .ok c ∧ result.clipboard kind = some c) ∨
      (result.success = false ∧ result.error ≠ "" ∧ result.clipboard = clipboard))

/-- An entry without data comes after one that is not valid. -/
def DataFirst (codecs : Codecs Bitmap) (list : List ClipboardData) : Prop :=
  ∀ before data after, list = before ++ data :: after →
    (∀ data ∈ before, (content codecs data).isOk = true) → data.data ≠ none

/-! ## One entry

`write` and `content` are two readings of the same functions of the source: what is put into the
writer, and what an entry stands for. `write_spec` says that they are one. -/

section Entries

variable {codecs : Codecs Bitmap}

/-- A write puts what the entry stands for in its place, or has the error of the entry. -/
theorem write_spec (writer : ClipboardWriter Bitmap) (data : ClipboardData) :
    writer.write codecs data = data.data.map fun _ =>
      match content codecs data with
      | .ok c => (true, writer.put data.type.kind c)
      | .error error => (false, { writer with error := error }) := by
  obtain ⟨type, raw, data⟩ := data
  cases data with
  | none => cases type <;> rfl
  | some text =>
    cases type with
    | text => rfl
    | html => rfl
    | rtf => rfl
    | png =>
      simp only [write, writeImage, content, Option.map_some, DataType.kind]
      cases stripHeader .png raw text >>= decodeImage codecs .png <;> rfl
    | jpeg =>
      simp only [write, writeImage, content, Option.map_some, DataType.kind]
      cases stripHeader .jpeg raw text >>= decodeImage codecs .jpeg <;> rfl

/-- **Every error says something.** `setListSync` looks at the text of the error to see whether an
entry was written, so an error without text would count as success. -/
theorem ne_empty_of_error {data : ClipboardData} {error : String}
    (h : content codecs data = .error error) : error ≠ "" := by
  have hstrip : ∀ type raw text, stripHeader type raw text = .error error → error ≠ "" := by
    intro type raw text hstrip
    unfold stripHeader at hstrip
    split at hstrip
    · cases hstrip
    · split at hstrip
      · cases hstrip
      · split at hstrip
        · cases hstrip
        · cases hstrip
          decide
  -- the texts are constants of the source, each of which is compared with the empty one
  have hdecode : ∀ type text, decodeImage codecs type text = .error error → error ≠ "" := by
    intro type text hdecode
    unfold decodeImage at hdecode
    split at hdecode
    · cases hdecode
      decide
    · split at hdecode
      · split at hdecode
        · cases hdecode
          decide
        · cases hdecode
      · split at hdecode
        · cases hdecode
          decide
        · cases hdecode
  have himage : ∀ type raw text,
      ((stripHeader type raw text >>= decodeImage codecs type).map Content.image) = .error error →
        error ≠ "" := by
    intro type raw text himage
    cases hheader : stripHeader type raw text with
    | error e =>
      rw [hheader] at himage
      cases himage
      exact hstrip type raw text hheader
    | ok body =>
      cases hbitmap : decodeImage codecs type body with
      | error e =>
        simp only [hheader, bind, Except.bind, hbitmap] at himage
        cases himage
        exact hdecode type body hbitmap
      | ok bitmap =>
        simp only [hheader, bind, Except.bind, hbitmap] at himage
        cases himage
  unfold content at h
  split at h
  · cases h
    decide
  · split at h
    · cases h
    · cases h
    · cases h
    · exact himage _ _ _ h
    · exact himage _ _ _ h

/-! ## The list -/

/-- The last entry of a kind in a longer list: an entry after it has the last word. -/
theorem lastOf_cons (kind : Kind) (data : ClipboardData) (rest : List ClipboardData) :
    lastOf kind (data :: rest) =
      (lastOf kind rest).or (if data.type.kind = kind then some data else none) := by
  unfold lastOf
  rw [List.filter_cons]
  split
  · rename_i hkind
    rw [List.getLast?_cons, if_pos (of_decide_eq_true hkind)]
    cases (rest.filter fun data => data.type.kind = kind).getLast? <;> rfl
  · rename_i hkind
    rw [if_neg (fun heq => hkind (decide_eq_true heq)), Option.or_none]

/-- The writer keeps one content for each kind, and the one that is written replaces it. -/
theorem put_scw (writer : ClipboardWriter Bitmap) (kind kind' : Kind) (c : Content Bitmap) :
    (writer.put kind c).scw kind' = if kind' = kind then some c else writer.scw kind' :=
  Function.update_apply ..

/-- When all entries are written the writer has the last one of every kind. -/
theorem writeAll_ok {list : List ClipboardData} {writer writer' : ClipboardWriter Bitmap}
    (h : writer.writeAll codecs list = some (true, writer')) :
    (∀ data ∈ list, data.data ≠ none) ∧
      ∀ kind, match lastOf kind list with
        | some data => ∃ c, content codecs data = .ok c ∧ writer'.scw kind = some c
        | none => writer'.scw kind = writer.scw kind := by
  induction list generalizing writer with
  | nil =>
    cases h
    exact ⟨nofun, fun _ => rfl⟩
  | cons data rest ih =>
    rw [writeAll, write_spec] at h
    -- the call went on, so the entry has data and is valid
    cases hdata : data.data with
    | none =>
      rw [hdata] at h
      cases h
    | some text =>
      rw [hdata] at h
      cases hcontent : content codecs data with
      | error error =>
        rw [hcontent] at h
        cases h
      | ok c =>
        rw [hcontent] at h
        obtain ⟨hrest, hlast⟩ := ih h
        refine ⟨?_, fun kind => ?_⟩
        · intro data' hmem
          rcases List.mem_cons.mp hmem with rfl | hmem
          · rw [hdata]
            exact nofun
          · exact hrest data' hmem
        · have hkind := hlast kind
          rw [lastOf_cons]
          cases hlast' : lastOf kind rest with
          | some data' =>
            rw [hlast'] at hkind
            exact hkind
          | none =>
            rw [hlast', put_scw] at hkind
            rw [Option.none_or]
            by_cases heq : data.type.kind = kind
            · rw [if_pos heq.symm] at hkind
              rw [if_pos heq]
              exact ⟨c, hcontent, hkind⟩
            · rw [if_neg (Ne.symm heq)] at hkind
              rw [if_neg heq]
              exact hkind

/-- When an entry is not written the writer has an error and nothing else. -/
theorem writeAll_failed {list : List ClipboardData} {writer writer' : ClipboardWriter Bitmap}
    (h : writer.writeAll codecs list = some (false, writer')) :
    writer'.error ≠ "" ∧ writer'.scw = fun _ => none := by
  induction list generalizing writer with
  | nil => cases h
  | cons data rest ih =>
    rw [writeAll, write_spec] at h
    cases hdata : data.data with
    | none =>
      rw [hdata] at h
      cases h
    | some text =>
      rw [hdata] at h
      cases hcontent : content codecs data with
      | error error =>
        rw [hcontent] at h
        cases h
        exact ⟨ne_empty_of_error hcontent, rfl⟩
      | ok c =>
        rw [hcontent] at h
        exact ih h

/-- The condition for a list whose first entry is valid is the one for the rest: an entry without
data is reached exactly if all the entries before it are valid. -/
theorem DataFirst.tail {data : ClipboardData} {rest : List ClipboardData}
    (h : DataFirst codecs (data :: rest)) (hok : (content codecs data).isOk = true) :
    DataFirst codecs rest := by
  intro before data' after hlist hbefore
  refine h (data :: before) data' after (by rw [hlist]; rfl) ?_
  intro data'' hmem
  rcases List.mem_cons.mp hmem with rfl | hmem
  · exact hok
  · exact hbefore data'' hmem

/-- **The writer crashes exactly at an entry without data that it gets to.** Induction on the list;
an entry that is not valid ends the call before it gets to the rest. -/
theorem writeAll_eq_none_iff (list : List ClipboardData) (writer : ClipboardWriter Bitmap) :
    writer.writeAll codecs list = none ↔ ¬ DataFirst codecs list := by
  induction list generalizing writer with
  | nil =>
    refine iff_of_false nofun (not_not.mpr ?_)
    intro before data after hlist
    exact absurd hlist.symm (by simp)
  | cons data rest ih =>
    rw [writeAll, write_spec]
    cases hdata : data.data with
    | none =>
      refine iff_of_true rfl fun hfirst => ?_
      exact hfirst [] data rest rfl nofun hdata
    | some text =>
      cases hcontent : content codecs data with
      | error error =>
        refine iff_of_false nofun (not_not.mpr ?_)
        intro before data' after hlist hbefore
        cases before with
        | nil =>
          cases hlist
          rw [hdata]
          exact nofun
        | cons head before =>
          -- the list does not get further than this entry
          cases hlist
          have hok := hbefore data (List.mem_cons_self ..)
          rw [hcontent] at hok
          cases hok
      | ok c =>
        refine (ih (writer.put data.type.kind c)).trans (not_congr ?_)
        constructor
        · intro hfirst before data' after hlist hbefore
          cases before with
          | nil =>
            cases hlist
            rw [hdata]
            exact nofun
          | cons head before =>
            cases hlist
            exact hfirst before data' after rfl fun data'' hmem =>
              hbefore data'' (List.mem_cons_of_mem _ hmem)
        · exact fun hfirst => hfirst.tail (by rw [hcontent]; rfl)

end Entries

theorem Contents.any_of_some {written : Contents Bitmap} {kind : Kind} {c : Content Bitmap}
    (h : written kind = some c) : written.any = true := by
  rw [Contents.any, List.any_eq_true]
  exact ⟨kind, by cases kind <;> simp, by rw [h]; rfl⟩

/-! ## All lists -/

/-- **All or nothing.** Where `commit` puts what was written in its place, a call is all or nothing
exactly when no entry without data comes before every entry that is not valid. -/
theorem set_list_sync_iff (codecs : Codecs Bitmap)
    (commit : Contents Bitmap → Contents Bitmap → Contents Bitmap)
    (hcommit : ∀ clipboard written kind c, written kind = some c →
      commit clipboard written kind = some c)
    (clipboard : Contents Bitmap) (list : List ClipboardData) :
    Owed codecs commit clipboard list ↔ DataFirst codecs list := by
  unfold Owed setListSync
  cases hwrite : (ClipboardWriter.writeAll codecs {} list) with
  | none =>
    refine iff_of_false ?_ ((writeAll_eq_none_iff list {}).mp hwrite)
    rintro ⟨result, hresult, -⟩
    cases hresult
  | some written =>
    have hfirst : DataFirst codecs list := by
      by_contra hno
      rw [(writeAll_eq_none_iff list {}).mpr hno] at hwrite
      cases hwrite
    refine iff_of_true ⟨_, rfl, ?_⟩ hfirst
    obtain ⟨success, writer⟩ := written
    cases success with
    | true =>
      obtain ⟨hdata, hlast⟩ := writeAll_ok hwrite
      refine .inl ⟨rfl, hdata, fun kind data hkind => ?_⟩
      have hput := hlast kind
      rw [hkind] at hput
      obtain ⟨c, hc, hscw⟩ := hput
      refine ⟨c, hc, ?_⟩
      simp only [Contents.any_of_some hscw, if_true]
      exact hcommit clipboard writer.scw kind c hscw
    | false =>
      obtain ⟨herror, hscw⟩ := writeAll_failed hwrite
      refine .inr ⟨rfl, herror, ?_⟩
      -- nothing is left in the writer to commit
      simp only [hscw]
      rfl

/-- Codecs that take a byte string for an image if it begins as a PNG file does. -/
def signatureCodecs : Codecs (List UInt8) where
  base64Decode text := Base64.decode text.toList
  pngDecode bytes :=
    if [137, 80, 78, 71, 13, 10, 26, 10].isPrefixOf bytes then some bytes else none
  jpegDecode _ := none

/-- The Base64 text of a PNG image of one pixel. -/
def pixelText : String :=
  "iVBORw0KGgoAAAANSUhEUgAAAAEAAAABCAYAAAAfFcSJAAAADUlEQVR42mNk+M9QDwADhgGAWjR9awAAAABJRU5ErkJggg=="

/-- Two texts and an image in Base64: the clipboard has the second text and the image. -/
theorem set_list_sync_texts :
    Owed signatureCodecs (fun _ written => written) (fun _ => none)
      [⟨.text, none, some "a"⟩, ⟨.png, some true, some pixelText⟩, ⟨.text, none, some "b"⟩] := by
  refine (set_list_sync_iff _ _ (fun _ _ _ _ h => h) _ _).mpr ?_
  intro before data after hlist _
  have hall : ∀ data ∈ [⟨.text, none, some "a"⟩, ⟨.png, some true, some pixelText⟩,
      (⟨.text, none, some "b"⟩ : ClipboardData)], data.data ≠ none := by
    simp only [List.forall_mem_cons, List.not_mem_nil, false_implies, implies_true, and_true]
    exact ⟨nofun, nofun, nofun⟩
  refine hall data ?_
  rw [hlist]
  exact List.mem_append_right _ (List.mem_cons_self ..)

/-- `clip.set({type: "text"})`: the writer takes the text from a null pointer, whatever the codecs
and the clipboard are. -/
theorem noData_not_owed :
    ¬ Owed (⟨fun _ => none, fun _ => none, fun _ => none⟩ : Codecs Unit)
      (fun _ written => written) (fun _ => none) [⟨.text, none, none⟩] := by
  rintro ⟨result, hresult, -⟩
  cases hresult

end NodeWebkit.Clipboard
