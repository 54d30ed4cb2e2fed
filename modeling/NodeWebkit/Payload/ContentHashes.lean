import NodeWebkit.Lib.Base64

/-!
# The hashes of a file

`payload.cc` hashes a file in blocks of 4096 bytes, makes one root of the hashes, and writes it in
Base64 with the filling taken away and two digits replaced.

* **`Blocks`** — the blocks that a verifier expects;
* **`computeHashesForContent_blocks`** — the loop hashes these;
* **`encodeRoot_injective`** — different roots are written differently.
-/

namespace NodeWebkit.PayloadTool

abbrev Bytes := List UInt8

/-! ## Blocks -/

/-- The loop of `ComputeHashesForContent` at an offset. -/
def hashesFrom (sha256 : Bytes → Bytes) (contents : Bytes) (blockSize offset : Nat) : List Bytes :=
  let bytesToRead := min (contents.length - offset) blockSize
  sha256 ((contents.drop offset).take bytesToRead) ::
    if bytesToRead = 0 then []
    else if offset + bytesToRead < contents.length then
      hashesFrom sha256 contents blockSize (offset + bytesToRead)
    else []
termination_by contents.length - offset
decreasing_by omega

def computeHashesForContent (sha256 : Bytes → Bytes) (contents : Bytes) (blockSize : Nat) :
    List Bytes :=
  hashesFrom sha256 contents blockSize 0

/-- The consecutive blocks of a file: only the last one may be short, and an empty file has one
empty block. -/
structure Blocks (blockSize : Nat) (contents : Bytes) (blocks : List Bytes) : Prop where
  flatten : blocks.flatten = contents
  nonempty : blocks ≠ []
  full : ∀ block ∈ blocks.dropLast, block.length = blockSize
  last : ∀ block ∈ blocks.getLast?, block.length ≤ blockSize ∧ (contents ≠ [] → block ≠ [])

/-- What fits into one block is one block, also where it is empty. -/
theorem Blocks.single {blockSize : Nat} {contents : Bytes} (h : contents.length ≤ blockSize) :
    Blocks blockSize contents [contents] where
  flatten := by simp
  nonempty := List.cons_ne_nil _ _
  full := nofun
  last block hblock := by
    cases hblock
    exact ⟨h, id⟩

/-- A full block in front of more. -/
theorem Blocks.cons {blockSize : Nat} {block rest : Bytes} {blocks : List Bytes}
    (h : Blocks blockSize rest blocks) (hfull : block.length = blockSize) (hrest : rest ≠ []) :
    Blocks blockSize (block ++ rest) (block :: blocks) := by
  obtain ⟨first, others, rfl⟩ := List.exists_cons_of_ne_nil h.nonempty
  refine ⟨?_, List.cons_ne_nil _ _, ?_, ?_⟩
  · rw [List.flatten_cons, h.flatten]
  · rw [List.dropLast_cons_cons, List.forall_mem_cons]
    exact ⟨hfull, h.full⟩
  · intro last hlast
    rw [List.getLast?_cons_cons] at hlast
    exact ⟨(h.last last hlast).1, fun _ => (h.last last hlast).2 hrest⟩

/-- The blocks behind an offset. The induction is on what is left of the file, as the loop ends when
the offset is behind it. -/
theorem hashesFrom_blocks (sha256 : Bytes → Bytes) (contents : Bytes) {blockSize : Nat}
    (hpos : 0 < blockSize) (offset : Nat) :
    ∃ blocks, Blocks blockSize (contents.drop offset) blocks ∧
      hashesFrom sha256 contents blockSize offset = blocks.map sha256 := by
  have hlength : (contents.drop offset).length = contents.length - offset := List.length_drop
  rw [hashesFrom]
  by_cases hmore : offset + blockSize < contents.length
  · -- a full block, and the others
    obtain ⟨blocks, hblocks, heq⟩ :=
      hashesFrom_blocks sha256 contents hpos (offset + blockSize)
    have hread : min (contents.length - offset) blockSize = blockSize := by omega
    rw [hread]
    refine ⟨(contents.drop offset).take blockSize :: blocks, ?_, ?_⟩
    · have hsplit : contents.drop offset =
          (contents.drop offset).take blockSize ++ contents.drop (offset + blockSize) := by
        rw [← List.drop_drop, List.take_append_drop]
      have hfull : ((contents.drop offset).take blockSize).length = blockSize := by
        rw [List.length_take, hlength]
        omega
      have hrest : contents.drop (offset + blockSize) ≠ [] := by
        rw [Ne, List.drop_eq_nil_iff]
        omega
      have hcons := hblocks.cons hfull hrest
      rw [← hsplit] at hcons
      exact hcons
    · rw [if_neg (by omega), if_pos hmore, heq, List.map_cons]
  · -- the last block
    have hread : min (contents.length - offset) blockSize = contents.length - offset := by omega
    rw [hread]
    refine ⟨[contents.drop offset], .single (by omega), ?_⟩
    rw [List.take_of_length_le (by omega), List.map_singleton]
    congr 1
    split
    · rfl
    · rw [if_neg (by omega)]
termination_by contents.length - offset

/-- **The loop** hashes the blocks of the file, in their order and the last one as long as it is. -/
theorem computeHashesForContent_blocks (sha256 : Bytes → Bytes) (contents : Bytes) {blockSize : Nat}
    (hpos : 0 < blockSize) :
    ∃ blocks, Blocks blockSize contents blocks ∧
      computeHashesForContent sha256 contents blockSize = blocks.map sha256 :=
  hashesFrom_blocks sha256 contents hpos 0

/-! ## Roots -/

/-- `base::ReplaceChars(text, find, replace, &text)`, for one character. -/
def replaceChar (find : Char) (replace : List Char) (text : List Char) : List Char :=
  text.flatMap fun c => if c = find then replace else [c]

/-- How `AddHash` writes a root. -/
def encodeRoot (root : Bytes) : List Char :=
  replaceChar '+' ['-'] (replaceChar '/' ['_'] (replaceChar '=' [] (Base64.encode root)))

theorem replaceChar_nil (find : Char) (text : List Char) :
    replaceChar find [] text = text.filter fun c => decide (c ≠ find) := by
  induction text with
  | nil => rfl
  | cons c text ih =>
    rw [replaceChar, List.flatMap_cons, List.filter_cons]
    change _ ++ replaceChar find [] text = _
    rw [ih]
    by_cases hc : c = find <;> simp [hc]

theorem replaceChar_singleton (find replace : Char) (text : List Char) :
    replaceChar find [replace] text = text.map fun c => if c = find then replace else c := by
  induction text with
  | nil => rfl
  | cons c text ih =>
    rw [replaceChar, List.flatMap_cons, List.map_cons]
    change _ ++ replaceChar find [replace] text = _
    rw [ih]
    by_cases hc : c = find <;> simp [hc]

/-- A digit as it is written. -/
def rootDigit (n : Nat) : Char :=
  let c := if Base64.digit n = '/' then '_' else Base64.digit n
  if c = '+' then '-' else c

/-- The text of a root is its Base64 digits, without the filling and with two digits replaced. -/
theorem encodeRoot_eq (root : Bytes) :
    encodeRoot root = (Base64.sextets root).map rootDigit := by
  rw [encodeRoot, replaceChar_nil, Base64.filter_encode, replaceChar_singleton,
    replaceChar_singleton, List.map_map, List.map_map]
  rfl

theorem rootDigit_inj : ∀ n < 64, ∀ m < 64, rootDigit n = rootDigit m → n = m := by
  decide +kernel

/-- **Different roots are written differently**: the digits can be told apart, and the filling,
which is taken away, only says how many there are. -/
theorem encodeRoot_injective : Function.Injective encodeRoot := by
  intro x y h
  rw [encodeRoot_eq, encodeRoot_eq] at h
  exact Base64.map_sextets_injective rootDigit_inj h

end NodeWebkit.PayloadTool
