import Mathlib.Data.List.TakeWhile

/-!
# JavaScript string literals

The lexical grammar of single-quoted string literals over UTF-16 code units, as a scanner: it
starts after the opening quote and stops in front of the closing one.

* **`readBody`** — the value of a literal and the text that follows it;
* **`escape`** — puts a backslash before some of the units, the way code that generates a script
  protects a text it interpolates;
* **`readBody_escape_iff`** — the generated literal denotes the text, and ends where the text ends,
  exactly when no unit of the text is a line terminator and every quote and backslash in it was
  escaped;
* **`denotes_iff`** — the same for a script with several interpolated texts.

That protected units are read back is a matter of following the scanner (`readBody_escape`). The
other direction is one of counting: an unescaped backslash starts an escape sequence, and every
sequence consumes at least as many units as it denotes (`scanEscape_spec`), so one that is not
protected leaves the value too short (`readBody_unescaped_length`).
-/

namespace JsString

/-- A UTF-16 code unit. -/
abbrev CodeUnit := UInt16

abbrev Text := List CodeUnit

/-- The units of an ASCII text. -/
def ascii (s : String) : Text := s.toList.map fun c => c.val.toUInt16

def quote : CodeUnit := 0x27
def backslash : CodeUnit := 0x5C

/-- Line feed, carriage return, line separator and paragraph separator. -/
def isLineTerminator (u : CodeUnit) : Bool :=
  u = 0x0A || u = 0x0D || u = 0x2028 || u = 0x2029

/-! ## The scanner -/

def decimalDigit (u : CodeUnit) : Option Nat :=
  if 0x30 ≤ u ∧ u ≤ 0x39 then some (u.toNat - 0x30) else none

def octalDigit (u : CodeUnit) : Option Nat :=
  if 0x30 ≤ u ∧ u ≤ 0x37 then some (u.toNat - 0x30) else none

def hexDigit (u : CodeUnit) : Option Nat :=
  if 0x30 ≤ u ∧ u ≤ 0x39 then some (u.toNat - 0x30)
  else if 0x41 ≤ u ∧ u ≤ 0x46 then some (u.toNat - 0x41 + 10)
  else if 0x61 ≤ u ∧ u ≤ 0x66 then some (u.toNat - 0x61 + 10)
  else none

/-- The units of a code point. -/
def encode (n : Nat) : Text :=
  if n < 0x10000 then [n.toUInt16]
  else [(0xD800 + (n - 0x10000) / 0x400).toUInt16, (0xDC00 + (n - 0x10000) % 0x400).toUInt16]

/-- A given number of hexadecimal digits. -/
def scanHex (n : Nat) : Nat → Text → Option (Nat × Text)
  | 0, text => some (n, text)
  | _ + 1, [] => none
  | k + 1, u :: text => (hexDigit u).bind fun d => scanHex (16 * n + d) k text

/-- The rest of the digits of a code point in braces. -/
def scanCodePoint (n : Nat) : Text → Option (Nat × Text)
  | [] => none
  | u :: text =>
    if u = 0x7D then some (n, text)
    else (hexDigit u).bind fun d =>
      if 16 * n + d ≤ 0x10FFFF then scanCodePoint (16 * n + d) text else none

/-- The further digits of an octal escape, at most the given number, with a value up to 255. -/
def scanOctal (n : Nat) : Nat → Text → Nat × Text
  | 0, text => (n, text)
  | _ + 1, [] => (n, [])
  | k + 1, u :: text =>
    match octalDigit u with
    | some d => if 8 * n + d < 256 then scanOctal (8 * n + d) k text else (n, u :: text)
    | none => (n, u :: text)

/-- What a single character stands for after a backslash. -/
def singleEscape (u : CodeUnit) : CodeUnit :=
  if u = 0x62 then 0x08
  else if u = 0x66 then 0x0C
  else if u = 0x6E then 0x0A
  else if u = 0x72 then 0x0D
  else if u = 0x74 then 0x09
  else if u = 0x76 then 0x0B
  else u

/-- An escape sequence after its backslash: the units it stands for and the text behind it. A line
terminator stands for none; octal escapes other than that of NUL are for sloppy code. -/
def scanEscape (strict : Bool) : Text → Option (Text × Text)
  | [] => none
  | u :: text =>
    if u = 0x0D ∧ text.head? = some 0x0A then some ([], text.tail)
    else if isLineTerminator u then some ([], text)
    else if u = 0x78 then (scanHex 0 2 text).map fun r => (encode r.1, r.2)
    else if u = 0x75 then
      if text.head? = some 0x7B then
        (scanHex 0 1 text.tail).bind fun r =>
          (scanCodePoint r.1 r.2).map fun r => (encode r.1, r.2)
      else (scanHex 0 4 text).map fun r => (encode r.1, r.2)
    else
      match octalDigit u with
      | some d =>
        if strict then
          if d = 0 ∧ text.head?.bind decimalDigit = none then some ([0], text) else none
        else
          let r := scanOctal d 2 text
          some (encode r.1, r.2)
      | none =>
        if strict ∧ (decimalDigit u).isSome then none else some ([singleEscape u], text)

/-! ## What an escape sequence consumes

Each kind of sequence has a lemma that splits off the units it takes. Besides their number it
matters that they are no backslashes: of a text that was escaped they cannot take a protected unit.
-/

theorem of_map_fst {α β : Type} {f : α → β} {o : Option (α × Text)} {v : β} {rest : Text}
    (h : (o.map fun r => (f r.1, r.2)) = some (v, rest)) :
    ∃ v', o = some (v', rest) ∧ f v' = v := by
  obtain ⟨⟨v', rest'⟩, ho, heq⟩ := Option.map_eq_some_iff.mp h
  cases heq
  exact ⟨v', ho, rfl⟩

theorem hexDigit_ne_backslash {u : CodeUnit} (h : (hexDigit u).isSome) : u ≠ backslash := by
  rintro rfl
  revert h
  decide

theorem octalDigit_ne_backslash {u : CodeUnit} (h : (octalDigit u).isSome) : u ≠ backslash := by
  rintro rfl
  revert h
  decide

/-- A fixed number of hexadecimal digits takes as many units. -/
theorem scanHex_spec {k : Nat} : ∀ {n m : Nat} {text rest : Text},
    scanHex n k text = some (m, rest) →
      ∃ pre, text = pre ++ rest ∧ pre.length = k ∧ ∀ u ∈ pre, u ≠ backslash := by
  induction k with
  | zero =>
    intro n m text rest h
    rw [scanHex, Option.some.injEq, Prod.mk.injEq] at h
    exact ⟨[], by rw [h.2]; rfl, rfl, by simp⟩
  | succ k ih =>
    intro n m text rest h
    cases text with
    | nil => cases h
    | cons u text =>
      rw [scanHex] at h
      obtain ⟨d, hd, h⟩ := Option.bind_eq_some_iff.mp h
      obtain ⟨pre, rfl, hlen, hpre⟩ := ih h
      refine ⟨u :: pre, rfl, by rw [List.length_cons, hlen], ?_⟩
      rw [List.forall_mem_cons]
      exact ⟨hexDigit_ne_backslash (Option.isSome_of_mem hd), hpre⟩

/-- A code point between braces takes its digits and the closing brace. -/
theorem scanCodePoint_spec {text : Text} : ∀ {n m : Nat} {rest : Text},
    scanCodePoint n text = some (m, rest) →
      ∃ pre, text = pre ++ rest ∧ ∀ u ∈ pre, u ≠ backslash := by
  induction text with
  | nil =>
    intro n m rest h
    cases h
  | cons u text ih =>
    intro n m rest h
    rw [scanCodePoint] at h
    split at h
    · rename_i hu
      rw [Option.some.injEq, Prod.mk.injEq] at h
      refine ⟨[u], by rw [h.2]; rfl, ?_⟩
      -- the closing brace
      rw [List.forall_mem_singleton, hu]
      decide
    · -- another digit, and the scan goes on
      obtain ⟨d, hd, h⟩ := Option.bind_eq_some_iff.mp h
      split at h
      · obtain ⟨pre, rfl, hpre⟩ := ih h
        refine ⟨u :: pre, rfl, ?_⟩
        rw [List.forall_mem_cons]
        exact ⟨hexDigit_ne_backslash (Option.isSome_of_mem hd), hpre⟩
      · cases h

/-- An octal escape takes digits as long as the value fits into a byte; whatever comes next stays.
-/
theorem scanOctal_spec {k : Nat} : ∀ {n : Nat} (text : Text), n < 256 →
    (scanOctal n k text).1 < 256 ∧
      ∃ pre, text = pre ++ (scanOctal n k text).2 ∧ ∀ u ∈ pre, u ≠ backslash := by
  induction k with
  | zero =>
    intro n text hn
    exact ⟨hn, [], rfl, by simp⟩
  | succ k ih =>
    intro n text hn
    cases text with
    | nil => exact ⟨hn, [], rfl, by simp⟩
    | cons u text =>
      rw [scanOctal]
      split
      · rename_i d hd
        split
        · rename_i hlt
          -- the digit is taken where the value stays a byte
          obtain ⟨hval, pre, hpre, hall⟩ := ih text hlt
          refine ⟨hval, u :: pre, by rw [List.cons_append, ← hpre], ?_⟩
          rw [List.forall_mem_cons]
          exact ⟨octalDigit_ne_backslash (Option.isSome_of_mem hd), hall⟩
        · exact ⟨hn, [], rfl, by simp⟩
      · exact ⟨hn, [], rfl, by simp⟩

theorem encode_length_le (n : Nat) : (encode n).length ≤ 2 := by
  unfold encode
  split
  · exact Nat.le_succ 1
  · exact Nat.le_refl 2

/-- An escape with a given number of hexadecimal digits: `\x` with two and `\u` with four denote no
more units than they take. -/
theorem hexEscape_spec {k : Nat} {u : CodeUnit} {text e rest : Text} (hk : 2 ≤ k)
    (hu : u ≠ backslash)
    (h : ((scanHex 0 k text).map fun r => (encode r.1, r.2)) = some (e, rest)) :
    ∃ pre, u :: text = pre ++ rest ∧ e.length ≤ pre.length ∧
      (pre = [backslash] ∨ ∀ v ∈ pre, v ≠ backslash) := by
  obtain ⟨n, hscan, rfl⟩ := of_map_fst h
  obtain ⟨pre, rfl, hlen, hpre⟩ := scanHex_spec hscan
  have hle : (encode n).length ≤ 2 := encode_length_le n
  refine ⟨u :: pre, rfl, ?_, Or.inr ?_⟩
  · exact Nat.le_trans hle (by rw [List.length_cons]; omega)
  · rw [List.forall_mem_cons]
    exact ⟨hu, hpre⟩

theorem encode_length_of_lt {n : Nat} (h : n < 256) : (encode n).length = 1 := by
  rw [encode, if_pos (by omega)]
  rfl

theorem octalDigit_lt {u : CodeUnit} {d : Nat} (h : octalDigit u = some d) : d < 8 := by
  unfold octalDigit at h
  split at h
  · rename_i hu
    have h37 : u.toNat ≤ 0x37 := UInt16.le_iff_toNat_le.mp hu.2
    cases h
    omega
  · cases h

/-- What an escape sequence takes from the text: a backslash alone, or units of which none is a
backslash. It never stands for more units than it takes. -/
theorem scanEscape_spec {strict : Bool} {text e rest : Text}
    (h : scanEscape strict text = some (e, rest)) :
    ∃ pre, text = pre ++ rest ∧ e.length ≤ pre.length ∧
      (pre = [backslash] ∨ ∀ u ∈ pre, u ≠ backslash) := by
  cases text with
  | nil => cases h
  | cons u text =>
    rw [scanEscape] at h
    split at h
    · rename_i hcr
      cases h
      cases text with
      | nil => exact absurd hcr.2 (by simp)
      | cons v text =>
        have hv : v = 0x0A := Option.some.inj hcr.2
        refine ⟨[u, v], rfl, Nat.zero_le _, Or.inr ?_⟩
        rw [List.forall_mem_cons, List.forall_mem_singleton, hcr.1, hv]
        decide
    split at h
    · rename_i hline
      cases h
      refine ⟨[u], rfl, Nat.zero_le _, Or.inr ?_⟩
      rw [List.forall_mem_singleton]
      rintro rfl
      revert hline
      decide
    split at h
    · -- two hexadecimal digits
      rename_i hx
      exact hexEscape_spec (by decide) (by rw [hx]; decide) h
    split at h
    · rename_i hx
      split at h
      · -- a code point in braces
        rename_i hbrace
        cases text with
        | nil => exact absurd hbrace (by simp)
        | cons v text =>
          have hv : v = 0x7B := Option.some.inj hbrace
          obtain ⟨⟨n, mid⟩, hone, h⟩ := Option.bind_eq_some_iff.mp h
          obtain ⟨m, hrest, rfl⟩ := of_map_fst h
          obtain ⟨pre, hpre, hlen, hall⟩ := scanHex_spec hone
          obtain ⟨pre', hpre', hall'⟩ := scanCodePoint_spec hrest
          have htext : text = (pre ++ pre') ++ rest := by
            rw [List.append_assoc, ← hpre']
            exact hpre
          have hle : (encode m).length ≤ 2 := encode_length_le m
          refine ⟨u :: v :: (pre ++ pre'), by rw [htext]; rfl, ?_, Or.inr ?_⟩
          · exact Nat.le_trans hle (by rw [List.length_cons, List.length_cons]; omega)
          · rw [List.forall_mem_cons, List.forall_mem_cons, List.forall_mem_append, hx, hv]
            exact ⟨by decide, by decide, hall, hall'⟩
      · -- four hexadecimal digits
        exact hexEscape_spec (by decide) (by rw [hx]; decide) h
    split at h
    · rename_i d hd
      have hne := octalDigit_ne_backslash (Option.isSome_of_mem hd)
      split at h
      · split at h
        · cases h
          exact ⟨[u], rfl, Nat.le_refl 1, Or.inr (List.forall_mem_singleton.mpr hne)⟩
        · cases h
      · -- an octal escape
        have hlt : d < 256 := Nat.lt_trans (octalDigit_lt hd) (by decide)
        obtain ⟨hval, pre, hpre, hall⟩ := scanOctal_spec (k := 2) text hlt
        cases h
        refine ⟨u :: pre, by rw [List.cons_append, ← hpre], ?_, Or.inr ?_⟩
        · rw [encode_length_of_lt hval, List.length_cons]
          omega
        · rw [List.forall_mem_cons]
          exact ⟨hne, hall⟩
    · split at h
      · cases h
      · cases h
        refine ⟨[u], rfl, Nat.le_refl 1, ?_⟩
        by_cases hu : u = backslash
        · exact Or.inl (by rw [hu])
        · exact Or.inr (List.forall_mem_singleton.mpr hu)

/-! ## Literals

One lemma for each way `readBody` goes on: at the closing quote, at a line terminator, at an
ordinary unit, at a backslash. -/

/-- The value of a literal and the text that follows it, from the closing quote on. -/
def readBody (strict : Bool) : Text → Option (Text × Text)
  | [] => none
  | u :: text =>
    if u = quote then some ([], u :: text)
    else if isLineTerminator u then none
    else if u = backslash then
      match _h : scanEscape strict text with
      | none => none
      | some (e, rest) => (readBody strict rest).map fun r => (e ++ r.1, r.2)
    else (readBody strict text).map fun r => (u :: r.1, r.2)
  termination_by text => text.length
  decreasing_by
    · obtain ⟨pre, rfl, -, -⟩ := scanEscape_spec _h
      simp only [List.length_cons, List.length_append]
      omega
    · simp

variable {strict : Bool}

theorem readBody_quote (text : Text) :
    readBody strict (quote :: text) = some ([], quote :: text) := by
  rw [readBody, if_pos rfl]

theorem readBody_lineTerminator {u : CodeUnit} (h : isLineTerminator u) (text : Text) :
    readBody strict (u :: text) = none := by
  have hu : u ≠ quote := by
    rintro rfl
    revert h
    decide
  rw [readBody, if_neg hu, if_pos h]

theorem readBody_unit {u : CodeUnit} (hq : u ≠ quote) (hb : u ≠ backslash)
    (hl : isLineTerminator u = false) (text : Text) :
    readBody strict (u :: text) = (readBody strict text).map fun r => (u :: r.1, r.2) := by
  rw [readBody, if_neg hq, if_neg (by simp [hl]), if_neg hb]

/-- A literal that goes on with a backslash has a complete escape sequence there. -/
theorem readBody_backslash {text v rest : Text}
    (h : readBody strict (backslash :: text) = some (v, rest)) :
    ∃ e mid v', scanEscape strict text = some (e, mid) ∧ readBody strict mid = some (v', rest) ∧
      v = e ++ v' := by
  rw [readBody, if_neg (by decide), if_neg (by decide), if_pos rfl] at h
  split at h
  · cases h
  · rename_i e mid hscan
    obtain ⟨v', hread, rfl⟩ := of_map_fst h
    exact ⟨e, mid, v', hscan, hread, rfl⟩

/-- An escaped quote or backslash is read as itself; neither begins any other escape sequence. -/
theorem readBody_escaped {u : CodeUnit} (hu : u = quote ∨ u = backslash) (text : Text) :
    readBody strict (backslash :: u :: text) =
      (readBody strict text).map fun r => (u :: r.1, r.2) := by
  have hscan : scanEscape strict (u :: text) = some ([u], text) := by
    rcases hu with rfl | rfl <;> cases strict <;> rfl
  rw [readBody, if_neg (by decide), if_neg (by decide), if_pos rfl]
  split
  · rename_i hnone
    rw [hscan] at hnone
    cases hnone
  · rename_i e rest hsome
    rw [hscan] at hsome
    cases hsome
    rfl

/-- A literal consumes a front of the text, and reads at most as many units as it consumes. -/
theorem readBody_spec : ∀ {text v rest : Text}, readBody strict text = some (v, rest) →
    ∃ pre, text = pre ++ rest ∧ v.length ≤ pre.length := by
  intro text
  induction text using readBody.induct strict with
  | case1 =>
    intro v rest h
    simp [readBody] at h
  | case2 text =>
    intro v rest h
    rw [readBody_quote] at h
    cases h
    exact ⟨[], rfl, Nat.le_refl 0⟩
  | case3 u text hq hl =>
    intro v rest h
    rw [readBody_lineTerminator hl] at h
    cases h
  | case4 text hnone _ _ =>
    intro v rest h
    obtain ⟨e, mid, v', hscan, -, -⟩ := readBody_backslash h
    rw [hnone] at hscan
    cases hscan
  | case5 text e mid hscan _ _ ih =>
    intro v rest h
    obtain ⟨e', mid', v', hscan', hread, rfl⟩ := readBody_backslash h
    rw [hscan] at hscan'
    cases hscan'
    -- an escape sequence: what it takes, and then what the rest of the literal takes
    obtain ⟨pre, rfl, hle, -⟩ := scanEscape_spec hscan
    obtain ⟨pre', rfl, hle'⟩ := ih hread
    refine ⟨backslash :: (pre ++ pre'), by rw [List.cons_append, List.append_assoc], ?_⟩
    simp only [List.length_append, List.length_cons]
    omega
  | case6 u text hq hl hb ih =>
    intro v rest h
    rw [readBody_unit hq hb (by simpa using hl)] at h
    obtain ⟨v', hread, rfl⟩ := of_map_fst h
    obtain ⟨pre, rfl, hle⟩ := ih hread
    exact ⟨u :: pre, rfl, Nat.succ_le_succ hle⟩

theorem readBody_length {text v rest : Text} (h : readBody strict text = some (v, rest)) :
    v.length + rest.length ≤ text.length := by
  obtain ⟨pre, rfl, hle⟩ := readBody_spec h
  rw [List.length_append]
  omega

/-! ## Escaping -/

/-- Puts a backslash before the units that are to be protected. -/
def escape (p : CodeUnit → Bool) : Text → Text
  | [] => []
  | u :: text => if p u then backslash :: u :: escape p text else u :: escape p text

/-- A unit that the generated literal keeps. -/
def Protected (p : CodeUnit → Bool) (u : CodeUnit) : Prop :=
  isLineTerminator u = false ∧ (u = quote ∨ u = backslash → p u)

instance (p : CodeUnit → Bool) (u : CodeUnit) : Decidable (Protected p u) :=
  inferInstanceAs (Decidable (_ ∧ (_ → _)))

variable {p : CodeUnit → Bool}

/-- Units without a backslash that an escaped text starts with come from its front unchanged; if
they reach past it, the text is all of them up to there. -/
theorem split_escape {t tail pre rest : Text} (hpre : ∀ u ∈ pre, u ≠ backslash)
    (h : escape p t ++ tail = pre ++ rest) :
    (∃ t', t = pre ++ t' ∧ rest = escape p t' ++ tail) ∨
      (∃ pre', pre = t ++ pre' ∧ tail = pre' ++ rest) := by
  induction t generalizing pre with
  | nil => exact Or.inr ⟨pre, rfl, h⟩
  | cons u t ih =>
    cases pre with
    | nil => exact Or.inl ⟨u :: t, rfl, h.symm⟩
    | cons w pre =>
      rw [List.forall_mem_cons] at hpre
      rw [escape] at h
      split at h
      · -- the protecting backslash would be the first of the units
        exact absurd (List.cons.inj h).1.symm hpre.1
      · obtain ⟨rfl, htail⟩ := List.cons.inj h
        rcases ih hpre.2 htail with ⟨t', rfl, hrest⟩ | ⟨pre', rfl, hrest⟩
        · exact Or.inl ⟨t', rfl, hrest⟩
        · exact Or.inr ⟨pre', rfl, hrest⟩

/-- After a backslash that was not escaped the literal reads one unit less than the text has, apart
from what it takes of the tail. -/
theorem readBody_unescaped_length (hp : ∀ u, p u → u = quote ∨ u = backslash)
    (hb : p backslash = false) {tail t v rest : Text}
    (ih : ∀ t' v', t'.length ≤ t.length → readBody strict (escape p t' ++ tail) = some (v', rest) →
      v'.length ≤ t'.length + (tail.length - rest.length))
    (h : readBody strict (backslash :: (escape p t ++ tail)) = some (v, rest)) :
    v.length ≤ t.length + (tail.length - rest.length) := by
  obtain ⟨e, mid, v', hscan, hread, rfl⟩ := readBody_backslash h
  obtain ⟨pre, hpre, hle, hkind⟩ := scanEscape_spec hscan
  have hmid := readBody_length hread
  rw [List.length_append]
  rcases hkind with rfl | hkind
  · have hone : e.length ≤ 1 := hle
    cases t with
    | nil =>
      have htail : tail = backslash :: mid := hpre
      rw [htail, List.length_cons, List.length_nil]
      omega
    | cons u t =>
      rw [escape] at hpre
      rw [List.length_cons]
      split at hpre
      · -- the backslash read belongs to an escaped quote, which now ends the literal
        rename_i hu
        have hquote : u = quote := by
          refine (hp u hu).resolve_right ?_
          rintro rfl
          rw [hb] at hu
          cases hu
        have hmid' : mid = quote :: (escape p t ++ tail) := by
          rw [← hquote]
          exact (List.cons.inj hpre).2.symm
        rw [hmid', readBody_quote] at hread
        cases hread
        rw [List.length_nil]
        omega
      · have hmid' : mid = escape p t ++ tail := (List.cons.inj hpre).2.symm
        rw [hmid'] at hread
        have hrest := ih t v' (Nat.le_succ _) hread
        omega
  · rcases split_escape hkind hpre with ⟨t', rfl, rfl⟩ | ⟨pre', rfl, rfl⟩
    · have hrest := ih t' v' (by simp) hread
      rw [List.length_append]
      omega
    · rw [List.length_append] at hle ⊢
      omega

/-- Reading an escaped text gives at most as many units as the text has, apart from what it takes
of the tail. -/
theorem readBody_escape_length (hp : ∀ u, p u → u = quote ∨ u = backslash) {tail t v rest : Text}
    (h : readBody strict (escape p t ++ tail) = some (v, rest)) :
    v.length ≤ t.length + (tail.length - rest.length) := by
  induction hn : t.length using Nat.strongRecOn generalizing t v with
  | ind n ih =>
    subst hn
    cases t with
    | nil =>
      have hlen := readBody_length h
      rw [escape, List.nil_append] at hlen
      rw [List.length_nil]
      omega
    | cons u t =>
      have hrec : ∀ t' v', t'.length ≤ t.length →
          readBody strict (escape p t' ++ tail) = some (v', rest) →
          v'.length ≤ t'.length + (tail.length - rest.length) :=
        fun t' v' ht' h' => ih t'.length (Nat.lt_succ_of_le ht') h' rfl
      rw [List.length_cons]
      rw [escape] at h
      split at h
      · rename_i hu
        rw [List.cons_append, List.cons_append, readBody_escaped (hp u hu)] at h
        -- an escaped unit: two units of the script that denote one
        obtain ⟨v', hread, rfl⟩ := of_map_fst h
        have htail := hrec t v' (Nat.le_refl _) hread
        rw [List.length_cons]
        omega
      · rename_i hu
        rw [List.cons_append] at h
        by_cases hq : u = quote
        · rw [hq, readBody_quote] at h
          cases h
          exact Nat.zero_le _
        by_cases hb : u = backslash
        · rw [hb] at h hu
          have hlen := readBody_unescaped_length hp (by simpa using hu) hrec h
          omega
        by_cases hl : isLineTerminator u
        · rw [readBody_lineTerminator hl] at h
          cases h
        · rw [readBody_unit hq hb (by simpa using hl)] at h
          obtain ⟨v', hread, rfl⟩ := of_map_fst h
          have htail := hrec t v' (Nat.le_refl _) hread
          rw [List.length_cons]
          omega

/-- A literal whose units are all protected is read back, up to the quote behind it. -/
theorem readBody_escape {t tail : Text} (h : ∀ u ∈ t, Protected p u)
    (hp : ∀ u, p u → u = quote ∨ u = backslash) :
    readBody strict (escape p t ++ quote :: tail) = some (t, quote :: tail) := by
  induction t with
  | nil => exact readBody_quote tail
  | cons u t ih =>
    rw [List.forall_mem_cons] at h
    rw [escape]
    split
    · rename_i hu
      rw [List.cons_append, List.cons_append, readBody_escaped (hp u hu), ih h.2]
      rfl
    · rename_i hu
      have hq : u ≠ quote := fun heq => hu (h.1.2 (Or.inl heq))
      have hb : u ≠ backslash := fun heq => hu (h.1.2 (Or.inr heq))
      rw [List.cons_append, readBody_unit hq hb h.1.1, ih h.2]
      rfl

/-- A literal that is read back up to where the text ends has protected units only. -/
theorem protected_of_readBody (hp : ∀ u, p u → u = quote ∨ u = backslash) {t tail : Text}
    (h : readBody strict (escape p t ++ tail) = some (t, tail)) : ∀ u ∈ t, Protected p u := by
  induction t with
  | nil => exact fun u hu => absurd hu List.not_mem_nil
  | cons u t ih =>
    rw [escape] at h
    split at h
    · rename_i hu
      rw [List.cons_append, List.cons_append, readBody_escaped (hp u hu)] at h
      obtain ⟨v', hread, heq⟩ := of_map_fst h
      cases heq
      rw [List.forall_mem_cons]
      refine ⟨⟨?_, fun _ => hu⟩, ih hread⟩
      rcases hp u hu with rfl | rfl <;> decide
    · rename_i hu
      rw [List.cons_append] at h
      by_cases hq : u = quote
      · rw [hq, readBody_quote] at h
        cases h
      by_cases hb : u = backslash
      · -- the literal would be one unit short
        rw [hb] at h hu
        have hlen := readBody_unescaped_length hp (by simpa using hu)
          (fun t' v' _ h' => readBody_escape_length hp h') h
        rw [List.length_cons] at hlen
        omega
      by_cases hl : isLineTerminator u
      · rw [readBody_lineTerminator hl] at h
        cases h
      · rw [readBody_unit hq hb (by simpa using hl)] at h
        obtain ⟨v', hread, heq⟩ := of_map_fst h
        cases heq
        rw [List.forall_mem_cons]
        exact ⟨⟨by simpa using hl, fun hor => absurd hor (not_or.mpr ⟨hq, hb⟩)⟩, ih hread⟩

/-- **The generated literal denotes the text exactly when every unit of the text is protected**:
escaped if it is a quote or a backslash, and no line terminator. -/
theorem readBody_escape_iff (hp : ∀ u, p u → u = quote ∨ u = backslash) {t tail : Text} :
    readBody strict (escape p t ++ quote :: tail) = some (t, quote :: tail) ↔
      ∀ u ∈ t, Protected p u :=
  ⟨protected_of_readBody hp, fun h => readBody_escape h hp⟩

/-! ## Scripts with interpolated texts

The script is passed on as a C string, so a NUL in it ends it. Its holes are read one after the
other, each from where the fixed text behind the last one has ended. -/

/-- An interpolated text: which of its units are escaped, the text, and what the script has behind
it after the closing quote. -/
structure Hole where
  escaped : CodeUnit → Bool
  value : Text
  following : Text

/-- The script from behind the opening quote of its first interpolated text. -/
def fill : List Hole → Text
  | [] => []
  | x :: holes => escape x.escaped x.value ++ quote :: x.following ++ fill holes

/-- What the compiler gets of a text that is handed over as a C string. -/
def cStr (text : Text) : Text := text.takeWhile (· ≠ 0)

/-- From behind an opening quote, every literal has its text as value and the script goes on behind
it with the text that it is generated with. -/
def Reads (strict : Bool) : List Hole → Text → Prop
  | [], text => text = []
  | x :: holes, text =>
    readBody strict text = some (x.value, quote :: x.following ++ fill holes) ∧
      Reads strict holes (fill holes)

/-- A script with a fixed beginning and interpolated texts denotes these texts, and is otherwise the
script that was generated. -/
def Denotes (strict : Bool) (script start : Text) (holes : List Hole) : Prop :=
  script = start ++ fill holes ∧ ∃ text, cStr script = start ++ text ∧ Reads strict holes text

theorem cStr_eq_self {text : Text} (h : 0 ∉ text) : cStr text = text := by
  rw [cStr, List.takeWhile_eq_self_iff]
  intro u hu
  simpa using ne_of_mem_of_not_mem hu h

theorem not_mem_cStr (text : Text) : 0 ∉ cStr text := by
  intro h
  simpa using List.mem_takeWhile_imp h

theorem cStr_append {front text : Text} (h : 0 ∉ front) :
    cStr (front ++ text) = front ++ cStr text := by
  rw [cStr, List.takeWhile_append_of_pos]
  · rfl
  · intro u hu
    simpa using ne_of_mem_of_not_mem hu h

theorem escape_append (t t' : Text) : escape p (t ++ t') = escape p t ++ escape p t' := by
  induction t with
  | nil => rfl
  | cons u t ih =>
    rw [List.cons_append, escape, escape, ih]
    split <;> rfl

/-- Escaping adds backslashes and nothing else. -/
theorem mem_escape_iff {t : Text} {u : CodeUnit} (hu : u ≠ backslash) :
    u ∈ escape p t ↔ u ∈ t := by
  induction t with
  | nil => rfl
  | cons w t ih =>
    rw [escape]
    split
    · rw [List.mem_cons, List.mem_cons, List.mem_cons, ih]
      exact or_iff_right hu
    · rw [List.mem_cons, List.mem_cons, ih]

/-- What the fixed parts of a script must be like: only quotes and backslashes are escaped, and
there is no NUL in it. -/
def Hole.Fits (x : Hole) : Prop :=
  (∀ u, x.escaped u → u = quote ∨ u = backslash) ∧ 0 ∉ x.following

/-- A unit of an interpolated text that comes out of the script as it went in. -/
def Kept (p : CodeUnit → Bool) (u : CodeUnit) : Prop := u ≠ 0 ∧ Protected p u

instance (p : CodeUnit → Bool) (u : CodeUnit) : Decidable (Kept p u) :=
  inferInstanceAs (Decidable (_ ∧ _))

/-- The script has no NUL exactly if none of the texts has, as the fixed parts have none. -/
theorem not_mem_fill_iff {holes : List Hole} (hfits : ∀ x ∈ holes, x.Fits) :
    0 ∉ fill holes ↔ ∀ x ∈ holes, 0 ∉ x.value := by
  induction holes with
  | nil => exact ⟨fun _ x hx => absurd hx List.not_mem_nil, fun _ => List.not_mem_nil⟩
  | cons x holes ih =>
    rw [List.forall_mem_cons] at hfits
    have hquote : (0 : CodeUnit) ≠ quote := by decide
    rw [List.forall_mem_cons, ← ih hfits.2, fill, List.mem_append, List.mem_append, List.mem_cons,
      mem_escape_iff (by decide)]
    simp only [hquote, hfits.1.2, or_false, not_or]

/-- A script that was not cut reads as intended exactly when all units are protected. -/
theorem reads_fill_iff {holes : List Hole} (hfits : ∀ x ∈ holes, x.Fits) :
    Reads strict holes (fill holes) ↔ ∀ x ∈ holes, ∀ u ∈ x.value, Protected x.escaped u := by
  induction holes with
  | nil =>
    constructor
    · exact fun _ x hx => absurd hx List.not_mem_nil
    · exact fun _ => rfl
  | cons x holes ih =>
    rw [List.forall_mem_cons] at hfits
    have hhead :
        readBody strict (escape x.escaped x.value ++ quote :: (x.following ++ fill holes)) =
        some (x.value, quote :: (x.following ++ fill holes)) ↔
        ∀ u ∈ x.value, Protected x.escaped u := readBody_escape_iff hfits.1.1
    rw [List.forall_mem_cons, ← ih hfits.2, ← hhead, Reads, fill, List.append_assoc]
    rfl

/-- A script whose first literal reads as intended was not cut: a NUL in the literal would leave
less than its text, and one behind it would be missing in the rest. -/
theorem not_mem_of_reads {x : Hole} {holes : List Hole} (hfits : x.Fits)
    (h : Reads strict (x :: holes) (cStr (fill (x :: holes)))) : 0 ∉ fill (x :: holes) := by
  have hread := h.1
  have hvalue : 0 ∉ x.value := by
    intro hmem
    -- the script is cut at the first NUL of the value, which is read from what is left of it
    obtain ⟨v, w, hv, hcut⟩ := List.eq_append_cons_of_mem hmem
    have hzero : x.escaped 0 = false := by
      by_contra hesc
      exact absurd (hfits.1 0 (by simpa using hesc)) (by decide)
    have hfront : 0 ∉ escape x.escaped v := (mem_escape_iff (by decide)).not.mpr hcut
    have htext : cStr (fill (x :: holes)) = escape x.escaped v ++ [] := by
      rw [fill, hv, escape_append, List.append_assoc, List.append_assoc, cStr_append hfront, escape,
        hzero]
      rfl
    rw [htext] at hread
    have hlen := readBody_escape_length hfits.1 hread
    rw [hv, List.length_append, List.length_cons, List.length_nil] at hlen
    omega
  obtain ⟨pre, hpre, -⟩ := readBody_spec hread
  have hrest : 0 ∉ quote :: x.following ++ fill holes := by
    intro hmem
    refine not_mem_cStr (fill (x :: holes)) ?_
    rw [hpre]
    exact List.mem_append_right pre hmem
  rw [fill, List.append_assoc, List.mem_append, mem_escape_iff (by decide)]
  exact not_or.mpr ⟨hvalue, hrest⟩

/-- **Injection safety.** A script denotes its interpolated texts, and is otherwise what it was
written as, exactly when every unit of them is kept. -/
theorem denotes_iff {script start : Text} {holes : List Hole}
    (hscript : script = start ++ fill holes)
    (hstart : 0 ∉ start) (hfits : ∀ x ∈ holes, x.Fits) :
    Denotes strict script start holes ↔ ∀ x ∈ holes, ∀ u ∈ x.value, Kept x.escaped u := by
  subst hscript
  constructor
  · rintro ⟨-, text, htext, hreads⟩
    rw [cStr_append hstart] at htext
    obtain rfl := List.append_cancel_left htext
    -- what is read back has no NUL, so the script was passed on whole
    cases holes with
    | nil => exact fun x hx => absurd hx List.not_mem_nil
    | cons x holes =>
      have hzero := not_mem_of_reads (hfits x List.mem_cons_self) hreads
      rw [cStr_eq_self hzero, reads_fill_iff hfits] at hreads
      intro y hy u hu
      refine ⟨?_, hreads y hy u hu⟩
      rintro rfl
      exact (not_mem_fill_iff hfits).mp hzero y hy hu
  · intro h
    have hzero : 0 ∉ fill holes :=
      (not_mem_fill_iff hfits).mpr fun x hx hmem => (h x hx 0 hmem).1 rfl
    refine ⟨rfl, fill holes, ?_, ?_⟩
    · rw [cStr_append hstart, cStr_eq_self hzero]
    · exact (reads_fill_iff hfits).mpr fun x hx u hu => (h x hx u hu).2

end JsString
