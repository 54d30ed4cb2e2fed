import NodeWebkit.Lib.JsString
import Mathlib.Data.List.Infix

/-!
# Regular expressions and letter case of JavaScript

A pattern is matched by the positions at which a match that starts at a given position can end, and
`test` tries every position of the text. Units are compared after a canonicalization, the identity
or the case folding of the flag `i`.

* **`test_literal`**, **`test_start`**, **`test_finish`** — a word is found anywhere; behind `^` it
  is found at the beginning of the text only, before `$` at its end only;
* **`test_alt`** — an alternative is found where one of its sides is. It binds weaker than the
  anchors, so an anchor belongs to one of its sides;
* **`CaseMapping`** — `String.prototype.toLowerCase`, by what ASCII texts depend on;
* **`CaseMapping.canonicalize_eq`** — the flag `i` compares as `toLowerCase` does, on words of ASCII
  letters without `k`.
-/

namespace JsRegExp

open JsString

variable {α β : Type*}

inductive Pattern (α : Type*) where
  | empty
  | unit (u : α)
  /-- `^`, without the flag `m`. -/
  | start
  /-- `$`, without the flag `m`. -/
  | finish
  | seq (p q : Pattern α)
  | alt (p q : Pattern α)

namespace Pattern

def literal (word : List α) : Pattern α := word.foldr (fun u p => .seq (.unit u) p) .empty

variable [DecidableEq β] (canonicalize : α → β)

/-- The ends of the matches that start at position `i`. -/
def ends (text : List α) : Pattern α → Nat → List Nat
  | .empty, i => [i]
  | .unit u, i =>
    match text[i]? with
    | some v => if canonicalize v = canonicalize u then [i + 1] else []
    | none => []
  | .start, i => if i = 0 then [i] else []
  | .finish, i => if i = text.length then [i] else []
  | .seq p q, i => (p.ends text i).flatMap (q.ends text)
  | .alt p q, i => p.ends text i ++ q.ends text i

/-- `RegExp.prototype.test`, for a pattern without the flag `g`. -/
def test (p : Pattern α) (text : List α) : Bool :=
  (List.range (text.length + 1)).any fun i => !(p.ends canonicalize text i).isEmpty

variable {canonicalize} {text : List α} {p q : Pattern α} {word : List α}

/-- A pattern is found in a text if it matches from some position on, the end of the text included.
-/
theorem test_iff :
    p.test canonicalize text = true ↔
      ∃ i ≤ text.length, ∃ j, j ∈ p.ends canonicalize text i := by
  simp only [test, List.any_eq_true, List.mem_range, Nat.lt_succ_iff, Bool.not_eq_true',
    List.isEmpty_eq_false_iff_exists_mem]

/-- **An alternative is found where one of its sides is.** It is not the same as finding one of two
words between anchors: an anchor stands in one side only. -/
theorem test_alt :
    (alt p q).test canonicalize text = (p.test canonicalize text || q.test canonicalize text) := by
  rw [Bool.eq_iff_iff, Bool.or_eq_true, test_iff, test_iff, test_iff]
  simp only [ends, List.mem_append]
  constructor
  · rintro ⟨i, hi, j, hj | hj⟩
    · exact Or.inl ⟨i, hi, j, hj⟩
    · exact Or.inr ⟨i, hi, j, hj⟩
  · rintro (⟨i, hi, j, hj⟩ | ⟨i, hi, j, hj⟩)
    · exact ⟨i, hi, j, Or.inl hj⟩
    · exact ⟨i, hi, j, Or.inr hj⟩

/-! ## Words -/

/-- A word is matched where the text goes on with it, and the match ends behind it. Induction on the
word. -/
theorem mem_ends_literal {i j : Nat} :
    j ∈ (literal word).ends canonicalize text i ↔
      j = i + word.length ∧ word.map canonicalize <+: (text.drop i).map canonicalize := by
  induction word generalizing i with
  | nil => simp [literal, ends]
  | cons u word ih =>
    have hseq : (literal (u :: word)).ends canonicalize text i =
        ((unit u).ends canonicalize text i).flatMap ((literal word).ends canonicalize text) := rfl
    rw [hseq, List.mem_flatMap, ends]
    -- the first letter matches where there is one left to match
    rcases Nat.lt_or_ge i text.length with hi | hi
    · rw [List.getElem?_eq_getElem hi, List.drop_eq_getElem_cons hi, List.map_cons, List.map_cons,
        List.cons_prefix_cons]
      by_cases hu : canonicalize text[i] = canonicalize u
      · simp only [if_pos hu, List.mem_singleton, exists_eq_left, ih, List.length_cons]
        constructor
        · intro h
          exact ⟨by omega, hu.symm, h.2⟩
        · intro h
          exact ⟨by omega, h.2.2⟩
      · simp only [if_neg hu, List.not_mem_nil, false_and, exists_false, false_iff]
        exact fun h => hu h.2.1.symm
    · rw [List.getElem?_eq_none hi, List.drop_eq_nil_of_le hi]
      simp

/-- A word is found anywhere in the text. -/
theorem test_literal :
    (literal word).test canonicalize text = true ↔
      word.map canonicalize <:+: text.map canonicalize := by
  rw [test_iff]
  constructor
  · rintro ⟨i, -, j, hj⟩
    have hfront := (mem_ends_literal.mp hj).2
    rw [List.map_drop] at hfront
    exact hfront.isInfix.trans (List.drop_suffix i _).isInfix
  · rintro ⟨before, after, h⟩
    have hlen := congrArg List.length h
    simp only [List.length_append, List.length_map] at hlen
    refine ⟨before.length, by omega, _, mem_ends_literal.mpr ⟨rfl, after, ?_⟩⟩
    rw [List.map_drop, ← h, List.append_assoc, List.drop_left]

/-- `^word` — the text begins with the word. A match has to start at the first position. -/
theorem test_start :
    (seq start (literal word)).test canonicalize text = true ↔
      word.map canonicalize <+: text.map canonicalize := by
  rw [test_iff]
  constructor
  · rintro ⟨i, -, j, hj⟩
    rw [ends, ends, List.mem_flatMap] at hj
    split at hj
    · rename_i hi
      subst hi
      have hfront := (mem_ends_literal.mp (by simpa using hj)).2
      rwa [List.drop_zero] at hfront
    · simp at hj
  · intro h
    have hends : 0 + word.length ∈ (literal word).ends canonicalize text 0 :=
      mem_ends_literal.mpr ⟨rfl, by rwa [List.drop_zero]⟩
    exact ⟨0, Nat.zero_le _, _, List.mem_flatMap.mpr ⟨0, List.mem_singleton_self 0, hends⟩⟩

/-- `word$` — the text ends with the word. A match may start anywhere, but has to end at the last
position. -/
theorem test_finish :
    (seq (literal word) finish).test canonicalize text = true ↔
      word.map canonicalize <:+ text.map canonicalize := by
  rw [test_iff]
  constructor
  · rintro ⟨i, hi, j, hj⟩
    rw [ends, List.mem_flatMap] at hj
    obtain ⟨k, hk, hj⟩ := hj
    obtain ⟨rfl, after, hfront⟩ := mem_ends_literal.mp hk
    rw [ends] at hj
    split at hj
    · rename_i hlen
      -- nothing of the text is left behind the word
      have hnil : after = [] := by
        have h := congrArg List.length hfront
        simp only [List.length_append, List.length_map, List.length_drop] at h
        exact List.length_eq_zero_iff.mp (by omega)
      rw [hnil, List.append_nil, List.map_drop] at hfront
      rw [hfront]
      exact List.drop_suffix i _
    · cases hj
  · rintro ⟨before, h⟩
    have hlen := congrArg List.length h
    simp only [List.length_append, List.length_map] at hlen
    have hends : before.length + word.length ∈
        (literal word).ends canonicalize text before.length := by
      refine mem_ends_literal.mpr ⟨rfl, [], ?_⟩
      rw [List.map_drop, ← h, List.drop_left, List.append_nil]
    have hfinish : text.length ∈ finish.ends canonicalize text (before.length + word.length) := by
      rw [ends, if_pos hlen, hlen]
      exact List.mem_singleton_self _
    exact ⟨before.length, by omega, text.length, List.mem_flatMap.mpr ⟨_, hends, hfinish⟩⟩

/-- Where two texts have the same canonical units, a pattern matches in both alike. Induction on the
pattern. -/
theorem ends_congr {text' : List α} (h : text.map canonicalize = text'.map canonicalize)
    (p : Pattern α) (i : Nat) : p.ends canonicalize text i = p.ends canonicalize text' i := by
  have hlen : text.length = text'.length := by simpa using congrArg List.length h
  induction p generalizing i with
  | empty => rfl
  | start => rfl
  | finish => rw [ends, ends, hlen]
  | unit u =>
    have hget : text[i]?.map canonicalize = text'[i]?.map canonicalize := by
      rw [← List.getElem?_map, ← List.getElem?_map, h]
    rw [ends, ends]
    cases hi : text[i]? with
    | none =>
      rw [hi] at hget
      rw [Option.map_eq_none_iff.mp hget.symm]
    | some v =>
      rw [hi] at hget
      obtain ⟨v', hi', hv⟩ := Option.map_eq_some_iff.mp hget.symm
      simp only [hi', hv]
  | seq p q ihp ihq => rw [ends, ends, ihp, funext ihq]
  | alt p q ihp ihq => rw [ends, ends, ihp, ihq]

/-- A pattern sees the canonical units of a text only, so texts that differ in case are tested alike
under the flag `i`. -/
theorem test_congr {text' : List α} (h : text.map canonicalize = text'.map canonicalize)
    (p : Pattern α) : p.test canonicalize text = p.test canonicalize text' := by
  have hlen : text.length = text'.length := by simpa using congrArg List.length h
  simp only [test, hlen, ends_congr h]

end Pattern

/-! ## Letter case

The flag `i` compares by case folding, and `toLowerCase` is a function of the engine that depends on
the context of a letter. On ASCII the two agree, with one exception: the Kelvin sign is no ASCII
letter and has `k` for its lower case. -/

/-- The Kelvin sign, the one unit beyond ASCII whose lower case is in ASCII. -/
def kelvinSign : CodeUnit := 0x212A

def lowerUnit (u : CodeUnit) : CodeUnit :=
  if 0x41 ≤ u ∧ u ≤ 0x5A then u + 0x20
  else if u = kelvinSign then 0x6B
  else u

def isAscii (t : Text) : Bool := t.all fun u => u < 0x80

theorem isAscii_iff {t : Text} : isAscii t = true ↔ ∀ u ∈ t, u < 0x80 := by
  simp only [isAscii, List.all_eq_true, decide_eq_true_eq]

/-- A unit whose lower case is in ASCII. -/
def IsBasic (u : CodeUnit) : Prop := u < 0x80 ∨ u = kelvinSign

instance (u : CodeUnit) : Decidable (IsBasic u) := inferInstanceAs (Decidable (_ ∨ _))

/-- The `Canonicalize` of a pattern with the flag `i` and without `u`. A unit beyond ASCII never
becomes one in ASCII; which other unit it becomes is nothing to a pattern of ASCII letters. -/
def canonicalize (u : CodeUnit) : CodeUnit := if 0x61 ≤ u ∧ u ≤ 0x7A then u - 0x20 else u

/-- `String.prototype.toLowerCase` follows the Unicode tables, of which only what concerns ASCII is
said here. -/
structure CaseMapping where
  toLowerCase : Text → Text
  toLowerCase_basic : ∀ t, (∀ u ∈ t, IsBasic u) → toLowerCase t = t.map lowerUnit
  toLowerCase_beyond : ∀ t, (∃ u ∈ t, ¬ IsBasic u) → ∃ u ∈ toLowerCase t, 0x80 ≤ u

/-- The mapping that changes units in ASCII and the Kelvin sign only. -/
def CaseMapping.basic : CaseMapping where
  toLowerCase t := t.map lowerUnit
  toLowerCase_basic _ _ := rfl
  toLowerCase_beyond t h := by
    obtain ⟨u, hu, hbeyond⟩ := h
    have hlarge : 0x80 ≤ u := UInt16.not_lt.mp fun hlt => hbeyond (Or.inl hlt)
    have hlower : lowerUnit u = u := by
      rw [lowerUnit, if_neg, if_neg fun heq => hbeyond (Or.inr heq)]
      rintro ⟨-, hle⟩
      exact absurd (UInt16.le_trans hlarge hle) (by decide)
    exact ⟨u, List.mem_map.mpr ⟨u, hu, hlower⟩, hlarge⟩

/-- Case folding does not tell an ASCII letter from its lower case. There are 128 of them to look
at. -/
theorem canonicalize_lowerUnit {u : CodeUnit} (h : u < 0x80) :
    canonicalize (lowerUnit u) = canonicalize u := by
  have hall : ∀ n : Fin 0x80, canonicalize (lowerUnit (UInt16.ofNat n)) =
      canonicalize (UInt16.ofNat n) := by decide
  have hu := hall ⟨u.toNat, UInt16.lt_iff_toNat_lt.mp h⟩
  rwa [UInt16.ofNat_toNat] at hu

/-- Only basic units have a lower case in ASCII: where the lower case of a text is in ASCII, the
text was made of ASCII units and Kelvin signs, each of which was mapped on its own. -/
theorem CaseMapping.eq_map_of_ascii (c : CaseMapping) {t : Text}
    (h : isAscii (c.toLowerCase t) = true) :
    (∀ u ∈ t, IsBasic u) ∧ c.toLowerCase t = t.map lowerUnit := by
  have hbasic : ∀ u ∈ t, IsBasic u := by
    by_contra hnot
    have hbeyond : ∃ u ∈ t, ¬ IsBasic u := by simpa using hnot
    obtain ⟨u, hu, hlarge⟩ := c.toLowerCase_beyond t hbeyond
    exact UInt16.not_lt.mpr hlarge (isAscii_iff.mp h u hu)
  exact ⟨hbasic, c.toLowerCase_basic t hbasic⟩

/-- A unit in lower case stays as it is. -/
theorem lowerUnit_lowerUnit (u : CodeUnit) : lowerUnit (lowerUnit u) = lowerUnit u := by
  by_cases h : u < 0x80
  · have hall : ∀ n : Fin 0x80, lowerUnit (lowerUnit (UInt16.ofNat n)) =
        lowerUnit (UInt16.ofNat n) := by decide
    have hu := hall ⟨u.toNat, UInt16.lt_iff_toNat_lt.mp h⟩
    rwa [UInt16.ofNat_toNat] at hu
  by_cases hk : u = kelvinSign
  · rw [hk]
    decide
  · have hsame : lowerUnit u = u := by
      rw [lowerUnit, if_neg, if_neg hk]
      rintro ⟨-, hle⟩
      exact h (UInt16.lt_of_le_of_lt hle (by decide))
    rw [hsame, hsame]

/-- A text in lower case that is in ASCII has no capital letter, so it is its own lower case. -/
theorem CaseMapping.toLowerCase_fixed (c : CaseMapping) {t : Text}
    (h : isAscii (c.toLowerCase t) = true) :
    (c.toLowerCase t).map lowerUnit = c.toLowerCase t := by
  rw [(c.eq_map_of_ascii h).2, List.map_map]
  exact List.map_congr_left fun u _ => lowerUnit_lowerUnit u

/-- **The flag `i` compares as `toLowerCase` does** on words of ASCII letters without `k`: a text
whose lower case is such a word is folded to it. -/
theorem CaseMapping.canonicalize_eq (c : CaseMapping) {t word : Text} (h : c.toLowerCase t = word)
    (hword : isAscii word = true) (hk : 0x6B ∉ word) :
    t.map canonicalize = word.map canonicalize := by
  subst h
  obtain ⟨hbasic, hmap⟩ := c.eq_map_of_ascii hword
  rw [hmap] at hk ⊢
  rw [List.map_map]
  refine List.map_congr_left fun u hu => ?_
  rcases hbasic u hu with hascii | rfl
  · exact (canonicalize_lowerUnit hascii).symm
  · -- the Kelvin sign would have given a `k`
    exact absurd (List.mem_map_of_mem hu) hk

end JsRegExp
