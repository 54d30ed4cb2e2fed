import Mathlib.Data.List.Basic

/-!
# Base64

Three bytes are written as four digits of six bits; one or two bytes at the end are written as two
or three digits, and `=` fills the group.

* **`encode`**, **`decode`** — the encoding, and what it reads back;
* **`decode_encode`** — the round trip;
* **`sextets_injective`** — the digits determine the bytes, also without the filling;
* **`filter_encode`** — what is left when the filling is taken away.
-/

namespace Base64

/-- The values of the digits. -/
def sextets : List UInt8 → List Nat
  | [] => []
  | [a] => [a.toNat / 4, a.toNat % 4 * 16]
  | [a, b] => [a.toNat / 4, a.toNat % 4 * 16 + b.toNat / 16, b.toNat % 16 * 4]
  | a :: b :: c :: rest =>
    a.toNat / 4 :: (a.toNat % 4 * 16 + b.toNat / 16) :: (b.toNat % 16 * 4 + c.toNat / 64) ::
      c.toNat % 64 :: sextets rest

def alphabet : List Char :=
  "ABCDEFGHIJKLMNOPQRSTUVWXYZabcdefghijklmnopqrstuvwxyz0123456789+/".toList

def digit (n : Nat) : Char := alphabet.getD n '='

def encode (bytes : List UInt8) : List Char :=
  (sextets bytes).map digit ++ List.replicate ((3 - bytes.length % 3) % 3) '='

example : encode [77, 97] = "TWE=".toList := by decide

/-- A digit has six bits. -/
theorem sextets_lt (bytes : List UInt8) : ∀ n ∈ sextets bytes, n < 64 := by
  induction bytes using sextets.induct with
  | case1 => nofun
  | case2 a =>
    have ha := a.toNat_lt
    simp only [sextets, List.forall_mem_cons]
    exact ⟨by omega, by omega, nofun⟩
  | case3 a b =>
    have ha := a.toNat_lt
    have hb := b.toNat_lt
    simp only [sextets, List.forall_mem_cons]
    exact ⟨by omega, by omega, by omega, nofun⟩
  | case4 a b c rest ih =>
    have ha := a.toNat_lt
    have hb := b.toNat_lt
    have hc := c.toNat_lt
    simp only [sextets, List.forall_mem_cons]
    exact ⟨by omega, by omega, by omega, by omega, ih⟩

/-- **The digits determine the bytes.** Induction on the groups of three: the number of digits tells
how many bytes there are in the last one, and four digits are the three bytes cut differently. -/
theorem sextets_injective : Function.Injective sextets := by
  intro x
  induction x using sextets.induct with
  | case1 =>
    intro y h
    match y with
    | [] => rfl
    | [_] | [_, _] | _ :: _ :: _ :: _ => simp [sextets] at h
  | case2 a =>
    intro y h
    match y with
    | [] | [_, _] | _ :: _ :: _ :: _ => simp [sextets] at h
    | [a'] =>
      simp only [sextets, List.cons.injEq, and_true] at h
      -- two digits: the first byte is all of the first and the top of the second
      have ha : a = a' := UInt8.toNat_inj.mp (by omega)
      rw [ha]
  | case3 a b =>
    intro y h
    match y with
    | [] | [_] | _ :: _ :: _ :: _ => simp [sextets] at h
    | [a', b'] =>
      have hb := b.toNat_lt
      have hb' := b'.toNat_lt
      simp only [sextets, List.cons.injEq, and_true] at h
      have hab : a = a' ∧ b = b' :=
        ⟨UInt8.toNat_inj.mp (by omega), UInt8.toNat_inj.mp (by omega)⟩
      rw [hab.1, hab.2]
  | case4 a b c rest ih =>
    intro y h
    match y with
    | [] | [_] | [_, _] => simp [sextets] at h
    | a' :: b' :: c' :: rest' =>
      have hb := b.toNat_lt
      have hb' := b'.toNat_lt
      have hc := c.toNat_lt
      have hc' := c'.toNat_lt
      simp only [sextets, List.cons.injEq] at h
      obtain ⟨h1, h2, h3, h4, hrest⟩ := h
      have habc : a = a' ∧ b = b' ∧ c = c' :=
        ⟨UInt8.toNat_inj.mp (by omega), UInt8.toNat_inj.mp (by omega),
          UInt8.toNat_inj.mp (by omega)⟩
      rw [habc.1, habc.2.1, habc.2.2, ih hrest]

/-- The filling is no digit, so it can be told from the digits before it. -/
theorem digit_ne_pad : ∀ n < 64, digit n ≠ '=' := by
  decide +kernel

/-- What is left when the filling is taken away are the digits, in their order. -/
theorem filter_encode (bytes : List UInt8) :
    (encode bytes).filter (fun c => decide (c ≠ '=')) = (sextets bytes).map digit := by
  have hdigits : ((sextets bytes).map digit).filter (fun c => decide (c ≠ '=')) =
      (sextets bytes).map digit := by
    refine List.filter_eq_self.mpr fun c hc => ?_
    obtain ⟨n, hn, rfl⟩ := List.mem_map.mp hc
    exact decide_eq_true (digit_ne_pad n (sextets_lt bytes n hn))
  rw [encode, List.filter_append, hdigits, List.filter_replicate]
  simp

/-- Digits that are told apart determine the bytes, whatever alphabet they are written in. -/
theorem map_sextets_injective {δ : Type*} {f : Nat → δ}
    (hf : ∀ n < 64, ∀ m < 64, f n = f m → n = m) :
    Function.Injective fun bytes => (sextets bytes).map f := by
  intro x y h
  refine sextets_injective ?_
  have hx := sextets_lt x
  have hy := sextets_lt y
  change (sextets x).map f = (sextets y).map f at h
  generalize sextets x = u at h hx
  generalize sextets y = v at h hy
  induction u generalizing v with
  | nil => exact (List.map_eq_nil_iff.mp h.symm).symm
  | cons n u ih =>
    cases v with
    | nil => cases h
    | cons m v =>
      rw [List.forall_mem_cons] at hx hy
      obtain ⟨hnm, huv⟩ := List.cons.inj h
      rw [hf n hx.1 m hy.1 hnm, ih hx.2 v huv hy.2]

/-! ## Reading back

Decoding goes by groups of four digits. Only the last group may have filling, and how much there is
says how many bytes it holds. -/

/-- The value of a digit. -/
def value (c : Char) : Option Nat := alphabet.findIdx? (· = c)

/-- The text is read in groups of four, and only the last one may be filled. -/
def decode : List Char → Option (List UInt8)
  | [] => some []
  | a :: b :: c :: d :: rest =>
    (value a).bind fun i => (value b).bind fun j =>
      if c = '=' ∧ d = '=' ∧ rest = [] then some [(i * 4 + j / 16).toUInt8]
      else (value c).bind fun k =>
        if d = '=' ∧ rest = [] then
          some [(i * 4 + j / 16).toUInt8, (j % 16 * 16 + k / 4).toUInt8]
        else (value d).bind fun l => (decode rest).map fun bytes =>
          (i * 4 + j / 16).toUInt8 :: (j % 16 * 16 + k / 4).toUInt8 ::
            (k % 4 * 64 + l).toUInt8 :: bytes
  | _ => none

theorem value_digit : ∀ n < 64, value (digit n) = some n := by
  decide +kernel

theorem byte_eq {a : UInt8} {n : Nat} (h : n = a.toNat) : n.toUInt8 = a := by
  rw [h]
  exact UInt8.ofNat_toNat

/-- A full group is four digits, and the filling is that of the rest. -/
theorem encode_cons (a b c : UInt8) (rest : List UInt8) :
    encode (a :: b :: c :: rest) =
      digit (a.toNat / 4) :: digit (a.toNat % 4 * 16 + b.toNat / 16) ::
        digit (b.toNat % 16 * 4 + c.toNat / 64) :: digit (c.toNat % 64) :: encode rest := by
  have hfill : (a :: b :: c :: rest).length % 3 = rest.length % 3 := by
    simp only [List.length_cons]
    omega
  rw [encode, hfill, encode, sextets]
  rfl

/-- **The round trip.** Decoding reads back what was encoded, for any bytes. Induction on the groups
of three; the last one has no filling, one or two. -/
theorem decode_encode (bytes : List UInt8) : decode (encode bytes) = some bytes := by
  induction bytes using sextets.induct with
  | case1 => rfl
  | case2 a =>
    have ha := a.toNat_lt
    show decode [digit (a.toNat / 4), digit (a.toNat % 4 * 16), '=', '='] = _
    rw [decode, value_digit _ (by omega), value_digit _ (by omega), Option.bind_some,
      Option.bind_some, if_pos ⟨rfl, rfl, rfl⟩, byte_eq (a := a) (by omega)]
  | case3 a b =>
    have ha := a.toNat_lt
    have hb := b.toNat_lt
    have hpad := digit_ne_pad (b.toNat % 16 * 4) (by omega)
    show decode [digit (a.toNat / 4), digit (a.toNat % 4 * 16 + b.toNat / 16),
      digit (b.toNat % 16 * 4), '='] = _
    rw [decode, value_digit _ (by omega), value_digit _ (by omega), value_digit _ (by omega),
      Option.bind_some, Option.bind_some, Option.bind_some, if_neg fun h => hpad h.1,
      if_pos ⟨rfl, rfl⟩, byte_eq (a := a) (by omega), byte_eq (a := b) (by omega)]
  | case4 a b c rest ih =>
    have ha := a.toNat_lt
    have hb := b.toNat_lt
    have hc := c.toNat_lt
    have hpad := digit_ne_pad (b.toNat % 16 * 4 + c.toNat / 64) (by omega)
    -- a full group has no padding
    have hpad' := digit_ne_pad (c.toNat % 64) (by omega)
    rw [encode_cons, decode, value_digit _ (by omega), value_digit _ (by omega),
      value_digit _ (by omega), value_digit _ (by omega), Option.bind_some, Option.bind_some,
      Option.bind_some, Option.bind_some, if_neg fun h => hpad h.1, if_neg fun h => hpad' h.1, ih,
      Option.map_some, byte_eq (a := a) (by omega), byte_eq (a := b) (by omega),
      byte_eq (a := c) (by omega)]

end Base64
