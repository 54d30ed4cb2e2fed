import Mathlib.Data.List.Induction

/-!
# Tokens that may be quoted

A tokenizer splits a text at a delimiter. Between two quotes the delimiter is an ordinary symbol,
and an escape symbol there takes the next symbol its meaning, so that a quote behind it does not
end the quoted part.

* **`Tokenizer`** — a function that splits so, by its laws; `Tokenizer.scanning` is one;
* **`tokens_extends`** — a token whose quote is open goes on after the delimiter;
* **`after_quote_iff`** — a quoted text is closed by its quote exactly if it does not end in an odd
  number of escapes.
-/

namespace QuotedTokens

variable {α : Type*} [DecidableEq α]

structure Quoting (α : Type*) where
  delim : α
  quote : α
  escape : α
  escape_ne : escape ≠ quote

/-- How the next symbol is read. -/
inductive Mode where
  | plain
  | quoted
  | escaped
  deriving DecidableEq

namespace Quoting

variable (q : Quoting α)

def next : Mode → α → Mode
  | .plain, c => if c = q.quote then .quoted else .plain
  | .quoted, c => if c = q.escape then .escaped else if c = q.quote then .plain else .quoted
  | .escaped, _ => .quoted

/-- The mode after a text. -/
def after (m : Mode) (text : List α) : Mode := text.foldl q.next m

/-- No delimiter of the text is unquoted. -/
def Whole : Mode → List α → Prop
  | _, [] => True
  | m, c :: text => ¬ (m = .plain ∧ c = q.delim) ∧ Whole (q.next m c) text

end Quoting

/-- What a tokenizer with quotes does: delimiters are skipped, a token goes up to the next unquoted
delimiter, and the quotes are part of it. -/
structure Tokenizer (q : Quoting α) where
  tokens : List α → List (List α)
  nil : tokens [] = []
  delimiter : ∀ rest, tokens (q.delim :: rest) = tokens rest
  last : ∀ t, t ≠ [] → q.Whole .plain t → tokens t = [t]
  split : ∀ t rest, t ≠ [] → q.Whole .plain t → q.after .plain t = .plain →
    tokens (t ++ q.delim :: rest) = t :: tokens rest

variable {q : Quoting α}

/-! ## Modes

The tokenizer is plain, quoted or behind an escape. `after` is the mode behind a text, and a text is
`Whole` from a mode if the delimiter does not split it there. -/

@[simp] theorem after_nil (m : Mode) : q.after m [] = m := rfl

@[simp] theorem after_cons (m : Mode) (c : α) (text : List α) :
    q.after m (c :: text) = q.after (q.next m c) text := rfl

/-- The mode behind two texts is the one behind the second, started where the first has ended. -/
theorem after_append (m : Mode) (a b : List α) : q.after m (a ++ b) = q.after (q.after m a) b :=
  List.foldl_append ..

/-- A text is whole if its two parts are, the second one from the mode it starts in. -/
theorem whole_append {m : Mode} {a b : List α} :
    q.Whole m (a ++ b) ↔ q.Whole m a ∧ q.Whole (q.after m a) b := by
  induction a generalizing m with
  | nil => exact (true_and _).to_iff.symm
  | cons c a ih => simp only [List.cons_append, Quoting.Whole, ih, after_cons, and_assoc]

/-- A text without delimiters is whole in every mode: there is nothing to split it at. -/
theorem whole_of_not_mem {text : List α} (h : q.delim ∉ text) (m : Mode) : q.Whole m text := by
  induction text generalizing m with
  | nil => trivial
  | cons c text ih =>
    refine ⟨fun hc => h (by simp [hc.2]), ih (fun hmem => h (List.mem_cons_of_mem _ hmem)) _⟩

/-- A text without quotes leaves the plain mode as it is; the escape means nothing there. -/
theorem after_plain {text : List α} (h : q.quote ∉ text) : q.after .plain text = .plain := by
  induction text with
  | nil => rfl
  | cons c text ih =>
    have hc : c ≠ q.quote := fun heq => h (by simp [heq])
    rw [after_cons, Quoting.next, if_neg hc]
    exact ih fun hmem => h (List.mem_cons_of_mem _ hmem)

/-- A text without quotes is quoted where it starts so: only a quote ends the quoted part. -/
theorem after_ne_plain {m : Mode} (hm : m ≠ .plain) {text : List α} (h : q.quote ∉ text) :
    q.after m text ≠ .plain := by
  induction text generalizing m with
  | nil => exact hm
  | cons c text ih =>
    have hc : c ≠ q.quote := fun heq => h (by simp [heq])
    refine ih (m := q.next m c) ?_ fun hmem => h (List.mem_cons_of_mem _ hmem)
    cases m with
    | plain => exact absurd rfl hm
    | quoted =>
      rw [Quoting.next, if_neg hc]
      split <;> nofun
    | escaped => nofun

/-- In a quoted part a text without quotes is whole, delimiters and all. -/
theorem whole_of_no_quote {m : Mode} (hm : m ≠ .plain) {text : List α} (h : q.quote ∉ text) :
    q.Whole m text := by
  induction text generalizing m with
  | nil => trivial
  | cons c text ih =>
    have hc : q.quote ∉ [c] := by
      intro hmem
      exact h (List.mem_cons.mpr (.inl (List.mem_singleton.mp hmem)))
    exact ⟨fun hp => hm hp.1,
      ih (after_ne_plain hm hc) fun hmem => h (List.mem_cons_of_mem _ hmem)⟩

/-! ## Escapes at the end

Whether a quote behind a text closes it depends on the escapes that the text ends in: they take each
other their meaning in pairs. -/

/-- The number of escapes that a text ends in. -/
def Quoting.trailing (q : Quoting α) (text : List α) : Nat :=
  (text.reverse.takeWhile fun c => decide (c = q.escape)).length

theorem trailing_append_singleton (text : List α) (c : α) :
    q.trailing (text ++ [c]) = if c = q.escape then q.trailing text + 1 else 0 := by
  unfold Quoting.trailing
  rw [List.reverse_append, List.reverse_singleton, List.singleton_append, List.takeWhile_cons]
  by_cases hc : c = q.escape <;> simp [hc]

/-- Escapes are counted from the last symbol that is none, whatever was before it. -/
theorem trailing_append_cons (text : List α) {c : α} (hc : c ≠ q.escape) (rest : List α) :
    q.trailing (text ++ c :: rest) = q.trailing rest := by
  induction rest using List.reverseRecOn with
  | nil =>
    rw [trailing_append_singleton, if_neg hc]
    rfl
  | append_singleton rest d ih =>
    rw [← List.cons_append, ← List.append_assoc, trailing_append_singleton,
      trailing_append_singleton, ih]

/-- The mode in a quoted text without quotes: behind an escape if the text ends in an odd number of
them. -/
theorem after_quoted {text : List α} (h : q.quote ∉ text) :
    q.after .quoted text = if q.trailing text % 2 = 1 then .escaped else .quoted := by
  induction text using List.reverseRecOn with
  | nil => rfl
  | append_singleton text c ih =>
    rw [List.mem_append, not_or] at h
    have hc : c ≠ q.quote := fun heq => h.2 (by simp [heq])
    rw [after_append, ih h.1, trailing_append_singleton, after_cons, after_nil]
    by_cases he : c = q.escape
    · rcases Nat.mod_two_eq_zero_or_one (q.trailing text) with hodd | hodd
      · simp [hodd, he, Quoting.next, Nat.add_mod]
      · simp [hodd, he, Quoting.next, Nat.add_mod]
    · split <;> simp [Quoting.next, he, hc]

/-- **Closing.** A quoted text is closed by its quote exactly if it does not end in an odd number of
escapes. -/
theorem after_quote_iff {text : List α} (h : q.quote ∉ text) :
    q.after .plain (q.quote :: (text ++ [q.quote])) = .plain ↔ q.trailing text % 2 = 0 := by
  rw [after_cons, Quoting.next, if_pos rfl, after_append, after_quoted h]
  rcases Nat.mod_two_eq_zero_or_one (q.trailing text) with hodd | hodd
  · simp [hodd, Quoting.next, Ne.symm q.escape_ne]
  · simp [hodd, Quoting.next]

theorem whole_quote {text : List α} (h : q.quote ∉ text) (hd : q.delim ≠ q.quote) :
    q.Whole .plain (q.quote :: (text ++ [q.quote])) := by
  refine ⟨fun hp => hd hp.2.symm, ?_⟩
  rw [Quoting.next, if_pos rfl]
  refine whole_append.mpr ⟨whole_of_no_quote (m := .quoted) nofun h, ?_⟩
  exact ⟨fun hp => hd hp.2.symm, trivial⟩

/-! ## Tokens

What a tokenizer does is said by its laws, so these results hold of any function that splits so. -/

variable (T : Tokenizer q)

/-- The rest of a token in some mode: up to the end of the text, or up to a delimiter that is met in
the plain mode. -/
theorem exists_whole (m : Mode) (text : List α) :
    ∃ u rest, text = u ++ rest ∧ q.Whole m u ∧
      (rest = [] ∨ ∃ r, rest = q.delim :: r ∧ q.after m u = .plain) := by
  induction text generalizing m with
  | nil => exact ⟨[], [], rfl, trivial, .inl rfl⟩
  | cons c text ih =>
    by_cases hc : m = .plain ∧ c = q.delim
    · refine ⟨[], c :: text, rfl, trivial, .inr ⟨text, ?_, hc.1⟩⟩
      rw [hc.2]
    · obtain ⟨u, rest, hsplit, hw, hend⟩ := ih (q.next m c)
      exact ⟨c :: u, rest, by rw [hsplit, List.cons_append], ⟨hc, hw⟩, hend⟩

/-- **A token whose quote is open goes on after the delimiter**, which is why a text that does not
close its quote takes what comes after it along. -/
theorem tokens_extends {t : List α} (hne : t ≠ []) (hw : q.Whole .plain t)
    (hopen : q.after .plain t ≠ .plain) (rest : List α) :
    ∃ more ts, T.tokens (t ++ q.delim :: rest) = (t ++ q.delim :: more) :: ts := by
  obtain ⟨u, rest', hsplit, hu, hend⟩ :=
    exists_whole (q := q) (q.next (q.after .plain t) q.delim) rest
  have hwhole : q.Whole .plain (t ++ q.delim :: u) :=
    whole_append.mpr ⟨hw, fun hp => hopen hp.1, hu⟩
  have hne' : t ++ q.delim :: u ≠ [] := List.append_ne_nil_of_left_ne_nil hne _
  rcases hend with rfl | ⟨r, rfl, hplain⟩
  · refine ⟨u, [], ?_⟩
    rw [hsplit, List.append_nil]
    exact T.last _ hne' hwhole
  · refine ⟨u, T.tokens r, ?_⟩
    have hassoc : t ++ q.delim :: (u ++ q.delim :: r) = (t ++ q.delim :: u) ++ q.delim :: r := by
      rw [List.append_assoc, List.cons_append]
    rw [hsplit, hassoc]
    refine T.split _ r hne' hwhole ?_
    rw [after_append, after_cons]
    exact hplain

/-! ## A tokenizer -/

/-- The tokens of a text behind the symbols `token` of an unfinished one. -/
def scan (q : Quoting α) : Mode → List α → List α → List (List α)
  | _, token, [] => if token = [] then [] else [token]
  | m, token, c :: text =>
    if m = .plain ∧ c = q.delim then
      if token = [] then scan q .plain [] text else token :: scan q .plain [] text
    else scan q (q.next m c) (token ++ [c]) text

/-- The scanner takes a whole text into its token and goes on in the mode behind it. -/
theorem scan_whole {m : Mode} {t : List α} (h : q.Whole m t) (token rest : List α) :
    scan q m token (t ++ rest) = scan q (q.after m t) (token ++ t) rest := by
  induction t generalizing m token with
  | nil => rw [List.nil_append, after_nil, List.append_nil]
  | cons c t ih =>
    rw [List.cons_append, scan, if_neg h.1, ih h.2, after_cons, List.append_assoc,
      List.singleton_append]

/-- The tokenizer that reads the text once. -/
def Tokenizer.scanning (q : Quoting α) : Tokenizer q where
  tokens := scan q .plain []
  nil := rfl
  delimiter rest := by rw [scan, if_pos ⟨rfl, rfl⟩, if_pos rfl]
  last t hne hw := by
    have h := scan_whole hw [] []
    rw [List.append_nil, List.nil_append] at h
    rw [h, scan, if_neg hne]
  split t rest hne hw hclosed := by
    rw [scan_whole hw, hclosed, List.nil_append, scan, if_pos ⟨rfl, rfl⟩, if_neg hne]

end QuotedTokens
