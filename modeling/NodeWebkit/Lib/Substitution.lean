import Mathlib.Data.List.Basic

/-!
# Placeholders in a text

A template has placeholders that are to be replaced by values. They can be replaced all at once,
from left to right, or one after the other, where a later placeholder is also found in what the
earlier values have brought in, or joined.

* **`expand`** — the replacement of several placeholders at once;
* **`Tracked`** — symbols with their places in the template, by which one sees where a text that is
  replaced comes from;
* **`expand_expand`** — a placeholder replaced after others, as long as it is found in the template
  only;
* **`genuineSteps_iff`**, **`foldl_expand_eq`** — one after the other is the same as all at once
  where each placeholder is found in the template only.

The placeholders are `Separated`: each begins with a mark that stands nowhere else in them.

The proofs are about tracked symbols. Forgetting the places (`syms_expandTracked`) gives back the
texts, so what is replaced is the same; with the places it can be said that an occurrence comes from
the template, symbol next to symbol (`FromTemplate`), and this survives the replacement of the other
placeholders.
-/

namespace Substitution

variable {α : Type*} [DecidableEq α]

structure Rule (α : Type*) where
  placeholder : List α
  value : List α

/-- The first rule whose placeholder stands at the beginning of the text. -/
def match? (rules : List (Rule α)) (text : List α) : Option (Rule α) :=
  rules.find? fun r => r.placeholder.isPrefixOf text

/-- All placeholders are replaced, from left to right; `skip` is the number of symbols of an
occurrence that are still to be passed over. -/
def expand (rules : List (Rule α)) (skip : Nat) : List α → List α
  | [] => []
  | c :: text =>
    match skip with
    | skip + 1 => expand rules skip text
    | 0 =>
      match match? rules (c :: text) with
      | some r => r.value ++ expand rules (r.placeholder.length - 1) text
      | none => c :: expand rules 0 text

/-! ## Where symbols come from -/

/-- A symbol with its place in the template; those of values have none. -/
structure Tracked (α : Type*) where
  sym : α
  origin : Option Nat

def syms (text : List (Tracked α)) : List α := text.map Tracked.sym

def origins (text : List (Tracked α)) : List (Option Nat) := text.map Tracked.origin

/-- A text of the template from place `i` on. -/
def track (i : Nat) : List α → List (Tracked α)
  | [] => []
  | c :: text => ⟨c, some i⟩ :: track (i + 1) text

/-- The value of a rule, which is not in the template. -/
def Rule.tracked (r : Rule α) : List (Tracked α) := r.value.map fun c => ⟨c, none⟩

/-- `expand`, with the places of the symbols. -/
def expandTracked (rules : List (Rule α)) (skip : Nat) : List (Tracked α) → List (Tracked α)
  | [] => []
  | c :: text =>
    match skip with
    | skip + 1 => expandTracked rules skip text
    | 0 =>
      match match? rules (syms (c :: text)) with
      | some r => r.tracked ++ expandTracked rules (r.placeholder.length - 1) text
      | none => c :: expandTracked rules 0 text

/-- The texts that are replaced. -/
def replaced (rules : List (Rule α)) (skip : Nat) : List (Tracked α) → List (List (Tracked α))
  | [] => []
  | c :: text =>
    match skip with
    | skip + 1 => replaced rules skip text
    | 0 =>
      match match? rules (syms (c :: text)) with
      | some r =>
        (c :: text).take r.placeholder.length :: replaced rules (r.placeholder.length - 1) text
      | none => replaced rules 0 text

/-- The symbols stand next to each other in the template. -/
def FromTemplate (text : List (Tracked α)) : Prop :=
  ∃ i, origins text = (List.range' i text.length).map some

/-- What is replaced stands in the template. -/
def Genuine (rules : List (Rule α)) (skip : Nat) (text : List (Tracked α)) : Prop :=
  ∀ occurrence ∈ replaced rules skip text, FromTemplate occurrence

/-! ## One symbol

The replacement goes from left to right. At each symbol a placeholder begins there, or the symbol
stays; after a placeholder its other symbols are skipped. -/

section Step

variable {rules : List (Rule α)} {r : Rule α}

/-- A placeholder begins here: its value is put in, and its other symbols are skipped. -/
theorem expand_some {c : α} {text : List α} (h : match? rules (c :: text) = some r) :
    expand rules 0 (c :: text) = r.value ++ expand rules (r.placeholder.length - 1) text := by
  simp only [expand, h]

theorem expand_none {c : α} {text : List α} (h : match? rules (c :: text) = none) :
    expand rules 0 (c :: text) = c :: expand rules 0 text := by
  simp only [expand, h]

variable {c : Tracked α} {text : List (Tracked α)}

theorem expandTracked_some (h : match? rules (c.sym :: syms text) = some r) :
    expandTracked rules 0 (c :: text) =
      r.tracked ++ expandTracked rules (r.placeholder.length - 1) text := by
  have hsyms : match? rules (syms (c :: text)) = some r := h
  simp only [expandTracked, hsyms]

theorem expandTracked_none (h : match? rules (c.sym :: syms text) = none) :
    expandTracked rules 0 (c :: text) = c :: expandTracked rules 0 text := by
  have hsyms : match? rules (syms (c :: text)) = none := h
  simp only [expandTracked, hsyms]

/-- What is replaced is genuine if the occurrence comes from the template and the rest is genuine.
-/
theorem genuine_some (h : match? rules (c.sym :: syms text) = some r) :
    Genuine rules 0 (c :: text) ↔
      FromTemplate ((c :: text).take r.placeholder.length) ∧
        Genuine rules (r.placeholder.length - 1) text := by
  have hsyms : match? rules (syms (c :: text)) = some r := h
  simp only [Genuine, replaced, hsyms, List.forall_mem_cons]

theorem genuine_none (h : match? rules (c.sym :: syms text) = none) :
    Genuine rules 0 (c :: text) ↔ Genuine rules 0 text := by
  have hsyms : match? rules (syms (c :: text)) = none := h
  simp only [Genuine, replaced, hsyms]

end Step

omit [DecidableEq α] in
@[simp] theorem syms_track (i : Nat) (text : List α) : syms (track i text) = text := by
  induction text generalizing i with
  | nil => rfl
  | cons c text ih => exact congrArg (c :: ·) (ih (i + 1))

omit [DecidableEq α] in
theorem syms_tracked (r : Rule α) : syms r.tracked = r.value := by
  simp [syms, Rule.tracked, Function.comp_def]

omit [DecidableEq α] in
theorem origin_of_mem_tracked {r : Rule α} {c : Tracked α} (h : c ∈ r.tracked) :
    c.origin = none := by
  obtain ⟨_, _, rfl⟩ := List.mem_map.mp h
  rfl

/-- **Forgetting the places**: the replacement looks at the symbols only. -/
theorem syms_expandTracked (rules : List (Rule α)) (skip : Nat) (text : List (Tracked α)) :
    syms (expandTracked rules skip text) = expand rules skip (syms text) := by
  induction text generalizing skip with
  | nil => rfl
  | cons c text ih =>
    cases skip with
    | succ skip => exact ih skip
    | zero =>
      have hsyms : syms (c :: text) = c.sym :: syms text := rfl
      cases hm : match? rules (c.sym :: syms text) with
      | none =>
        rw [expandTracked_none hm, hsyms, expand_none hm, ← ih]
        rfl
      | some r =>
        rw [expandTracked_some hm, hsyms, expand_some hm, ← ih, ← syms_tracked]
        exact List.map_append

/-- Symbols that stay do not move to the left: behind a place only later ones are met. -/
theorem le_origin {rules : List (Rule α)} {skip i : Nat} {text : List α} {c : Tracked α} {n : Nat}
    (hc : c ∈ expandTracked rules skip (track i text)) (hn : c.origin = some n) : i ≤ n := by
  induction text generalizing skip i with
  | nil => cases hc
  | cons a text ih =>
    cases skip with
    | succ skip => exact Nat.le_of_succ_le (ih (i := i + 1) hc)
    | zero =>
      cases hm : match? rules (a :: syms (track (i + 1) text)) with
      | some r =>
        rw [track, expandTracked_some hm] at hc
        rcases List.mem_append.mp hc with hvalue | hrest
        · -- a symbol of a value has no place
          rw [origin_of_mem_tracked hvalue] at hn
          cases hn
        · exact Nat.le_of_succ_le (ih hrest)
      | none =>
        rw [track, expandTracked_none hm] at hc
        rcases List.mem_cons.mp hc with rfl | hrest
        · cases hn
          exact Nat.le_refl _
        · exact Nat.le_of_succ_le (ih hrest)

/-! ## Separated placeholders

A mark begins every placeholder and stands nowhere else in one. Two occurrences therefore do not
overlap, and one that comes from the template is not cut by the replacement of another one. -/

/-- Each placeholder begins with the mark, and has no other one. -/
def Separated (mark : α) (rules : List (Rule α)) : Prop :=
  ∀ r ∈ rules, ∃ rest, r.placeholder = mark :: rest ∧ mark ∉ rest

variable {mark : α} {rules done : List (Rule α)} {r : Rule α}

theorem match?_of_ne (h : Separated mark rules) {c : α} (hc : c ≠ mark) (text : List α) :
    match? rules (c :: text) = none := by
  refine List.find?_eq_none.mpr fun r hr => ?_
  obtain ⟨rest, hrest, _⟩ := h r hr
  rw [hrest, List.isPrefixOf_cons_cons]
  simp [Ne.symm hc]

/-- Symbols that are no mark stay, as no placeholder begins at one of them. -/
theorem expandTracked_of_notMem (h : Separated mark rules) {a b : List α} (ha : mark ∉ a)
    (i : Nat) :
    ∃ text, syms (expandTracked rules 0 (track i (a ++ b))) = a ++ text := by
  induction a generalizing i with
  | nil => exact ⟨_, rfl⟩
  | cons c a ih =>
    have hc : c ≠ mark := fun heq => ha (by simp [heq])
    obtain ⟨text, htext⟩ := ih (fun hmem => ha (List.mem_cons_of_mem _ hmem)) (i + 1)
    refine ⟨text, ?_⟩
    rw [List.cons_append, track, expandTracked_none (match?_of_ne h hc _)]
    exact congrArg (c :: ·) htext

/-- What stands next to each other in the template, and still does, has not been touched. -/
theorem take_of_origins {n i : Nat} {text : List α}
    (h : origins ((expandTracked rules 0 (track i text)).take n) = (List.range' i n).map some) :
    syms ((expandTracked rules 0 (track i text)).take n) = text.take n := by
  induction n generalizing i text with
  | zero => rfl
  | succ n ih =>
    cases text with
    | nil => cases h
    | cons c text =>
      cases hm : match? rules (c :: syms (track (i + 1) text)) with
      | none =>
        rw [track, expandTracked_none hm] at h ⊢
        exact congrArg (c :: ·) (ih (List.cons.inj h).2)
      | some r =>
        -- the symbol at place `i` was replaced, so it is not the first one
        rw [track, expandTracked_some hm] at h
        exfalso
        cases hfirst : r.tracked ++
            expandTracked rules (r.placeholder.length - 1) (track (i + 1) text) with
        | nil =>
          rw [hfirst] at h
          cases h
        | cons v vs =>
          rw [hfirst] at h
          have hv : v.origin = some i := (List.cons.inj h).1
          have hmem : v ∈ r.tracked ++
              expandTracked rules (r.placeholder.length - 1) (track (i + 1) text) := by
            rw [hfirst]
            exact List.mem_cons_self ..
          rcases List.mem_append.mp hmem with hvalue | hrest
          · rw [origin_of_mem_tracked hvalue] at hv
            cases hv
          · exact absurd (le_origin hrest hv) (Nat.not_succ_le_self i)

/-! ## One placeholder after others

The placeholders `done` have been replaced, and `r` is next. It is found at the same places of the
template as it would have been before, and by assumption nowhere else. -/

theorem match?_append (rules rules' : List (Rule α)) (text : List α) :
    match? (rules ++ rules') text = (match? rules text).or (match? rules' text) :=
  List.find?_append ..

theorem match?_singleton {text : List α} :
    match? [r] text = if r.placeholder.isPrefixOf text then some r else none := by
  unfold match?
  rw [List.find?_cons]
  cases r.placeholder.isPrefixOf text <;> rfl

omit [DecidableEq α] in
/-- A text that begins with a symbol of a value is not one of the template. -/
theorem not_fromTemplate {c : Tracked α} (hc : c.origin = none) (text : List (Tracked α)) :
    ¬ FromTemplate (c :: text) := by
  rintro ⟨i, hi⟩
  have hfirst := (List.cons.inj hi).1
  rw [hc] at hfirst
  cases hfirst

/-- Nothing is replaced in a value: an occurrence that begins there would not come from the
template. -/
theorem expandTracked_values (hne : r.placeholder ≠ []) {values text : List (Tracked α)}
    (hvalues : ∀ c ∈ values, c.origin = none) (hg : Genuine [r] 0 (values ++ text)) :
    expandTracked [r] 0 (values ++ text) = values ++ expandTracked [r] 0 text ∧
      Genuine [r] 0 text := by
  induction values with
  | nil => exact ⟨rfl, hg⟩
  | cons c values ih =>
    have hc := hvalues c (List.mem_cons_self ..)
    rw [List.cons_append] at hg ⊢
    cases hm : match? [r] (c.sym :: syms (values ++ text)) with
    | some r' =>
      have hr : r' = r := List.mem_singleton.mp (List.mem_of_find?_eq_some hm)
      -- an occurrence here would begin with a symbol of the value
      obtain ⟨hfrom, _⟩ := (genuine_some hm).mp hg
      obtain ⟨n, hn⟩ := Nat.exists_eq_succ_of_ne_zero (hr ▸ mt List.eq_nil_of_length_eq_zero hne)
      rw [hn, List.take_succ_cons] at hfrom
      exact absurd hfrom (not_fromTemplate hc _)
    | none =>
      obtain ⟨heq, htail⟩ := ih (fun d hd => hvalues d (List.mem_cons_of_mem _ hd))
        ((genuine_none hm).mp hg)
      rw [expandTracked_none hm, heq, List.cons_append]
      exact ⟨rfl, htail⟩

/-- An occurrence that is found after the others were replaced stands in the template. -/
theorem isPrefixOf_of_fromTemplate {c : α} {i : Nat} {text : List α}
    (hp : r.placeholder.isPrefixOf (c :: syms (expandTracked done 0 (track (i + 1) text))) = true)
    (hfrom : FromTemplate
      ((⟨c, some i⟩ :: expandTracked done 0 (track (i + 1) text)).take r.placeholder.length)) :
    r.placeholder.isPrefixOf (c :: text) = true := by
  rw [List.isPrefixOf_iff_prefix] at hp ⊢
  cases hph : r.placeholder with
  | nil => exact List.nil_prefix
  | cons m rest =>
    rw [hph, List.cons_prefix_cons] at hp
    obtain ⟨rfl, hrest⟩ := hp
    rw [hph, List.length_cons, List.take_succ_cons] at hfrom
    obtain ⟨i', hi'⟩ := hfrom
    obtain ⟨hfirst, horigins⟩ := List.cons.inj hi'
    -- the occurrence has consecutive places, so it is the text of the template from here on
    have hlength : (List.take rest.length (expandTracked done 0 (track (i + 1) text))).length =
        rest.length := by
      have hle := hrest.length_le
      rw [syms, List.length_map] at hle
      rw [List.length_take, Nat.min_eq_left hle]
    rw [hlength] at horigins
    cases hfirst
    have htake := take_of_origins horigins
    rw [syms, List.map_take] at htake
    rw [List.cons_prefix_cons]
    refine ⟨rfl, ?_⟩
    rw [List.prefix_iff_eq_take] at hrest ⊢
    exact hrest.trans htake

/-- An occurrence in the template is still there after the others were replaced: its symbols behind
the mark are no marks, so nothing was replaced in it. -/
theorem isPrefixOf_expandTracked (h : Separated mark (done ++ [r])) {c : α} {i : Nat}
    {text : List α} (hp : r.placeholder.isPrefixOf (c :: text) = true) :
    r.placeholder.isPrefixOf (c :: syms (expandTracked done 0 (track (i + 1) text))) = true := by
  rw [List.isPrefixOf_iff_prefix] at hp ⊢
  obtain ⟨rest, hrest, hmark⟩ := h r (by simp)
  rw [hrest, List.cons_prefix_cons] at hp ⊢
  obtain ⟨hc, tail, rfl⟩ := hp
  have hdone : Separated mark done := fun r' hr' => h r' (List.mem_append_left _ hr')
  obtain ⟨text, htext⟩ := expandTracked_of_notMem hdone hmark (b := tail) (i + 1)
  exact ⟨hc, text, htext.symm⟩

/-- After the others were replaced, a placeholder that is found in the template only is found where
it was. -/
theorem match?_expandTracked (h : Separated mark (done ++ [r])) {c : α} {i : Nat} {text : List α}
    (hg : Genuine [r] 0 (⟨c, some i⟩ :: expandTracked done 0 (track (i + 1) text))) :
    match? [r] (c :: syms (expandTracked done 0 (track (i + 1) text))) =
      match? [r] (c :: text) := by
  rw [match?_singleton, match?_singleton]
  by_cases hp : r.placeholder.isPrefixOf (c :: text) = true
  · rw [if_pos hp, if_pos (isPrefixOf_expandTracked h hp)]
  · rw [if_neg hp]
    apply if_neg
    intro hp'
    have hsome : match? [r]
        (c :: syms (expandTracked done 0 (track (i + 1) text))) = some r := by
      rw [match?_singleton, if_pos hp']
    exact hp (isPrefixOf_of_fromTemplate hp' ((genuine_some hsome).mp hg).1)

/-- The rest of an occurrence has no mark, so no other placeholder begins inside it. -/
theorem mark_notMem_take (h : Separated mark [r]) {c : α} {text : List α}
    (hp : match? [r] (c :: text) = some r) :
    mark ∉ text.take (r.placeholder.length - 1) := by
  have hfound : r.placeholder.isPrefixOf (c :: text) = true :=
    List.find?_some (p := fun q : Rule α => q.placeholder.isPrefixOf (c :: text)) hp
  obtain ⟨rest, hrest, hmark⟩ := h r (List.mem_singleton_self r)
  rw [hrest] at hfound ⊢
  have hprefix := (List.cons_prefix_cons.mp (List.isPrefixOf_iff_prefix.mp hfound)).2
  rw [List.length_cons, Nat.add_sub_cancel, ← List.prefix_iff_eq_take.mp hprefix]
  exact hmark

/-- **One placeholder after others.** Where a placeholder is found in the template only, replacing
it after the others is replacing it with them. -/
theorem expand_expand (h : Separated mark (done ++ [r])) (text : List α) {i j k : Nat}
    (hjk : j = 0 ∨ k = 0) (hj : mark ∉ text.take j)
    (hg : Genuine [r] j (expandTracked done k (track i text))) :
    expandTracked [r] j (expandTracked done k (track i text)) =
      expandTracked (done ++ [r]) (j + k) (track i text) := by
  have hdone : Separated mark done := fun r' hr' => h r' (List.mem_append_left _ hr')
  have hone : Separated mark [r] := fun r' hr' => h r' (List.mem_append_right _ hr')
  induction text generalizing i j k with
  | nil => cases j <;> rfl
  | cons c text ih =>
    rcases Nat.eq_zero_or_pos j with rfl | hpos
    · cases k with
      -- inside an occurrence that was replaced already
      | succ k => exact ih (.inl rfl) (by simp) hg
      | zero =>
        have hsyms := syms_track (i + 1) text
        have happend : match? (done ++ [r]) (c :: syms (track (i + 1) text)) =
            (match? done (c :: text)).or (match? [r] (c :: text)) := by
          rw [hsyms, match?_append]
        cases hm : match? done (c :: text) with
        -- an occurrence for a rule that is done, in whose value the next rule finds nothing
        | some q =>
          have hm' : match? done (c :: syms (track (i + 1) text)) = some q := by rw [hsyms, hm]
          rw [hm, Option.some_or] at happend
          rw [track, expandTracked_some hm'] at hg ⊢
          obtain ⟨rest, hrest, _⟩ := hone r (List.mem_singleton_self r)
          obtain ⟨heq, htail⟩ := expandTracked_values (by rw [hrest]; simp)
            (fun c hc => origin_of_mem_tracked hc) hg
          rw [heq, expandTracked_some happend, ih (.inl rfl) (by simp) htail, Nat.zero_add]
        | none =>
          have hm' : match? done (c :: syms (track (i + 1) text)) = none := by rw [hsyms, hm]
          rw [hm, Option.none_or] at happend
          rw [track, expandTracked_none hm'] at hg ⊢
          -- no rule that is done matches here, so the next rule sees the template
          have hsame := match?_expandTracked h hg
          cases hp : match? [r] (c :: text) with
          | some r' =>
            obtain rfl : r' = r := List.mem_singleton.mp (List.mem_of_find?_eq_some hp)
            rw [hp] at happend hsame
            rw [expandTracked_some hsame, expandTracked_some happend,
              ih (.inr rfl) (mark_notMem_take hone hp) ((genuine_some hsame).mp hg).2,
              Nat.add_zero]
          | none =>
            rw [hp] at happend hsame
            rw [expandTracked_none hsame, expandTracked_none happend,
              ih (.inl rfl) (by simp) ((genuine_none hsame).mp hg)]
    · -- the rest of an occurrence
      obtain ⟨j, rfl⟩ := Nat.exists_eq_succ_of_ne_zero (Nat.pos_iff_ne_zero.mp hpos)
      obtain rfl : k = 0 := hjk.resolve_left (Nat.succ_ne_zero j)
      rw [List.take_succ_cons, List.mem_cons, not_or] at hj
      have hm : match? done (c :: syms (track (i + 1) text)) = none :=
        match?_of_ne hdone (Ne.symm hj.1) _
      rw [track, expandTracked_none hm] at hg ⊢
      exact ih (.inr rfl) hj.2 hg

/-! ## All placeholders -/

/-- What is replaced by the rules in turn stands in the template. -/
def GenuineSteps : List (Rule α) → List (Tracked α) → Prop
  | [], _ => True
  | r :: rules, text => Genuine [r] 0 text ∧ GenuineSteps rules (expandTracked [r] 0 text)

/-- In the template with the values of the rules before it, each placeholder is found in the
template only. -/
def Undisturbed (rules : List (Rule α)) (template : List α) : Prop :=
  ∀ done r rest, rules = done ++ r :: rest →
    Genuine [r] 0 (expandTracked done 0 (track 0 template))

theorem expandTracked_nil (text : List (Tracked α)) : expandTracked [] 0 text = text := by
  induction text with
  | nil => rfl
  | cons c text ih => exact congrArg (c :: ·) ih

theorem syms_foldl_expandTracked (rules : List (Rule α)) (text : List (Tracked α)) :
    syms (rules.foldl (fun text r => expandTracked [r] 0 text) text) =
      rules.foldl (fun text r => expand [r] 0 text) (syms text) := by
  induction rules generalizing text with
  | nil => rfl
  | cons r rules ih => rw [List.foldl_cons, List.foldl_cons, ih, syms_expandTracked]

/-- The rules from one of them on, where those before are replaced at once. Induction on the rules:
each one that is replaced moves to the ones that are done. -/
theorem genuineSteps_expandTracked_iff (template : List α)
    (h : Separated mark (done ++ rules)) :
    GenuineSteps rules (expandTracked done 0 (track 0 template)) ↔
      ∀ done' r rest, rules = done' ++ r :: rest →
        Genuine [r] 0 (expandTracked (done ++ done') 0 (track 0 template)) := by
  -- induction on the rules that are left
  induction rules generalizing done with
  | nil =>
    constructor
    · intro _ done' r rest hsplit
      simp at hsplit
    · exact fun _ => trivial
  | cons r rules ih =>
    have hassoc : done ++ r :: rules = (done ++ [r]) ++ rules := by simp
    have hone : Separated mark (done ++ [r]) := fun r' hr' =>
      h r' (hassoc ▸ List.mem_append_left _ hr')
    constructor
    · rintro ⟨hr, hrules⟩ done' r' rest hsplit
      cases done' with
      | nil =>
        obtain ⟨rfl, _⟩ := List.cons.inj hsplit
        rw [List.append_nil]
        exact hr
      | cons s done' =>
        obtain ⟨rfl, hrest⟩ := List.cons.inj hsplit
        rw [expand_expand hone template (.inl rfl) (by simp) hr] at hrules
        have hnext := (ih (hassoc ▸ h)).mp hrules done' r' rest hrest
        rw [List.append_assoc] at hnext
        exact hnext
    · intro hall
      have hr : Genuine [r] 0 (expandTracked done 0 (track 0 template)) := by
        have hnil := hall [] r rules rfl
        rw [List.append_nil] at hnil
        exact hnil
      refine ⟨hr, ?_⟩
      rw [expand_expand hone template (.inl rfl) (by simp) hr]
      refine (ih (hassoc ▸ h)).mpr fun done' r' rest hsplit => ?_
      have hnext := hall (r :: done') r' rest (congrArg (r :: ·) hsplit)
      rw [List.append_assoc]
      exact hnext

/-- **Placeholders in turn** are found in the template only if and only if that is so where the ones
before them are replaced all at once. -/
theorem genuineSteps_iff (template : List α) (h : Separated mark rules) :
    GenuineSteps rules (track 0 template) ↔ Undisturbed rules template := by
  have hnil : Separated mark ([] ++ rules) := h
  have hiff := genuineSteps_expandTracked_iff template hnil
  rw [expandTracked_nil] at hiff
  exact hiff

/-- **One after the other is all at once**, from any rule on, where each step is genuine. -/
theorem foldl_expandTracked_eq (template : List α) (h : Separated mark (done ++ rules))
    (hg : GenuineSteps rules (expandTracked done 0 (track 0 template))) :
    rules.foldl (fun text r => expandTracked [r] 0 text)
        (expandTracked done 0 (track 0 template)) =
      expandTracked (done ++ rules) 0 (track 0 template) := by
  induction rules generalizing done with
  | nil => rw [List.append_nil, List.foldl_nil]
  | cons r rules ih =>
    have hassoc : done ++ r :: rules = (done ++ [r]) ++ rules := by simp
    have hone : Separated mark (done ++ [r]) := fun r' hr' =>
      h r' (hassoc ▸ List.mem_append_left _ hr')
    obtain ⟨hr, hrules⟩ := hg
    have hstep := expand_expand hone template (.inl rfl) (by simp) hr
    rw [hstep] at hrules
    rw [List.foldl_cons, hstep, ih (hassoc ▸ h) hrules, ← hassoc]

/-- **In turn is all at once** where each placeholder is found in the template only. -/
theorem foldl_expand_eq (template : List α) (h : Separated mark rules)
    (hg : GenuineSteps rules (track 0 template)) :
    rules.foldl (fun text r => expand [r] 0 text) template = expand rules 0 template := by
  have hnil : Separated mark ([] ++ rules) := h
  have heq := foldl_expandTracked_eq template hnil (by rw [expandTracked_nil]; exact hg)
  rw [expandTracked_nil, List.nil_append] at heq
  have hsyms := congrArg syms heq
  rw [syms_foldl_expandTracked, syms_expandTracked, syms_track] at hsyms
  exact hsyms

end Substitution
