import Mathlib.Data.List.TakeWhile
import NodeWebkit.Lib.QuotedTokens

/-!
# chromium-args

The switches of a manifest stand in one string. `ReadChromiumArgs` splits it with a
`base::StringTokenizer`, which has single quotes as its quotes, takes the quotes away, and appends
what is a switch to the `base::CommandLine` of the process.

Neither of the two is part of the repository. The tokenizer is any one that keeps to the rules of
`QuotedTokens`, and the command line any one that strips the prefix off a switch; on Windows it also
keeps the names in lower case.

* **`Switch.token`** — a switch as it is written in the manifest;
* **`readToken_token`** — it is read as it is written;
* **`readToken_extends_ne`** — where it goes on after the space behind it, it is not;
* **`readChromiumArgs_render_iff`** — the round trip.

## Where the round trip fails

A backslash in front of a quote keeps the quote from closing. A value may end in backslashes, and
behind it stands the quote that closes it: with an odd number of them the tokenizer goes on through
the space into the next switch (`Switch.after_token_iff`). The last switch of the string has nothing
behind it, so it is read in any case.
-/

namespace NodeWebkit.ChromiumArgs

open QuotedTokens

/-- `kChromiumArgsSeparator`, and `set_quote_chars`. In a quoted part the tokenizer skips the symbol
behind a backslash. -/
def quoting : Quoting Char where
  delim := ' '
  quote := '\''
  escape := '\\'
  escape_ne := by decide

inductive Platform where
  | win
  | posix
  deriving DecidableEq

/-- `kSwitchPrefixes`. -/
def Platform.switchPrefixes : Platform → List (List Char)
  | .win => ["--".toList, "-".toList, "/".toList]
  | .posix => ["--".toList, "-".toList]

def getSwitchPrefixLength (p : Platform) (string : List Char) : Nat :=
  match p.switchPrefixes.find? fun switchPrefix => switchPrefix.isPrefixOf string with
  | some switchPrefix => switchPrefix.length
  | none => 0

/-- `IsSwitch`: the switch with its prefix, and what is behind the first `=`. -/
def isSwitch (p : Platform) (string : List Char) : Option (List Char × List Char) :=
  let prefixLength := getSwitchPrefixLength p string
  if prefixLength = 0 ∨ prefixLength = string.length then none
  else
    some (string.takeWhile fun c => decide (c ≠ '='),
      (string.dropWhile fun c => decide (c ≠ '=')).tail)

/-- `base::CommandLine`, which is not part of the repository. -/
structure CommandLine (p : Platform) where
  /-- The name under which a switch is kept: the one it has, in lower case on Windows. -/
  keptName : List Char → List Char
  /-- What is kept of a switch and its value. -/
  appendSwitchASCII : List Char → List Char → List Char × List Char
  /-- The prefix of the switch is stripped off. -/
  strips : ∀ key value, appendSwitchASCII key value =
    (keptName (key.drop (getSwitchPrefixLength p key)), value)

/-- A command line that does what the assumption says and no more. -/
def CommandLine.stripping (p : Platform) : CommandLine p where
  keptName name :=
    match p with
    | .win => name.map Char.toLower
    | .posix => name
  appendSwitchASCII key value :=
    (match p with
      | .win => (key.drop (getSwitchPrefixLength p key)).map Char.toLower
      | .posix => key.drop (getSwitchPrefixLength p key), value)
  strips := by
    intro key value
    cases p <;> rfl

/-- `RemoveChars(token, "'", &token)`. -/
def removeQuotes (token : List Char) : List Char := token.filter fun c => decide (c ≠ '\'')

/-- What is appended for a token. -/
def readToken {p : Platform} (commandLine : CommandLine p) (token : List Char) :
    Option (List Char × List Char) :=
  (isSwitch p (removeQuotes token)).map fun read => commandLine.appendSwitchASCII read.1 read.2

def isASCII (c : Char) : Bool := c.toNat < 128

/-- `ReadChromiumArgs`: the switches that are appended to the command line, for the string in the
manifest, if there is one. -/
def readChromiumArgs (T : Tokenizer quoting) {p : Platform} (commandLine : CommandLine p)
    (chromiumArgs : Option (List Char)) : List (List Char × List Char) :=
  match chromiumArgs with
  | none => []
  | some args => if args.all isASCII then (T.tokens args).filterMap (readToken commandLine) else []

/-! ## Switches as they are written -/

/-- `--name`, `--name='value'` and `'--name=value'`. -/
inductive Style where
  | bare
  | quotedValue
  | quotedSwitch
  deriving DecidableEq

/-- A switch that can be written; without a value it can be written bare. -/
structure Switch where
  name : List Char
  value : List Char
  style : Style
  name_ne : name ≠ []
  name_ok : ∀ c ∈ name, isASCII c = true ∧ c ≠ '=' ∧ c ≠ ' ' ∧ c ≠ '\''
  name_dash : name.head? ≠ some '-'
  value_ok : ∀ c ∈ value, isASCII c = true ∧ c ≠ '\''
  bare_value : style = .bare → value = []

namespace Switch

def flag (s : Switch) : List Char := '-' :: '-' :: s.name

def token (s : Switch) : List Char :=
  match s.style with
  | .bare => s.flag
  | .quotedValue => s.flag ++ '=' :: '\'' :: (s.value ++ ['\''])
  | .quotedSwitch => '\'' :: (s.flag ++ '=' :: s.value ++ ['\''])

/-- The token without its quotes. -/
def text (s : Switch) : List Char :=
  match s.style with
  | .bare => s.flag
  | _ => s.flag ++ '=' :: s.value

/-- What has to be appended: the value, under the name that the command line keeps. -/
def appended {p : Platform} (commandLine : CommandLine p) (s : Switch) : List Char × List Char :=
  (commandLine.keptName s.name, s.value)

end Switch

/-- The string of a list of switches. -/
def render (switches : List Switch) : List Char := [' '].intercalate (switches.map Switch.token)

/-! ## One token -/

variable (p : Platform)

theorem getSwitchPrefixLength_dashes (rest : List Char) :
    getSwitchPrefixLength p ('-' :: '-' :: rest) = 2 := by
  cases p <;> rfl

/-- What holds of a dash and of the symbols of the name holds of those of the flag. -/
theorem Switch.forall_mem_flag (s : Switch) {P : Char → Prop} (hdash : P '-')
    (hname : ∀ c ∈ s.name, P c) : ∀ c ∈ s.flag, P c := by
  unfold Switch.flag
  rw [List.forall_mem_cons, List.forall_mem_cons]
  exact ⟨hdash, hdash, hname⟩

theorem Switch.quote_notMem_flag (s : Switch) : '\'' ∉ s.flag := by
  have hne : ∀ c ∈ s.flag, c ≠ '\'' :=
    s.forall_mem_flag (by decide) fun c hc => (s.name_ok c hc).2.2.2
  exact fun hmem => hne _ hmem rfl

theorem Switch.quote_notMem_value (s : Switch) : '\'' ∉ s.value := fun hmem =>
  (s.value_ok _ hmem).2 rfl

/-- The text between the quotes of a quoted switch, which has none of its own. -/
theorem Switch.quote_notMem_quoted (s : Switch) : '\'' ∉ s.flag ++ '=' :: s.value := by
  intro hmem
  rcases List.mem_append.mp hmem with h | h
  · exact s.quote_notMem_flag h
  · rcases List.mem_cons.mp h with h | h
    · exact absurd h (by decide)
    · exact s.quote_notMem_value h

/-- The flag is what stands before the first `=`, since it has none itself. -/
theorem Switch.eq_notMem_flag (s : Switch) : ∀ c ∈ s.flag, decide (c ≠ '=') = true :=
  s.forall_mem_flag (by decide) fun c hc => decide_eq_true (s.name_ok c hc).2.1

theorem removeQuotes_of_notMem {text : List Char} (h : '\'' ∉ text) : removeQuotes text = text :=
  List.filter_eq_self.mpr fun _ hc => decide_eq_true fun heq => h (heq ▸ hc)

theorem removeQuotes_append (a b : List Char) :
    removeQuotes (a ++ b) = removeQuotes a ++ removeQuotes b :=
  List.filter_append ..

theorem removeQuotes_quote (text : List Char) :
    removeQuotes ('\'' :: text) = removeQuotes text := by
  rw [removeQuotes, List.filter_cons, if_neg (by decide)]
  rfl

theorem removeQuotes_cons {c : Char} (hc : c ≠ '\'') (text : List Char) :
    removeQuotes (c :: text) = c :: removeQuotes text := by
  rw [removeQuotes, List.filter_cons, if_pos (decide_eq_true hc)]
  rfl

/-- **Without its quotes a token is its text**, however it was quoted: the value, the whole switch,
or nothing. -/
theorem Switch.removeQuotes_token (s : Switch) : removeQuotes s.token = s.text := by
  have hflag := removeQuotes_of_notMem s.quote_notMem_flag
  have hvalue := removeQuotes_of_notMem s.quote_notMem_value
  have hquoted := removeQuotes_of_notMem s.quote_notMem_quoted
  have hend : removeQuotes ['\''] = [] := rfl
  unfold Switch.token Switch.text
  cases s.style with
  | bare => exact hflag
  | quotedValue =>
    rw [removeQuotes_append, removeQuotes_cons (by decide), removeQuotes_quote,
      removeQuotes_append, hflag, hvalue, hend, List.append_nil]
  | quotedSwitch =>
    rw [removeQuotes_quote, removeQuotes_append, hquoted, hend, List.append_nil]

/-- A text that begins with a flag and an `=` is split there, whatever the value has in it. -/
theorem isSwitch_flag_eq (s : Switch) (value : List Char) :
    isSwitch p (s.flag ++ '=' :: value) = some (s.flag, value) := by
  unfold isSwitch
  have hlength : getSwitchPrefixLength p (s.flag ++ '=' :: value) = 2 :=
    getSwitchPrefixLength_dashes p _
  simp only [hlength]
  rw [if_neg (by simp [Switch.flag]), List.takeWhile_append_of_pos s.eq_notMem_flag,
    List.dropWhile_append_of_pos s.eq_notMem_flag]
  simp

/-- A flag alone is a switch without a value. -/
theorem isSwitch_flag (s : Switch) : isSwitch p s.flag = some (s.flag, []) := by
  unfold isSwitch
  have hlength : getSwitchPrefixLength p s.flag = 2 := getSwitchPrefixLength_dashes p _
  have hname : 0 < s.name.length := List.length_pos_iff.mpr s.name_ne
  have hflag : s.flag.length = s.name.length + 2 := rfl
  simp only [hlength]
  rw [if_neg (by omega)]
  rw [List.takeWhile_eq_self_iff.mpr s.eq_notMem_flag,
    List.dropWhile_eq_nil_iff.mpr s.eq_notMem_flag]
  rfl

variable {p} (commandLine : CommandLine p)

/-- The command line keeps the name of the switch without its dashes, and the value as it is. -/
theorem appendSwitchASCII_flag (s : Switch) (value : List Char) :
    commandLine.appendSwitchASCII s.flag value = (commandLine.keptName s.name, value) := by
  rw [commandLine.strips, Switch.flag, getSwitchPrefixLength_dashes]
  rfl

/-- **A token is read as it is written.** Its quotes are taken away, what is left is split at the
first `=`, and the two parts are the flag and the value of the switch. -/
theorem readToken_token (s : Switch) :
    readToken commandLine s.token = some (s.appended commandLine) := by
  unfold readToken
  rw [s.removeQuotes_token]
  unfold Switch.text Switch.appended
  split
  · rename_i hstyle
    rw [isSwitch_flag, Option.map_some, appendSwitchASCII_flag, s.bare_value hstyle]
  · rw [isSwitch_flag_eq, Option.map_some, appendSwitchASCII_flag]

/-- A token that goes on after the space behind it is not, unless it is bare. -/
theorem readToken_extends_ne (s : Switch) (hbare : s.style ≠ .bare) (more : List Char) :
    ∃ read, readToken commandLine (s.token ++ ' ' :: more) = some read ∧
      read ≠ s.appended commandLine := by
  have htext : removeQuotes (s.token ++ ' ' :: more) =
      s.flag ++ '=' :: (s.value ++ ' ' :: removeQuotes more) := by
    rw [removeQuotes_append, removeQuotes_cons (by decide), s.removeQuotes_token]
    unfold Switch.text
    split
    · rename_i hstyle
      exact absurd hstyle hbare
    · rw [List.append_assoc, List.cons_append]
  refine ⟨(commandLine.keptName s.name, s.value ++ ' ' :: removeQuotes more), ?_, ?_⟩
  · unfold readToken
    rw [htext, isSwitch_flag_eq, Option.map_some, appendSwitchASCII_flag]
  · intro heq
    have hlength := congrArg (fun read => read.2.length) heq
    simp [Switch.appended] at hlength

/-! ## The quotes of a token -/

theorem Switch.token_ne_nil (s : Switch) : s.token ≠ [] := by
  unfold Switch.token Switch.flag
  split <;> simp

/-- There is no space in a flag, so the tokenizer does not stop in it. -/
theorem Switch.whole_flag (s : Switch) : quoting.Whole .plain s.flag := by
  have hne : ∀ c ∈ s.flag, c ≠ ' ' :=
    s.forall_mem_flag (by decide) fun c hc => (s.name_ok c hc).2.2.1
  apply whole_of_not_mem
  exact fun hmem => hne _ hmem rfl

theorem Switch.after_flag (s : Switch) : quoting.after .plain s.flag = .plain :=
  after_plain s.quote_notMem_flag

/-- **The tokenizer does not stop within a token.** The spaces of a value are between quotes, where
they do not end a token. -/
theorem Switch.whole_token (s : Switch) : quoting.Whole .plain s.token := by
  unfold Switch.token
  split
  · exact s.whole_flag
  · refine whole_append.mpr ⟨s.whole_flag, ?_⟩
    rw [s.after_flag]
    exact ⟨by decide, whole_quote s.quote_notMem_value (by decide)⟩
  · exact whole_quote s.quote_notMem_quoted (by decide)

/-- The quotes of a token are closed exactly if its value does not end in an odd number of
backslashes. -/
theorem Switch.after_token_iff (s : Switch) :
    quoting.after .plain s.token = .plain ↔ quoting.trailing s.value % 2 = 0 := by
  unfold Switch.token
  split
  · rename_i hstyle
    rw [s.after_flag, s.bare_value hstyle]
    exact ⟨fun _ => rfl, fun _ => rfl⟩
  · rw [after_append, s.after_flag]
    exact after_quote_iff (q := quoting) s.quote_notMem_value
  · have h := after_quote_iff (q := quoting) s.quote_notMem_quoted
    rw [trailing_append_cons _ (by decide)] at h
    exact h

/-! ## All tokens -/

theorem render_singleton (s : Switch) : render [s] = s.token := by
  rw [render, List.map_singleton, List.intercalate_singleton]

theorem render_cons_cons (s s' : Switch) (rest : List Switch) :
    render (s :: s' :: rest) = s.token ++ ' ' :: render (s' :: rest) := by
  rw [render, List.map_cons, List.map_cons, List.intercalate_cons_cons]
  simp [render]

variable (T : Tokenizer quoting)

/-- The tokens of a list are read as they are written exactly if all quotes are closed, those of the
last token apart. -/
theorem filterMap_tokens_render_iff (switches : List Switch) :
    (T.tokens (render switches)).filterMap (readToken commandLine) =
        switches.map (Switch.appended commandLine) ↔
      ∀ s ∈ switches.dropLast, quoting.trailing s.value % 2 = 0 := by
  induction switches with
  | nil =>
    rw [render, List.map_nil, List.intercalate_nil, T.nil]
    simp
  | cons s rest ih =>
    cases rest with
    | nil =>
      rw [render_singleton, T.last _ s.token_ne_nil s.whole_token]
      simp [readToken_token]
    | cons s' rest =>
      rw [render_cons_cons, List.dropLast_cons_cons, List.forall_mem_cons, ← s.after_token_iff]
      -- closed behind the token: the tokenizer stops at the space, and the rest is read by itself
      by_cases hclosed : quoting.after .plain s.token = .plain
      · have hsplit := T.split s.token (render (s' :: rest)) s.token_ne_nil s.whole_token hclosed
        rw [show quoting.delim = ' ' from rfl] at hsplit
        rw [hsplit, List.filterMap_cons, readToken_token, List.map_cons]
        simp only [List.cons.injEq, true_and, hclosed]
        exact ih
      · obtain ⟨more, ts, htokens⟩ :=
          tokens_extends T s.token_ne_nil s.whole_token hclosed (render (s' :: rest))
        rw [show quoting.delim = ' ' from rfl] at htokens
        -- a token without quotes is always closed
        have hbare : s.style ≠ .bare := by
          intro hstyle
          refine hclosed (s.after_token_iff.mpr ?_)
          rw [s.bare_value hstyle]
          rfl
        obtain ⟨read, hread, hne⟩ := readToken_extends_ne commandLine s hbare more
        rw [htokens, List.filterMap_cons, hread, List.map_cons]
        constructor
        · intro heq
          exact absurd (List.cons.inj heq).1 hne
        · exact fun h => absurd h.1 hclosed

/-- A token has ASCII characters only. -/
theorem Switch.isASCII_token (s : Switch) : ∀ c ∈ s.token, isASCII c = true := by
  have hflag : ∀ c ∈ s.flag, isASCII c = true :=
    s.forall_mem_flag (by decide) fun c hc => (s.name_ok c hc).1
  have hvalue : ∀ c ∈ s.value, isASCII c = true := fun c hc => (s.value_ok c hc).1
  have hend : ∀ c ∈ ['\''], isASCII c = true := by
    rw [List.forall_mem_singleton]
    rfl
  unfold Switch.token
  split
  · exact hflag
  · rw [List.forall_mem_append, List.forall_mem_cons, List.forall_mem_cons,
      List.forall_mem_append]
    exact ⟨hflag, rfl, rfl, hvalue, hend⟩
  · rw [List.forall_mem_cons, List.forall_mem_append, List.forall_mem_append,
      List.forall_mem_cons]
    exact ⟨rfl, ⟨hflag, rfl, hvalue⟩, hend⟩

/-- The string has ASCII characters only, which `ReadChromiumArgs` asks for before it splits it. -/
theorem isASCII_render (switches : List Switch) : (render switches).all isASCII = true := by
  induction switches with
  | nil => rfl
  | cons s rest ih =>
    have htoken : s.token.all isASCII = true := List.all_eq_true.mpr s.isASCII_token
    cases rest with
    | nil =>
      rw [render_singleton]
      exact htoken
    | cons s' rest =>
      rw [render_cons_cons, List.all_append, List.all_cons, htoken, ih]
      rfl

/-- **The round trip.** The switches of a manifest are appended as they are written exactly if no
value, that of the last switch apart, ends in an odd number of backslashes. -/
theorem readChromiumArgs_render_iff (switches : List Switch) :
    readChromiumArgs T commandLine (some (render switches)) =
        switches.map (Switch.appended commandLine) ↔
      ∀ s ∈ switches.dropLast, quoting.trailing s.value % 2 = 0 := by
  rw [readChromiumArgs, if_pos (isASCII_render switches)]
  exact filterMap_tokens_render_iff commandLine T switches

/-- `--a='\' --b`. -/
def backslashSwitches : List Switch :=
  [⟨['a'], ['\\'], .quotedValue, by simp, by simp [isASCII], by simp, by simp [isASCII], nofun⟩,
    ⟨['b'], [], .bare, by simp, by simp [isASCII], by simp, by simp, fun _ => rfl⟩]

/-- It is one token: the backslash at the end of the first value keeps its quote from closing. -/
theorem readChromiumArgs_backslash_ne :
    readChromiumArgs (Tokenizer.scanning quoting) (CommandLine.stripping .posix)
        (some (render backslashSwitches)) ≠
      backslashSwitches.map (Switch.appended (CommandLine.stripping .posix)) := by
  decide

end NodeWebkit.ChromiumArgs
