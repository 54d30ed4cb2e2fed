import Mathlib.Data.List.Induction
import Mathlib.Data.List.Nodup
import Mathlib.Logic.Function.Basic

/-!
# Node in the pages

`ContextCreationHook` (`nw_content.cc`) is called with every script context that a renderer process
creates for a page of an extension. Node is set up with the first one that may use it. In mixed
context mode every context gets a Node instance of its own; without it there is one instance for
all, in the context that came first, and `nw.global`, `nw.process`, `nw.Buffer` and `nw.require` of
the later ones are taken from there.

* **`contextCreationHook`** — the hook;
* **`NodeShared`** — what the contexts have of Node after they were created;
* **`contexts_share_node`** — that they have it, in whatever order they come and mixed as they may
  be.

* `fns` — the functions of Node that the hook gets by pointers, with what they say to each other.

## The proof

`Hooked` is what one call of the hook does, read off the three functions it runs
(`setupNwnode_node`, `startInstance_node`, `shareNode_plain`, each with a frame). `Created` is what
is so after a list of contexts, and it is carried on by one context at a time, at the end of the
list: `Created.hook_disabled` for a context without Node, `Created.hook_enabled` for one with it.
What is said of an earlier context does not change, as the first context without mixed context mode
stays the first one (`firstPlain_append_of_mem`).
-/

namespace NodeWebkit.Content

/-- A script context, with what the hook reads in the manifest of its extension. -/
structure ScriptContext where
  context : Nat
  extensionId : String
  nodejs : Option Bool := none
  mixedContext : Option Bool := none
  nodeMain : Option String := none
  deriving DecidableEq

namespace ScriptContext

def nodejsEnabled (c : ScriptContext) : Bool := c.nodejs.getD true

def mixed (c : ScriptContext) : Bool := c.mixedContext.getD false

def argv (c : ScriptContext) : List String := "node" :: c.nodeMain.toList

end ScriptContext

/-- `g_is_node_initialized_fn`, `g_setup_nwnode_fn`, `g_get_node_context_fn`,
`g_set_node_context_fn` and `g_start_nw_instance_fn`. -/
structure NodeFns (Node : Type) where
  isNodeInitialized : Node → Bool
  setupNwnode : Node → Node
  getNodeContext : Node → Option Nat
  setNodeContext : Node → Nat → Node
  startNwInstance : Node → List String → Nat → Node

variable {Node : Type}

/-- Node is initialized by its setup, and has the context that was set. -/
structure NodeFns.Lawful (fns : NodeFns Node) : Prop where
  initialized_setup : ∀ node, fns.isNodeInitialized (fns.setupNwnode node) = true
  initialized_set : ∀ node c,
    fns.isNodeInitialized (fns.setNodeContext node c) = fns.isNodeInitialized node
  initialized_start : ∀ node argv c,
    fns.isNodeInitialized (fns.startNwInstance node argv c) = fns.isNodeInitialized node
  context_setup : ∀ node, fns.getNodeContext (fns.setupNwnode node) = fns.getNodeContext node
  context_set : ∀ node c, fns.getNodeContext (fns.setNodeContext node c) = some c
  context_start : ∀ node argv c,
    fns.getNodeContext (fns.startNwInstance node argv c) = fns.getNodeContext node

/-- A call of Node. -/
inductive NodeCall where
  | setupNwnode
  | setNodeContext (context : Nat)
  | startNwInstance (argv : List String) (context : Nat)
  deriving DecidableEq

/-- A renderer process. -/
structure Renderer (Node : Type) where
  node : Node
  /-- The calls of Node so far; the code has no such field. -/
  calls : List NodeCall := []
  /-- `g_extension_id` -/
  extensionId : String := ""
  /-- The security token of every context. -/
  token : Nat → String
  /-- The contexts whose embedder data has the environment of Node. -/
  nodeEnv : Nat → Bool := fun _ => false
  /-- For every context the one whose `global`, `process`, `Buffer` and `require` its `nw` has. -/
  nwFrom : Nat → Option Nat := fun _ => none

namespace Renderer

variable (fns : NodeFns Node)

def setupNwnode (s : Renderer Node) : Renderer Node :=
  if fns.isNodeInitialized s.node then s
  else { s with node := fns.setupNwnode s.node, calls := s.calls ++ [.setupNwnode] }

/-- The instance that is started in a context, which is the context of Node without mixed
context mode. -/
def startInstance (s : Renderer Node) (c : ScriptContext) : Renderer Node :=
  let s :=
    if c.mixed then s
    else
      { s with
        node := fns.setNodeContext s.node c.context
        calls := s.calls ++ [.setNodeContext c.context] }
  { s with
    node := fns.startNwInstance s.node c.argv c.context
    calls := s.calls ++ [.startNwInstance c.argv c.context]
    token := Function.update s.token c.context "nw-token" }

/-- The `nw` of a context gets what the context of Node has. -/
def shareNode (s : Renderer Node) (c : ScriptContext) : Renderer Node :=
  if c.mixed then { s with nwFrom := Function.update s.nwFrom c.context (some c.context) }
  else
    match fns.getNodeContext s.node with
    | none => s
    | some g =>
      { s with
        nodeEnv := Function.update s.nodeEnv c.context true
        token := Function.update s.token c.context (s.token g)
        nwFrom := Function.update s.nwFrom c.context (some g) }

/-- `ContextCreationHook` -/
def contextCreationHook (s : Renderer Node) (c : ScriptContext) : Renderer Node :=
  let s := if s.extensionId = "" then { s with extensionId := c.extensionId } else s
  if c.nodejsEnabled then
    let s := s.setupNwnode fns
    let s :=
      if fns.getNodeContext s.node = none ∨ c.mixed then s.startInstance fns c else s
    s.shareNode fns c
  else s

end Renderer

/-! ## What is shared

Everything is said by the list of the contexts alone: `firstPlain` is the one that holds the common
instance, `nodeContextOf` the one a context has its Node from, and `startCalls` the calls that start
an instance for it. -/

/-- The contexts that may use Node. -/
def enabled (cs : List ScriptContext) : List ScriptContext := cs.filter (·.nodejsEnabled)

/-- The first context that may use Node and is not in mixed context mode. -/
def firstPlain (cs : List ScriptContext) : Option ScriptContext :=
  (enabled cs).find? fun c => !c.mixed

/-- The context whose Node a context has. -/
def nodeContextOf (cs : List ScriptContext) (c : ScriptContext) : Option Nat :=
  if c.mixed then some c.context else (firstPlain cs).map (·.context)

/-- The calls that start the instance of a context, for a context that has one. -/
def startCalls (cs : List ScriptContext) (c : ScriptContext) : List NodeCall :=
  if c.mixed then [.startNwInstance c.argv c.context]
  else if (firstPlain cs).map (·.context) = some c.context then
    [.setNodeContext c.context, .startNwInstance c.argv c.context]
  else []

/-- Node was set up once, before its first instance. It was started once in each context with mixed
context mode and in the first one without it. Every context that may use Node has the Node of its
own context or of that one, and the security token that lets them reach each other; all others are
as they were. -/
structure NodeShared (token : Nat → String) (cs : List ScriptContext) (s : Renderer Node) :
    Prop where
  calls_eq : s.calls =
    (if enabled cs = [] then [] else [.setupNwnode]) ++ (enabled cs).flatMap (startCalls cs)
  extensionId_eq : s.extensionId = ((cs.map (·.extensionId)).find? (· ≠ "")).getD ""
  nwFrom_eq : ∀ c ∈ enabled cs, s.nwFrom c.context = nodeContextOf cs c ∧ s.nwFrom c.context ≠ none
  token_eq : ∀ c ∈ enabled cs, s.token c.context = "nw-token"
  nodeEnv_eq : ∀ c ∈ enabled cs, s.nodeEnv c.context = !c.mixed
  others : ∀ context, (∀ c ∈ enabled cs, c.context ≠ context) →
    s.nwFrom context = none ∧ s.token context = token context ∧ s.nodeEnv context = false

/-! ## One context

The functions of Node are known by their laws only: what each of them does to the two answers that
the hook asks for, whether Node is initialized and which context it is in. -/

section OneContext

variable {fns : NodeFns Node}

/-- What the hook does with a context that may use Node, by the context that Node has. -/
structure Hooked (fns : NodeFns Node) (c : ScriptContext) (s t : Renderer Node) : Prop where
  initialized : fns.isNodeInitialized t.node = true
  nodeContext : fns.getNodeContext t.node =
    if c.mixed then fns.getNodeContext s.node
    else some ((fns.getNodeContext s.node).getD c.context)
  calls : t.calls = s.calls ++ (if fns.isNodeInitialized s.node then [] else [.setupNwnode]) ++
    if c.mixed then [.startNwInstance c.argv c.context]
    else if fns.getNodeContext s.node = none then
      [.setNodeContext c.context, .startNwInstance c.argv c.context]
    else []
  nwFrom : t.nwFrom = Function.update s.nwFrom c.context
    (some (if c.mixed then c.context else (fns.getNodeContext s.node).getD c.context))
  token : t.token = Function.update s.token c.context
    (if c.mixed then "nw-token" else ((fns.getNodeContext s.node).map s.token).getD "nw-token")
  nodeEnv : t.nodeEnv =
    if c.mixed then s.nodeEnv else Function.update s.nodeEnv c.context true

theorem setupNwnode_node (hfns : fns.Lawful) (s : Renderer Node) :
    fns.isNodeInitialized (s.setupNwnode fns).node = true ∧
      fns.getNodeContext (s.setupNwnode fns).node = fns.getNodeContext s.node := by
  unfold Renderer.setupNwnode
  split
  · exact ⟨‹_›, rfl⟩
  · exact ⟨hfns.initialized_setup s.node, hfns.context_setup s.node⟩

/-- The setup calls Node's function at most once and changes nothing else of the renderer. -/
theorem setupNwnode_frame (fns : NodeFns Node) (s : Renderer Node) :
    s.setupNwnode fns = { s with
      node := (s.setupNwnode fns).node
      calls := s.calls ++ if fns.isNodeInitialized s.node then [] else [.setupNwnode] } := by
  unfold Renderer.setupNwnode
  split
  · rw [List.append_nil]
  · rfl

/-- Starting an instance tells Node its context, unless the context is a mixed one, which only gets
its own instance. -/
theorem startInstance_node (hfns : fns.Lawful) (c : ScriptContext) (s : Renderer Node) :
    fns.isNodeInitialized (s.startInstance fns c).node = fns.isNodeInitialized s.node ∧
      fns.getNodeContext (s.startInstance fns c).node =
        if c.mixed then fns.getNodeContext s.node else some c.context := by
  unfold Renderer.startInstance
  cases c.mixed with
  | true => exact ⟨hfns.initialized_start .., hfns.context_start ..⟩
  | false =>
    refine ⟨(hfns.initialized_start ..).trans (hfns.initialized_set ..), ?_⟩
    exact (hfns.context_start ..).trans (hfns.context_set ..)

/-- What starting an instance leaves in the renderer: the calls, and the token of the context. -/
theorem startInstance_frame (fns : NodeFns Node) (c : ScriptContext) (s : Renderer Node) :
    s.startInstance fns c = { s with
      node := (s.startInstance fns c).node
      calls := s.calls ++ if c.mixed then [.startNwInstance c.argv c.context]
        else [.setNodeContext c.context, .startNwInstance c.argv c.context]
      token := Function.update s.token c.context "nw-token" } := by
  unfold Renderer.startInstance
  cases c.mixed with
  | true => rfl
  | false =>
    show ({ s with node := _, calls := s.calls ++ [_] ++ [_], token := _ } : Renderer Node) = _
    rw [List.append_assoc]
    rfl

theorem shareNode_mixed {c : ScriptContext} (hc : c.mixed = true) (s : Renderer Node) :
    s.shareNode fns c =
      { s with nwFrom := Function.update s.nwFrom c.context (some c.context) } := by
  rw [Renderer.shareNode, if_pos hc]

/-- A context that does not mix is given what the context of Node has, its token included. -/
theorem shareNode_plain {c : ScriptContext} (hc : c.mixed = false) {s : Renderer Node} {g : Nat}
    (hg : fns.getNodeContext s.node = some g) :
    s.shareNode fns c = { s with
      nodeEnv := Function.update s.nodeEnv c.context true
      token := Function.update s.token c.context (s.token g)
      nwFrom := Function.update s.nwFrom c.context (some g) } := by
  rw [Renderer.shareNode, hc, if_neg (by decide), hg]

/-- A context without Node only says which extension the renderer is for, if it is the first to do
so. -/
theorem hook_disabled {c : ScriptContext} (hc : c.nodejsEnabled = false) (s : Renderer Node) :
    s.contextCreationHook fns c =
      { s with extensionId := if s.extensionId = "" then c.extensionId else s.extensionId } := by
  unfold Renderer.contextCreationHook
  rw [hc]
  by_cases hid : s.extensionId = ""
  · simp only [hid, if_true, Bool.false_eq_true, if_false]
  · simp only [hid, if_false, Bool.false_eq_true]

/-- **The hook behind the setup of Node.** A mixed context gets an instance; one that is not gets
the common one, which is started in it if there is none yet. -/
theorem hooked_share (hfns : fns.Lawful) (c : ScriptContext) {s : Renderer Node}
    (hinit : fns.isNodeInitialized s.node = true) :
    Hooked fns c s (Renderer.shareNode fns
      (if fns.getNodeContext s.node = none ∨ c.mixed then s.startInstance fns c else s) c) := by
  -- what starting an instance keeps and what it changes
  obtain ⟨hinit', hcontext⟩ := startInstance_node hfns c s
  have hframe := startInstance_frame fns c s
  have hcalls := congrArg Renderer.calls hframe
  have htoken := congrArg Renderer.token hframe
  have hnwFrom := congrArg Renderer.nwFrom hframe
  have hnodeEnv := congrArg Renderer.nodeEnv hframe
  cases hmixed : c.mixed with
  | true =>
    -- a mixed context gets an instance of its own
    rw [if_pos (Or.inr rfl), shareNode_mixed hmixed]
    rw [hmixed] at hcontext hcalls
    refine ⟨hinit'.trans hinit, ?_, ?_, ?_, ?_, ?_⟩
    · rw [hmixed]
      exact hcontext
    · rw [hmixed, hinit]
      exact hcalls.trans (congrArg (· ++ _) (List.append_nil _).symm)
    · rw [hmixed]
      exact congrArg (Function.update · c.context (some c.context)) hnwFrom
    · rw [hmixed]
      exact htoken
    · rw [hmixed]
      exact hnodeEnv
  | false =>
    rw [hmixed] at hcontext hcalls
    cases hs : fns.getNodeContext s.node with
    | none =>
      -- the first plain context: the shared instance is made in it
      rw [if_pos (Or.inl rfl), shareNode_plain hmixed hcontext]
      refine ⟨hinit'.trans hinit, ?_, ?_, ?_, ?_, ?_⟩
      · rw [hmixed, hs]
        exact hcontext
      · rw [hmixed, hs, hinit]
        exact hcalls.trans (congrArg (· ++ _) (List.append_nil _).symm)
      · rw [hmixed, hs]
        exact congrArg (Function.update · c.context (some c.context)) hnwFrom
      · rw [hmixed, hs]
        show Function.update (s.startInstance fns c).token c.context
          ((s.startInstance fns c).token c.context) = _
        rw [Function.update_eq_self]
        exact htoken
      · rw [hmixed]
        exact congrArg (Function.update · c.context true) hnodeEnv
    | some g =>
      -- a later plain context: it takes the shared instance
      rw [if_neg (by simp), shareNode_plain hmixed hs]
      refine ⟨hinit, ?_, ?_, ?_, ?_, ?_⟩
      · rw [hmixed, hs]
        rfl
      · rw [hmixed, hs, hinit]
        show s.calls = s.calls ++ [] ++ []
        rw [List.append_nil, List.append_nil]
      · rw [hmixed, hs]
        rfl
      · rw [hmixed, hs]
        rfl
      · rw [hmixed]
        rfl

/-- **What one call of the hook does** for a context with Node. The two ways through the start of
the hook differ in the extension only, which nothing after it reads. -/
theorem hook_enabled (hfns : fns.Lawful) {c : ScriptContext} (hc : c.nodejsEnabled = true)
    (s : Renderer Node) : Hooked fns c s (s.contextCreationHook fns c) := by
  -- the extension id, which may be stored first, is no part of what is compared
  have hid : ∀ u : Renderer Node, u.node = s.node → u.calls = s.calls → u.nwFrom = s.nwFrom →
      u.token = s.token → u.nodeEnv = s.nodeEnv → Hooked fns c s (Renderer.shareNode fns
        (if fns.getNodeContext (u.setupNwnode fns).node = none ∨ c.mixed then
          (u.setupNwnode fns).startInstance fns c else u.setupNwnode fns) c) := by
    intro u hnode hcalls hnwFrom htoken hnodeEnv
    obtain ⟨hinit, hcontext⟩ := setupNwnode_node hfns u
    have hframe := setupNwnode_frame fns u
    have h := hooked_share hfns c hinit
    generalize Renderer.shareNode fns _ c = t at h ⊢
    have hcalls' := h.calls
    rw [hinit, if_pos rfl, List.append_nil, hcontext, congrArg Renderer.calls hframe] at hcalls'
    refine ⟨h.initialized, ?_, ?_, ?_, ?_, ?_⟩
    · rw [h.nodeContext, hcontext, hnode]
    · rw [hcalls', hnode, hcalls]
    · rw [h.nwFrom, hcontext, congrArg Renderer.nwFrom hframe, hnode, hnwFrom]
    · rw [h.token, hcontext, congrArg Renderer.token hframe, hnode, htoken]
    · rw [h.nodeEnv, congrArg Renderer.nodeEnv hframe, hnodeEnv]
  unfold Renderer.contextCreationHook
  rw [hc]
  by_cases hempty : s.extensionId = ""
  · rw [if_pos hempty]
    exact hid _ rfl rfl rfl rfl rfl
  · rw [if_neg hempty]
    exact hid s rfl rfl rfl rfl rfl

/-- The renderer is for the extension of the first context that names one. -/
theorem hook_extensionId (c : ScriptContext) (s : Renderer Node) :
    (s.contextCreationHook fns c).extensionId =
      if s.extensionId = "" then c.extensionId else s.extensionId := by
  have hsetup : ∀ s : Renderer Node, (s.setupNwnode fns).extensionId = s.extensionId :=
    fun s => (congrArg Renderer.extensionId (setupNwnode_frame fns s) :)
  have hstart : ∀ s : Renderer Node, (s.startInstance fns c).extensionId = s.extensionId :=
    fun s => (congrArg Renderer.extensionId (startInstance_frame fns c s) :)
  have hshare : ∀ s : Renderer Node, (s.shareNode fns c).extensionId = s.extensionId := by
    intro s
    unfold Renderer.shareNode
    split
    · rfl
    · split <;> rfl
  -- what comes after the first lines of the hook keeps the id
  have hrest : ∀ u : Renderer Node, (Renderer.shareNode fns
      (if fns.getNodeContext (u.setupNwnode fns).node = none ∨ c.mixed then
        (u.setupNwnode fns).startInstance fns c else u.setupNwnode fns) c).extensionId =
          u.extensionId := by
    intro u
    rw [hshare]
    split
    · rw [hstart, hsetup]
    · exact hsetup u
  unfold Renderer.contextCreationHook
  cases c.nodejsEnabled with
  | false =>
    show (if s.extensionId = "" then { s with extensionId := c.extensionId } else s).extensionId = _
    split <;> rfl
  | true =>
    refine (hrest _).trans ?_
    split <;> rfl

end OneContext

/-! ## All contexts

The induction is on the list of contexts from the right: the hook is called for the new one, and the
lemmas `…_append` say that the list tells the same of the earlier ones. -/

section AllContexts

variable {fns : NodeFns Node} {cs : List ScriptContext} {c : ScriptContext}

theorem enabled_append (cs : List ScriptContext) (c : ScriptContext) :
    enabled (cs ++ [c]) = enabled cs ++ if c.nodejsEnabled then [c] else [] := by
  rw [enabled, List.filter_append, List.filter_singleton, cond_eq_ite]
  rfl

/-- A context becomes the first without mixed context mode only if there was none. -/
theorem firstPlain_append (cs : List ScriptContext) (c : ScriptContext) :
    firstPlain (cs ++ [c]) =
      (firstPlain cs).or (if c.nodejsEnabled && !c.mixed then some c else none) := by
  rw [firstPlain, enabled_append, List.find?_append]
  cases c.nodejsEnabled with
  | false => rfl
  | true =>
    show _ = (firstPlain cs).or (if (!c.mixed) = true then some c else none)
    rw [if_pos rfl, List.find?_singleton]
    rfl

/-- Where there is a context without mixed context mode, the first one stays the first. -/
theorem firstPlain_append_of_mem {c' : ScriptContext} (hmem : c' ∈ enabled cs)
    (hplain : c'.mixed = false) (c : ScriptContext) : firstPlain (cs ++ [c]) = firstPlain cs := by
  have hsome : (firstPlain cs).isSome = true :=
    List.find?_isSome.mpr ⟨c', hmem, by rw [hplain]; rfl⟩
  obtain ⟨f, hf⟩ := Option.isSome_iff_exists.mp hsome
  rw [firstPlain_append, hf]
  rfl

theorem nodeContextOf_append {c' : ScriptContext} (hmem : c' ∈ enabled cs) (c : ScriptContext) :
    nodeContextOf (cs ++ [c]) c' = nodeContextOf cs c' := by
  unfold nodeContextOf
  cases hmixed : c'.mixed with
  | true => rfl
  | false => rw [firstPlain_append_of_mem hmem hmixed]

theorem startCalls_append {c' : ScriptContext} (hmem : c' ∈ enabled cs) (c : ScriptContext) :
    startCalls (cs ++ [c]) c' = startCalls cs c' := by
  unfold startCalls
  cases hmixed : c'.mixed with
  | true => rfl
  | false => rw [firstPlain_append_of_mem hmem hmixed]

/-- The first context without mixed context mode was created before, so it is not the new one. -/
theorem firstPlain_ne (hfresh : c.context ∉ cs.map (·.context)) :
    (firstPlain cs).map (·.context) ≠ some c.context := by
  intro h
  obtain ⟨f, hf, hcontext⟩ := Option.map_eq_some_iff.mp h
  have hmem : f ∈ cs := List.mem_of_mem_filter (List.mem_of_find?_eq_some hf)
  exact hfresh (hcontext ▸ List.mem_map_of_mem hmem)

/-- Where the new context has its Node from: itself, or the first one without mixed context mode. -/
theorem nodeContextOf_self (hc : c.nodejsEnabled = true) :
    nodeContextOf (cs ++ [c]) c =
      some (if c.mixed then c.context
        else ((firstPlain cs).map (·.context)).getD c.context) := by
  unfold nodeContextOf
  rw [firstPlain_append, hc]
  cases c.mixed with
  | true => rfl
  | false => cases firstPlain cs <;> rfl

/-- The calls for the new context: an instance of its own, the common one, or none. -/
theorem startCalls_self (hfresh : c.context ∉ cs.map (·.context)) (hc : c.nodejsEnabled = true) :
    startCalls (cs ++ [c]) c =
      if c.mixed then [.startNwInstance c.argv c.context]
      else if (firstPlain cs).map (·.context) = none then
        [.setNodeContext c.context, .startNwInstance c.argv c.context]
      else [] := by
  have hne := firstPlain_ne hfresh
  unfold startCalls
  rw [firstPlain_append, hc]
  cases c.mixed with
  | true => rfl
  | false =>
    cases hfirst : firstPlain cs with
    | none => exact if_pos rfl
    | some f =>
      rw [hfirst] at hne
      exact if_neg hne

/-- The first extension that is named stays the first one. -/
theorem extensionId_append (cs : List ScriptContext) (c : ScriptContext) :
    (((cs ++ [c]).map (·.extensionId)).find? (· ≠ "")).getD "" =
      let id := ((cs.map (·.extensionId)).find? (· ≠ "")).getD ""
      if id = "" then c.extensionId else id := by
  rw [List.map_append, List.find?_append]
  cases hfind : (cs.map (·.extensionId)).find? (· ≠ "") with
  | some id =>
    have hsome := List.find?_some hfind
    have hid : id ≠ "" := of_decide_eq_true hsome
    exact (if_neg hid).symm
  | none =>
    show (List.find? (fun id => decide (id ≠ "")) [c.extensionId]).getD "" = c.extensionId
    rw [List.find?_singleton]
    by_cases hid : c.extensionId = ""
    · rw [hid]
      rfl
    · rw [if_pos (decide_eq_true hid)]
      rfl

end AllContexts

/-- What is known after some contexts. -/
structure Created (fns : NodeFns Node) (token : Nat → String) (cs : List ScriptContext)
    (s : Renderer Node) : Prop extends NodeShared token cs s where
  initialized : fns.isNodeInitialized s.node = decide (enabled cs ≠ [])
  nodeContext : fns.getNodeContext s.node = (firstPlain cs).map (·.context)

section Hook

variable {fns : NodeFns Node} {token : Nat → String} {cs : List ScriptContext} {c : ScriptContext}
  {s : Renderer Node}

/-- A context without Node changes nothing for the others. -/
theorem Created.hook_disabled (h : Created fns token cs s) (hc : c.nodejsEnabled = false) :
    Created fns token (cs ++ [c]) (s.contextCreationHook fns c) := by
  -- the list of the contexts with Node is the same, and all the rest depends on it
  have henabled : enabled (cs ++ [c]) = enabled cs := by
    rw [enabled_append, hc]
    exact List.append_nil _
  have hfirst : firstPlain (cs ++ [c]) = firstPlain cs := by rw [firstPlain, henabled, firstPlain]
  have hof : nodeContextOf (cs ++ [c]) = nodeContextOf cs := by
    funext c'
    rw [nodeContextOf, hfirst, nodeContextOf]
  have hcalls : startCalls (cs ++ [c]) = startCalls cs := by
    funext c'
    rw [startCalls, hfirst, startCalls]
  rw [Content.hook_disabled hc]
  refine ⟨⟨?_, ?_, ?_, ?_, ?_, ?_⟩, ?_, ?_⟩
  · rw [henabled, hcalls]
    exact h.calls_eq
  · rw [extensionId_append, ← h.extensionId_eq]
  · rw [henabled, hof]
    exact h.nwFrom_eq
  · rw [henabled]
    exact h.token_eq
  · rw [henabled]
    exact h.nodeEnv_eq
  · rw [henabled]
    exact h.others
  · rw [henabled]
    exact h.initialized
  · rw [hfirst]
    exact h.nodeContext

/-- **A context with Node** gets what it is to have, and the earlier ones keep what they have: they
are other contexts, whose places in the renderer are not written. -/
theorem Created.hook_enabled (hfns : fns.Lawful) (h : Created fns token cs s)
    (hfresh : c.context ∉ cs.map (·.context)) (hc : c.nodejsEnabled = true) :
    Created fns token (cs ++ [c]) (s.contextCreationHook fns c) := by
  have hhook := Content.hook_enabled hfns hc s
  have henabled : enabled (cs ++ [c]) = enabled cs ++ [c] := by
    rw [enabled_append, hc]
    rfl
  -- a context is created once, so what is kept for an old one stays
  have hne : ∀ c' ∈ enabled cs, c'.context ≠ c.context := by
    intro c' hmem heq
    exact hfresh (heq ▸ List.mem_map_of_mem (List.mem_of_mem_filter hmem))
  -- what a context is when it was before, and what the new one is
  have hold : ∀ {P : ScriptContext → Prop}, (∀ c' ∈ enabled cs, P c') → P c →
      ∀ c' ∈ enabled (cs ++ [c]), P c' := by
    intro P hbefore hnew c' hmem
    rw [henabled, List.mem_append, List.mem_singleton] at hmem
    rcases hmem with hmem | rfl
    · exact hbefore c' hmem
    · exact hnew
  refine ⟨⟨?_, ?_, ?_, ?_, ?_, ?_⟩, ?_, ?_⟩
  · -- the old contexts have the calls they had
    have hstart : (enabled cs).flatMap (startCalls (cs ++ [c])) =
        (enabled cs).flatMap (startCalls cs) :=
      List.flatMap_congr fun c' hmem => startCalls_append hmem c
    rw [hhook.calls, h.calls_eq, h.initialized, h.nodeContext, henabled, List.flatMap_append,
      List.flatMap_singleton, hstart, startCalls_self hfresh hc]
    by_cases hempty : enabled cs = []
    · rw [hempty]
      rfl
    · rw [if_neg hempty, if_pos (decide_eq_true hempty),
        if_neg (List.append_ne_nil_of_right_ne_nil _ (List.cons_ne_nil c [])), List.append_nil,
        List.append_assoc]
  · rw [hook_extensionId, extensionId_append, ← h.extensionId_eq]
  · apply hold
    · intro c' hmem
      rw [hhook.nwFrom, Function.update_of_ne (hne c' hmem), nodeContextOf_append hmem]
      exact h.nwFrom_eq c' hmem
    · rw [hhook.nwFrom, Function.update_self, nodeContextOf_self hc, h.nodeContext]
      exact ⟨rfl, by nofun⟩
  · apply hold
    · intro c' hmem
      rw [hhook.token, Function.update_of_ne (hne c' hmem)]
      exact h.token_eq c' hmem
    · rw [hhook.token, Function.update_self, h.nodeContext]
      split
      · rfl
      · cases hfirst : firstPlain cs with
        | none => rfl
        | some f => exact h.token_eq f (List.mem_of_find?_eq_some hfirst)
  · apply hold
    · intro c' hmem
      rw [hhook.nodeEnv]
      split
      · exact h.nodeEnv_eq c' hmem
      · rw [Function.update_of_ne (hne c' hmem)]
        exact h.nodeEnv_eq c' hmem
    · rw [hhook.nodeEnv]
      cases c.mixed with
      | true => exact (h.others c.context hne).2.2
      | false => exact Function.update_self ..
  · intro context hcontext
    have hbefore := h.others context fun c' hmem =>
      hcontext c' (henabled ▸ List.mem_append_left _ hmem)
    have hneq : context ≠ c.context :=
      Ne.symm (hcontext c (henabled ▸ List.mem_append_right _ (List.mem_singleton_self c)))
    rw [hhook.nwFrom, hhook.token, hhook.nodeEnv, Function.update_of_ne hneq,
      Function.update_of_ne hneq]
    refine ⟨hbefore.1, hbefore.2.1, ?_⟩
    split
    · exact hbefore.2.2
    · rw [Function.update_of_ne hneq]
      exact hbefore.2.2
  · rw [hhook.initialized, henabled]
    exact (decide_eq_true (List.append_ne_nil_of_right_ne_nil _ (List.cons_ne_nil c []))).symm
  · rw [hhook.nodeContext, firstPlain_append, hc, h.nodeContext]
    cases c.mixed with
    | true =>
      show _ = Option.map _ ((firstPlain cs).or none)
      rw [Option.or_none]
      rfl
    | false => cases firstPlain cs <;> rfl

end Hook

/-- **Shared Node.** In whatever order contexts are created, with and without mixed context mode, by
extensions that may use Node or not, they share Node as `NodeShared` says. -/
theorem contexts_share_node (fns : NodeFns Node) (hfns : fns.Lawful) {node : Node}
    (hinit : fns.isNodeInitialized node = false) (hcontext : fns.getNodeContext node = none)
    (token : Nat → String) {cs : List ScriptContext} (hcs : (cs.map (·.context)).Nodup) :
    NodeShared token cs
      (cs.foldl (Renderer.contextCreationHook fns) { node := node, token := token }) := by
  have hcreated : Created fns token cs
      (cs.foldl (Renderer.contextCreationHook fns) { node := node, token := token }) := by
    induction cs using List.reverseRecOn with
    | nil =>
      exact ⟨⟨rfl, rfl, by nofun, by nofun, by nofun, fun _ _ => ⟨rfl, rfl, rfl⟩⟩, hinit, hcontext⟩
    | append_singleton cs c ih =>
      rw [List.map_append, List.nodup_append] at hcs
      have hfresh : c.context ∉ cs.map (·.context) :=
        fun hmem => hcs.2.2 _ hmem _ (List.mem_singleton_self _) rfl
      rw [List.foldl_append, List.foldl_cons, List.foldl_nil]
      cases hc : c.nodejsEnabled with
      | false => exact (ih hcs.1).hook_disabled hc
      | true => exact (ih hcs.1).hook_enabled hfns hfresh hc
  exact hcreated.toNodeShared

/-- Node that notes its setup and its context and nothing else. -/
def notedFns : NodeFns (Bool × Option Nat) where
  isNodeInitialized := Prod.fst
  setupNwnode node := (true, node.2)
  getNodeContext := Prod.snd
  setNodeContext node c := (node.1, some c)
  startNwInstance node _ _ := node

/-- A page, a frame that may not use Node and another frame: the last one has the Node of the
page. -/
theorem contexts_share_node_frame :
    let cs : List ScriptContext :=
      [{ context := 0, extensionId := "a", nodeMain := some "main.js" },
        { context := 1, extensionId := "a", nodejs := some false },
        { context := 2, extensionId := "a" }]
    NodeShared (fun _ => "") cs
      (cs.foldl (Renderer.contextCreationHook notedFns)
        { node := (false, none), token := fun _ => "" }) :=
  contexts_share_node notedFns
    ⟨fun _ => rfl, fun _ _ => rfl, fun _ _ _ => rfl, fun _ => rfl, fun _ _ => rfl,
      fun _ _ _ => rfl⟩ rfl rfl (fun _ => "") (by decide)

end NodeWebkit.Content
