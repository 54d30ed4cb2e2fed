import NodeWebkit.App.HttpAuth
import NodeWebkit.App.HttpProxy

/-!
# Rejected requests

`getHttpProxy` and `getHttpAuth` of `api_nw_app.js` add their listener before they ask the native
function, which rejects a URL that is not valid or neither http nor https. The handlers end alike:
with a result and a function to call back they return `true`, else they clean the event up and
return `false`. But the listener is named by a function expression, and that name is bound in the
expression alone; where the handler cleans up it is not defined.

* **`HttpProxy.handleRequest`**, **`HttpAuth.handleRequest`** — the handlers;
* **`Owed`** — a rejected request leaves no trace, an accepted one a listener.

* `accepts` — `GURL(url)` is valid and its scheme is http or https;
* `spec` — `GURL(url).spec()`;
* `failed` — what `sendRequestSync` comes to for a function that fails, by its response: an error it
  throws, or a result, `none` where that is not truthy.
-/

namespace NodeWebkit.App

/-- What a call of the page comes to. -/
inductive Outcome where
  | returns (value : Bool)
  | throws (error : String)
  deriving DecidableEq

/-- What a native function leaves in its response, and what it returns. -/
structure RunNWSync where
  response : List Bool
  success : Bool

/-- `sendRequestSync`. The response of a function that succeeds is an array, and so is truthy. -/
def sendRequestSync (failed : List Bool → Except String (Option (List Bool))) (run : RunNWSync) :
    Except String (Option (List Bool)) :=
  if run.success then .ok (some run.response) else failed run.response

/-- The end of both handlers, after `sendRequestSync`. `event` tells whether the handler has an
event, `callback` whether it was given a function. -/
def answer (listener : String) (event callback : Bool) :
    Except String (Option (List Bool)) → Outcome
  | .error error => .throws error
  | .ok res =>
    if res.isSome ∧ callback then .returns true
    -- the arguments of `cleanNWEvent` are evaluated first
    else if event then .throws s!"ReferenceError: {listener} is not defined"
    else .returns false

namespace HttpProxy

/-- `NwAppGetHttpProxyFunction::RunNWSync`. -/
def runNWSync (accepts : String → Bool) (spec : String → String) (s : HttpProxy) (url : String) :
    RunNWSync × HttpProxy :=
  if accepts url then
    (⟨[true], true⟩, { s with tasks := s.tasks ++ [⟨spec url, "getHttpProxy " ++ url⟩] })
  else (⟨[false], true⟩, s)

/-- The handler of `getHttpProxy`. -/
def handleRequest (accepts : String → Bool) (spec : String → String)
    (failed : List Bool → Except String (Option (List Bool))) (s : HttpProxy) (url : String)
    (callback : Bool) : Outcome × HttpProxy :=
  let token := "getHttpProxy " ++ url
  let (run, s) := runNWSync accepts spec { s with page := s.page.register token } url
  (answer "getHttpProxyListener" true callback (sendRequestSync failed run), s)

end HttpProxy

namespace HttpAuth

/-- The arguments of `getHttpAuth`. A listener that asks a second time gives the last two. -/
structure Params where
  url : String
  realm : String
  scheme : String
  /-- `typeof callback == 'function'`. -/
  callback : Bool
  deep : Option Nat := none
  token : Option String := none
  deriving DecidableEq

/-- `NwAppGetHttpAuthFunction::RunNWSync`. -/
def runNWSync (accepts : String → Bool) (s : HttpAuth) (task : Task) : RunNWSync × HttpAuth :=
  if accepts task.url then (⟨[true], true⟩, { s with tasks := s.tasks ++ [task] })
  else (⟨[false], false⟩, s)

/-- The handler of `getHttpAuth`. -/
def handleRequest (accepts : String → Bool)
    (failed : List Bool → Except String (Option (List Bool))) (s : HttpAuth) (p : Params) :
    Outcome × HttpAuth :=
  let token := p.token.getD ("getHttpAuth " ++ p.url)
  let s := if p.token = none then { s with page := s.page.register token } else s
  let (run, s) := runNWSync accepts s ⟨p.url, p.realm, p.scheme, p.deep.getD 0, token⟩
  (answer "getHttpAuthListener" p.token.isNone p.callback (sendRequestSync failed run), s)

end HttpAuth

/-! ## What a request is promised

The answer is what the page's call returns or throws. It is compared with the state of the page
afterwards, that is with the calls and listeners of `NWEvents`. -/

/-- The same tokens and the same listeners. -/
structure Untouched (s t : NWEvents) : Prop where
  tokens : t.nwEventTokens = s.nwEventTokens
  listeners : t.listeners = s.listeners

/-- One listener more, that of the new call. -/
def OneMore (s t : NWEvents) : Prop :=
  ∃ e, t.listeners = Function.update s.listeners e (s.listeners e ++ [s.calls.length])

/-- From `s` to `t`, where `native` says that the native side is as before. -/
structure Owed (accepted callback : Bool) (outcome : Outcome) (s t : NWEvents) (native : Prop) :
    Prop where
  rejected : accepted = false → outcome = .returns false ∧ Untouched s t ∧ native
  accepted : accepted = true → callback = true → outcome = .returns true ∧ OneMore s t

/-- What is promised of a `getHttpProxy`. -/
def HttpProxy.Owed (accepts : String → Bool) (spec : String → String)
    (failed : List Bool → Except String (Option (List Bool))) (s : HttpProxy) (url : String)
    (callback : Bool) : Prop :=
  let call := handleRequest accepts spec failed s url callback
  App.Owed (accepts url) callback call.1 s.page call.2.page
    (call.2.urlProxyMap = s.urlProxyMap ∧ call.2.tasks = s.tasks)

/-- What is promised of a `getHttpAuth`. -/
def HttpAuth.Owed (accepts : String → Bool)
    (failed : List Bool → Except String (Option (List Bool))) (s : HttpAuth) (p : Params) : Prop :=
  let call := handleRequest accepts failed s p
  App.Owed (accepts p.url) p.callback call.1 s.page call.2.page (call.2.tasks = s.tasks)

/-- A URL that is accepted, for a listener of its own or without a function to call back; or one
that is rejected in a call without a listener, whose failure is no error and no result for a
function. -/
def HttpAuth.RequestOk (accepts : String → Bool)
    (failed : List Bool → Except String (Option (List Bool))) (p : Params) : Prop :=
  if accepts p.url then p.token = none ∨ p.callback = false
  else p.token ≠ none ∧ ∃ res, failed [false] = .ok res ∧ ¬ (res.isSome ∧ p.callback)

/-! ## Traces

`Untouched` is a page without a new listener, `OneMore` one with exactly one more call and its
listener. No page is both, by which the promise is read back from the answer. -/

theorem register_oneMore (s : NWEvents) (token : String) : OneMore s (s.register token) := by
  obtain ⟨e, -, heq⟩ := NWEvents.register_spec s token
  refine ⟨e, ?_⟩
  rw [heq]

/-- A list with one more element is another one, so a handler that has added its listener has left a
trace. -/
theorem OneMore.not_untouched {s t : NWEvents} (h : OneMore s t) : ¬ Untouched s t := by
  intro hsame
  obtain ⟨e, he⟩ := h
  have hlist := congrFun (he.symm.trans hsame.listeners) e
  rw [Function.update_self] at hlist
  have hlength := congrArg List.length hlist
  rw [List.length_append, List.length_singleton] at hlength
  omega

theorem Untouched.refl (s : NWEvents) : Untouched s s := ⟨rfl, rfl⟩

section

variable {accepts : String → Bool} {spec : String → String}
  {failed : List Bool → Except String (Option (List Bool))}

/-- An accepted request is the call of the other results: the listener is added, the task is posted
and the handler returns `true`. -/
theorem HttpProxy.handleRequest_accepted {s : HttpProxy} {url : String} (h : accepts url = true) :
    handleRequest accepts spec failed s url true = (.returns true, getHttpProxy spec s url) := by
  simp [handleRequest, runNWSync, h, sendRequestSync, answer, getHttpProxy]

/-- The handler of `getHttpProxy` ends with its listener, also where the native function has
refused: the cleaning up that would take it away does not happen. -/
theorem HttpProxy.oneMore_handleRequest (s : HttpProxy) (url : String) (callback : Bool) :
    OneMore s.page (handleRequest accepts spec failed s url callback).2.page := by
  have hpage : (handleRequest accepts spec failed s url callback).2.page =
      s.page.register ("getHttpProxy " ++ url) := by
    unfold handleRequest runNWSync
    split <;> rfl
  rw [hpage]
  exact register_oneMore ..

/-- **For `getHttpProxy` the promise is kept exactly for the accepted requests**: a rejected one
leaves its listener in every case. -/
theorem HttpProxy.owed_iff (s : HttpProxy) (url : String) (callback : Bool) :
    HttpProxy.Owed accepts spec failed s url callback ↔ accepts url = true := by
  constructor
  · intro h
    by_contra hrejected
    obtain ⟨-, hsame, -⟩ := h.rejected (eq_false_of_ne_true hrejected)
    have hmore : OneMore s.page (handleRequest accepts spec failed s url callback).2.page :=
      oneMore_handleRequest s url callback
    exact hmore.not_untouched hsame
  · intro haccepts
    refine ⟨fun hrejected => ?_, fun _ hcallback => ?_⟩
    · rw [haccepts] at hrejected
      cases hrejected
    · refine ⟨?_, oneMore_handleRequest s url callback⟩
      rw [hcallback, handleRequest_accepted haccepts]

/-- The listeners of a `getHttpAuth`. Only a call without a token of its own registers one; the
second attempt of a listener passes the token it has. -/
theorem HttpAuth.page_handleRequest (s : HttpAuth) (p : Params) :
    (handleRequest accepts failed s p).2.page =
      if p.token = none then s.page.register (p.token.getD ("getHttpAuth " ++ p.url))
      else s.page := by
  unfold handleRequest runNWSync
  by_cases htoken : p.token = none <;> by_cases haccepts : accepts p.url <;>
    simp [htoken, haccepts]

theorem HttpAuth.oneMore_iff (s : HttpAuth) (p : Params) :
    OneMore s.page (handleRequest accepts failed s p).2.page ↔ p.token = none := by
  rw [page_handleRequest]
  split
  · rename_i htoken
    exact iff_of_true (register_oneMore ..) htoken
  · rename_i htoken
    exact iff_of_false (fun hmore => hmore.not_untouched (Untouched.refl _)) htoken

theorem HttpAuth.untouched_of_token {s : HttpAuth} {p : Params} (htoken : p.token ≠ none) :
    Untouched s.page (handleRequest accepts failed s p).2.page := by
  rw [page_handleRequest, if_neg htoken]
  exact Untouched.refl _

/-- An accepted request with a function to call back returns `true`, with a token and without one.
-/
theorem HttpAuth.returns_of_accepted {s : HttpAuth} {p : Params} (haccepts : accepts p.url = true)
    (hcallback : p.callback = true) :
    (handleRequest accepts failed s p).1 = .returns true := by
  simp [handleRequest, runNWSync, haccepts, sendRequestSync, answer, hcallback]

/-- A rejected request under a token of its own returns `false` unless its failure is an error, or
a result for a function. -/
theorem HttpAuth.returns_of_rejected_iff {s : HttpAuth} {p : Params}
    (hrejects : accepts p.url = false) (htoken : p.token ≠ none) :
    (handleRequest accepts failed s p).1 = .returns false ↔
      ∃ res, failed [false] = .ok res ∧ ¬ (res.isSome ∧ p.callback) := by
  have hnone : p.token.isNone = false := by
    rw [Option.isNone_eq_false_iff, Option.isSome_iff_ne_none]
    exact htoken
  simp only [handleRequest, runNWSync, hrejects, Bool.false_eq_true, if_false, sendRequestSync,
    hnone]
  cases hfailed : failed [false] with
  | error error => simp [answer]
  | ok res =>
    simp only [answer, Bool.false_eq_true, if_false, Except.ok.injEq, exists_eq_left']
    split
    · rename_i htrue
      exact iff_of_false nofun (not_not.mpr htrue)
    · rename_i hfalse
      exact iff_of_true rfl hfalse

/-- **For `getHttpAuth` the promise is kept exactly under `RequestOk`**, which says for an accepted
and for a rejected request what its token and its answer have to be. -/
theorem HttpAuth.owed_iff (s : HttpAuth) (p : Params) :
    HttpAuth.Owed accepts failed s p ↔ RequestOk accepts failed p := by
  unfold RequestOk
  cases haccepts : accepts p.url with
  | true =>
    rw [if_pos rfl]
    constructor
    · intro h
      rw [or_iff_not_imp_right]
      intro hcallback
      obtain ⟨-, hmore⟩ := h.accepted haccepts (eq_true_of_ne_false hcallback)
      exact (oneMore_iff s p).mp hmore
    · intro hok
      refine ⟨fun hrejected => ?_, fun _ hcallback => ?_⟩
      · rw [haccepts] at hrejected
        cases hrejected
      · -- a request that is accepted is answered through its token
        have htoken := hok.resolve_right (by rw [hcallback]; exact nofun)
        exact ⟨returns_of_accepted haccepts hcallback, (oneMore_iff s p).mpr htoken⟩
  | false =>
    rw [if_neg nofun]
    constructor
    · intro h
      obtain ⟨hreturns, hsame, -⟩ := h.rejected haccepts
      -- without a token the rejected request would have been sent all the same
      have htoken : p.token ≠ none := fun hnone =>
        ((oneMore_iff s p).mpr hnone).not_untouched hsame
      exact ⟨htoken, (returns_of_rejected_iff haccepts htoken).mp hreturns⟩
    · rintro ⟨htoken, hfailed⟩
      refine ⟨fun _ => ⟨(returns_of_rejected_iff haccepts htoken).mpr hfailed,
        untouched_of_token htoken, ?_⟩, ?_⟩
      · simp [handleRequest, runNWSync, haccepts, htoken]
      · intro haccepted
        rw [haccepts] at haccepted
        cases haccepted

end

/-- **Traces of rejected requests.** In every state of the calls that wait, a `getHttpProxy` is what
is promised exactly when its URL is accepted, and a `getHttpAuth` exactly when it meets
`RequestOk`. -/
theorem rejected_requests_iff (accepts : String → Bool) (spec : String → String)
    (failed : List Bool → Except String (Option (List Bool))) :
    (∀ (s : HttpProxy) (url : String) (callback : Bool),
      HttpProxy.Owed accepts spec failed s url callback ↔ accepts url = true) ∧
    ∀ (s : HttpAuth) (p : HttpAuth.Params),
      HttpAuth.Owed accepts failed s p ↔ HttpAuth.RequestOk accepts failed p :=
  ⟨HttpProxy.owed_iff, HttpAuth.owed_iff⟩

/-- The proxy of a file: the call returns `true`, and its listener waits for ever. -/
theorem fileProxy_not_owed :
    ¬ HttpProxy.Owed (fun url => url == "http://a/") id (fun _ => .ok none) {} "file:///a"
      true := by
  intro h
  obtain ⟨hreturns, -⟩ := h.rejected rfl
  cases hreturns

end NodeWebkit.App
