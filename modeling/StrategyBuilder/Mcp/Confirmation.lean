import StrategyBuilder.Mcp.PolicyGate

/-!
# Approvals on the local page

`PendingApprovals` and `LocalhostConfirmationProvider` of `confirmation.ts` under the policy gate. Any
number of actions wait side by side: each has a token of its own in one table, a promise that a request
with this token resolves, and a timer that withdraws the token and rejects.

`approvals_safe`: in every run in which no token is issued twice, an action is approved only by a
request with its own token, before its timer and before any other decision on this token; a token takes
effect once, and an action that is run has been approved itself.
-/

set_option autoImplicit false

namespace StrategyBuilder.Mcp

open StrategyBuilder.Lib
open StrategyBuilder.Lib.Js

/-! ## Requests to the page -/

/-- What the listener reads of a request. -/
structure HttpRequest where
  url : Option String
  method : Option String
  host : Option String

/-- What the human decides. -/
inductive Decision where
  | approve
  | deny
deriving DecidableEq, Repr

/-- What the URL of a decision ends in. -/
def Decision.path : Decision → String
  | .approve => "/approve"
  | .deny => "/deny"

/-- `[0-9a-f]` -/
def isHexDigit (c : Char) : Bool := ('0' ≤ c && c ≤ '9') || ('a' ≤ c && c ≤ 'f')

/-- `/^\/confirm\/([0-9a-f]{64})(?:\/(approve|deny))?$/.exec(url)`: the token and the decision. -/
def matchConfirm (url : String) : Option (String × Option Decision) :=
  let start := "/confirm/".toList
  let cs := url.toList
  if start.isPrefixOf cs then
    let token := (cs.drop start.length).take 64
    let rest := (cs.drop start.length).drop 64
    if token.length = 64 ∧ token.all isHexDigit then
      if rest = [] then some (String.ofList token, none)
      else if rest = "/approve".toList then some (String.ofList token, some .approve)
      else if rest = "/deny".toList then some (String.ofList token, some .deny)
      else none
    else none
  else none

/-- `host.replace(/:\d+$/, '')` -/
def withoutPort (host : String) : String :=
  let cs := host.toList.reverse
  match cs.takeWhile isDigit, cs.dropWhile isDigit with
  | _ :: _, ':' :: rest => String.ofList rest.reverse
  | _, _ => host

/-- A request without a host is let through. -/
def acceptsHost : Option String → Bool
  | none => true
  | some host => withoutPort host = "127.0.0.1" || withoutPort host = "localhost"

/-- The decision that a request makes: its token and whether it approves. -/
def HttpRequest.decision (req : HttpRequest) : Option (String × Bool) :=
  if acceptsHost req.host then
    match matchConfirm (req.url.getD "") with
    | some (token, some d) => if req.method = some "POST" then some (token, d = .approve) else none
    | _ => none
  else none

/-- No host, or one of the machine itself with or without a port. -/
def IsLocal : Option String → Prop
  | none => True
  | some host => ∃ name, (name = "127.0.0.1" ∨ name = "localhost") ∧
      (host = name ∨ ∃ port : String, port ≠ "" ∧ (∀ c ∈ port.toList, isDigit c = true) ∧
        host = name ++ (":" ++ port))

/-- A request that makes a decision: a POST to this machine, with the token and the decision in its
URL. -/
structure HttpRequest.Decides (req : HttpRequest) (token : String) (approve : Bool) : Prop where
  host : IsLocal req.host
  method : req.method = some "POST"
  url : req.url = some ("/confirm/" ++ (token ++ if approve then "/approve" else "/deny"))
  length : token.length = 64
  hex : ∀ c ∈ token.toList, isHexDigit c = true

/-- What the page answers. -/
inductive Page where
  /-- 403 -/
  | forbidden
  /-- 404 -/
  | notFound
  /-- 405 -/
  | methodNotAllowed
  /-- 200, after a decision: the token was taken, or is invalid or used. -/
  | decided (approve taken : Bool)
  /-- 200, the page that asks for the decision. -/
  | confirm (token summary : String)

/-! ## The provider -/

/-- What has happened to the tokens. -/
inductive ConfirmEvent where
  /-- A token is created, with its promise. -/
  | issued (promise : Nat) (token : String)
  /-- A request is handled, with the token that it redeems and how. -/
  | handled (req : HttpRequest) (redeemed : Option (String × Bool))
  /-- The timer of a promise has fired. -/
  | timedOut (promise : Nat)

/-- The state of the provider. Promises are numbered in the order of their creation. -/
structure LocalhostState where
  /-- `#pending`, with the number of the promise that the resolver belongs to. -/
  pending : Map String Nat
  summaries : Map String String
  /-- What `Promise.race([promise, timeout])` has been settled with, for each promise. -/
  races : List (Option (Except Thrown Bool))
  /-- The timers that have not fired. -/
  timers : List (Nat × String)
  log : List ConfirmEvent

namespace LocalhostState

/-- A race that is settled stays as it is. -/
def settle (s : LocalhostState) (promise : Nat) (r : Except Thrown Bool) : LocalhostState :=
  { s with races := s.races.modify promise fun race => race.or (some r) }

/-- `PendingApprovals.create` -/
def create (s : LocalhostState) (token : String) : LocalhostState :=
  { s with
    pending := s.pending.set token s.races.length
    races := s.races ++ [none]
    log := s.log ++ [.issued s.races.length token] }

/-- `PendingApprovals.redeem` -/
def redeem (s : LocalhostState) (token : String) (approved : Bool) : Bool × LocalhostState :=
  match s.pending token with
  | none => (false, s)
  | some promise =>
      (true, settle { s with pending := s.pending.delete token } promise (.ok approved))

/-- `#handleRequest` -/
def handleRequest (s : LocalhostState) (req : HttpRequest) : Page × LocalhostState :=
  if acceptsHost req.host then
    match matchConfirm (req.url.getD "") with
    | none => (.notFound, s)
    -- showing a page decides nothing, whatever the method
    | some (token, none) =>
        (.confirm token ((s.summaries token).getD "(keine Zusammenfassung)"), s)
    | some (token, some d) =>
        if req.method = some "POST" then
          let (ok, s) := s.redeem token (d = .approve)
          (.decided (d = .approve) ok, s)
        else (.methodNotAllowed, s)
  else (.forbidden, s)

/-- The decision that a request takes effect with. -/
def redeemedBy (s : LocalhostState) (req : HttpRequest) : Option (String × Bool) :=
  req.decision.filter fun d => (s.pending d.1).isSome

/-- A request is handled, and logged. -/
def serve (s : LocalhostState) (req : HttpRequest) : LocalhostState :=
  let s' := (s.handleRequest req).2
  { s' with log := s'.log ++ [.handled req (s.redeemedBy req)] }

/-- The callback of `setTimeout`: `#pending.cancel(token)`, and the rejection. -/
def fire (s : LocalhostState) (promise : Nat) : LocalhostState :=
  match s.timers.find? fun t => t.1 = promise with
  | none => s
  | some (_, token) =>
      settle { s with
        pending := s.pending.delete token
        timers := s.timers.filter fun t => t.1 ≠ promise
        log := s.log ++ [.timedOut promise] } promise
          (.error (.error "Error" "confirmation timed out"))

end LocalhostState

/-! ## Actions that wait -/

/-- What an action awaits, and what it does with the provider in between. -/
inductive ConfirmCall where
  | record (entry : AuditEntry)
  | ensureServer
  | create
  | setTimeout (promise : Nat) (token : String)
  | setSummary (token summary : String)
  | race (promise : Nat)
  | deleteSummary (token : String)
  | execute

/-- The type of each answer. -/
abbrev ConfirmCall.Reply (T : Type) : ConfirmCall → Type
  | .create => Nat × String
  | .race _ => Bool
  | .execute => GuardExecuteResult T
  | _ => Unit

variable {T : Type}

/-- A guarded action, with its calls. -/
abbrev ConfirmProgram (T : Type) := Program ConfirmCall (ConfirmCall.Reply T) Thrown

/-- `requestApproval` -/
def requestApproval (T : Type) (req : ConfirmationRequest) : ConfirmProgram T Bool := do
  Program.call ConfirmCall.ensureServer
  let (promise, token) ← Program.call ConfirmCall.create
  Program.call (ConfirmCall.setTimeout promise token)
  Program.call (ConfirmCall.setSummary token req.summary)
  let approved ← tryCatch (Program.call (ConfirmCall.race promise)) fun err => do
    Program.call (ConfirmCall.deleteSummary token)
    throw err
  Program.call (ConfirmCall.deleteSummary token)
  return approved

/-- The gate with the local page as its provider. -/
def localhostGate (T : Type) (config : PolicyConfig) :
    PolicyGate ConfirmCall (ConfirmCall.Reply T) where
  config := config
  requestApproval := requestApproval T
  record entry := Program.call (ConfirmCall.record entry)

/-- A moment: the next token of `randomBytes`, and the answers from outside. -/
structure ConfirmMoment (T : Type) where
  token : String
  reply : (c : ConfirmCall) → Except Thrown (c.Reply T)

/-- What comes from outside. -/
inductive ConfirmInput where
  | request (req : HttpRequest)
  | timer (promise : Nat)

/-- The guarded actions on one provider. -/
def confirmHost (T : Type) (config : PolicyConfig) :
    Host ConfirmCall (ConfirmCall.Reply T) Thrown T GuardedAction LocalhostState (ConfirmMoment T)
      ConfirmInput where
  program action := (localhostGate T config).guard action (Program.call ConfirmCall.execute)
  immediate
    | .create | .setTimeout _ _ | .setSummary _ _ | .deleteSummary _ => true
    | _ => false
  answer m c s :=
    match c with
    | .create => some (.ok (s.races.length, m.token), s.create m.token)
    | .setTimeout promise token =>
        some (.ok (), { s with timers := s.timers ++ [(promise, token)] })
    | .setSummary token summary =>
        some (.ok (), { s with summaries := s.summaries.set token summary })
    | .deleteSummary token => some (.ok (), { s with summaries := s.summaries.delete token })
    -- no answer as long as neither a decision nor the timer has settled it
    | .race promise => (s.races[promise]?.join).map fun r => (r, s)
    | .record entry => some (m.reply (.record entry), s)
    | .ensureServer => some (m.reply .ensureServer, s)
    | .execute => some (m.reply .execute, s)
  outside
    | .request req, s => s.serve req
    | .timer promise, s => s.fire promise

/-! ## What is promised -/

/-- A promise has its token, its timer has not fired, and since the token was issued no request has
made a decision on it. -/
def Undecided (log : List ConfirmEvent) (promise : Nat) (token : String) : Prop :=
  ∃ before after, log = before ++ .issued promise token :: after ∧ .timedOut promise ∉ log ∧
    ∀ req redeemed, .handled req redeemed ∈ after → ∀ b, ¬ req.Decides token b

/-- The first decision on the token of a promise, and it came before the timer. -/
def DecidedInTime (log : List ConfirmEvent) (promise : Nat) (token : String) (b : Bool) : Prop :=
  ∃ before req after, log = before ++ .handled req (some (token, b)) :: after ∧
    req.Decides token b ∧ Undecided before promise token

/-- The tokens that have been issued. -/
def issuedTokens (log : List ConfirmEvent) : List String :=
  log.filterMap fun
    | .issued _ token => some token
    | _ => none

/-- The events in which a token takes effect. -/
def takesEffect (token : String) : ConfirmEvent → Bool
  | .handled _ (some (t, _)) => t = token
  | _ => false

/-- All actions that wait for a decision, and the server. -/
abbrev ConfirmWorld (T : Type) :=
  Processes ConfirmCall (ConfirmCall.Reply T) Thrown T GuardedAction LocalhostState

/-- `requestApproval` has created this promise and token. -/
def Owns (h : List (Answered ConfirmCall (ConfirmCall.Reply T) Thrown)) (promise : Nat)
    (token : String) : Prop :=
  ⟨.create, .ok (promise, token)⟩ ∈ h

/-- `requestApproval` resolves to `true`. -/
def Approved (h : List (Answered ConfirmCall (ConfirmCall.Reply T) Thrown)) (promise : Nat) : Prop :=
  ⟨.race promise, .ok true⟩ ∈ h

/-- What the provider promises of all actions together. -/
structure ApprovalLaw (w : ConfirmWorld T) : Prop where
  approved : ∀ p ∈ w.list, ∀ promise, Approved p.history promise →
    ∃ token, Owns p.history promise token ∧ DecidedInTime w.shared.log promise token true
  once : ∀ token, w.shared.log.countP (takesEffect token) ≤ 1
  executed : ∀ p ∈ w.list, p.job.sensitive = true → p.Calls .execute →
    ∃ promise, Approved p.history promise
  /-- No two actions have a token in common. -/
  own : ∀ (i j : Nat) (hi : i < w.list.length) (hj : j < w.list.length) m n token,
    Owns w.list[i].history m token → Owns w.list[j].history n token → i = j

/-! ## What a request decides -/

/-- A host has no port, or ends in a colon and its digits. -/
theorem withoutPort_cases (host : String) : withoutPort host = host ∨ ∃ port : String, port ≠ "" ∧
    (∀ c ∈ port.toList, isDigit c = true) ∧ host = withoutPort host ++ (":" ++ port) := by
  rw [withoutPort]
  split
  · rename_i d ds rest hdigits hrest
    right
    have hhost : host.toList.reverse = (d :: ds) ++ ':' :: rest := by
      rw [← hdigits, ← hrest, List.takeWhile_append_dropWhile]
    refine ⟨String.ofList (d :: ds).reverse, ?_, ?_, ?_⟩
    · simp
    · intro c hc
      rw [String.toList_ofList, List.mem_reverse, ← hdigits] at hc
      exact List.all_eq_true.1 List.all_takeWhile c hc
    · apply String.toList_inj.1
      rw [← List.reverse_inj, hhost]
      simp
  · exact Or.inl rfl

/-- A port is cut off. -/
theorem withoutPort_append {name port : String} (hport : port ≠ "")
    (hdigits : ∀ c ∈ port.toList, isDigit c = true) : withoutPort (name ++ (":" ++ port)) = name := by
  have hrev : (name ++ (":" ++ port)).toList.reverse =
      port.toList.reverse ++ ':' :: name.toList.reverse := by
    simp
  have hall : ∀ c ∈ port.toList.reverse, isDigit c = true :=
    fun c hc => hdigits c (List.mem_reverse.1 hc)
  have htake : (port.toList.reverse ++ ':' :: name.toList.reverse).takeWhile isDigit =
      port.toList.reverse := by
    rw [List.takeWhile_append_of_pos hall, List.takeWhile_cons_of_neg (by decide), List.append_nil]
  have hdrop : (port.toList.reverse ++ ':' :: name.toList.reverse).dropWhile isDigit =
      ':' :: name.toList.reverse := by
    rw [List.dropWhile_append_of_pos hall, List.dropWhile_cons_of_neg (by decide)]
  have hne : port.toList.reverse ≠ [] := by simpa using hport
  obtain ⟨c, cs, hcs⟩ := List.exists_cons_of_ne_nil hne
  rw [hcs] at hrev htake hdrop
  simp only [withoutPort, hrev, htake, hdrop, List.reverse_reverse, String.ofList_toList]

/-- The hosts that are accepted are the names of this machine, with a port or without. -/
theorem acceptsHost_iff {host : Option String} : acceptsHost host = true ↔ IsLocal host := by
  cases host with
  | none => exact iff_of_true rfl trivial
  | some host =>
    rw [acceptsHost, Bool.or_eq_true, decide_eq_true_iff, decide_eq_true_iff]
    constructor
    · intro h
      rcases withoutPort_cases host with hsame | ⟨port, hport, hdigits, heq⟩
      · exact ⟨withoutPort host, h, Or.inl hsame.symm⟩
      · exact ⟨withoutPort host, h, Or.inr ⟨port, hport, hdigits, heq⟩⟩
    · rintro ⟨name, hname, rfl | ⟨port, hport, hdigits, rfl⟩⟩
      · rcases hname with rfl | rfl
        · exact Or.inl (by decide)
        · exact Or.inr (by decide)
      · rwa [withoutPort_append hport hdigits]

/-- The text of a URL that decides. -/
theorem matchConfirm_eq_some {url token : String} {d : Decision} :
    matchConfirm url = some (token, some d) ↔ url = "/confirm/" ++ (token ++ d.path) ∧
      token.length = 64 ∧ ∀ c ∈ token.toList, isHexDigit c = true := by
  constructor
  · intro h
    simp only [matchConfirm] at h
    split at h
    · rename_i hstart
      obtain ⟨r, hr⟩ := List.isPrefixOf_iff_prefix.1 hstart
      rw [← hr, List.drop_left] at h
      split at h
      · rename_i htoken
        obtain ⟨hlength, hhex⟩ := htoken
        -- the rest says which decision it is
        have hrest : r.drop 64 = d.path.toList ∧ String.ofList (r.take 64) = token := by
          split at h
          · cases h
          · split at h
            · rename_i happrove
              cases h
              exact ⟨happrove, rfl⟩
            · split at h
              · rename_i hdeny
                cases h
                exact ⟨hdeny, rfl⟩
              · cases h
        obtain ⟨hpath, rfl⟩ := hrest
        refine ⟨?_, by rw [String.length_ofList]; exact hlength, ?_⟩
        · apply String.toList_inj.1
          have htoken : (String.ofList (r.take 64)).toList = r.take 64 := String.toList_ofList
          rw [← hr, String.toList_append, String.toList_append, ← hpath, htoken,
            List.take_append_drop]
        · intro c hc
          rw [String.toList_ofList] at hc
          exact List.all_eq_true.1 hhex c hc
      · cases h
    · cases h
  · rintro ⟨rfl, hlength, hhex⟩
    have hcs : ("/confirm/" ++ (token ++ d.path)).toList =
        "/confirm/".toList ++ (token.toList ++ d.path.toList) := by
      rw [String.toList_append, String.toList_append]
    have h64 : token.toList.length = 64 := by rw [String.length_toList]; exact hlength
    have htake : (token.toList ++ d.path.toList).take 64 = token.toList := List.take_left' h64
    have hdrop : (token.toList ++ d.path.toList).drop 64 = d.path.toList := List.drop_left' h64
    have hprefix : "/confirm/".toList.isPrefixOf
        ("/confirm/".toList ++ (token.toList ++ d.path.toList)) = true :=
      List.isPrefixOf_iff_prefix.2 (List.prefix_append _ _)
    simp only [matchConfirm, hcs, hprefix, if_true, List.drop_left, htake, hdrop]
    rw [if_pos ⟨h64, List.all_eq_true.2 hhex⟩, String.ofList_toList]
    cases d with
    | approve => rfl
    | deny => rfl

/-- The listener reads the decisions that are made. -/
theorem HttpRequest.decision_eq_some {req : HttpRequest} {token : String} {b : Bool} :
    req.decision = some (token, b) ↔ req.Decides token b := by
  -- a request without a URL is read as the empty path, which is no decision
  have hurl : ∀ d : Decision, matchConfirm (req.url.getD "") = some (token, some d) ↔
      req.url = some ("/confirm/" ++ (token ++ d.path)) ∧ token.length = 64 ∧
        ∀ c ∈ token.toList, isHexDigit c = true := by
    intro d
    rw [matchConfirm_eq_some]
    cases req.url with
    | none =>
      refine and_congr_left fun _ => iff_of_false ?_ nofun
      intro h
      exact absurd (congrArg String.toList h) (by simp)
    | some url => rw [Option.getD_some, Option.some.injEq]
  constructor
  · intro h
    rw [HttpRequest.decision] at h
    split at h
    · rename_i hhost
      split at h
      · rename_i token' d hmatch
        split at h
        · rename_i hmethod
          cases h
          obtain ⟨heq, hlength, hhex⟩ := (hurl d).1 hmatch
          refine ⟨acceptsHost_iff.1 hhost, hmethod, ?_, hlength, hhex⟩
          cases d with
          | approve => exact heq
          | deny => exact heq
        · cases h
      · cases h
    · cases h
  · rintro ⟨hhost, hmethod, heq, hlength, hhex⟩
    rw [HttpRequest.decision, if_pos (acceptsHost_iff.2 hhost)]
    cases b with
    | true =>
      rw [(hurl .approve).2 ⟨heq, hlength, hhex⟩]
      exact if_pos hmethod
    | false =>
      rw [(hurl .deny).2 ⟨heq, hlength, hhex⟩]
      exact if_pos hmethod

/-- A request makes one decision. -/
theorem HttpRequest.Decides.unique {req : HttpRequest} {token token' : String} {b b' : Bool}
    (h : req.Decides token b) (h' : req.Decides token' b') : token = token' := by
  have heq := (HttpRequest.decision_eq_some.2 h).symm.trans (HttpRequest.decision_eq_some.2 h')
  exact congrArg Prod.fst (Option.some.inj heq)

/-! ## What the provider does -/

namespace LocalhostState

/-- Only the first result of a race counts. -/
theorem settle_races {s : LocalhostState} {promise n : Nat} {r : Except Thrown Bool} :
    (s.settle promise r).races[n]? =
      if promise = n then s.races[n]?.map fun race => race.or (some r) else s.races[n]? := by
  rw [settle, List.getElem?_modify]
  split <;> simp

/-- A request decides an action that waits, or nothing happens. -/
theorem serve_cases (s : LocalhostState) (req : HttpRequest) :
    (s.serve req = { s with log := s.log ++ [.handled req none] } ∧
      ∀ token b, req.Decides token b → s.pending token = none) ∨
    ∃ token b promise, req.Decides token b ∧ s.pending token = some promise ∧
      s.serve req = settle { s with
        pending := s.pending.delete token
        log := s.log ++ [.handled req (some (token, b))] } promise (.ok b) := by
  simp only [← HttpRequest.decision_eq_some]
  cases hdecision : req.decision with
  | none =>
    left
    refine ⟨?_, nofun⟩
    -- what decides nothing leaves the state as it is
    have hsame : (s.handleRequest req).2 = s := by
      rw [handleRequest]
      rw [HttpRequest.decision] at hdecision
      split
      · next hhost =>
        rw [if_pos hhost] at hdecision
        split <;> try rfl
        next token d hmatch =>
        rw [hmatch] at hdecision
        split
        · next hpost => simp [hpost] at hdecision
        · rfl
      · rfl
    simp [serve, hsame, redeemedBy, hdecision]
  | some d =>
    rcases d with ⟨token, b⟩
    -- the decision is the one that `handleRequest` redeems
    have hhandled : (s.handleRequest req).2 = (s.redeem token b).2 := by
      rw [handleRequest]
      rw [HttpRequest.decision] at hdecision
      split at hdecision
      · next hhost =>
        rw [if_pos hhost]
        split at hdecision
        · next token' d hmatch =>
          rw [hmatch]
          split at hdecision
          · next hpost =>
            cases hdecision
            simp [hpost]
          · cases hdecision
        · cases hdecision
      · cases hdecision
    cases hpending : s.pending token with
    | none =>
      left
      constructor
      · simp [serve, hhandled, redeem, hpending, redeemedBy, hdecision]
      · rintro token' b' heq
        cases heq
        exact hpending
    | some promise =>
      right
      refine ⟨token, b, promise, rfl, hpending, ?_⟩
      simp [serve, hhandled, redeem, hpending, redeemedBy, hdecision, settle]

/-- A timer ends an action that waits, or nothing happens. -/
theorem fire_cases (s : LocalhostState) (promise : Nat) :
    s.fire promise = s ∨ ∃ token, (promise, token) ∈ s.timers ∧
      s.fire promise = settle { s with
        pending := s.pending.delete token
        timers := s.timers.filter fun t => t.1 ≠ promise
        log := s.log ++ [.timedOut promise] } promise
          (.error (.error "Error" "confirmation timed out")) := by
  cases hfind : s.timers.find? fun t => t.1 = promise with
  | none =>
    left
    rw [fire, hfind]
  | some t =>
    right
    rcases t with ⟨n, token⟩
    have hn : n = promise := by simpa using List.find?_some hfind
    subst hn
    refine ⟨token, List.mem_of_find?_eq_some hfind, ?_⟩
    rw [fire, hfind]

end LocalhostState

/-! ## The invariant -/

/-- An event that is neither the timer nor a decision leaves an action undecided. -/
theorem Undecided.concat {log : List ConfirmEvent} {promise : Nat} {token : String}
    (h : Undecided log promise token) {e : ConfirmEvent} (htimer : e ≠ .timedOut promise)
    (hrequest : ∀ req redeemed, e = .handled req redeemed → ∀ b, ¬ req.Decides token b) :
    Undecided (log ++ [e]) promise token := by
  obtain ⟨before, after, rfl, hfired, hrequests⟩ := h
  refine ⟨before, after ++ [e], by simp, ?_, ?_⟩
  · intro hmem
    rcases List.mem_append.1 hmem with hmem | hmem
    · exact hfired hmem
    · exact htimer (List.mem_singleton.1 hmem).symm
  · intro req redeemed hmem
    rcases List.mem_append.1 hmem with hmem | hmem
    · exact hrequests req redeemed hmem
    · exact hrequest req redeemed (List.mem_singleton.1 hmem).symm

theorem Undecided.issued {log : List ConfirmEvent} {promise : Nat} {token : String}
    (h : Undecided log promise token) : .issued promise token ∈ log := by
  obtain ⟨before, after, rfl, -⟩ := h
  simp

/-- What was decided in time stays so. -/
theorem DecidedInTime.concat {log : List ConfirmEvent} {promise : Nat} {token : String} {b : Bool}
    (h : DecidedInTime log promise token b) (e : ConfirmEvent) :
    DecidedInTime (log ++ [e]) promise token b := by
  obtain ⟨before, req, after, rfl, hreq⟩ := h
  exact ⟨before, req, after ++ [e], by simp, hreq⟩

/-- Only a token that was issued decides. -/
theorem DecidedInTime.issued {log : List ConfirmEvent} {promise : Nat} {token : String} {b : Bool}
    (h : DecidedInTime log promise token b) : .issued promise token ∈ log := by
  obtain ⟨before, req, after, rfl, -, hbefore⟩ := h
  exact List.mem_append_left _ hbefore.issued

/-- The event hands out this token. -/
def issues (token : String) : ConfirmEvent → Bool
  | .issued _ t => t = token
  | _ => false

namespace LocalhostState

/-- The table, the promises and the timers agree with what has happened. -/
structure Inv (s : LocalhostState) : Prop where
  pending : ∀ token n, s.pending token = some n → Undecided s.log n token ∧ s.races[n]? = some none
  settled : ∀ n b, s.races[n]? = some (some (.ok b)) → ∃ token, DecidedInTime s.log n token b
  issuedLt : ∀ n token, .issued n token ∈ s.log → n < s.races.length
  issuedOnce : ∀ n token token', .issued n token ∈ s.log → .issued n token' ∈ s.log →
    token = token'
  firedLt : ∀ n, .timedOut n ∈ s.log → n < s.races.length
  timers : ∀ n token, (n, token) ∈ s.timers → .issued n token ∈ s.log
  effects : ∀ token, s.log.countP (takesEffect token) + (if (s.pending token).isSome then 1 else 0) ≤
    s.log.countP (issues token)

variable {s : LocalhostState}

/-- A new action keeps the invariant. -/
theorem Inv.create (hs : s.Inv) (token : String) : (s.create token).Inv where
  pending t n ht := by
    simp only [LocalhostState.create] at ht ⊢
    by_cases heq : t = token
    · subst heq
      rw [Map.set_self, Option.some.injEq] at ht
      subst ht
      -- the new promise has the next number, so nothing before is about it
      refine ⟨⟨s.log, [], rfl, ?_, fun req redeemed h => by cases h⟩, by simp⟩
      intro hmem
      rcases List.mem_append.1 hmem with hmem | hmem
      · exact Nat.lt_irrefl _ (hs.firedLt _ hmem)
      · simp at hmem
    · rw [Map.set_of_ne _ _ heq] at ht
      obtain ⟨hundecided, hrace⟩ := hs.pending t n ht
      refine ⟨hundecided.concat (fun heq => by cases heq) (fun req redeemed heq => by cases heq), ?_⟩
      rw [List.getElem?_append_left (List.getElem?_eq_some_iff.1 hrace).1]
      exact hrace
  settled n b h := by
    simp only [LocalhostState.create] at h ⊢
    by_cases hn : n < s.races.length
    · rw [List.getElem?_append_left hn] at h
      obtain ⟨t, ht⟩ := hs.settled n b h
      exact ⟨t, ht.concat _⟩
    · rw [List.getElem?_append_right (by omega)] at h
      cases hk : n - s.races.length with
      | zero => simp [hk] at h
      | succ k => simp [hk] at h
  issuedLt n t h := by
    simp only [LocalhostState.create, List.length_append, List.length_singleton] at h ⊢
    rcases List.mem_append.1 h with h | h
    · have := hs.issuedLt n t h
      omega
    · cases List.mem_singleton.1 h
      omega
  issuedOnce n t t' h h' := by
    simp only [LocalhostState.create] at h h'
    rcases List.mem_append.1 h with h | h
    · rcases List.mem_append.1 h' with h' | h'
      · exact hs.issuedOnce n t t' h h'
      · cases List.mem_singleton.1 h'
        exact absurd (hs.issuedLt _ _ h) (Nat.lt_irrefl _)
    · cases List.mem_singleton.1 h
      rcases List.mem_append.1 h' with h' | h'
      · exact absurd (hs.issuedLt _ _ h') (Nat.lt_irrefl _)
      · cases List.mem_singleton.1 h'
        rfl
  firedLt n h := by
    simp only [LocalhostState.create, List.length_append, List.length_singleton] at h ⊢
    rcases List.mem_append.1 h with h | h
    · have := hs.firedLt n h
      omega
    · cases List.mem_singleton.1 h
  timers n t h := List.mem_append_left _ (hs.timers n t h)
  effects t := by
    have key := hs.effects t
    simp only [LocalhostState.create, List.countP_append, List.countP_singleton]
    by_cases heq : t = token
    · subst heq
      simp [takesEffect, issues]
      omega
    · have hne : token ≠ t := fun h => heq h.symm
      simp [takesEffect, issues, hne, Map.set_of_ne _ _ heq]
      exact key

/-- Two pending tokens have two promises. -/
theorem Inv.promise_ne (hs : s.Inv) {token token' : String} {n n' : Nat}
    (h : .issued n token ∈ s.log) (h' : s.pending token' = some n') (hne : token' ≠ token) :
    n' ≠ n := by
  rintro rfl
  exact hne (hs.issuedOnce n' token' token (hs.pending token' n' h').1.issued h)

/-- A request that decides nothing keeps the invariant. -/
theorem Inv.logged (hs : s.Inv) {req : HttpRequest}
    (hreq : ∀ token b, req.Decides token b → s.pending token = none) :
    Inv { s with log := s.log ++ [.handled req none] } where
  pending t n ht := by
    obtain ⟨hundecided, hrace⟩ := hs.pending t n ht
    refine ⟨hundecided.concat nofun ?_, hrace⟩
    rintro req' redeemed heq b hb
    cases heq
    -- the request would decide a token that waits
    rw [hreq t b hb] at ht
    cases ht
  settled n b h := by
    obtain ⟨t, ht⟩ := hs.settled n b h
    exact ⟨t, ht.concat _⟩
  issuedLt n t h := by
    simp at h
    exact hs.issuedLt n t h
  issuedOnce n t t' h h' := by
    simp at h h'
    exact hs.issuedOnce n t t' h h'
  firedLt n h := by
    simp at h
    exact hs.firedLt n h
  timers n t h := List.mem_append_left _ (hs.timers n t h)
  effects t := by
    have key := hs.effects t
    simp only [List.countP_append, List.countP_singleton, takesEffect, issues]
    exact key

/-- A request that takes effect: the promise was undecided until now. -/
theorem Inv.redeemed (hs : s.Inv) {req : HttpRequest} {token : String} {b : Bool} {promise : Nat}
    (hreq : req.Decides token b) (hpending : s.pending token = some promise) :
    Inv (settle { s with
      pending := s.pending.delete token
      log := s.log ++ [.handled req (some (token, b))] } promise (.ok b)) := by
  obtain ⟨hundecided, hrace⟩ := hs.pending token promise hpending
  constructor
  case pending =>
    intro t n ht
    obtain ⟨hne, ht⟩ := Map.delete_eq_some ht
    -- another token waits for another promise
    have hn := hs.promise_ne hundecided.issued ht hne
    refine ⟨(hs.pending t n ht).1.concat nofun ?_, ?_⟩
    · rintro req' redeemed heq b' hb'
      cases heq
      exact hne (hb'.unique hreq)
    · rw [settle_races, if_neg (Ne.symm hn)]
      exact (hs.pending t n ht).2
  case settled =>
    intro n b' h
    rw [settle_races] at h
    split at h
    · next heq =>
      subst heq
      simp only [hrace] at h
      cases h
      -- this request is the decision
      exact ⟨token, s.log, req, [], rfl, hreq, hundecided⟩
    · obtain ⟨t, ht⟩ := hs.settled n b' h
      exact ⟨t, ht.concat _⟩
  case issuedLt =>
    intro n t h
    simp [settle] at h ⊢
    exact hs.issuedLt n t h
  case issuedOnce =>
    intro n t t' h h'
    simp [settle] at h h'
    exact hs.issuedOnce n t t' h h'
  case firedLt =>
    intro n h
    simp [settle] at h ⊢
    exact hs.firedLt n h
  case timers =>
    intro n t h
    exact List.mem_append_left _ (hs.timers n t h)
  case effects =>
    intro t
    have key := hs.effects t
    simp only [settle, List.countP_append, List.countP_singleton, issues]
    by_cases heq : t = token
    · subst heq
      -- the token leaves `pending` as its one effect is counted
      simp [hpending] at key
      simp [takesEffect]
      exact key
    · have hne : token ≠ t := fun h => heq h.symm
      simp [takesEffect, hne, Map.delete_of_ne _ heq]
      exact key

/-- A request keeps the invariant. -/
theorem Inv.serve (hs : s.Inv) (req : HttpRequest) : (s.serve req).Inv := by
  rcases s.serve_cases req with ⟨hserve, hreq⟩ | ⟨token, b, promise, hreq, hpending, hserve⟩
  · rw [hserve]
    exact hs.logged hreq
  · rw [hserve]
    exact hs.redeemed hreq hpending

/-- A timer keeps the invariant. -/
theorem Inv.fire (hs : s.Inv) (promise : Nat) : (s.fire promise).Inv := by
  rcases s.fire_cases promise with hfire | ⟨token, htimer, hfire⟩
  · rw [hfire]
    exact hs
  rw [hfire]
  have hissued := hs.timers promise token htimer
  constructor
  case pending =>
    intro t n ht
    obtain ⟨hne, ht⟩ := Map.delete_eq_some ht
    have hn := hs.promise_ne hissued ht hne
    refine ⟨(hs.pending t n ht).1.concat ?_ nofun, ?_⟩
    · intro heq
      cases heq
      exact hn rfl
    · rw [settle_races, if_neg (Ne.symm hn)]
      exact (hs.pending t n ht).2
  case settled =>
    intro n b h
    rw [settle_races] at h
    split at h
    · next heq =>
      subst heq
      -- a promise that was settled before keeps its result
      cases hrace : s.races[promise]? with
      | none => simp [hrace] at h
      | some race =>
        cases race with
        | none => simp [hrace] at h
        | some r =>
          simp only [hrace, Option.map_some, Option.some_or, Option.some.injEq] at h
          subst h
          obtain ⟨t, ht⟩ := hs.settled promise b hrace
          exact ⟨t, ht.concat _⟩
    · obtain ⟨t, ht⟩ := hs.settled n b h
      exact ⟨t, ht.concat _⟩
  case issuedLt =>
    intro n t h
    simp [settle] at h ⊢
    exact hs.issuedLt n t h
  case issuedOnce =>
    intro n t t' h h'
    simp [settle] at h h'
    exact hs.issuedOnce n t t' h h'
  case firedLt =>
    intro n h
    simp [settle] at h ⊢
    rcases h with h | rfl
    · exact hs.firedLt n h
    · exact hs.issuedLt n token hissued
  case timers =>
    intro n t h
    exact List.mem_append_left _ (hs.timers n t (List.mem_filter.1 h).1)
  case effects =>
    intro t
    have key := hs.effects t
    simp only [settle, List.countP_append, List.countP_singleton, takesEffect, issues]
    by_cases heq : t = token
    · subst heq
      simp
      exact Nat.le_trans (Nat.le_add_right _ _) key
    · simp [Map.delete_of_ne _ heq]
      exact key

end LocalhostState

/-! ## The actions -/

/-- The calls of an action with their answers. -/
abbrev ConfirmHistory (T : Type) := List (Answered ConfirmCall (ConfirmCall.Reply T) Thrown)

/-- What the calls of an action keep to: it waits for its own promise, and it is run only after an
approval. -/
def ConfirmKeeps (action : GuardedAction) (h : ConfirmHistory T) : ConfirmCall → Prop
  | .setTimeout promise token => Owns h promise token
  | .race promise => ∃ token, Owns h promise token
  | .execute => action.sensitive = true → ∃ promise, Approved h promise
  | _ => True

theorem record_keeps {config : PolicyConfig} {action : GuardedAction} (entry : AuditEntry)
    {I : ConfirmHistory T → Prop} {h : ConfirmHistory T} (hI : ∀ r, I (h ++ [⟨.record entry, r⟩])) :
    ((localhostGate T config).record entry).Always (ConfirmKeeps action) (fun h' _ => I h') h :=
  ⟨trivial, hI⟩

/-- An approval comes from a decision. -/
theorem requestApproval_keeps (action : GuardedAction) (h : ConfirmHistory T) :
    (requestApproval T action.request).Always (ConfirmKeeps action)
      (fun h' r => True ∧ (r = .ok true → ∃ promise, Approved h' promise)) h := by
  have hthrow : ∀ (h : ConfirmHistory T) (e : Thrown), True ∧ ((.error e : Except Thrown Bool) =
      .ok true → ∃ promise, Approved h promise) := fun _ _ => ⟨trivial, nofun⟩
  apply Program.Always.call_bind trivial _ fun e => hthrow _ e
  intro _
  apply Program.Always.call_bind trivial _ fun e => hthrow _ e
  rintro ⟨promise, token⟩
  have howns : ∀ h' : ConfirmHistory T, Owns (h' ++ [⟨.create, .ok (promise, token)⟩]) promise token :=
    fun h' => List.mem_append_right _ (List.mem_singleton_self _)
  apply Program.Always.call_bind (howns _) _ fun e => hthrow _ e
  intro _
  apply Program.Always.call_bind trivial _ fun e => hthrow _ e
  intro _
  -- The promise is awaited; whatever it gives, the summary is deleted.
  apply Program.Always.bind (Q := fun h' r => r = .ok true → ∃ promise, Approved h' promise)
  · apply Program.Always.tryCatch
      (S := fun h' r => r = .ok true → ∃ promise, Approved h' promise)
    · refine ⟨⟨token, List.mem_append_left _ (List.mem_append_left _ (howns _))⟩, ?_⟩
      rintro r rfl
      exact ⟨promise, List.mem_append_right _ (List.mem_singleton_self _)⟩
    · intro h' a ha
      exact ha
    · intro h' e _
      exact ⟨trivial, fun r => by cases r <;> exact nofun⟩
  · intro h' approved happroved
    apply Program.Always.call_bind trivial _ fun e => hthrow _ e
    intro _
    refine ⟨trivial, ?_⟩
    intro heq
    obtain ⟨n, hn⟩ := happroved heq
    exact ⟨n, List.mem_append_left _ hn⟩
  · intro h' e _
    exact hthrow h' e

/-- An action is executed after its approval only. -/
theorem action_keeps (config : PolicyConfig) (action : GuardedAction) :
    ((confirmHost T config).program action).Always (ConfirmKeeps action) (fun _ _ => True) [] := by
  apply Always.guard (fun _ => True) (fun h => ∃ promise, Approved h promise)
  · intro entry h _ _
    apply record_keeps entry
      (I := fun h' => True ∧ ((∃ promise, Approved h promise) → ∃ promise, Approved h' promise))
    intro r
    exact ⟨trivial, fun ⟨n, hn⟩ => ⟨n, List.mem_append_left _ hn⟩⟩
  · intro h _
    exact requestApproval_keeps action h
  · intro h _ _ hgranted
    exact ⟨hgranted, fun _ => trivial⟩
  · intro entry h
    exact record_keeps (I := fun _ => True) entry fun _ => trivial
  · trivial

/-- How far an action has come. -/
abbrev ConfirmTrack (T : Type) := Host.Track ConfirmCall (ConfirmCall.Reply T) Thrown GuardedAction

/-- The answers that the actions have agree with the provider. -/
structure AnswersAgree (s : LocalhostState) (rs : List (ConfirmTrack T)) : Prop where
  owned : ∀ track ∈ rs, ∀ n token, Owns track.2 n token → .issued n token ∈ s.log
  raced : ∀ track ∈ rs, ∀ n, Approved track.2 n → s.races[n]? = some (some (.ok true))
  unshared : ∀ (i j : Nat) (track track' : ConfirmTrack T), rs[i]? = some track →
    rs[j]? = some track' → ∀ n token token', Owns track.2 n token → Owns track'.2 n token' → i = j

namespace AnswersAgree

variable {s s' : LocalhostState} {rs : List (ConfirmTrack T)}

theorem mono (h : AnswersAgree s rs) (hlog : ∀ e ∈ s.log, e ∈ s'.log)
    (hraces : ∀ n : Nat, s.races[n]? = some (some (.ok true)) →
      s'.races[n]? = some (some (.ok true))) :
    AnswersAgree s' rs where
  owned track ht n token hn := hlog _ (h.owned track ht n token hn)
  raced track ht n hn := hraces n (h.raced track ht n hn)
  unshared := h.unshared

theorem start (h : AnswersAgree s rs) (action : GuardedAction) :
    AnswersAgree s (rs ++ [(action, [])]) := by
  -- the new action has no history yet
  have hmem : ∀ track ∈ rs ++ [(action, [])], track ∈ rs ∨ track.2 = [] := by
    intro track ht
    rcases List.mem_append.1 ht with ht | ht
    · exact Or.inl ht
    · rw [List.mem_singleton.1 ht]
      exact Or.inr rfl
  have hget : ∀ (i : Nat) track, (rs ++ [(action, [])])[i]? = some track →
      rs[i]? = some track ∨ track.2 = [] := by
    intro i track ht
    rw [List.getElem?_append] at ht
    split at ht
    · exact Or.inl ht
    · rw [List.mem_singleton.1 (List.mem_of_getElem? ht)]
      exact Or.inr rfl
  refine ⟨?_, ?_, ?_⟩
  · intro track ht n token hn
    rcases hmem track ht with ht | ht
    · exact h.owned track ht n token hn
    · rw [ht] at hn
      cases hn
  · intro track ht n hn
    rcases hmem track ht with ht | ht
    · exact h.raced track ht n hn
    · rw [ht] at hn
      cases hn
  · intro i j track track' hi hj n token token' hn hn'
    rcases hget i track hi with hi | hi
    · rcases hget j track' hj with hj | hj
      · exact h.unshared i j track track' hi hj n token token' hn hn'
      · rw [hj] at hn'
        cases hn'
    · rw [hi] at hn
      cases hn

/-- The answer to a call is noted. -/
theorem answered (h : AnswersAgree s rs) {i : Nat} {action : GuardedAction}
    {history : ConfirmHistory T} (hi : rs[i]? = some (action, history)) {c : ConfirmCall}
    {r : Except Thrown (c.Reply T)}
    (hcreate : ∀ n token, Owns [⟨c, r⟩] n token →
      .issued n token ∈ s.log ∧ ∀ track ∈ rs, ∀ token', ¬ Owns track.2 n token')
    (hrace : ∀ n, Approved [⟨c, r⟩] n → s.races[n]? = some (some (.ok true))) :
    AnswersAgree s (rs.set i (action, history ++ [⟨c, r⟩])) := by
  have hself := List.mem_of_getElem? hi
  have hget : ∀ (k : Nat) track, (rs.set i (action, history ++ [⟨c, r⟩]))[k]? = some track →
      (k = i ∧ track = (action, history ++ [⟨c, r⟩])) ∨ (k ≠ i ∧ rs[k]? = some track) := by
    intro k track hk
    rw [List.getElem?_set] at hk
    split at hk
    · next heq =>
      subst heq
      split at hk
      · cases hk
        exact Or.inl ⟨rfl, rfl⟩
      · cases hk
    · next hne => exact Or.inr ⟨Ne.symm hne, hk⟩
  refine ⟨?_, ?_, ?_⟩
  · intro track ht n token hn
    rcases List.mem_or_eq_of_mem_set ht with ht | rfl
    · exact h.owned track ht n token hn
    · rcases List.mem_append.1 hn with hn | hn
      · exact h.owned _ hself n token hn
      · exact (hcreate n token hn).1
  · intro track ht n hn
    rcases List.mem_or_eq_of_mem_set ht with ht | rfl
    · exact h.raced track ht n hn
    · rcases List.mem_append.1 hn with hn | hn
      · exact h.raced _ hself n hn
      · exact hrace n hn
  · intro k l track track' hk hl n token token' hn hn'
    -- The promise may be new in one of the two histories, but it is in no other one.
    rcases hget k track hk with ⟨rfl, rfl⟩ | ⟨hki, hkold⟩
    · rcases hget l track' hl with ⟨rfl, rfl⟩ | ⟨hli, hl⟩
      · rfl
      · rcases List.mem_append.1 hn with hn | hn
        · exact h.unshared _ _ _ _ hi hl n token token' hn hn'
        · exact absurd hn' ((hcreate n token hn).2 track' (List.mem_of_getElem? hl) token')
    · rcases hget l track' hl with ⟨rfl, rfl⟩ | ⟨hli, hl⟩
      · rcases List.mem_append.1 hn' with hn' | hn'
        · exact h.unshared _ _ _ _ hkold hi n token token' hn hn'
        · exact absurd hn ((hcreate n token' hn').2 track (List.mem_of_getElem? hkold) token)
      · exact h.unshared _ _ _ _ hkold hl n token token' hn hn'

/-- The answer to a call that neither creates nor awaits a promise. -/
theorem answered_other (h : AnswersAgree s rs) {i : Nat} {action : GuardedAction}
    {history : ConfirmHistory T} (hi : rs[i]? = some (action, history)) {c : ConfirmCall}
    (r : Except Thrown (c.Reply T)) (hcreate : c ≠ .create) (hrace : ∀ n, c ≠ .race n) :
    AnswersAgree s (rs.set i (action, history ++ [⟨c, r⟩])) := by
  apply h.answered hi
  · intro n token hn
    exact absurd (congrArg Answered.call (List.mem_singleton.1 hn)).symm hcreate
  · intro n hn
    exact absurd (congrArg Answered.call (List.mem_singleton.1 hn)).symm (hrace n)

end AnswersAgree

/-- The provider and the answers of its actions. -/
structure ConfirmInv (s : LocalhostState) (rs : List (ConfirmTrack T)) : Prop where
  state : s.Inv
  agree : AnswersAgree s rs

theorem settle_keeps {s : LocalhostState} {promise n : Nat} {r r' : Except Thrown Bool}
    (h : s.races[n]? = some (some r)) : (s.settle promise r').races[n]? = some (some r) := by
  rw [LocalhostState.settle_races]
  split
  · rw [h]
    rfl
  · exact h

theorem ConfirmInv.outside {s : LocalhostState} {rs : List (ConfirmTrack T)} (h : ConfirmInv s rs)
    (config : PolicyConfig) (k : ConfirmInput) : ConfirmInv ((confirmHost T config).outside k s) rs := by
  cases k with
  | request req =>
    refine ⟨h.state.serve req, h.agree.mono ?_ ?_⟩
    · intro e he
      rcases s.serve_cases req with ⟨hserve, -⟩ | ⟨token, b, promise, -, -, hserve⟩
      all_goals
        simp only [confirmHost, hserve]
        exact List.mem_append_left _ he
    · intro n hn
      rcases s.serve_cases req with ⟨hserve, -⟩ | ⟨token, b, promise, -, -, hserve⟩
      · simp only [confirmHost, hserve]
        exact hn
      · simp only [confirmHost, hserve]
        exact settle_keeps hn
  | timer promise =>
    refine ⟨h.state.fire promise, h.agree.mono ?_ ?_⟩
    · intro e he
      rcases s.fire_cases promise with hfire | ⟨token, -, hfire⟩
      · simp only [confirmHost, hfire]
        exact he
      · simp only [confirmHost, hfire]
        exact List.mem_append_left _ he
    · intro n hn
      rcases s.fire_cases promise with hfire | ⟨token, -, hfire⟩
      · simp only [confirmHost, hfire]
        exact hn
      · simp only [confirmHost, hfire]
        exact settle_keeps hn

theorem ConfirmInv.create {s : LocalhostState} {rs : List (ConfirmTrack T)} (h : ConfirmInv s rs)
    (token : String) {i : Nat} {action : GuardedAction} {history : ConfirmHistory T}
    (hi : rs[i]? = some (action, history)) :
    ConfirmInv (s.create token)
      (rs.set i (action, history ++ [⟨.create, .ok (s.races.length, token)⟩])) := by
  refine ⟨h.state.create token, ?_⟩
  have hmono : AnswersAgree (s.create token) rs := by
    apply h.agree.mono
    · intro e he
      exact List.mem_append_left _ he
    · intro n hn
      simp only [LocalhostState.create]
      rw [List.getElem?_append_left (List.getElem?_eq_some_iff.1 hn).1]
      exact hn
  apply hmono.answered hi
  · intro n token' hn
    cases List.mem_singleton.1 hn
    refine ⟨List.mem_append_right _ (List.mem_singleton_self _), ?_⟩
    intro track ht token'' hn
    exact absurd (h.state.issuedLt _ _ (h.agree.owned track ht _ _ hn)) (Nat.lt_irrefl _)
  · intro n hn
    cases List.mem_singleton.1 hn

/-- What the run rule of the host asks for. -/
theorem confirm_obligations (config : PolicyConfig) :
    Host.Obligations (confirmHost T config) ConfirmInv ConfirmKeeps (fun _ _ _ => True) where
  program action := action_keeps config action
  outside s rs k h := h.outside config k
  start s rs action h := ⟨h.state, h.agree.start action⟩
  answer s rs m i action history c r s' h hi hc hanswer := by
    have hstate := h.state
    cases c with
    -- `create` and `race` are the two answers that the law is about
    | create =>
      cases hanswer
      exact h.create m.token hi
    | race promise =>
      cases hrace : s.races[promise]?.join with
      | none => simp [confirmHost, hrace] at hanswer
      | some r' =>
        simp only [confirmHost, hrace, Option.map_some, Option.some.injEq, Prod.mk.injEq] at hanswer
        obtain ⟨rfl, rfl⟩ := hanswer
        refine ⟨hstate, h.agree.answered hi ?_ ?_⟩
        · intro n token hn
          cases List.mem_singleton.1 hn
        · intro n hn
          cases List.mem_singleton.1 hn
          simpa [Option.join_eq_some_iff] using hrace
    -- the other calls touch the timers, the summaries, or nothing
    | setTimeout promise token =>
      cases hanswer
      refine ⟨{ hstate with timers := ?_ }, ?_⟩
      · intro n t ht
        rcases List.mem_append.1 ht with ht | ht
        · exact hstate.timers n t ht
        · cases List.mem_singleton.1 ht
          exact h.agree.owned _ (List.mem_of_getElem? hi) _ _ hc
      · have hagree : AnswersAgree
            { s with timers := s.timers ++ [(promise, token)] } rs :=
          h.agree.mono (fun _ he => he) fun _ hn => hn
        exact hagree.answered_other (c := .setTimeout promise token) hi (.ok ())
          (fun heq => by cases heq) fun n heq => by cases heq
    | setSummary token summary =>
      cases hanswer
      have hagree : AnswersAgree { s with summaries := s.summaries.set token summary } rs :=
        h.agree.mono (fun _ he => he) fun _ hn => hn
      exact ⟨{ hstate with },
        hagree.answered_other (c := .setSummary token summary) hi (.ok ())
          (fun heq => by cases heq) fun n heq => by cases heq⟩
    | deleteSummary token =>
      cases hanswer
      have hagree : AnswersAgree { s with summaries := s.summaries.delete token } rs :=
        h.agree.mono (fun _ he => he) fun _ hn => hn
      exact ⟨{ hstate with },
        hagree.answered_other (c := .deleteSummary token) hi (.ok ())
          (fun heq => by cases heq) fun n heq => by cases heq⟩
    | record entry =>
      cases hanswer
      exact ⟨hstate, h.agree.answered_other hi _ (fun heq => by cases heq) fun n heq => by cases heq⟩
    | ensureServer =>
      cases hanswer
      exact ⟨hstate, h.agree.answered_other hi _ (fun heq => by cases heq) fun n heq => by cases heq⟩
    | execute =>
      cases hanswer
      exact ⟨hstate, h.agree.answered_other hi _ (fun heq => by cases heq) fun n heq => by cases heq⟩

/-! ## Approvals -/

namespace LocalhostState

/-- Nothing waits for a decision. -/
def initial : LocalhostState where
  pending := Map.empty
  summaries := Map.empty
  races := []
  timers := []
  log := []

/-- At the start nothing waits. -/
theorem initial_inv : initial.Inv where
  pending token n h := by cases h
  settled n b h := by cases h
  issuedLt n token h := by cases h
  issuedOnce n token token' h := by cases h
  firedLt n h := by cases h
  timers n token h := by cases h
  effects token := Nat.le_refl 0

end LocalhostState

@[simp] theorem issuedTokens_issued (n : Nat) (token : String) (log : List ConfirmEvent) :
    issuedTokens (.issued n token :: log) = token :: issuedTokens log := rfl

@[simp] theorem issuedTokens_handled (req : HttpRequest) (redeemed : Option (String × Bool))
    (log : List ConfirmEvent) : issuedTokens (.handled req redeemed :: log) = issuedTokens log := rfl

@[simp] theorem issuedTokens_timedOut (n : Nat) (log : List ConfirmEvent) :
    issuedTokens (.timedOut n :: log) = issuedTokens log := rfl

/-- A token is as often issued as it is in the list. -/
theorem issuedTokens_count (token : String) (log : List ConfirmEvent) :
    (issuedTokens log).count token = log.countP (issues token) := by
  induction log with
  | nil => rfl
  | cons e log ih =>
    rw [List.countP_cons, ← ih]
    cases e with
    | issued n t => simp [issues, List.count_cons]
    | handled req redeemed => simp [issues]
    | timedOut n => simp [issues]

theorem mem_issuedTokens {log : List ConfirmEvent} {n : Nat} {token : String}
    (h : .issued n token ∈ log) : token ∈ issuedTokens log :=
  List.mem_filterMap.2 ⟨_, h, rfl⟩

/-- A token that is issued once has one promise. -/
theorem promise_unique {log : List ConfirmEvent} (h : (issuedTokens log).Nodup) {m n : Nat}
    {token : String} (hm : .issued m token ∈ log) (hn : .issued n token ∈ log) : m = n := by
  induction log with
  | nil => cases hm
  | cons e log ih =>
    cases e with
    | issued k t =>
      rw [issuedTokens_issued, List.nodup_cons] at h
      rcases List.mem_cons.1 hm with hmk | hmlog
      · rcases List.mem_cons.1 hn with hnk | hnlog
        · cases hmk
          cases hnk
          rfl
        · cases hmk
          exact absurd (mem_issuedTokens hnlog) h.1
      · rcases List.mem_cons.1 hn with hnk | hnlog
        · cases hnk
          exact absurd (mem_issuedTokens hmlog) h.1
        · exact ih h.2 hmlog hnlog
    | handled req redeemed => exact ih h (by simpa using hm) (by simpa using hn)
    | timedOut k => exact ih h (by simpa using hm) (by simpa using hn)

/-- The provider on its own, before any action. -/
def confirmStart (T : Type) : ConfirmWorld T := ⟨LocalhostState.initial, []⟩

/-- The actions and the provider after a run. -/
def confirmRun (T : Type) (config : PolicyConfig)
    (run : List (HostStep GuardedAction (ConfirmMoment T) ConfirmInput)) : ConfirmWorld T :=
  Transition.run (confirmHost T config).step (confirmStart T) run

/-- The invariant holds after every run. -/
theorem confirmRun_inv (config : PolicyConfig)
    (run : List (HostStep GuardedAction (ConfirmMoment T) ConfirmInput)) :
    Host.Inv (confirmHost T config) ConfirmInv ConfirmKeeps (fun _ _ _ => True)
      (confirmRun T config run) := by
  apply Host.run_inv (confirm_obligations config)
  refine ⟨LocalhostState.initial_inv, ?_⟩
  exact ⟨nofun, nofun, nofun⟩

/-- In every run in which no token is issued twice, approvals are not crossed, replayed or late. -/
theorem approvals_safe (config : PolicyConfig)
    (run : List (HostStep GuardedAction (ConfirmMoment T) ConfirmInput))
    (htokens : (issuedTokens (confirmRun T config run).shared.log).Nodup) :
    ApprovalLaw (confirmRun T config run) := by
  obtain ⟨⟨hstate, hagree⟩, hkeeps⟩ := confirmRun_inv config run
  constructor
  case approved =>
    intro p hp promise happroved
    obtain ⟨before, after, hhistory⟩ := List.append_of_mem happroved
    obtain ⟨token, howns⟩ := (hkeeps p hp).past before _ after hhistory
    have howns : Owns p.history promise token := by
      rw [hhistory]
      exact List.mem_append_left _ howns
    obtain ⟨token', hdecided⟩ :=
      hstate.settled promise true (hagree.raced _ (Host.mem_tracks hp) promise happroved)
    -- the decision was on the promise's own token, as each promise has one
    have hissued := hagree.owned _ (Host.mem_tracks hp) promise token howns
    refine ⟨token, howns, ?_⟩
    rw [hstate.issuedOnce promise token token' hissued hdecided.issued]
    exact hdecided
  case once =>
    intro token
    -- no more effects than tokens issued, and none is issued twice
    calc (confirmRun T config run).shared.log.countP (takesEffect token)
        ≤ (confirmRun T config run).shared.log.countP (issues token) :=
          Nat.le_trans (Nat.le_add_right _ _) (hstate.effects token)
      _ = (issuedTokens (confirmRun T config run).shared.log).count token :=
          (issuedTokens_count token _).symm
      _ ≤ 1 := List.nodup_iff_count_le_one.1 htokens token
  case executed =>
    intro p hp hsensitive hcalls
    obtain ⟨before, ⟨after, hbefore⟩, hkept⟩ := (hkeeps p hp).calls hcalls
    obtain ⟨promise, happroved⟩ := hkept hsensitive
    refine ⟨promise, ?_⟩
    rw [← hbefore]
    exact List.mem_append_left _ happroved
  case own =>
    intro i j hi hj m n token hm hn
    have hmissued := hagree.owned _ (Host.mem_tracks (List.getElem_mem hi)) m token hm
    have hnissued := hagree.owned _ (Host.mem_tracks (List.getElem_mem hj)) n token hn
    -- one token, one promise, one action
    obtain rfl := promise_unique htokens hmissued hnissued
    exact hagree.unshared i j _ _ (Host.getElem?_tracks hi) (Host.getElem?_tracks hj) m token token
      hm hn

/-- The moment of a token, at which all calls succeed. -/
def sampleMoment (c : Char) : ConfirmMoment String where
  token := String.ofList (List.replicate 64 c)
  reply
    | .execute => .ok { result := "0x0a", txHash := some "0xf1" }
    | .create => .error (.error "Error" "not asked")
    | .race _ => .error (.error "Error" "not asked")
    | .record _ | .ensureServer | .setTimeout _ _ | .setSummary _ _ | .deleteSummary _ => .ok ()

/-- The button of the page of a token. -/
def approveRequest (c : Char) : HttpRequest where
  url := some (String.ofList ("/confirm/".toList ++ List.replicate 64 c ++ "/approve".toList))
  method := some "POST"
  host := some "127.0.0.1:40123"

/-- Two vaults are asked for; the second one is approved. -/
def sampleApprovals : List (HostStep GuardedAction (ConfirmMoment String) ConfirmInput) :=
  [.start sampleAction (sampleMoment 'a'), .start sampleAction (sampleMoment 'b'),
    .resume 0 (sampleMoment 'a'), .resume 1 (sampleMoment 'b'),
    .resume 0 (sampleMoment 'a'), .resume 1 (sampleMoment 'b'),
    .outside (.request (approveRequest 'b')), .resume 0 (sampleMoment 'a'),
    .resume 1 (sampleMoment 'b'), .resume 1 (sampleMoment 'b'), .resume 1 (sampleMoment 'b')]

/-- Only the second action is run. -/
theorem approvals_safe_sample :
    ApprovalLaw (confirmRun String ⟨false⟩ sampleApprovals) ∧
      (confirmRun String ⟨false⟩ sampleApprovals).list.map
        (fun p => p.history.any fun a => a.call matches .execute) = [false, true] :=
  ⟨approvals_safe ⟨false⟩ sampleApprovals (by decide), by decide⟩

end StrategyBuilder.Mcp
