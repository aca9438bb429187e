import StrategyBuilder.Lib.Transition

/-!
# The session of the web page

`api.ts` with `auth-context.tsx`: the tokens in the local storage of the browser, the wallet that the
page shows as signed in, and requests that run side by side. A request whose access token has expired
refreshes it and is sent once more; if that fails, the session ends. Logins, logouts and reloads come at
any time.

The storage is changed when an answer arrives, whatever has become of the session since. So a refresh
that was begun in a session may put its token into the next one. Every request carries a token of the
wallet that is shown if and only if this does not happen (`session_iff`).
-/

set_option autoImplicit false

namespace StrategyBuilder.Frontend

open StrategyBuilder.Lib.Transition

/-! ## The page -/

/-- The items of `localStorage`. -/
structure Storage where
  accessToken : Option String
  refreshToken : Option String
  walletAddress : Option String
deriving DecidableEq

/-- An item that is there and not empty. -/
def set? (item : Option String) : Option String := item.filter (· ≠ "")

/-- What is on its way: `apiFetch` at its first request, at the refresh and at its second request, and a
login up to the answer of `/auth/verify`. -/
inductive Task where
  | request
  | refresh (refreshToken : String)
  | retry
  | login (walletAddress : String)
deriving DecidableEq

/-- A request of `apiFetch`: its token, and the wallet that the page shows. -/
structure Sent where
  token : Option String
  shown : Option String
deriving DecidableEq

/-- The storage, what the page shows, and the requests that are under way. -/
structure Session where
  storage : Storage
  isAuthenticated : Bool
  address : Option String
  tasks : List Task
  /-- The requests, in order. -/
  sent : List Sent
deriving DecidableEq

/-- Requests, their answers, logins and logouts, in any order. -/
inductive SessionEvent where
  | apiFetch
  /-- The answer to a first request; `expired` is the status 401 with `TOKEN_EXPIRED`. -/
  | answered (task : Nat) (expired : Bool)
  /-- The answer to a refresh, `none` if it is refused or fails. -/
  | refreshed (task : Nat) (accessToken : Option String)
  | retried (task : Nat)
  | login (walletAddress : String)
  /-- The end of a login, with the tokens if it succeeds. -/
  | loggedIn (task : Nat) (tokens : Option (String × String))
  | logout
  | reload

namespace Session

variable (s : Session)

/-- The effect of a new page. -/
def load (storage : Storage) (sent : List Sent) : Session :=
  let shown := if (set? storage.accessToken).isSome ∧ (set? storage.walletAddress).isSome then
    storage.walletAddress else none
  ⟨storage, shown.isSome, shown, [], sent⟩

/-- `clearAuth`: nothing is stored, and nobody is signed in. -/
def clearAuth : Session :=
  { s with storage := ⟨none, none, none⟩, isAuthenticated := false, address := none }

/-- A request is sent, with a token and under the wallet that is shown. -/
def send (token : Option String) (task : Task) : Session :=
  { s with tasks := s.tasks ++ [task], sent := s.sent ++ [⟨token, s.address⟩] }

/-- A request has been answered. -/
def finish (i : Nat) : Session := { s with tasks := s.tasks.eraseIdx i }

/-- `silentRefresh` up to its request; without a refresh token it fails at once. -/
def silentRefresh : Session :=
  match set? s.storage.refreshToken with
  | none => s.clearAuth
  | some refreshToken => { s with tasks := s.tasks ++ [.refresh refreshToken] }

/-- One event. A request that is answered by `TOKEN_EXPIRED` refreshes first. -/
def step (s : Session) : SessionEvent → Session
  | .apiFetch => s.send (set? s.storage.accessToken) .request
  | .answered i expired =>
      match s.tasks[i]? with
      | some .request => if expired then (s.finish i).silentRefresh else s.finish i
      | _ => s
  | .refreshed i accessToken =>
      match s.tasks[i]?, accessToken with
      | some (.refresh _), none => (s.finish i).clearAuth
      | some (.refresh _), some accessToken =>
          -- whatever has become of the session meanwhile
          let s := s.finish i
          { s with storage := { s.storage with accessToken := some accessToken } }.send
            (some accessToken) .retry
      | _, _ => s
  | .retried i =>
      match s.tasks[i]? with
      | some .retry => s.finish i
      | _ => s
  | .login walletAddress => { s with tasks := s.tasks ++ [.login walletAddress] }
  | .loggedIn i tokens =>
      match s.tasks[i]?, tokens with
      | some (.login _), none => s.finish i
      | some (.login walletAddress), some (accessToken, refreshToken) =>
          { s.finish i with
            storage := ⟨some accessToken, some refreshToken, some walletAddress⟩
            isAuthenticated := true
            address := some walletAddress }
      | _, _ => s
  | .logout => s.clearAuth
  | .reload => load s.storage s.sent

end Session

/-! ## The server -/

/-- What the tokens of the server stand for: the address that an access token carries, and the one whose
login has stored a refresh token. -/
structure Tokens where
  sub : String → Option String
  owner : String → Option String

namespace Session

/-- A login hands out an access token and a refresh token of the wallet that signs in, which is
connected; a refresh hands out a token of the owner of the refresh token. No access token is empty. -/
def Served (server : Tokens) (s : Session) : SessionEvent → Prop
  | .refreshed i (some accessToken) => ∀ refreshToken, s.tasks[i]? = some (.refresh refreshToken) →
      accessToken ≠ "" ∧ server.sub accessToken = server.owner refreshToken ∧
        server.owner refreshToken ≠ none
  | .login walletAddress => walletAddress ≠ ""
  | .loggedIn i (some (accessToken, refreshToken)) => ∀ walletAddress,
      s.tasks[i]? = some (.login walletAddress) → accessToken ≠ "" ∧
        server.sub accessToken = some walletAddress ∧ server.owner refreshToken = some walletAddress
  | _ => True

/-- A refresh that succeeds is for the wallet that is shown by then. -/
def InSession (server : Tokens) (s : Session) : SessionEvent → Prop
  | .refreshed i (some _) => ∀ refreshToken, s.tasks[i]? = some (.refresh refreshToken) →
      server.owner refreshToken = s.address
  | _ => True

/-- What is stored, the refresh token included, is of the wallet that is shown, and so was every
request. -/
structure Own (server : Tokens) (s : Session) : Prop where
  shown : s.address = s.storage.walletAddress
  authenticated : s.isAuthenticated = s.address.isSome
  token : ∀ accessToken, s.storage.accessToken = some accessToken →
    accessToken ≠ "" ∧ server.sub accessToken = s.address ∧ s.address ≠ none
  refresh : ∀ refreshToken, s.storage.refreshToken = some refreshToken →
    server.owner refreshToken = s.address ∧ s.address ≠ none
  signed : ∀ walletAddress, s.address = some walletAddress →
    walletAddress ≠ "" ∧ s.storage.accessToken ≠ none
  logins : ∀ walletAddress, .login walletAddress ∈ s.tasks → walletAddress ≠ ""
  sent : ∀ request ∈ s.sent, ∀ accessToken, request.token = some accessToken →
    server.sub accessToken = request.shown ∧ request.shown ≠ none

section Own

variable {server : Tokens} {s : Session}

/-- Tasks other than logins come and go. -/
theorem Own.tasks (h : s.Own server) {tasks : List Task}
    (hlogins : ∀ walletAddress, .login walletAddress ∈ tasks → walletAddress ≠ "") :
    Own server { s with tasks := tasks } :=
  ⟨h.shown, h.authenticated, h.token, h.refresh, h.signed, hlogins, h.sent⟩

theorem Own.finish (h : s.Own server) (i : Nat) : (s.finish i).Own server :=
  h.tasks fun walletAddress hmem => h.logins walletAddress (List.mem_of_mem_eraseIdx hmem)

/-- A new request keeps what is stored the wallet's own. -/
theorem Own.addTask (h : s.Own server) {task : Task}
    (htask : ∀ walletAddress, task = .login walletAddress → walletAddress ≠ "") :
    Own server { s with tasks := s.tasks ++ [task] } := by
  refine h.tasks fun walletAddress hmem => ?_
  rcases List.mem_append.1 hmem with hmem | hmem
  · exact h.logins walletAddress hmem
  · exact htask walletAddress (List.mem_singleton.1 hmem).symm

/-- What is cleared belongs to nobody. -/
theorem Own.clearAuth (h : s.Own server) : s.clearAuth.Own server := by
  refine ⟨rfl, rfl, ?_, ?_, ?_, h.logins, h.sent⟩
  · intro accessToken htoken
    cases htoken
  · intro refreshToken htoken
    cases htoken
  · intro walletAddress haddress
    cases haddress

/-- A request with a token of the wallet that is shown, or without one. -/
theorem Own.send (h : s.Own server) {token : Option String} {task : Task}
    (htask : ∀ walletAddress, task ≠ .login walletAddress)
    (htoken : ∀ accessToken, token = some accessToken →
      server.sub accessToken = s.address ∧ s.address ≠ none) : (s.send token task).Own server := by
  have hadded : Own server { s with tasks := s.tasks ++ [task] } :=
    h.addTask fun walletAddress heq => absurd heq (htask walletAddress)
  refine ⟨hadded.shown, hadded.authenticated, hadded.token, hadded.refresh, hadded.signed,
    hadded.logins, ?_⟩
  intro request hmem
  rcases List.mem_append.1 hmem with hmem | hmem
  · exact h.sent request hmem
  · rw [List.mem_singleton.1 hmem]
    exact htoken

theorem set?_eq_some {item : Option String} {value : String} :
    set? item = some value ↔ item = some value ∧ value ≠ "" := by
  rw [set?, Option.filter_eq_some_iff]
  simp

theorem Own.silentRefresh (h : s.Own server) : s.silentRefresh.Own server := by
  rw [Session.silentRefresh]
  split
  · exact h.clearAuth
  · exact h.addTask fun _ heq => nomatch heq

/-- A new page shows the wallet of the session that is stored. -/
theorem Own.load (h : s.Own server) : (load s.storage s.sent).Own server := by
  have hshown : (if (set? s.storage.accessToken).isSome ∧ (set? s.storage.walletAddress).isSome then
      s.storage.walletAddress else none) = s.address := by
    cases haddress : s.address with
    | none =>
      rw [← h.shown, haddress]
      split
      · rfl
      · rfl
    | some walletAddress =>
      obtain ⟨hne, hstored⟩ := h.signed walletAddress haddress
      obtain ⟨accessToken, htoken⟩ := Option.ne_none_iff_exists'.1 hstored
      rw [← h.shown, haddress, if_pos]
      rw [set?_eq_some.2 ⟨htoken, (h.token accessToken htoken).1⟩, set?_eq_some.2 ⟨rfl, hne⟩]
      exact ⟨rfl, rfl⟩
  rw [Session.load, hshown]
  exact ⟨h.shown, rfl, h.token, h.refresh, h.signed, nofun, h.sent⟩

/-- Where no refresh is answered, nothing is asked. -/
theorem inSession_of_ne {i : Nat} {accessToken : Option String}
    (h : ∀ refreshToken, s.tasks[i]? ≠ some (.refresh refreshToken)) :
    s.InSession server (.refreshed i accessToken) := by
  cases accessToken with
  | none => trivial
  | some accessToken => exact fun refreshToken hi => (h refreshToken hi).elim

/-- A refresh that succeeds sends its token at once, so the wallet shown by then has to be its owner. -/
theorem Own.refreshed_iff (h : s.Own server) {i : Nat} {refreshToken accessToken : String}
    (hi : s.tasks[i]? = some (.refresh refreshToken))
    (he : s.Served server (.refreshed i (some accessToken))) :
    (s.step (.refreshed i (some accessToken))).Own server ↔
      s.InSession server (.refreshed i (some accessToken)) := by
  obtain ⟨hne, hsub, howner⟩ := he refreshToken hi
  simp only [Session.step, hi]
  constructor
  · intro hown refreshToken' hi'
    rw [hi] at hi'
    cases hi'
    -- the second request is the last one
    have hlast := hown.sent ⟨some accessToken, s.address⟩
      (List.mem_append_right _ (List.mem_singleton_self _)) accessToken rfl
    rw [← hsub]
    exact hlast.1
  · intro hin
    have hshown := hin refreshToken hi
    have htoken : server.sub accessToken = s.address ∧ s.address ≠ none := by
      rw [hsub, ← hshown]
      exact ⟨rfl, howner⟩
    have hfinished := h.finish i
    refine Own.send ?_ nofun ?_
    · refine ⟨hfinished.shown, hfinished.authenticated, ?_, hfinished.refresh, ?_, hfinished.logins,
        hfinished.sent⟩
      · intro other hother
        cases hother
        exact ⟨hne, htoken⟩
      · intro walletAddress haddress
        exact ⟨(h.signed walletAddress haddress).1, Option.some_ne_none accessToken⟩
    · intro other hother
      cases hother
      exact htoken

/-- The end of a login, whatever session it replaces. -/
theorem Own.loggedIn (h : s.Own server) {i : Nat} {tokens : Option (String × String)}
    (he : s.Served server (.loggedIn i tokens)) : (s.step (.loggedIn i tokens)).Own server := by
  cases hi : s.tasks[i]? with
  | none => simpa only [Session.step, hi] using h
  | some task =>
    cases task with
    | request | retry | refresh => simpa only [Session.step, hi] using h
    | login walletAddress =>
      rcases tokens with - | ⟨accessToken, refreshToken⟩
      · simpa only [Session.step, hi] using h.finish i
      · obtain ⟨hne, hsub, howner⟩ := he walletAddress hi
        simp only [Session.step, hi]
        refine ⟨rfl, rfl, ?_, ?_, ?_, (h.finish i).logins, h.sent⟩
        · intro other hother
          cases hother
          exact ⟨hne, hsub, Option.some_ne_none walletAddress⟩
        · intro other hother
          cases hother
          exact ⟨howner, Option.some_ne_none walletAddress⟩
        · intro other hother
          cases hother
          exact ⟨h.logins walletAddress (List.mem_of_getElem? hi), Option.some_ne_none accessToken⟩

/-- **Which events keep the session**: all but a refresh that succeeds for another wallet than the one
shown. -/
theorem Own.step_iff (h : s.Own server) {e : SessionEvent} (he : s.Served server e) :
    (s.step e).Own server ↔ s.InSession server e := by
  cases e with
  | apiFetch =>
    refine iff_of_true (h.send nofun ?_) trivial
    intro accessToken htoken
    exact (h.token accessToken (set?_eq_some.1 htoken).1).2
  -- an expired token is not replaced before the refresh is answered
  | answered i expired =>
    refine iff_of_true ?_ trivial
    rw [Session.step]
    split
    · split
      · exact (h.finish i).silentRefresh
      · exact h.finish i
    · exact h
  | refreshed i accessToken =>
    cases hi : s.tasks[i]? with
    | none =>
      refine iff_of_true (by simpa only [Session.step, hi] using h) (inSession_of_ne ?_)
      simp [hi]
    | some task =>
      cases task with
      | request | retry | login =>
        refine iff_of_true (by simpa only [Session.step, hi] using h) (inSession_of_ne ?_)
        simp [hi]
      -- the one task whose answer can be for another session
      | refresh refreshToken =>
        cases accessToken with
        | none =>
          simp only [Session.step, hi]
          exact iff_of_true (h.finish i).clearAuth trivial
        | some accessToken => exact h.refreshed_iff hi he
  | retried i =>
    refine iff_of_true ?_ trivial
    rw [Session.step]
    split
    · exact h.finish i
    · exact h
  | login walletAddress =>
    refine iff_of_true (h.addTask ?_) trivial
    rintro _ heq
    cases heq
    exact he
  | loggedIn i tokens => exact iff_of_true (h.loggedIn he) trivial
  | logout => exact iff_of_true h.clearAuth trivial
  | reload => exact iff_of_true h.load trivial

end Own
end Session

/-- **When the session of a page is its own**: in all states of a run, what is stored and every request
are of the wallet that is shown, if and only if every refresh that succeeds is for the wallet that is
shown when its answer arrives. -/
theorem session_iff {server : Tokens} {s : Session} (hs : s.Own server) {events : List SessionEvent}
    (h : Admitted Session.step (Session.Served server) s events) :
    (∀ past, past <+: events → (run Session.step s past).Own server) ↔
      Admitted Session.step (Session.InSession server) s events :=
  forall_prefix_iff (fun _ _ hown he => hown.step_iff he) hs h

/-- Nobody has signed in. -/
def noSession : Session := ⟨⟨none, none, none⟩, false, none, [], []⟩

theorem own_noSession (server : Tokens) : noSession.Own server :=
  ⟨rfl, rfl, nofun, nofun, nofun, nofun, nofun⟩

/-- A server that has given out two tokens of one wallet. -/
def sampleTokens : Tokens where
  sub accessToken := if accessToken = "first" ∨ accessToken = "second" then some "0xA" else none
  owner refreshToken := if refreshToken = "refresh" then some "0xA" else none

/-- A login, and a request whose token has expired. -/
def sampleEvents : List SessionEvent :=
  [.login "0xA", .loggedIn 0 (some ("first", "refresh")), .apiFetch, .answered 0 true]

theorem session_iff_sample :
    (∀ past, past <+: sampleEvents ++ [.refreshed 0 (some "second"), .reload] →
      (run Session.step noSession past).Own sampleTokens) ↔
    Admitted Session.step (Session.InSession sampleTokens) noSession
      (sampleEvents ++ [.refreshed 0 (some "second"), .reload]) := by
  refine session_iff (own_noSession sampleTokens) ?_
  refine ⟨(by decide : "0xA" ≠ ""), ?_, trivial, trivial, ?_, trivial, trivial⟩
  · rintro _ ⟨⟩
    exact ⟨by decide, rfl, rfl⟩
  · rintro _ ⟨⟩
    exact ⟨by decide, rfl, by decide⟩

-- the token of a refresh that ends after the logout is stored and sent
example : (run Session.step noSession (sampleEvents ++ [.logout, .refreshed 0 (some "second")])).sent =
    [⟨some "first", some "0xA"⟩, ⟨some "second", none⟩] := rfl

end StrategyBuilder.Frontend
