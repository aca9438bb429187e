import Mathlib.Algebra.BigOperators.Group.List.Basic
import Mathlib.Algebra.Order.BigOperators.Group.List
import StrategyBuilder.Lib.Js
import StrategyBuilder.Lib.Program

/-!
# Logins

`auth.service.ts` with `signature.service.ts` and `user.service.ts`: requests for nonces, logins and
refreshes run side by side on one database, and each of them is interrupted at every access to it. An
access may fail, before it has had its effect or after. The SIWE library, `getAddress` and the hash are
parameters.

`logins_safe`: in every run, a nonce logs in once at most, with a login that was begun before the nonce
expired, and the tokens carry the address that signed the message with this nonce; a refresh carries the
address of the login whose token it shows. `login_after_expiry`: such a login may end after the expiry.
-/

set_option autoImplicit false

namespace StrategyBuilder.Backend.Auth

open StrategyBuilder.Lib
open StrategyBuilder.Lib.Js

/-! ## What the services call -/

/-- An `UnauthorizedException`, or another error. -/
inductive AuthError where
  | unauthorized (message : String)
  | internal
deriving DecidableEq

/-- The fields of a parsed message that the service reads. -/
structure SiweMessage where
  domain : String
  nonce : String

/-- What `verify` of the library answers. -/
structure SiweResponse where
  success : Bool
  /-- `data.address` -/
  address : String
  error : Option String

/-- What the library says of a signature. -/
structure SiweVerifyResult where
  success : Bool
  address : Option String
  error : Option String

/-- The library at any moment. -/
structure SiweLibrary where
  /-- `new SiweMessage(message)`, if it does not throw. -/
  parse : String → Option SiweMessage
  verify : Int → (message signature domain nonce : String) → Except AuthError SiweResponse

/-- The settings of the service, and the libraries that it calls. -/
structure AuthConfig where
  nonceExpirySeconds : Int
  refreshTokenExpiryDays : Int
  /-- `new URL(frontendUrl).host` -/
  expectedDomain : String
  siwe : SiweLibrary
  /-- `getAddress` of ethers, if it does not throw. -/
  getAddress : String → Option String
  sha256 : String → String

/-- A row of the users. -/
structure User where
  walletAddress : String
  lastLoginAt : Int

/-- A row of the refresh tokens, under the hash of the token. -/
structure RefreshToken where
  walletAddress : String
  expiresAt : Int

/-- What the service awaits: the clock, random bytes, the library, and the tables. -/
inductive AuthCall where
  /-- `Date.now()` -/
  | now
  /-- `randomBytes(n).toString('hex')` -/
  | randomBytes (n : Nat)
  | createNonce (nonce : String) (expiresAt : Int)
  /-- `updateMany` to `used`, where the nonce is not used and has not expired. -/
  | consumeNonce (nonce : String) (time : Int)
  | siweVerify (message signature domain nonce : String)
  | upsertUser (walletAddress : String) (time : Int)
  | createRefreshToken (tokenHash walletAddress : String) (expiresAt : Int)
  | findRefreshToken (tokenHash : String)

/-- The type of each answer. -/
abbrev AuthCall.Reply : AuthCall → Type
  | .now => Int
  | .randomBytes _ => String
  | .createNonce _ _ => Unit
  | .consumeNonce _ _ => Nat
  | .siweVerify _ _ _ _ => SiweResponse
  | .upsertUser _ _ => User
  | .createRefreshToken _ _ _ => Unit
  | .findRefreshToken _ => Option RefreshToken

/-- A handler of the service, with its calls. -/
abbrev AuthProgram := Program AuthCall AuthCall.Reply AuthError

/-- The calls of a handler with their answers. -/
abbrev AuthHistory := List (Answered AuthCall AuthCall.Reply AuthError)

/-! ## The services -/

/-- What a JWT carries. -/
structure AccessToken where
  sub : String
deriving DecidableEq

/-- The answer to a login. -/
structure LoginTokens where
  accessToken : AccessToken
  refreshToken : String
deriving DecidableEq

/-- `generateNonce`: the nonce is written with its expiry, and returned. -/
def generateNonce (config : AuthConfig) : AuthProgram String := do
  let nonce ← Program.call (AuthCall.randomBytes 16)
  let now ← Program.call AuthCall.now
  Program.call (AuthCall.createNonce nonce (now + config.nonceExpirySeconds * 1000))
  return nonce

/-- `SignatureService.verify` -/
def signatureVerify (config : AuthConfig) (message signature expectedDomain expectedNonce : String) :
    AuthProgram SiweVerifyResult :=
  tryCatch
    (match config.siwe.parse message with
    | none => throw .internal
    | some _ => do
        let result ←
          Program.call (AuthCall.siweVerify message signature expectedDomain expectedNonce)
        if result.success then return ⟨true, some result.address, none⟩
        else return ⟨false, none, some (result.error.getD "Unknown error")⟩)
    fun _ => pure ⟨false, none, some "Failed to parse SIWE message"⟩

/-- `UserService.findOrCreate` -/
def findOrCreate (config : AuthConfig) (walletAddress : String) : AuthProgram User :=
  match config.getAddress walletAddress with
  | none => throw .internal
  | some checksummed => do
      let now ← Program.call AuthCall.now
      Program.call (AuthCall.upsertUser checksummed now)

/-- The end of `verify`. -/
def issueTokens (config : AuthConfig) (user : User) : AuthProgram LoginTokens := do
  let refreshToken ← Program.call (AuthCall.randomBytes 32)
  let now ← Program.call AuthCall.now
  Program.call (AuthCall.createRefreshToken (config.sha256 refreshToken) user.walletAddress
    (now + config.refreshTokenExpiryDays * 24 * 60 * 60 * 1000))
  return ⟨⟨user.walletAddress⟩, refreshToken⟩

/-- `verify`: the nonce is consumed before the signature is looked at. -/
def verify (config : AuthConfig) (message signature : String) : AuthProgram LoginTokens :=
  match config.siwe.parse message with
  | none => throw .internal
  | some parsed => do
      let now ← Program.call AuthCall.now
      let count ← Program.call (AuthCall.consumeNonce parsed.nonce now)
      -- unknown, used or expired
      if count = 0 then throw (.unauthorized "NONCE_INVALID")
      let result ← signatureVerify config message signature config.expectedDomain parsed.nonce
      match result.success, result.address with
      | true, some address =>
          if address = "" then throw (.unauthorized "SIGNATURE_INVALID")
          let user ← findOrCreate config address
          issueTokens config user
      | _, _ => throw (.unauthorized "SIGNATURE_INVALID")

/-- `refresh`: an access token for the wallet of the row, while it is not expired. -/
def refresh (config : AuthConfig) (refreshToken : String) : AuthProgram AccessToken := do
  let stored ← Program.call (AuthCall.findRefreshToken (config.sha256 refreshToken))
  match stored with
  | none => throw (.unauthorized "REFRESH_TOKEN_INVALID")
  | some stored =>
      let now ← Program.call AuthCall.now
      if stored.expiresAt < now then throw (.unauthorized "REFRESH_TOKEN_INVALID")
      return ⟨stored.walletAddress⟩

/-! ## The database -/

/-- A row of the nonces. -/
structure NonceRow where
  expiresAt : Int
  used : Bool

/-- The clock and the tables. Nonces, wallet addresses and hashes are unique. -/
structure AuthState where
  now : Int
  nonces : Map String NonceRow
  users : Map String User
  refreshTokens : Map String RefreshToken

namespace AuthState

variable (s : AuthState)

/-- A nonce is unique, so that the second row of one throws. -/
def createNonce (nonce : String) (expiresAt : Int) : Except AuthError Unit × AuthState :=
  match s.nonces nonce with
  | some _ => (.error .internal, s)
  | none => (.ok (), { s with nonces := s.nonces.set nonce ⟨expiresAt, false⟩ })

/-- The rows that `updateMany` changes are counted: at most one has the nonce. -/
def consumeNonce (nonce : String) (time : Int) : Except AuthError Nat × AuthState :=
  match s.nonces nonce with
  | none => (.ok 0, s)
  | some row =>
      if row.used = false ∧ time < row.expiresAt then
        (.ok 1, { s with nonces := s.nonces.set nonce { row with used := true } })
      else (.ok 0, s)

/-- The row of the wallet, new or with the time of this login. -/
def upsertUser (walletAddress : String) (time : Int) : Except AuthError User × AuthState :=
  let user := match s.users walletAddress with
    | none => ⟨walletAddress, time⟩
    | some user => { user with lastLoginAt := time }
  (.ok user, { s with users := s.users.set walletAddress user })

/-- The hash of a token is unique as well. -/
def createRefreshToken (tokenHash walletAddress : String) (expiresAt : Int) :
    Except AuthError Unit × AuthState :=
  match s.refreshTokens tokenHash with
  | some _ => (.error .internal, s)
  | none => (.ok (),
      { s with refreshTokens := s.refreshTokens.set tokenHash ⟨walletAddress, expiresAt⟩ })

/-- An access that fails after its effect (`some true`) or before it (`some false`). -/
def access {α : Type} (fault : Option Bool) (done : Except AuthError α × AuthState) :
    Except AuthError α × AuthState :=
  match fault with
  | none => done
  | some true => (.error .internal, done.2)
  | some false => (.error .internal, s)

end AuthState

/-! ## The server -/

/-- What is asked of the service. -/
inductive AuthJob where
  | generateNonce
  | verify (message signature : String)
  | refresh (refreshToken : String)

/-- What the service answers. -/
inductive AuthResult where
  | nonce (nonce : String)
  | login (tokens : LoginTokens)
  | access (accessToken : AccessToken)
deriving DecidableEq

/-- The handler that serves a request. -/
def AuthJob.program (config : AuthConfig) : AuthJob → AuthProgram AuthResult
  | .generateNonce => do
      let nonce ← Auth.generateNonce config
      return .nonce nonce
  | .verify message signature => do
      let tokens ← Auth.verify config message signature
      return .login tokens
  | .refresh refreshToken => do
      let accessToken ← Auth.refresh config refreshToken
      return .access accessToken

/-- A moment: the next random bytes, and whether the access to the database fails. -/
structure AuthMoment where
  random : String
  fault : Option Bool

/-- The requests on one database; from outside the clock goes on. -/
def authHost (config : AuthConfig) :
    Host AuthCall AuthCall.Reply AuthError AuthResult AuthJob AuthState AuthMoment Nat where
  program := AuthJob.program config
  immediate
    | .now | .randomBytes _ => true
    | _ => false
  answer m c s :=
    match c with
    | .now => some (.ok s.now, s)
    | .randomBytes _ => some (.ok m.random, s)
    | .createNonce nonce expiresAt => some (s.access m.fault (s.createNonce nonce expiresAt))
    | .consumeNonce nonce time => some (s.access m.fault (s.consumeNonce nonce time))
    | .siweVerify message signature domain nonce =>
        some (config.siwe.verify s.now message signature domain nonce, s)
    | .upsertUser walletAddress time => some (s.access m.fault (s.upsertUser walletAddress time))
    | .createRefreshToken tokenHash walletAddress expiresAt =>
        some (s.access m.fault (s.createRefreshToken tokenHash walletAddress expiresAt))
    | .findRefreshToken tokenHash => some (s.access m.fault (.ok (s.refreshTokens tokenHash), s))
  outside elapsed s := { s with now := s.now + elapsed }

/-- A request in progress. -/
abbrev AuthProcess := Process AuthCall AuthCall.Reply AuthError AuthResult AuthJob

/-- All requests, and the tables that they share. -/
abbrev AuthWorld := Processes AuthCall AuthCall.Reply AuthError AuthResult AuthJob AuthState

/-! ## What is promised -/

/-- The library only accepts what the address has signed, for this domain and this nonce. -/
def SiweLibrary.Sound (siwe : SiweLibrary) (signed : (address message : String) → Prop) : Prop :=
  ∀ time message signature domain nonce response,
    siwe.verify time message signature domain nonce = .ok response → response.success = true →
    signed response.address message ∧ ∃ parsed, siwe.parse message = some parsed ∧
      parsed.domain = domain ∧ parsed.nonce = nonce

/-- A request has ended with a login. -/
def LogsIn (p : AuthProcess) (tokens : LoginTokens) : Prop := p.rest = .done (.ok (.login tokens))

/-- The nonce of a login. -/
def nonceOf (config : AuthConfig) : AuthJob → Option String
  | .verify message _ => (config.siwe.parse message).map SiweMessage.nonce
  | _ => none

/-- A request that has ended with a login by this nonce. -/
def loggedIn (config : AuthConfig) (nonce : String) (p : AuthProcess) : Bool :=
  match p.rest with
  | .done (.ok (.login _)) => nonceOf config p.job = some nonce
  | _ => false

/-- The nonce has been issued with this expiry. -/
def Issued (w : AuthWorld) (nonce : String) (expiresAt : Int) : Prop :=
  ∃ p ∈ w.list, p.job = .generateNonce ∧ p.Calls (.createNonce nonce expiresAt)

/-- The address that `walletAddress` is the checksummed form of has signed the message, which carries
the expected domain. -/
def SignedFor (config : AuthConfig) (signed : (address message : String) → Prop)
    (message walletAddress : String) : Prop :=
  ∃ address parsed, signed address message ∧ config.getAddress address = some walletAddress ∧
    config.siwe.parse message = some parsed ∧ parsed.domain = config.expectedDomain

/-- What a login promises: the message was signed by the address of its tokens, the nonce of the message
was issued, and at the first reading of the clock it had not expired. -/
structure GoodLogin (config : AuthConfig) (signed : (address message : String) → Prop) (w : AuthWorld)
    (p : AuthProcess) (message : String) (tokens : LoginTokens) : Prop where
  signed : SignedFor config signed message tokens.accessToken.sub
  nonce : ∃ nonce row time, nonceOf config p.job = some nonce ∧ w.shared.nonces nonce = some row ∧
    Issued w nonce row.expiresAt ∧ p.history.head? = some ⟨.now, .ok time⟩ ∧ time < row.expiresAt
  refreshToken : ∃ row, w.shared.refreshTokens (config.sha256 tokens.refreshToken) = some row ∧
    row.walletAddress = tokens.accessToken.sub

/-- A login has stored this hash for this address. -/
def StoredBy (config : AuthConfig) (signed : (address message : String) → Prop) (w : AuthWorld)
    (tokenHash walletAddress : String) : Prop :=
  ∃ p ∈ w.list, ∃ message signature expiresAt, p.job = .verify message signature ∧
    p.Calls (.createRefreshToken tokenHash walletAddress expiresAt) ∧
    SignedFor config signed message walletAddress

/-- What every run of the service keeps: a nonce signs in once, each login is that of a signature,
and each access token goes back to a login. -/
structure AuthLaw (config : AuthConfig) (signed : (address message : String) → Prop) (w : AuthWorld) :
    Prop where
  once : ∀ nonce, w.list.countP (loggedIn config nonce) ≤ 1
  login : ∀ p ∈ w.list, ∀ message signature tokens, p.job = .verify message signature →
    LogsIn p tokens → GoodLogin config signed w p message tokens
  /-- The address is that of the login that stored the token, and of every login that handed it out. -/
  refresh : ∀ p ∈ w.list, ∀ refreshToken accessToken, p.job = .refresh refreshToken →
    p.rest = .done (.ok (.access accessToken)) →
    StoredBy config signed w (config.sha256 refreshToken) accessToken.sub ∧
    ∀ q ∈ w.list, ∀ tokens, LogsIn q tokens → tokens.refreshToken = refreshToken →
      tokens.accessToken.sub = accessToken.sub

/-! ## The programs -/

/-- A login has consumed the nonce, at the first reading of its clock. -/
def Consumed (h : AuthHistory) (nonce : String) : Prop :=
  ∃ time count, h.head? = some ⟨.now, .ok time⟩ ∧ ⟨.consumeNonce nonce time, .ok count⟩ ∈ h ∧ count ≠ 0

/-- The signature of a login has been accepted. -/
def Verified (config : AuthConfig) (message signature : String) (h : AuthHistory)
    (nonce address : String) :
    Prop :=
  ∃ response, ⟨.siweVerify message signature config.expectedDomain nonce, .ok response⟩ ∈ h ∧
    response.success = true ∧ response.address = address

/-- Nonce and signature have been checked, and `user` is the row of the address. -/
structure Authenticated (config : AuthConfig) (message signature : String) (h : AuthHistory)
    (user : User) : Prop where
  checked : ∃ parsed address checksummed time, config.siwe.parse message = some parsed ∧
    Consumed h parsed.nonce ∧ Verified config message signature h parsed.nonce address ∧
    config.getAddress address = some checksummed ∧ ⟨.upsertUser checksummed time, .ok user⟩ ∈ h

/-- What the calls of a request keep to. -/
def AuthKeeps (config : AuthConfig) (job : AuthJob) (h : AuthHistory) : AuthCall → Prop
  | .createNonce _ _ => job = .generateNonce
  | .createRefreshToken _ walletAddress _ => ∃ message signature user,
      job = .verify message signature ∧ Authenticated config message signature h user ∧
      walletAddress = user.walletAddress
  | _ => True

/-- What the end of a request keeps to. -/
def AuthEnds (config : AuthConfig) (job : AuthJob) (h : AuthHistory) :
    Except AuthError AuthResult → Prop
  | .ok (.login tokens) => ∃ message signature user expiresAt, job = .verify message signature ∧
      Authenticated config message signature h user ∧
      ⟨.createRefreshToken (config.sha256 tokens.refreshToken) tokens.accessToken.sub expiresAt,
        .ok ()⟩ ∈ h ∧ tokens.accessToken.sub = user.walletAddress
  | .ok (.access accessToken) => ∃ refreshToken row, job = .refresh refreshToken ∧
      ⟨.findRefreshToken (config.sha256 refreshToken), .ok (some row)⟩ ∈ h ∧
      accessToken.sub = row.walletAddress
  | _ => True

section Keeps

variable {config : AuthConfig} {job : AuthJob} {h h' : AuthHistory} {message signature : String}

theorem Consumed.mono {nonce : String} (hc : Consumed h nonce) (hlater : h <+: h') :
    Consumed h' nonce := by
  obtain ⟨time, count, hhead, hmem, hcount⟩ := hc
  obtain ⟨rest, rfl⟩ := hlater
  refine ⟨time, count, ?_, List.mem_append_left _ hmem, hcount⟩
  rw [List.head?_append, hhead]
  rfl

theorem Verified.mono {nonce address : String}
    (hv : Verified config message signature h nonce address) (hlater : h <+: h') :
    Verified config message signature h' nonce address := by
  obtain ⟨response, hmem, hresponse⟩ := hv
  exact ⟨response, hlater.subset hmem, hresponse⟩

theorem Authenticated.mono {user : User} (ha : Authenticated config message signature h user)
    (hlater : h <+: h') : Authenticated config message signature h' user := by
  obtain ⟨parsed, address, checksummed, time, hparse, hconsumed, hverified, hget, hmem⟩ := ha
  exact ⟨parsed, address, checksummed, time, hparse, hconsumed.mono hlater,
    hverified.mono hlater, hget, hlater.subset hmem⟩

/-- A nonce is created with the expiry that the clock gives. -/
theorem generateNonce_keeps :
    (generateNonce config).Always (AuthKeeps config .generateNonce) (fun _ _ => True) h := by
  apply Program.Always.call_bind trivial
  · intro nonce
    apply Program.Always.call_bind trivial
    · intro now
      apply Program.Always.call_bind rfl
      · intro _
        trivial
      · intro _
        trivial
    · intro _
      trivial
  · intro _
    trivial

/-- The library is asked once, and only its success is a success. -/
theorem signatureVerify_keeps (nonce : String) :
    (signatureVerify config message signature config.expectedDomain nonce).Always
      (AuthKeeps config job)
      (fun h' r => h <+: h' ∧ ∀ address error, r = .ok ⟨true, some address, error⟩ →
        Verified config message signature h' nonce address) h := by
  apply Program.Always.tryCatch (S := fun h' r => h <+: h' ∧ ∀ address error,
    r = .ok ⟨true, some address, error⟩ → Verified config message signature h' nonce address)
  · split
    · exact ⟨List.prefix_refl _, nofun⟩
    · apply Program.Always.call_bind trivial
      · intro response
        split
        · next hsuccess =>
          refine ⟨List.prefix_append .., ?_⟩
          rintro address error ⟨⟩
          exact ⟨response, List.mem_append_right _ (List.mem_singleton_self _), hsuccess, rfl⟩
        · exact ⟨List.prefix_append .., nofun⟩
      · intro e
        exact ⟨List.prefix_append .., nofun⟩
  · intro h' a hh'
    exact hh'
  · intro h' e hh'
    exact ⟨hh'.1, nofun⟩

/-- The user that is found is that of the address in its checksummed form. -/
theorem findOrCreate_keeps (address : String) :
    (findOrCreate config address).Always (AuthKeeps config job)
      (fun h' r => h <+: h' ∧ ∀ user, r = .ok user → ∃ checksummed time,
        config.getAddress address = some checksummed ∧
        ⟨.upsertUser checksummed time, .ok user⟩ ∈ h') h := by
  rw [findOrCreate]
  split
  · exact ⟨List.prefix_refl _, nofun⟩
  next checksummed hget =>
  apply Program.Always.call_bind trivial
  · intro now
    refine ⟨trivial, fun r => ⟨?_, ?_⟩⟩
    · rw [List.append_assoc]
      exact List.prefix_append ..
    · rintro user rfl
      exact ⟨checksummed, now, hget, List.mem_append_right _ (List.mem_singleton_self _)⟩
  · intro e
    exact ⟨List.prefix_append .., nofun⟩

/-- Tokens are issued to a user who has been authenticated. -/
theorem issueTokens_keeps {user : User} (ha : Authenticated config message signature h user) :
    (issueTokens config user).Always (AuthKeeps config (.verify message signature))
      (fun h' r => ∀ tokens, r = .ok tokens →
        AuthEnds config (.verify message signature) h' (.ok (.login tokens))) h := by
  apply Program.Always.call_bind trivial
  · intro refreshToken
    apply Program.Always.call_bind trivial
    · intro now
      rw [List.append_assoc]
      apply Program.Always.call_bind
      · exact ⟨message, signature, user, rfl, ha.mono (List.prefix_append ..), rfl⟩
      · rintro ⟨⟩ tokens ⟨⟩
        refine ⟨message, signature, user, now + config.refreshTokenExpiryDays * 24 * 60 * 60 * 1000,
          rfl, ?_, ?_, rfl⟩
        · rw [List.append_assoc]
          exact ha.mono (List.prefix_append ..)
        · exact List.mem_append_right _ (List.mem_singleton_self _)
      · rintro e tokens ⟨⟩
    · rintro e tokens ⟨⟩
  · rintro e tokens ⟨⟩

/-- A login consumes the nonce, has the signature verified, and then issues its tokens. -/
theorem verify_keeps (message signature : String) :
    (verify config message signature).Always (AuthKeeps config (.verify message signature))
      (fun h' r => ∀ tokens, r = .ok tokens →
        AuthEnds config (.verify message signature) h' (.ok (.login tokens))) [] := by
  rw [verify]
  split
  · rintro tokens ⟨⟩
  next parsed hparse =>
  apply Program.Always.call_bind trivial
  · intro time
    apply Program.Always.call_bind trivial
    · intro count
      split
      · rintro tokens ⟨⟩
      next hcount =>
      -- the nonce is consumed before the signature is looked at
      have hconsumed : Consumed (([] ++ [⟨AuthCall.now, .ok time⟩]) ++
          [⟨.consumeNonce parsed.nonce time, .ok count⟩]) parsed.nonce :=
        ⟨time, count, rfl, List.mem_append_right _ (List.mem_singleton_self _), hcount⟩
      apply Program.Always.bind (signatureVerify_keeps parsed.nonce)
      · rintro h' ⟨success, address, error⟩ ⟨hlater, hverified⟩
        cases success with
        | false => rintro tokens ⟨⟩
        | true =>
          cases address with
          | none => rintro tokens ⟨⟩
          | some address =>
            dsimp only
            split
            · rintro tokens ⟨⟩
            apply Program.Always.bind (findOrCreate_keeps address)
            · rintro h'' user ⟨hlater', huser⟩
              obtain ⟨checksummed, now, hget, hmem⟩ := huser user rfl
              apply issueTokens_keeps
              -- the tokens rest on what the history holds by now
              exact ⟨parsed, address, checksummed, now, hparse,
                hconsumed.mono (hlater.trans hlater'),
                (hverified address error rfl).mono hlater', hget, hmem⟩
            · rintro h'' e _ tokens ⟨⟩
      · rintro h' e _ tokens ⟨⟩
    · rintro e tokens ⟨⟩
  · rintro e tokens ⟨⟩

/-- An access token is issued for a row that is found and not expired. -/
theorem refresh_keeps (refreshToken : String) :
    (refresh config refreshToken).Always (AuthKeeps config (.refresh refreshToken))
      (fun h' r => ∀ accessToken, r = .ok accessToken →
        AuthEnds config (.refresh refreshToken) h' (.ok (.access accessToken))) [] := by
  apply Program.Always.call_bind trivial
  · intro stored
    cases stored with
    | none => rintro accessToken ⟨⟩
    | some row =>
      apply Program.Always.call_bind trivial
      · intro now
        split
        · rintro accessToken ⟨⟩
        · rintro accessToken ⟨⟩
          refine ⟨refreshToken, row, rfl, ?_, rfl⟩
          exact List.mem_append_left _ (List.mem_append_right _ (List.mem_singleton_self _))
      · rintro e accessToken ⟨⟩
  · rintro e accessToken ⟨⟩

/-- What each handler calls, and what it answers. -/
theorem job_keeps (config : AuthConfig) (job : AuthJob) :
    (job.program config).Always (AuthKeeps config job) (AuthEnds config job) [] := by
  cases job with
  | generateNonce =>
    apply Program.Always.bind generateNonce_keeps
    · intro _ _ _
      trivial
    · intro _ _ _
      trivial
  | verify message signature =>
    apply Program.Always.bind (verify_keeps message signature)
    · intro h' tokens hends
      exact hends tokens rfl
    · intro _ _ _
      trivial
  | refresh refreshToken =>
    apply Program.Always.bind (refresh_keeps refreshToken)
    · intro h' accessToken hends
      exact hends accessToken rfl
    · intro _ _ _
      trivial

end Keeps

/-! ## The database and the answers -/

/-- The answer consumes the nonce. -/
def consumes (nonce : String) : Answered AuthCall AuthCall.Reply AuthError → Bool
  | ⟨.consumeNonce n _, .ok count⟩ => n = nonce ∧ count ≠ 0
  | _ => false

/-- The nonce has been consumed. -/
def AuthState.spent (s : AuthState) (nonce : String) : Nat :=
  match s.nonces nonce with
  | some row => if row.used then 1 else 0
  | none => 0

/-- What an answer says of the tables, and of the library. -/
def Holds (config : AuthConfig) (s : AuthState) :
    Answered AuthCall AuthCall.Reply AuthError → Prop
  | ⟨.consumeNonce nonce time, .ok count⟩ =>
      count ≠ 0 → ∃ row, s.nonces nonce = some row ∧ time < row.expiresAt
  | ⟨.siweVerify message signature domain nonce, .ok response⟩ =>
      ∃ time, config.siwe.verify time message signature domain nonce = .ok response
  | ⟨.upsertUser walletAddress _, .ok user⟩ => user.walletAddress = walletAddress
  | ⟨.createRefreshToken tokenHash walletAddress expiresAt, .ok _⟩ =>
      s.refreshTokens tokenHash = some ⟨walletAddress, expiresAt⟩
  | ⟨.findRefreshToken tokenHash, .ok (some row)⟩ => s.refreshTokens tokenHash = some row
  | _ => True

/-- Rows stay; a nonce keeps its expiry. -/
structure Grows (s s' : AuthState) : Prop where
  nonces : ∀ nonce row, s.nonces nonce = some row →
    ∃ row', s'.nonces nonce = some row' ∧ row'.expiresAt = row.expiresAt
  refreshTokens : ∀ tokenHash row, s.refreshTokens tokenHash = some row →
    s'.refreshTokens tokenHash = some row

/-- What one access does: every new row comes from it, and its answer holds afterwards. -/
structure Effect (config : AuthConfig) (s : AuthState) (c : AuthCall) (r : Except AuthError c.Reply)
    (s' : AuthState) : Prop where
  grows : Grows s s'
  holds : Holds config s' ⟨c, r⟩
  spent : ∀ nonce, s.spent nonce + (if consumes nonce ⟨c, r⟩ then 1 else 0) ≤ s'.spent nonce
  issued : ∀ nonce row, s'.nonces nonce = some row →
    (∃ row', s.nonces nonce = some row' ∧ row'.expiresAt = row.expiresAt) ∨
      c = .createNonce nonce row.expiresAt
  stored : ∀ tokenHash row, s'.refreshTokens tokenHash = some row →
    s.refreshTokens tokenHash = some row ∨
      c = .createRefreshToken tokenHash row.walletAddress row.expiresAt
  users : (∀ key user, s.users key = some user → user.walletAddress = key) →
    ∀ key user, s'.users key = some user → user.walletAddress = key

section Effects

variable {config : AuthConfig} {s s' : AuthState}

theorem Grows.refl (s : AuthState) : Grows s s :=
  ⟨fun _ row h => ⟨row, h, rfl⟩, fun _ _ h => h⟩

/-- What was answered stays true, however the tables grow. -/
theorem Holds.mono {a : Answered AuthCall AuthCall.Reply AuthError} (h : Holds config s a)
    (hgrows : Grows s s') : Holds config s' a := by
  obtain ⟨c, r⟩ := a
  cases r with
  | error e => cases c <;> trivial
  | ok reply =>
    cases c with
    | consumeNonce nonce time =>
      intro hcount
      obtain ⟨row, hrow, htime⟩ := h hcount
      obtain ⟨row', hrow', hexpires⟩ := hgrows.nonces nonce row hrow
      exact ⟨row', hrow', hexpires ▸ htime⟩
    | createRefreshToken tokenHash walletAddress expiresAt => exact hgrows.refreshTokens _ _ h
    | findRefreshToken tokenHash =>
      cases reply with
      | none => trivial
      | some row => exact hgrows.refreshTokens _ _ h
    | _ => exact h

/-- An answer that changes nothing. -/
theorem Effect.same {c : AuthCall} {r : Except AuthError c.Reply} (hholds : Holds config s ⟨c, r⟩)
    (hconsumes : ∀ nonce, consumes nonce ⟨c, r⟩ = false) : Effect config s c r s where
  grows := .refl s
  holds := hholds
  spent nonce := by
    rw [hconsumes nonce]
    exact Nat.le_refl _
  issued _ row h := Or.inl ⟨row, h, rfl⟩
  stored _ _ h := Or.inl h
  users h := h

theorem holds_error (c : AuthCall) (e : AuthError) : Holds config s ⟨c, .error e⟩ := by
  cases c <;> trivial

theorem consumes_error (nonce : String) (c : AuthCall) (e : AuthError) :
    consumes nonce ⟨c, .error e⟩ = false := by
  cases c <;> rfl

/-- A failure answers nothing, whether or not the access has had its effect. -/
theorem Effect.access {c : AuthCall} {done : Except AuthError c.Reply × AuthState}
    (h : Effect config s c done.1 done.2) {fault : Option Bool} {r : Except AuthError c.Reply}
    (heq : some (s.access fault done) = some (r, s')) : Effect config s c r s' := by
  obtain ⟨answer, after⟩ := done
  cases fault with
  | none =>
    cases heq
    exact h
  | some applied =>
    cases applied with
    | true =>
      cases heq
      refine { h with holds := holds_error c _, spent := ?_ }
      intro nonce
      rw [consumes_error]
      exact Nat.le_trans (Nat.le_add_right _ _) (h.spent nonce)
    | false =>
      cases heq
      exact .same (holds_error c _) fun nonce => consumes_error nonce c _

theorem spent_set_self (s : AuthState) (nonce : String) (row : NonceRow) :
    ({ s with nonces := s.nonces.set nonce row } : AuthState).spent nonce =
      if row.used then 1 else 0 := by
  simp only [AuthState.spent, Map.set_self]

theorem spent_set_of_ne (s : AuthState) {nonce nonce' : String} (row : NonceRow)
    (hne : nonce' ≠ nonce) :
    ({ s with nonces := s.nonces.set nonce row } : AuthState).spent nonce' = s.spent nonce' := by
  simp only [AuthState.spent, Map.set_of_ne _ _ hne]

/-- A new nonce is issued and not used; one that is there is refused. -/
theorem createNonce_effect (nonce : String) (expiresAt : Int) :
    Effect config s (.createNonce nonce expiresAt) (s.createNonce nonce expiresAt).1
      (s.createNonce nonce expiresAt).2 := by
  rw [AuthState.createNonce]
  split
  · exact .same trivial fun _ => rfl
  next hnone =>
  -- a row of the new table is the new one or an old one of another nonce
  have hcases (nonce' : String) {row : NonceRow}
      (h : s.nonces.set nonce ⟨expiresAt, false⟩ nonce' = some row) :
      nonce' = nonce ∧ row = ⟨expiresAt, false⟩ ∨ nonce' ≠ nonce ∧ s.nonces nonce' = some row := by
    by_cases heq : nonce' = nonce
    · subst heq
      rw [Map.set_self] at h
      exact Or.inl ⟨rfl, (Option.some.inj h).symm⟩
    · rw [Map.set_of_ne _ _ heq] at h
      exact Or.inr ⟨heq, h⟩
  constructor
  case grows =>
    refine ⟨?_, fun _ _ h => h⟩
    intro nonce' row h
    by_cases heq : nonce' = nonce
    · subst heq
      rw [hnone] at h
      cases h
    · exact ⟨row, (Map.set_of_ne _ _ heq).trans h, rfl⟩
  case holds => trivial
  case spent =>
    intro nonce'
    by_cases heq : nonce' = nonce
    · subst heq
      rw [AuthState.spent, hnone]
      exact Nat.zero_le _
    · rw [spent_set_of_ne _ _ heq]
      exact Nat.le_refl _
  case issued =>
    intro nonce' row h
    rcases hcases nonce' h with ⟨rfl, rfl⟩ | ⟨-, h⟩
    · exact Or.inr rfl
    · exact Or.inl ⟨row, h, rfl⟩
  case stored => exact fun _ _ h => Or.inl h
  case users => exact fun h => h

/-- One row is used up, or none. -/
theorem consumeNonce_effect (nonce : String) (time : Int) :
    Effect config s (.consumeNonce nonce time) (s.consumeNonce nonce time).1
      (s.consumeNonce nonce time).2 := by
  rw [AuthState.consumeNonce]
  split
  · exact .same (fun h => absurd rfl h) fun _ => by simp [consumes]
  next row hrow =>
  split
  · next hfree =>
    obtain ⟨hunused, htime⟩ := hfree
    -- a row keeps its expiry when it is marked as used
    have hkept (nonce' : String) {row' : NonceRow} (h : s.nonces nonce' = some row') :
        ∃ row'', s.nonces.set nonce { row with used := true } nonce' = some row'' ∧
          row''.expiresAt = row'.expiresAt := by
      by_cases heq : nonce' = nonce
      · subst heq
        rw [hrow] at h
        cases h
        exact ⟨_, Map.set_self .., rfl⟩
      · exact ⟨row', (Map.set_of_ne _ _ heq).trans h, rfl⟩
    constructor
    case grows => exact ⟨fun nonce' _ h => hkept nonce' h, fun _ _ h => h⟩
    case holds => exact fun _ => ⟨_, Map.set_self .., htime⟩
    case spent =>
      intro nonce'
      by_cases heq : nonce' = nonce
      · subst heq
        rw [spent_set_self, AuthState.spent, hrow]
        simp [hunused, consumes]
      · rw [spent_set_of_ne _ _ heq]
        simp [consumes, Ne.symm heq]
    case issued =>
      intro nonce' row' h
      left
      change s.nonces.set nonce _ nonce' = some row' at h
      by_cases heq : nonce' = nonce
      · subst heq
        rw [Map.set_self] at h
        cases h
        exact ⟨row, hrow, rfl⟩
      · rw [Map.set_of_ne _ _ heq] at h
        exact ⟨row', h, rfl⟩
    case stored => exact fun _ _ h => Or.inl h
    case users => exact fun h => h
  · exact .same (fun h => absurd rfl h) fun _ => by simp [consumes]

/-- The row of a wallet is that of its address. -/
theorem upsertUser_effect (husers : ∀ key user, s.users key = some user → user.walletAddress = key)
    (walletAddress : String) (time : Int) :
    Effect config s (.upsertUser walletAddress time) (s.upsertUser walletAddress time).1
      (s.upsertUser walletAddress time).2 := by
  have huser (user : User) (h : user = (match s.users walletAddress with
      | none => ⟨walletAddress, time⟩
      | some user => { user with lastLoginAt := time })) : user.walletAddress = walletAddress := by
    subst h
    split
    · rfl
    · next user hrow => exact husers walletAddress user hrow
  constructor
  case grows => exact ⟨fun _ row h => ⟨row, h, rfl⟩, fun _ _ h => h⟩
  case holds => exact huser _ rfl
  case spent => exact fun _ => Nat.le_refl _
  case issued => exact fun _ row h => Or.inl ⟨row, h, rfl⟩
  case stored => exact fun _ _ h => Or.inl h
  case users =>
    intro _ key user h
    change s.users.set walletAddress _ key = some user at h
    by_cases heq : key = walletAddress
    · subst heq
      rw [Map.set_self] at h
      exact huser user (Option.some.inj h).symm
    · rw [Map.set_of_ne _ _ heq] at h
      exact husers key user h

/-- A new hash is stored; one that is there is refused. -/
theorem createRefreshToken_effect (tokenHash walletAddress : String) (expiresAt : Int) :
    Effect config s (.createRefreshToken tokenHash walletAddress expiresAt)
      (s.createRefreshToken tokenHash walletAddress expiresAt).1
      (s.createRefreshToken tokenHash walletAddress expiresAt).2 := by
  rw [AuthState.createRefreshToken]
  split
  · exact .same trivial fun _ => rfl
  next hnone =>
  constructor
  case grows =>
    refine ⟨fun _ row h => ⟨row, h, rfl⟩, ?_⟩
    intro tokenHash' row h
    -- a hash that is there is not the new one
    have hne : tokenHash' ≠ tokenHash := by
      rintro rfl
      rw [hnone] at h
      cases h
    exact (Map.set_of_ne _ _ hne).trans h
  case holds => exact Map.set_self ..
  case spent => exact fun _ => Nat.le_refl _
  case issued => exact fun _ row h => Or.inl ⟨row, h, rfl⟩
  case stored =>
    intro tokenHash' row h
    change s.refreshTokens.set tokenHash _ tokenHash' = some row at h
    by_cases heq : tokenHash' = tokenHash
    · subst heq
      rw [Map.set_self] at h
      cases h
      exact Or.inr rfl
    · rw [Map.set_of_ne _ _ heq] at h
      exact Or.inl h
  case users => exact fun h => h

/-- Every answer of the server has its effect. -/
theorem answer_effect (husers : ∀ key user, s.users key = some user → user.walletAddress = key)
    {m : AuthMoment} {c : AuthCall} {r : Except AuthError c.Reply}
    (h : (authHost config).answer m c s = some (r, s')) : Effect config s c r s' := by
  cases c with
  -- the calls that only read leave the tables as they are
  | now =>
    cases h
    exact .same trivial fun _ => rfl
  | randomBytes n =>
    cases h
    exact .same trivial fun _ => rfl
  | createNonce nonce expiresAt =>
    exact (createNonce_effect nonce expiresAt).access h
  | consumeNonce nonce time =>
    exact (consumeNonce_effect nonce time).access h
  | siweVerify message signature domain nonce =>
    cases h
    apply Effect.same
    · cases hverify : config.siwe.verify s.now message signature domain nonce with
      | error e => trivial
      | ok response => exact ⟨s.now, hverify⟩
    · intro _
      rfl
  | upsertUser walletAddress time =>
    exact (upsertUser_effect husers walletAddress time).access h
  | createRefreshToken tokenHash walletAddress expiresAt =>
    exact (createRefreshToken_effect tokenHash walletAddress expiresAt).access h
  | findRefreshToken tokenHash =>
    have hfind : Effect config s (.findRefreshToken tokenHash) (.ok (s.refreshTokens tokenHash)) s := by
      apply Effect.same
      · cases hfound : s.refreshTokens tokenHash with
        | none => trivial
        | some row => exact hfound
      · intro _
        rfl
    exact Effect.access (c := .findRefreshToken tokenHash) hfind h

end Effects

/-! ## All requests -/

/-- How far a request has come. -/
abbrev AuthTrack := Host.Track AuthCall AuthCall.Reply AuthError AuthJob

/-- The tables and the answers agree, and every row comes from a request. -/
structure AuthInv (config : AuthConfig) (s : AuthState) (rs : List AuthTrack) : Prop where
  holds : ∀ track ∈ rs, ∀ a ∈ track.2, Holds config s a
  consumed : ∀ nonce, (rs.flatMap Prod.snd).countP (consumes nonce) ≤ s.spent nonce
  issued : ∀ nonce row, s.nonces nonce = some row → ∃ track ∈ rs, track.1 = .generateNonce ∧
    ∃ reply, ⟨.createNonce nonce row.expiresAt, reply⟩ ∈ track.2
  stored : ∀ tokenHash row, s.refreshTokens tokenHash = some row → ∃ track ∈ rs,
    ∃ reply, ⟨.createRefreshToken tokenHash row.walletAddress row.expiresAt, reply⟩ ∈ track.2
  users : ∀ key user, s.users key = some user → user.walletAddress = key

section Inv

variable {config : AuthConfig} {s s' : AuthState} {rs : List AuthTrack}

/-- A new request keeps the invariant. -/
theorem AuthInv.start (h : AuthInv config s rs) (job : AuthJob) :
    AuthInv config s (rs ++ [(job, [])]) := by
  constructor
  case holds =>
    intro track htrack a ha
    rcases List.mem_append.1 htrack with htrack | htrack
    · exact h.holds track htrack a ha
    · rw [List.mem_singleton.1 htrack] at ha
      cases ha
  case consumed =>
    intro nonce
    rw [List.flatMap_append, List.countP_append]
    exact h.consumed nonce
  case issued =>
    intro nonce row hrow
    obtain ⟨track, htrack, hissued⟩ := h.issued nonce row hrow
    exact ⟨track, List.mem_append_left _ htrack, hissued⟩
  case stored =>
    intro tokenHash row hrow
    obtain ⟨track, htrack, hstored⟩ := h.stored tokenHash row hrow
    exact ⟨track, List.mem_append_left _ htrack, hstored⟩
  case users => exact h.users

/-- One access: its effect on the tables and its answer go together. -/
theorem AuthInv.answered (h : AuthInv config s rs) {i : Nat} {job : AuthJob} {history : AuthHistory}
    (hi : rs[i]? = some (job, history)) {c : AuthCall} {r : Except AuthError c.Reply}
    (hkeeps : AuthKeeps config job history c) (heffect : Effect config s c r s') :
    AuthInv config s' (rs.set i (job, history ++ [⟨c, r⟩])) := by
  -- the new answer is in the track of the request
  have hself : (job, history ++ [⟨c, r⟩]) ∈ rs.set i (job, history ++ [⟨c, r⟩]) :=
    List.mem_set (List.getElem?_eq_some_iff.1 hi).1 _
  have hnew : (⟨c, r⟩ : Answered AuthCall AuthCall.Reply AuthError) ∈ history ++ [⟨c, r⟩] :=
    List.mem_append_right _ (List.mem_singleton_self _)
  constructor
  case holds =>
    intro track htrack a ha
    rcases Host.answered_cases hi htrack ha with ⟨track', htrack', -, ha'⟩ | ⟨-, rfl⟩
    · exact (h.holds track' htrack' a ha').mono heffect.grows
    · exact heffect.holds
  case consumed =>
    intro nonce
    rw [Host.countP_answered hi]
    exact Nat.le_trans (Nat.add_le_add_right (h.consumed nonce) _) (heffect.spent nonce)
  case issued =>
    intro nonce row hrow
    rcases heffect.issued nonce row hrow with ⟨row', hrow', hexpires⟩ | rfl
    · obtain ⟨track, htrack, hjob, reply, hmem⟩ := h.issued nonce row' hrow'
      obtain ⟨track', htrack', hsame, hsubset⟩ := Host.mem_answered hi ⟨c, r⟩ htrack
      exact ⟨track', htrack', hsame.trans hjob, reply, hexpires ▸ hsubset hmem⟩
    · exact ⟨_, hself, hkeeps, r, hnew⟩
  case stored =>
    intro tokenHash row hrow
    rcases heffect.stored tokenHash row hrow with hrow' | rfl
    · obtain ⟨track, htrack, reply, hmem⟩ := h.stored tokenHash row hrow'
      obtain ⟨track', htrack', -, hsubset⟩ := Host.mem_answered hi ⟨c, r⟩ htrack
      exact ⟨track', htrack', reply, hsubset hmem⟩
    · exact ⟨_, hself, r, hnew⟩
  case users => exact heffect.users h.users

/-- What the run rule of the host asks for. -/
theorem auth_obligations (config : AuthConfig) :
    Host.Obligations (authHost config) (AuthInv config) (AuthKeeps config) (AuthEnds config) where
  program := job_keeps config
  outside _ _ _ h := { h with
    holds := fun track htrack a ha => (h.holds track htrack a ha).mono ⟨fun _ row hrow =>
      ⟨row, hrow, rfl⟩, fun _ _ hrow => hrow⟩ }
  start _ _ job h := h.start job
  answer _ _ _ _ _ _ _ _ _ h hi hkeeps hanswer :=
    h.answered hi hkeeps (answer_effect h.users hanswer)

end Inv

/-- The database on its own, with the clock, before any request. -/
def authStart (now : Int) : AuthWorld := ⟨⟨now, Map.empty, Map.empty, Map.empty⟩, []⟩

/-- The requests and the database after a run. -/
def authRun (config : AuthConfig) (now : Int) (run : List (HostStep AuthJob AuthMoment Nat)) :
    AuthWorld :=
  Transition.run (authHost config).step (authStart now) run

theorem authRun_inv (config : AuthConfig) (now : Int)
    (run : List (HostStep AuthJob AuthMoment Nat)) :
    Host.Inv (authHost config) (AuthInv config) (AuthKeeps config) (AuthEnds config)
      (authRun config now run) := by
  apply Host.run_inv (auth_obligations config)
  exact ⟨nofun, fun nonce => Nat.le_refl 0, nofun, nofun, nofun⟩

section Law

variable {config : AuthConfig} {w : AuthWorld} {p : AuthProcess}
  {signed : (address message : String) → Prop}

theorem Process.Keeps.ends (hp : p.Keeps (AuthKeeps config) (AuthEnds config))
    {r : Except AuthError AuthResult} (hrest : p.rest = .done r) :
    AuthEnds config p.job p.history r := by
  have h := hp.rest
  rw [hrest] at h
  exact h

/-- What has been authenticated has been signed. -/
theorem Authenticated.signedFor (hsound : config.siwe.Sound signed)
    (hinv : AuthInv config w.shared (Host.tracks w)) (hp : p ∈ w.list) {message signature : String}
    {h : AuthHistory} (hsubset : h ⊆ p.history) {user : User}
    (ha : Authenticated config message signature h user) :
    SignedFor config signed message user.walletAddress := by
  obtain ⟨parsed, address, checksummed, time, hparse, -, hverified, hget, huser⟩ := ha
  obtain ⟨response, hmem, hsuccess, rfl⟩ := hverified
  obtain ⟨_, hverify⟩ := hinv.holds _ (Host.mem_tracks hp) _ (hsubset hmem)
  obtain ⟨hsigned, parsed', hparse', hdomain, -⟩ := hsound _ _ _ _ _ _ hverify hsuccess
  have hwallet : user.walletAddress = checksummed :=
    hinv.holds _ (Host.mem_tracks hp) _ (hsubset huser)
  exact ⟨response.address, parsed', hsigned, hwallet ▸ hget, hparse', hdomain⟩

/-- Every login has consumed its nonce. -/
theorem loggedIn_consumes (hp : p.Keeps (AuthKeeps config) (AuthEnds config)) {nonce : String}
    (h : loggedIn config nonce p = true) : ∃ a ∈ p.history, consumes nonce a = true := by
  rw [loggedIn] at h
  split at h
  · next tokens hrest =>
    rw [decide_eq_true_eq] at h
    obtain ⟨message, signature, user, expiresAt, hjob, hauth, -, -⟩ := Process.Keeps.ends hp hrest
    obtain ⟨parsed, address, checksummed, time, hparse, hconsumed, -⟩ := hauth
    obtain ⟨time, count, -, hmem, hcount⟩ := hconsumed
    rw [hjob, nonceOf, hparse] at h
    refine ⟨_, hmem, ?_⟩
    simpa [consumes, hcount] using h
  · cases h

theorem spent_le_one (s : AuthState) (nonce : String) : s.spent nonce ≤ 1 := by
  rw [AuthState.spent]
  split
  · split
    · exact Nat.le_refl 1
    · exact Nat.zero_le 1
  · exact Nat.zero_le 1

/-- A login that ends has been signed, with a nonce that was issued and had not expired. -/
theorem goodLogin (hsound : config.siwe.Sound signed)
    (hinv : AuthInv config w.shared (Host.tracks w)) (hp : p ∈ w.list)
    (hkeeps : p.Keeps (AuthKeeps config) (AuthEnds config)) {message signature : String}
    {tokens : LoginTokens} (hjob : p.job = .verify message signature) (hlogin : LogsIn p tokens) :
    GoodLogin config signed w p message tokens := by
  obtain ⟨message', signature', user, expiresAt, hjob', hauth, hcreated, hsub⟩ :=
    Process.Keeps.ends hkeeps hlogin
  rw [hjob'] at hjob
  cases hjob
  constructor
  case signed =>
    rw [hsub]
    exact hauth.signedFor hsound hinv hp (List.Subset.refl _)
  case nonce =>
    obtain ⟨parsed, _, _, _, hparse, hconsumed, -⟩ := hauth
    obtain ⟨time, count, hhead, hmem, hcount⟩ := hconsumed
    obtain ⟨row, hrow, htime⟩ := hinv.holds _ (Host.mem_tracks hp) _ hmem hcount
    obtain ⟨track, htrack, htrackJob, reply, hissued⟩ := hinv.issued _ row hrow
    obtain ⟨q, hq, rfl⟩ := List.mem_map.1 htrack
    refine ⟨parsed.nonce, row, time, ?_, hrow, ⟨q, hq, htrackJob, Or.inl ⟨reply, hissued⟩⟩, hhead, htime⟩
    rw [hjob', nonceOf, hparse]
    rfl
  case refreshToken =>
    exact ⟨_, hinv.holds _ (Host.mem_tracks hp) _ hcreated, rfl⟩

end Law

/-- In every run, whatever is sent and whenever an access fails: a nonce logs in once at most, by a login
that was begun before it expired, and all tokens carry the address that signed. -/
theorem logins_safe (config : AuthConfig) {signed : (address message : String) → Prop}
    (hsound : config.siwe.Sound signed) (now : Int)
    (run : List (HostStep AuthJob AuthMoment Nat)) :
    AuthLaw config signed (authRun config now run) := by
  obtain ⟨hinv, hkeeps⟩ := authRun_inv config now run
  constructor
  case once =>
    intro nonce
    -- logins ≤ rows consumed ≤ 1
    calc (authRun config now run).list.countP (loggedIn config nonce)
        ≤ ((Host.tracks (authRun config now run)).flatMap Prod.snd).countP (consumes nonce) :=
          Host.countP_le_answers fun p hp hlogin => loggedIn_consumes (hkeeps p hp) hlogin
      _ ≤ (authRun config now run).shared.spent nonce := hinv.consumed nonce
      _ ≤ 1 := spent_le_one _ nonce
  case login =>
    intro p hp message signature tokens hjob hlogin
    exact goodLogin hsound hinv hp (hkeeps p hp) hjob hlogin
  case refresh =>
    intro p hp refreshToken accessToken hjob hrest
    obtain ⟨refreshToken', row, hjob', hfound, hsub⟩ := Process.Keeps.ends (hkeeps p hp) hrest
    rw [hjob'] at hjob
    cases hjob
    have hrow := hinv.holds _ (Host.mem_tracks hp) _ hfound
    constructor
    -- the row was stored by a login
    · obtain ⟨track, htrack, reply, hmem⟩ := hinv.stored _ row hrow
      obtain ⟨q, hq, rfl⟩ := List.mem_map.1 htrack
      have hcalls : q.Calls (.createRefreshToken (config.sha256 refreshToken) row.walletAddress
          row.expiresAt) := Or.inl ⟨reply, hmem⟩
      obtain ⟨before, hbefore, message, signature, user, hverify, hauth, hwallet⟩ :=
        (hkeeps q hq).calls hcalls
      rw [hsub]
      refine ⟨q, hq, message, signature, row.expiresAt, hverify, hcalls, ?_⟩
      rw [hwallet]
      exact hauth.signedFor hsound hinv hq hbefore.subset
    -- and if that login's token is this one, the row is the same
    · rintro q hq tokens hlogin rfl
      obtain ⟨_, _, _, expiresAt, -, -, hcreated, -⟩ := Process.Keeps.ends (hkeeps q hq) hlogin
      have hrow' : (authRun config now run).shared.refreshTokens
          (config.sha256 tokens.refreshToken) = some ⟨tokens.accessToken.sub, expiresAt⟩ :=
        hinv.holds _ (Host.mem_tracks hq) _ hcreated
      rw [hsub, ← Option.some.inj (hrow'.symm.trans hrow)]

/-! ## One login -/

/-- The wallet that signs. -/
def sampleAddress : String := "0xf39Fd6e51aad88F6F4ce6aB8827279cffFb92266"

/-- A nonce as `randomBytes(16)` gives it. -/
def sampleNonce : String := "00112233445566778899aabbccddeeff"

/-- The message that the wallet signs. -/
def sampleMessage : String :=
  "localhost:5173 wants you to sign in with your Ethereum account:\n" ++ sampleAddress ++
    "\n\n\nURI: http://localhost:5173\nVersion: 1\nChain ID: 56\nNonce: " ++ sampleNonce ++
    "\nIssued At: 2026-01-01T00:00:00.000Z"

/-- The signature of the wallet under this message. -/
def sampleSignature : String :=
  "0xbb50e2d89a4ed70663d080659fe0ad4b9bc3e06c17a227433966cb59ceee020d" ++
    "443b5ff88e1039f6c27bd3c5b5791d34c622b9e7965dc31285a48ee65fa8ef2c1c"

/-- A refresh token as `randomBytes(32)` gives it. -/
def sampleToken : String := "0123456789abcdef0123456789abcdef0123456789abcdef0123456789abcdef"

/-- The library on one message and its signature; it accepts nothing else. -/
def sampleSiwe : SiweLibrary where
  parse message :=
    if message = sampleMessage then some ⟨"localhost:5173", sampleNonce⟩ else none
  verify _ message signature domain nonce :=
    if message = sampleMessage ∧ signature = sampleSignature ∧ domain = "localhost:5173" ∧
        nonce = sampleNonce then .ok ⟨true, sampleAddress, none⟩
    else .ok ⟨false, "", some "Signature does not match address of the message."⟩

/-- The wallet has signed this message, and nothing else was signed. -/
def sampleSigned (address message : String) : Prop :=
  address = sampleAddress ∧ message = sampleMessage

theorem sampleSiwe_parse :
    sampleSiwe.parse sampleMessage = some ⟨"localhost:5173", sampleNonce⟩ := by
  simp only [sampleSiwe, if_true]

/-- What the library accepts has been signed. -/
theorem sampleSiwe_sound : sampleSiwe.Sound sampleSigned := by
  intro time message signature domain nonce response h hsuccess
  simp only [sampleSiwe] at h
  split at h
  · next hsigned =>
    obtain ⟨rfl, -, rfl, rfl⟩ := hsigned
    cases h
    exact ⟨⟨rfl, rfl⟩, _, sampleSiwe_parse, rfl, rfl⟩
  · cases h
    cases hsuccess

/-- The defaults of the service, with a library that knows this message and its signature. -/
def sampleConfig : AuthConfig where
  nonceExpirySeconds := 300
  refreshTokenExpiryDays := 7
  expectedDomain := "localhost:5173"
  siwe := sampleSiwe
  getAddress address := if address = sampleAddress then some address else none
  sha256 token :=
    if token = sampleToken then "a8ae6e6ee929abea3afcfc5258c8ccd6f85273e0d4626d26c7279f3250f77c8e"
    else ""

/-- The answers of a moment, with these random bytes. -/
def sampleMoment (random : String) : AuthMoment := ⟨random, none⟩

/-- A nonce is issued, and a login with it begins; its nonce is consumed. -/
def loginBegun : List (HostStep AuthJob AuthMoment Nat) :=
  [.start .generateNonce (sampleMoment sampleNonce), .resume 0 (sampleMoment ""),
    .start (.verify sampleMessage sampleSignature) (sampleMoment ""), .resume 1 (sampleMoment "")]

/-- The signature is verified and the row of the address is there. -/
def loginVerified : List (HostStep AuthJob AuthMoment Nat) :=
  [.resume 1 (sampleMoment ""), .resume 1 (sampleMoment sampleToken)]

/-- The refresh token is stored. -/
def loginEnds : List (HostStep AuthJob AuthMoment Nat) := [.resume 1 (sampleMoment "")]

/-- A refresh with the token of the login. -/
def refreshOnce : List (HostStep AuthJob AuthMoment Nat) :=
  [.start (.refresh sampleToken) (sampleMoment ""), .resume 2 (sampleMoment "")]

set_option maxRecDepth 20000 in
theorem logins_safe_sample :
    AuthLaw sampleConfig sampleSigned
      (authRun sampleConfig 0 (loginBegun ++ loginVerified ++ loginEnds ++ refreshOnce)) ∧
    (∃ p ∈ (authRun sampleConfig 0 (loginBegun ++ loginVerified ++ loginEnds ++ refreshOnce)).list,
      LogsIn p ⟨⟨sampleAddress⟩, sampleToken⟩) :=
  ⟨logins_safe sampleConfig sampleSiwe_sound 0 _, _, List.mem_of_getElem? (i := 1) rfl, rfl⟩

set_option maxRecDepth 20000 in
/-- The nonce expires after 300 seconds; a login that has consumed it before ends with tokens after
that. -/
theorem login_after_expiry :
    let w := authRun sampleConfig 0 (loginBegun ++ [.outside 300001] ++ loginVerified)
    let w' := authRun sampleConfig 0 (loginBegun ++ [.outside 300001] ++ loginVerified ++ loginEnds)
    (∃ row, w.shared.nonces sampleNonce = some row ∧ row.expiresAt < w.shared.now) ∧
    w.list.countP (loggedIn sampleConfig sampleNonce) = 0 ∧
    w'.list.countP (loggedIn sampleConfig sampleNonce) = 1 := by
  refine ⟨⟨_, rfl, by decide⟩, rfl, rfl⟩

end StrategyBuilder.Backend.Auth
