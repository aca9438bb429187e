import Mathlib.Data.List.Flatten
import StrategyBuilder.Backend.VaultOwners
import StrategyBuilder.Indexer.IndexerService

/-!
# Executions as they happen

`executions.gateway.ts` behind the indexer. A client that presents a token gets an address; it subscribes
to a vault by the check of ownership that guards the routes, and joins the room of the vault when the
answer is back; the indexer hands rows that are new to the rooms, after it has stored them. All of this
goes on at once with the requests that write the database, and every client comes and goes when it likes.

Whatever the order, a client receives executions of vaults that its address owns, and each of them once
(`received_own`).
-/

set_option autoImplicit false

namespace StrategyBuilder.Indexer.ExecutionsGateway

open StrategyBuilder.Backend
open StrategyBuilder.Backend.VaultOwners
open StrategyBuilder.Lib
open StrategyBuilder.Lib.Js
open StrategyBuilder.Lib.Transition

/-! ## Clients -/

/-- A row that was handed to the room of a vault, by the checksummed address. -/
structure Delivery where
  vaultAddress : String
  execution : ExecutionRow
deriving DecidableEq, Repr

/-- The message `execution`. -/
structure ExecutionMessage where
  vaultAddress : String
  automationId : Nat
  txHash : String
  status : String
  gasCompPaid : Option Nat
  gasCompUsd : Option String
  timestamp : Nat
deriving DecidableEq, Repr

/-- What the client gets. -/
def Delivery.message (d : Delivery) : ExecutionMessage where
  vaultAddress := d.vaultAddress
  automationId := d.execution.automationId
  txHash := d.execution.txHash
  status := "success"
  gasCompPaid := d.execution.gasCompAmount
  gasCompUsd := d.execution.gasCompUsd
  timestamp := d.execution.blockTimestamp

/-- The room of a checksummed address. -/
def room (address : String) : String := "vault:" ++ address

theorem room_inj {a a' : String} (h : room a = room a') : a = a' := by
  simpa only [room, String.append_right_inj] using h

/-- A socket. -/
structure Client where
  /-- `client.data.address`, the `sub` of the token -/
  address : Option String
  connected : Bool
  rooms : List String
  /-- The rooms of the subscriptions; `none` is `SUBSCRIBE_REJECTED`. -/
  replies : List (Option String)
  received : List Delivery

/-- The room that a subscription joins. The address is computed again from the row. -/
def joins (env : Env) : Except HttpError VaultRow → Option String
  | .ok vault => (env.getAddress vault.address).map room
  | .error _ => none

/-- The end of `onSubscribe`. A socket that is closed joins nothing. -/
def Client.answered (c : Client) (env : Env) (result : Except HttpError VaultRow) : Client :=
  if c.connected then
    match joins env result with
    | some r => { c with rooms := c.rooms ++ [r], replies := c.replies ++ [some r] }
    | none => { c with replies := c.replies ++ [none] }
  else c

/-- `server.to(room).emit` of the rows, for one client. -/
def Client.deliver (c : Client) (address : String) (executions : List ExecutionRow) : Client :=
  if c.connected ∧ room address ∈ c.rooms then
    { c with received := c.received ++ executions.map (Delivery.mk address) }
  else c

/-! ## The indexer -/

/-- `Map.set` of a map with its order. -/
def setEntry (entries : List (String × String)) (key value : String) : List (String × String) :=
  if entries.any fun e => e.1 = key then
    entries.map fun e => if e.1 = key then (key, value) else e
  else entries ++ [(key, value)]

/-- `vaultByAddress`, from addresses to ids; `none` where a row has no address. -/
def vaultByAddress (env : Env) (vaults : List VaultRow) : Option (List (String × String)) :=
  vaults.foldlM (fun entries v => (env.getAddress v.address).map fun a => setEntry entries a v.id) []

/-- How far `persist` is; one tick runs at a time. -/
inductive Tick where
  | idle
  | scanning (vaultByAddress : List (String × String))
  | found (vaultByAddress : List (String × String)) (newRows : List (String × ExecutionRow))
  | stored (vaultByAddress : List (String × String)) (keys : List (String × Nat))

/-- The tables, the sockets, and the tick in progress. -/
structure World where
  db : Database
  executions : Table ExecutionRow ExecutionRow.key
  clients : Nat → Option Client
  /-- Subscriptions whose check has been answered and that have not gone on yet. -/
  subscribing : List (Nat × Except HttpError VaultRow)
  tick : Tick

namespace World

variable (w : World) {k k' : Nat} (c : Client)

/-- The world with this socket. -/
def setClient (w : World) (k : Nat) (c : Client) : World :=
  { w with clients := Function.update w.clients k (some c) }

@[simp] theorem setClient_self : (w.setClient k c).clients k = some c := Function.update_self ..

theorem setClient_of_ne (h : k' ≠ k) : (w.setClient k c).clients k' = w.clients k' :=
  Function.update_of_ne h ..

end World

/-- The row of an execution, of the vault that the address stands for. -/
def executionRow (vaultByAddress : List (String × String)) (r : String × ExecutionRow) :
    ExecutionRow :=
  { r.2 with vaultId := ((vaultByAddress.find? fun e => e.1 = r.1).map Prod.snd).getD "" }

/-- The rows that were created, by their vaults, with the addresses of these. -/
def byVault (vaultByAddress : List (String × String)) (created : List ExecutionRow) :
    List (String × List ExecutionRow) :=
  (distinct (created.map ExecutionRow.vaultId)).filterMap fun vaultId =>
    (vaultByAddress.find? fun e => e.2 = vaultId).map fun e =>
      (e.1, created.filter fun row => row.vaultId = vaultId)

/-- `emitNewExecutions`; `none` where it throws. -/
def emitNewExecutions (env : Env) (w : World) (vaultAddress : String)
    (executions : List ExecutionRow) : Option World :=
  (env.getAddress vaultAddress).map fun address =>
    { w with clients := fun k => (w.clients k).map fun c => c.deliver address executions }

/-- The last loop of `persist`. An error ends the tick. -/
def emitAll (env : Env) : List (String × List ExecutionRow) → World → World
  | [], w => w
  | (address, executions) :: rest, w =>
      match emitNewExecutions env w address executions with
      | none => { w with tick := .idle }
      | some w => emitAll env rest w

/-! ## The steps -/

/-- What sockets, the database and the indexer do, in any order. -/
inductive Label where
  /-- A new socket, with what `verify` gave for its token; `none` where it threw. -/
  | connect (k : Nat) (verified : Option (Option String))
  /-- A subscription up to the answer of the database, which may fail. -/
  | subscribe (k : Nat) (vaultAddress : Option String) (answered : Bool)
  /-- One of the pending subscriptions goes on. -/
  | join (i : Nat)
  | disconnect (k : Nat)
  | database (call : DatabaseCall)
  | findVaults
  /-- Rows of decoded logs with the addresses of their vaults; the ids of vaults are not set yet. -/
  | findExisting (rows : List (String × ExecutionRow))
  | transaction
  /-- The database answers in an order of its own. -/
  | findCreated (created : List ExecutionRow)
  /-- The tick is over, or has failed. -/
  | endTick
  | restart

/-- `handleConnection`: a token that is not verified disconnects. -/
def handleConnection (w : World) (k : Nat) (verified : Option (Option String)) : World :=
  match w.clients k, verified with
  | some _, _ => w
  | none, some sub => w.setClient k ⟨sub, true, [], [], []⟩
  | none, none => w.setClient k ⟨none, false, [], [], []⟩

/-- The ownership check of `onSubscribe`. -/
def checkSubscription (env : Env) (w : World) (c : Client) (vaultAddress : Option String)
    (answered : Bool) : Except HttpError VaultRow :=
  if answered then
    assertOwnership env.providers w.db (vaultAddress.getD "") (c.address.getD "")
  else .error .internal

/-- A subscription, up to what the database answers. -/
def onSubscribe (env : Env) (w : World) (k : Nat) (vaultAddress : Option String) (answered : Bool) :
    World :=
  match w.clients k with
  | none => w
  | some c =>
      if c.connected then
        { w with subscribing := w.subscribing ++ [(k, checkSubscription env w c vaultAddress answered)] }
      else w

/-- A subscription goes on after the answer. -/
def onJoin (env : Env) (w : World) (i : Nat) : World :=
  match w.subscribing[i]? with
  | none => w
  | some (k, result) =>
      match w.clients k with
      | none => { w with subscribing := w.subscribing.eraseIdx i }
      | some c => { w.setClient k (c.answered env result) with subscribing := w.subscribing.eraseIdx i }

/-- The socket after it has disconnected. -/
def Client.gone (c : Client) : Client := { c with connected := false, rooms := [] }

/-- The rows that are not in the table yet. -/
def Tick.findExisting (executions : Table ExecutionRow ExecutionRow.key)
    (rows : List (String × ExecutionRow)) : Tick → Tick
  | .scanning vaultByAddress =>
      -- the logs are those of known vaults
      if rows.all fun r => vaultByAddress.any fun e => e.1 = r.1 then
        let newRows := rows.filter fun r => ¬ executions.Has r.2.key
        if newRows.length = 0 then .scanning vaultByAddress else .found vaultByAddress newRows
      else .scanning vaultByAddress
  | tick => tick

/-- One event. -/
def step (env : Env) (w : World) : Label → World
  | .connect k verified => handleConnection w k verified
  | .subscribe k vaultAddress answered => onSubscribe env w k vaultAddress answered
  | .join i => onJoin env w i
  | .disconnect k =>
      match w.clients k with
      | none => w
      | some c => w.setClient k c.gone
  | .database call => { w with db := call.run env w.db }
  | .findVaults =>
      match w.tick, vaultByAddress env w.db.vaults.rows with
      | .idle, some entries => { w with tick := .scanning entries }
      | _, _ => w
  | .findExisting rows => { w with tick := w.tick.findExisting w.executions rows }
  | .transaction =>
      match w.tick with
      | .found entries newRows =>
          { w with
            executions := w.executions.insertMany (newRows.map (executionRow entries))
            tick := .stored entries (newRows.map fun r => r.2.key) }
      | _ => w
  | .findCreated created =>
      match w.tick with
      | .stored entries keys =>
          -- the query has no order of its own
          if created.Perm (w.executions.rows.filter fun r => keys.contains r.key) then
            emitAll env (byVault entries created) { w with tick := .scanning entries }
          else w
      | _ => w
  | .endTick => { w with tick := .idle }
  | .restart =>
      { w with
        clients := fun k => (w.clients k).map Client.gone
        subscribing := []
        tick := .idle }

/-- Before anybody is connected. -/
def started (db : Database) (executions : Table ExecutionRow ExecutionRow.key) : World where
  db := db
  executions := executions
  clients := fun _ => none
  subscribing := []
  tick := .idle

/-! ## What belongs to a client -/

/-- The address of the client owns the vault at the address. -/
def Owns (env : Env) (db : Database) (c : Client) (address : String) : Prop :=
  ∃ v ∈ db.vaults, v.address = address ∧ OwnVault env.providers (c.address.getD "") v

/-- The row is one of a vault of the client, handed over by the address of the vault. -/
def Delivery.Own (env : Env) (db : Database) (c : Client) (d : Delivery) : Prop :=
  ∃ v ∈ db.vaults, v.address = d.vaultAddress ∧ v.id = d.execution.vaultId ∧
    OwnVault env.providers (c.address.getD "") v

namespace Tick

/-- The vaults that the tick knows. -/
def entries : Tick → List (String × String)
  | .idle => []
  | .scanning entries => entries
  | .found entries _ => entries
  | .stored entries _ => entries

/-- The rows that are about to be stored. -/
def newRows : Tick → List (String × ExecutionRow)
  | .found _ newRows => newRows
  | _ => []

/-- The keys that are stored and not handed over. -/
def unsent : Tick → List (String × Nat)
  | .stored _ keys => keys
  | _ => []

end Tick

/-- What a socket has got is of vaults that its wallet owns, each row once and only after it was
stored. -/
structure Served (env : Env) (w : World) (c : Client) : Prop where
  rooms : ∀ r ∈ c.rooms, ∃ address, r = room address ∧ Owns env w.db c address
  once : (c.received.map fun d => d.execution.key).Nodup
  own : ∀ d ∈ c.received, d.Own env w.db c ∧ d.execution ∈ w.executions
  unsent : ∀ d ∈ c.received, d.execution.key ∉ w.tick.unsent

/-- What holds in every state that is reached. -/
structure Sound (env : Env) (w : World) : Prop where
  checksummed : ∀ v ∈ w.db.vaults, env.getAddress v.address = some v.address
  entries : ∀ e ∈ w.tick.entries, ∃ v ∈ w.db.vaults, v.address = e.1 ∧ v.id = e.2
  fresh : ∀ r ∈ w.tick.newRows, ¬ w.executions.Has r.2.key ∧ ∃ e ∈ w.tick.entries, e.1 = r.1
  known : ∀ row ∈ w.executions, row.key ∈ w.tick.unsent → ∃ e ∈ w.tick.entries, e.2 = row.vaultId
  pending : ∀ p ∈ w.subscribing, ∃ c, w.clients p.1 = some c ∧
    ∀ v, p.2 = .ok v → Owns env w.db c v.address
  clients : ∀ k c, w.clients k = some c → Served env w c

section Frames

variable {env : Env} {db db' : Database} {w w' : World} {c c' : Client}

theorem ownVault_of_owner {user : String} {v v' : VaultRow} (h : v'.ownerAddress = v.ownerAddress)
    (hown : OwnVault env.providers user v) : OwnVault env.providers user v' := by
  obtain ⟨owner, howner, huser⟩ := hown
  exact ⟨owner, by rw [h, howner], huser⟩

theorem Owns.mono (hdb : VaultsKept env.getAddress db db') {address : String}
    (h : Owns env db c address) : Owns env db' c address := by
  obtain ⟨v, hv, rfl, hown⟩ := h
  obtain ⟨v', hv', -, haddress, howner⟩ := hdb.kept v hv
  exact ⟨v', hv', haddress, ownVault_of_owner howner hown⟩

theorem Delivery.Own.mono (hdb : VaultsKept env.getAddress db db') {d : Delivery}
    (h : d.Own env db c) : d.Own env db' c := by
  obtain ⟨v, hv, haddress, hid, hown⟩ := h
  obtain ⟨v', hv', hid', haddress', howner⟩ := hdb.kept v hv
  exact ⟨v', hv', haddress'.trans haddress, hid'.trans hid, ownVault_of_owner howner hown⟩

/-- A client that stays as it is, while the tables grow and nothing that it has becomes unsent. -/
theorem Served.mono (h : Served env w c) (hdb : VaultsKept env.getAddress w.db w'.db)
    (hexecutions : ∀ e ∈ w.executions, e ∈ w'.executions)
    (hunsent : ∀ key ∈ w'.tick.unsent, key ∈ w.tick.unsent ∨ ¬ w.executions.Has key) :
    Served env w' c where
  rooms r hr := by
    obtain ⟨address, rfl, howns⟩ := h.rooms r hr
    exact ⟨address, rfl, howns.mono hdb⟩
  once := h.once
  own d hd := ⟨(h.own d hd).1.mono hdb, hexecutions _ (h.own d hd).2⟩
  unsent d hd hkey := by
    rcases hunsent _ hkey with hold | hnew
    · exact h.unsent d hd hold
    · exact hnew ⟨d.execution, (h.own d hd).2, rfl⟩

/-- One client changes, and nothing else that is shared. -/
theorem Sound.setClient (h : Sound env w) {k : Nat}
    (hc : ∀ c, w.clients k = some c → c'.address = c.address)
    (hserved : Served env w c') : Sound env (w.setClient k c') where
  checksummed := h.checksummed
  entries := h.entries
  fresh := h.fresh
  known := h.known
  pending p hp := by
    obtain ⟨c, hclient, howns⟩ := h.pending p hp
    by_cases hk : p.1 = k
    · refine ⟨c', ?_, fun v hv => ?_⟩
      · rw [hk, World.setClient_self]
      · obtain ⟨v', hv', haddress, hown⟩ := howns v hv
        rw [← hc c (hk ▸ hclient)] at hown
        exact ⟨v', hv', haddress, hown⟩
    · exact ⟨c, (w.setClient_of_ne c' hk).trans hclient, howns⟩
  clients k' c'' hclient := by
    by_cases hk : k' = k
    · subst hk
      rw [World.setClient_self] at hclient
      cases hclient
      exact hserved.mono (.refl _) (fun _ he => he) fun _ hkey => .inl hkey
    · rw [World.setClient_of_ne w c' hk] at hclient
      exact (h.clients k' c'' hclient).mono (.refl _) (fun _ he => he) fun _ hkey => .inl hkey

end Frames

/-! ## Clients come, subscribe and go -/

section Clients

variable {env : Env} {w : World} {c : Client}

/-- A new socket has got nothing. -/
theorem served_new (w : World) (address : Option String) (connected : Bool) :
    Served env w ⟨address, connected, [], [], []⟩ where
  rooms _ hr := absurd hr List.not_mem_nil
  once := List.nodup_nil
  own _ hd := absurd hd List.not_mem_nil
  unsent _ hd := absurd hd List.not_mem_nil

/-- A connection keeps the world sound. -/
theorem sound_connect (h : Sound env w) (k : Nat) (verified : Option (Option String)) :
    Sound env (handleConnection w k verified) := by
  cases hc : w.clients k with
  | some c =>
    simp only [handleConnection, hc]
    exact h
  | none =>
    simp only [handleConnection, hc]
    have hnone : ∀ c, w.clients k = some c → False := by
      intro c hsome
      rw [hc] at hsome
      cases hsome
    cases verified with
    | some sub => exact h.setClient (fun c hsome => (hnone c hsome).elim) (served_new w sub true)
    | none => exact h.setClient (fun c hsome => (hnone c hsome).elim) (served_new w none false)

/-- A subscription passes for a vault that the socket's wallet owns. -/
theorem checkSubscription_ok {vaultAddress : Option String} {answered : Bool} {v : VaultRow}
    (h : checkSubscription env w c vaultAddress answered = .ok v) : Owns env w.db c v.address := by
  rw [checkSubscription] at h
  cases answered with
  | false => cases h
  | true =>
    obtain ⟨hv, hown, -⟩ := assertOwnership_eq_ok.1 h
    exact ⟨v, hv, rfl, hown⟩

/-- A subscription keeps the world sound. -/
theorem sound_subscribe (h : Sound env w) (k : Nat) (vaultAddress : Option String)
    (answered : Bool) : Sound env (onSubscribe env w k vaultAddress answered) := by
  rw [onSubscribe]
  cases hc : w.clients k with
  | none => exact h
  | some c =>
    simp only
    split
    · refine ⟨h.checksummed, h.entries, h.fresh, h.known, fun p hp => ?_, fun k' c' hc' => ?_⟩
      · rcases List.mem_append.1 hp with hp | hp
        · exact h.pending p hp
        · obtain rfl := List.mem_singleton.1 hp
          exact ⟨c, hc, fun v hv => checkSubscription_ok hv⟩
      · exact (h.clients k' c' hc').mono (.refl _) (fun _ he => he) fun _ hkey => .inl hkey
    · exact h

/-- The room that is joined belongs to a vault of the client. -/
theorem served_answered (h : Served env w c) {result : Except HttpError VaultRow}
    (hchecksummed : ∀ v ∈ w.db.vaults, env.getAddress v.address = some v.address)
    (hresult : ∀ v, result = .ok v → Owns env w.db c v.address) :
    Served env w (c.answered env result) := by
  rw [Client.answered]
  split
  · cases result with
    | error e => exact ⟨h.rooms, h.once, h.own, h.unsent⟩
    | ok v =>
      have howns := hresult v rfl
      obtain ⟨v', hv', haddress, -⟩ := id howns
      have hjoins : joins env (.ok v) = some (room v.address) := by
        rw [joins, ← haddress, hchecksummed v' hv']
        rfl
      rw [hjoins]
      refine ⟨fun r hr => ?_, h.once, h.own, h.unsent⟩
      rcases List.mem_append.1 hr with hr | hr
      · exact h.rooms r hr
      · exact ⟨v.address, List.mem_singleton.1 hr, howns⟩
  · exact h

/-- An answer leaves the wallet of a socket. -/
theorem answered_address (c : Client) (env : Env) (result : Except HttpError VaultRow) :
    (c.answered env result).address = c.address := by
  rw [Client.answered]
  split
  · cases joins env result with
    | none => rfl
    | some r => rfl
  · rfl

/-- To join a room keeps the world sound. -/
theorem sound_join (h : Sound env w) (i : Nat) : Sound env (onJoin env w i) := by
  rw [onJoin]
  cases hi : w.subscribing[i]? with
  | none => exact h
  | some p =>
    obtain ⟨k, result⟩ := p
    have hpending := h.pending (k, result) (List.mem_of_getElem? hi)
    have hrest {w' : World} (hw' : Sound env w') (hsame : w'.subscribing = w.subscribing) :
        Sound env { w' with subscribing := w.subscribing.eraseIdx i } := by
      refine ⟨hw'.checksummed, hw'.entries, hw'.fresh, hw'.known, fun p hp => ?_, fun k' c' hc' => ?_⟩
      · exact hw'.pending p (hsame ▸ List.mem_of_mem_eraseIdx hp)
      · exact (hw'.clients k' c' hc').mono (.refl _) (fun _ he => he) fun _ hkey => .inl hkey
    cases hc : w.clients k with
    | none =>
      simp only [hc]
      exact hrest h rfl
    | some c =>
      simp only [hc]
      obtain ⟨c', hc', howns⟩ := hpending
      obtain rfl : c' = c := Option.some.inj (hc'.symm.trans hc)
      have hserved := served_answered (h.clients k c' hc) h.checksummed howns
      refine hrest (h.setClient (fun c hsome => ?_) hserved) rfl
      obtain rfl : c' = c := Option.some.inj (hc.symm.trans hsome)
      exact answered_address c' env result

theorem served_gone (h : Served env w c) : Served env w c.gone :=
  ⟨fun _ hr => absurd hr List.not_mem_nil, h.once, h.own, h.unsent⟩

/-- A disconnection keeps the world sound. -/
theorem sound_disconnect (h : Sound env w) (k : Nat) : Sound env (step env w (.disconnect k)) := by
  rw [step]
  cases hc : w.clients k with
  | none => exact h
  | some c =>
    refine h.setClient (fun c' hsome => ?_) (served_gone (h.clients k c hc))
    obtain rfl : c = c' := Option.some.inj (hc.symm.trans hsome)
    rfl

/-- A restart keeps the world sound. -/
theorem sound_restart (h : Sound env w) : Sound env (step env w .restart) := by
  refine ⟨h.checksummed, ?_, ?_, ?_, ?_, fun k c hc => ?_⟩
  · exact fun e he => absurd he List.not_mem_nil
  · exact fun r hr => absurd hr List.not_mem_nil
  · exact fun _ _ hkey => absurd hkey List.not_mem_nil
  · exact fun p hp => absurd hp List.not_mem_nil
  · obtain ⟨c₀, hc₀, rfl⟩ := Option.map_eq_some_iff.1 hc
    exact (served_gone (h.clients k c₀ hc₀)).mono (.refl _) (fun _ he => he)
      fun _ hkey => absurd hkey List.not_mem_nil

end Clients

/-! ## Rows are stored and handed over -/

section Rows

variable {env : Env} {w : World}

/-- Other calls on the database keep the world sound. -/
theorem sound_database (hchecksum : ∀ x y, env.getAddress x = some y → env.getAddress y = some y)
    (h : Sound env w) (call : DatabaseCall) :
    Sound env (step env w (.database call)) := by
  have hkept := call.run_kept env w.db
  refine ⟨fun v hv => ?_, fun e he => ?_, h.fresh, h.known, fun p hp => ?_, fun k c hc => ?_⟩
  · rcases hkept.added v hv with ⟨v₀, hv₀, haddress⟩ | ⟨x, hx⟩
    · rw [← haddress]
      exact h.checksummed v₀ hv₀
    · exact hchecksum x v.address hx
  · obtain ⟨v, hv, haddress, hid⟩ := h.entries e he
    obtain ⟨v', hv', hid', haddress', -⟩ := hkept.kept v hv
    exact ⟨v', hv', haddress'.trans haddress, hid'.trans hid⟩
  · obtain ⟨c, hc, howns⟩ := h.pending p hp
    exact ⟨c, hc, fun v hv => (howns v hv).mono hkept⟩
  · exact (h.clients k c hc).mono hkept (fun _ he => he) fun _ hkey => .inl hkey

/-- The tick goes on without a change of the tables. -/
theorem Sound.setTick (h : Sound env w) {tick : Tick}
    (hentries : ∀ e ∈ tick.entries, ∃ v ∈ w.db.vaults, v.address = e.1 ∧ v.id = e.2)
    (hfresh : ∀ r ∈ tick.newRows, ¬ w.executions.Has r.2.key ∧ ∃ e ∈ tick.entries, e.1 = r.1)
    (hunsent : tick.unsent = []) : Sound env { w with tick := tick } := by
  refine ⟨h.checksummed, hentries, hfresh, fun row _ hkey => ?_, h.pending, fun k c hc => ?_⟩
  · rw [hunsent] at hkey
    cases hkey
  refine (h.clients k c hc).mono (.refl _) (fun _ he => he) fun key hkey => ?_
  rw [hunsent] at hkey
  cases hkey

/-- An entry that is set, or was there. -/
theorem mem_setEntry {entries : List (String × String)} {key value : String} {e : String × String}
    (h : e ∈ setEntry entries key value) : e ∈ entries ∨ e = (key, value) := by
  rw [setEntry] at h
  split at h
  · obtain ⟨e', he', rfl⟩ := List.mem_map.1 h
    split
    · exact .inr rfl
    · exact .inl he'
  · rcases List.mem_append.1 h with h | h
    · exact .inl h
    · exact .inr (List.mem_singleton.1 h)

/-- Every entry is of a vault. -/
theorem vaultByAddress_mem {vaults : List VaultRow} {entries : List (String × String)}
    (h : vaultByAddress env vaults = some entries) :
    ∀ e ∈ entries, ∃ v ∈ vaults, env.getAddress v.address = some e.1 ∧ v.id = e.2 := by
  have hfold (vaults : List VaultRow) (before entries : List (String × String))
      (h : vaults.foldlM (fun entries v => (env.getAddress v.address).map fun a =>
        setEntry entries a v.id) before = some entries) :
      ∀ e ∈ entries, e ∈ before ∨ ∃ v ∈ vaults, env.getAddress v.address = some e.1 ∧ v.id = e.2 := by
    induction vaults generalizing before with
    | nil =>
      cases h
      exact fun e he => .inl he
    | cons v vaults ih =>
      rw [List.foldlM_cons] at h
      cases haddress : env.getAddress v.address with
      | none =>
        rw [haddress] at h
        cases h
      | some a =>
        rw [haddress] at h
        intro e he
        rcases ih _ h e he with hbefore | ⟨v', hv', hof⟩
        · rcases mem_setEntry hbefore with hbefore | rfl
          · exact .inl hbefore
          · exact .inr ⟨v, List.mem_cons_self, haddress, rfl⟩
        · exact .inr ⟨v', List.mem_cons_of_mem v hv', hof⟩
  intro e he
  rcases hfold vaults [] entries h e he with hnil | hvault
  · cases hnil
  · exact hvault

/-- To read the vaults keeps the world sound. -/
theorem sound_findVaults (h : Sound env w) : Sound env (step env w .findVaults) := by
  rw [step]
  split
  · rename_i entries hidle hentries
    refine h.setTick (fun e he => ?_) (fun _ hr => absurd hr List.not_mem_nil) rfl
    obtain ⟨v, hv, haddress, hid⟩ := vaultByAddress_mem hentries e he
    -- the addresses in the table are checksummed already
    exact ⟨v, hv, Option.some.inj ((h.checksummed v hv).symm.trans haddress), hid⟩
  · exact h

/-- To look for rows that exist keeps the world sound. -/
theorem sound_findExisting (h : Sound env w) (rows : List (String × ExecutionRow)) :
    Sound env (step env w (.findExisting rows)) := by
  rw [step]
  have hentries := h.entries
  cases htick : w.tick with
  | scanning entries =>
    rw [htick] at hentries
    simp only [Tick.findExisting]
    split
    · rename_i hall
      split
      · exact h.setTick hentries (fun _ hr => absurd hr List.not_mem_nil) rfl
      · refine h.setTick hentries (fun r hr => ?_) rfl
        -- new rows are those without a row of their key
        obtain ⟨hr, hnew⟩ := List.mem_filter.1 hr
        obtain ⟨e, he, haddress⟩ := List.any_eq_true.1 (List.all_eq_true.1 hall r hr)
        exact ⟨of_decide_eq_true hnew, e, he, of_decide_eq_true haddress⟩
    · exact h.setTick hentries (fun _ hr => absurd hr List.not_mem_nil) rfl
  | idle =>
    simp only [Tick.findExisting]
    rw [← htick]
    exact h
  | found entries newRows =>
    simp only [Tick.findExisting]
    rw [← htick]
    exact h
  | stored entries keys =>
    simp only [Tick.findExisting]
    rw [← htick]
    exact h

/-- A row of a known address gets the id of an entry. -/
theorem executionRow_known {entries : List (String × String)} {r : String × ExecutionRow}
    (h : ∃ e ∈ entries, e.1 = r.1) : ∃ e ∈ entries, e.2 = (executionRow entries r).vaultId := by
  cases hfind : entries.find? fun e => e.1 = r.1 with
  | none =>
    obtain ⟨e, he, haddress⟩ := h
    exact absurd (decide_eq_true haddress) (List.find?_eq_none.1 hfind e he)
  | some e => exact ⟨e, List.mem_of_find?_eq_some hfind, by rw [executionRow, hfind]; rfl⟩

/-- To store rows keeps the world sound. -/
theorem sound_transaction (h : Sound env w) : Sound env (step env w .transaction) := by
  rw [step]
  split
  · rename_i entries newRows htick
    have hentries := h.entries
    have hfresh := h.fresh
    rw [htick] at hentries hfresh
    have hnew {key : String × Nat} (hkey : key ∈ newRows.map fun r => r.2.key) :
        ¬ w.executions.Has key := by
      obtain ⟨r, hr, rfl⟩ := List.mem_map.1 hkey
      exact (hfresh r hr).1
    refine ⟨h.checksummed, hentries, fun _ hr => absurd hr List.not_mem_nil, fun row hrow hkey => ?_,
      h.pending, fun k c hc => ?_⟩
    · rcases Table.mem_of_mem_insertMany hrow with hold | hrow
      · exact absurd ⟨row, hold, rfl⟩ (hnew hkey)
      · obtain ⟨r, hr, rfl⟩ := List.mem_map.1 hrow
        exact executionRow_known (hfresh r hr).2
    · refine (h.clients k c hc).mono (.refl _) (fun e he => Table.mem_insertMany_of_mem _ he) ?_
      exact fun key hkey => .inr (hnew hkey)
  · exact h

end Rows

/-! ## What is handed over -/

/-- The rows of the groups, one after the other. -/
def deliveries (groups : List (String × List ExecutionRow)) : List Delivery :=
  groups.flatMap fun g => g.2.map (Delivery.mk g.1)

/-- What of the groups comes to the client. -/
def Client.share (c : Client) (groups : List (String × List ExecutionRow)) : List Delivery :=
  if c.connected then deliveries (groups.filter fun g => room g.1 ∈ c.rooms) else []

/-- What a socket gets of a broadcast. -/
def Client.deliverAll (c : Client) (groups : List (String × List ExecutionRow)) : Client :=
  { c with received := c.received ++ c.share groups }

section Deliveries

variable {env : Env} {w : World} {groups : List (String × List ExecutionRow)}

/-- Each row of each group is delivered. -/
theorem mem_deliveries {d : Delivery} :
    d ∈ deliveries groups ↔ ∃ g ∈ groups, d.vaultAddress = g.1 ∧ d.execution ∈ g.2 := by
  rw [deliveries, List.mem_flatMap]
  constructor
  · rintro ⟨g, hg, hd⟩
    obtain ⟨e, he, rfl⟩ := List.mem_map.1 hd
    exact ⟨g, hg, rfl, he⟩
  · rintro ⟨g, hg, haddress, he⟩
    exact ⟨g, hg, List.mem_map.2 ⟨d.execution, he, by rw [← haddress]⟩⟩

/-- A socket gets what is delivered to its rooms. -/
theorem mem_share {c : Client} {d : Delivery} : d ∈ c.share groups ↔
    c.connected = true ∧ room d.vaultAddress ∈ c.rooms ∧ d ∈ deliveries groups := by
  rw [Client.share]
  split
  · rename_i hconnected
    rw [mem_deliveries, mem_deliveries]
    constructor
    · rintro ⟨g, hg, haddress, he⟩
      obtain ⟨hg, hroom⟩ := List.mem_filter.1 hg
      exact ⟨hconnected, haddress ▸ of_decide_eq_true hroom, g, hg, haddress, he⟩
    · rintro ⟨-, hroom, g, hg, haddress, he⟩
      exact ⟨g, List.mem_filter.2 ⟨hg, decide_eq_true (haddress ▸ hroom)⟩, haddress, he⟩
  · rename_i hgone
    constructor
    · exact fun h => absurd h List.not_mem_nil
    · exact fun h => absurd h.1 hgone

/-- A socket gets a part of what is delivered. -/
theorem share_sublist (c : Client) (groups : List (String × List ExecutionRow)) :
    (c.share groups).Sublist (deliveries groups) := by
  rw [Client.share]
  split
  · exact List.filter_sublist.flatMap _
  · exact List.nil_sublist _

/-- The groups that come one after the other come to the client as its share. -/
theorem foldl_deliver (c : Client) (groups : List (String × List ExecutionRow)) :
    groups.foldl (fun c g => c.deliver g.1 g.2) c = c.deliverAll groups := by
  induction groups generalizing c with
  | nil =>
    rw [List.foldl_nil, Client.deliverAll, Client.share, List.filter_nil, deliveries,
      List.flatMap_nil, ite_self,
      List.append_nil]
  | cons g rest ih =>
    -- a group counts where the client is connected and in its room
    have hshare : c.share (g :: rest) =
        (if c.connected ∧ room g.1 ∈ c.rooms then g.2.map (Delivery.mk g.1) else []) ++
          c.share rest := by
      rw [Client.share, Client.share]
      by_cases hconnected : c.connected = true
      · rw [if_pos hconnected, if_pos hconnected, List.filter_cons]
        by_cases hroom : room g.1 ∈ c.rooms
        · rw [if_pos (decide_eq_true hroom), if_pos ⟨hconnected, hroom⟩]
          rfl
        · rw [if_neg (by simpa using hroom), if_neg fun h => hroom h.2]
          rfl
      · rw [if_neg hconnected, if_neg hconnected, if_neg fun h => hconnected h.1]
        rfl
    rw [List.foldl_cons, ih, Client.deliverAll, Client.deliverAll, hshare, Client.deliver]
    split
    · rw [← List.append_assoc]
      rfl
    · rfl

/-- To broadcast is to give each socket its share. -/
theorem emitAll_eq (hgroups : ∀ g ∈ groups, env.getAddress g.1 = some g.1) (w : World) :
    emitAll env groups w =
      { w with clients := fun k => (w.clients k).map fun c => c.deliverAll groups } := by
  induction groups generalizing w with
  | nil =>
    have hclients (k : Nat) : (w.clients k).map (fun c => c.deliverAll []) = w.clients k := by
      cases w.clients k with
      | none => rfl
      | some c => exact congrArg some (foldl_deliver c []).symm
    simp only [emitAll, hclients]
  | cons g rest ih =>
    have haddress := hgroups g List.mem_cons_self
    have hrest := ih fun g' hg' => hgroups g' (List.mem_cons_of_mem g hg')
    rw [emitAll, emitNewExecutions, haddress, Option.map_some]
    simp only
    rw [hrest]
    have hclients (k : Nat) :
        ((w.clients k).map fun c => c.deliver g.1 g.2).map (fun c => c.deliverAll rest) =
          (w.clients k).map fun c => c.deliverAll (g :: rest) := by
      cases w.clients k with
      | none => rfl
      | some c =>
        rw [Option.map_some, Option.map_some, Option.map_some, ← foldl_deliver, ← foldl_deliver]
        rfl
    simp only [hclients]

/-- A group is of one vault, by its address. -/
theorem mem_byVault {entries : List (String × String)} {created : List ExecutionRow}
    {g : String × List ExecutionRow} (hg : g ∈ byVault entries created) :
    ∃ vaultId, (g.1, vaultId) ∈ entries ∧ g.2 = created.filter fun row => row.vaultId = vaultId := by
  obtain ⟨vaultId, -, hmap⟩ := List.mem_filterMap.1 hg
  obtain ⟨e, hfind, rfl⟩ := Option.map_eq_some_iff.1 hmap
  have hid := List.find?_some hfind
  rw [decide_eq_true_iff] at hid
  exact ⟨vaultId, hid ▸ List.mem_of_find?_eq_some hfind, rfl⟩

/-- Rows with different keys are handed over once each. -/
theorem nodup_deliveries {entries : List (String × String)} {created : List ExecutionRow}
    (hcreated : (created.map ExecutionRow.key).Nodup) :
    ((deliveries (byVault entries created)).map fun d => d.execution.key).Nodup := by
  have hkeys : (deliveries (byVault entries created)).map (fun d => d.execution.key) =
      (byVault entries created).flatMap fun g => g.2.map ExecutionRow.key := by
    rw [deliveries, List.map_flatMap]
    congr
    funext g
    rw [List.map_map]
    rfl
  rw [hkeys, List.nodup_flatMap]
  constructor
  · intro g hg
    obtain ⟨vaultId, -, hrows⟩ := mem_byVault hg
    rw [hrows]
    exact hcreated.sublist (List.filter_sublist.map _)
  · rw [byVault, List.pairwise_filterMap]
    refine (nodup_distinct _).imp fun {id id'} hne g hg g' hg' => ?_
    obtain ⟨e, -, rfl⟩ := Option.map_eq_some_iff.1 hg
    obtain ⟨e', -, rfl⟩ := Option.map_eq_some_iff.1 hg'
    -- a row with the key of both groups would be of both vaults
    intro key hkey hkey'
    obtain ⟨row, hrow, rfl⟩ := List.mem_map.1 hkey
    obtain ⟨row', hrow', heq⟩ := List.mem_map.1 hkey'
    obtain ⟨hrow, hid⟩ := List.mem_filter.1 hrow
    obtain ⟨hrow', hid'⟩ := List.mem_filter.1 hrow'
    obtain rfl : row' = row := List.inj_on_of_nodup_map hcreated hrow' hrow heq
    exact hne ((of_decide_eq_true hid).symm.trans (of_decide_eq_true hid'))

end Deliveries

/-! ## Runs -/

section Runs

variable {env : Env} {w : World}

/-- A row that comes to a client is one of its vaults. -/
theorem own_of_share (h : Sound env w) {entries : List (String × String)}
    {keys : List (String × Nat)} (htick : w.tick = .stored entries keys) {created : List ExecutionRow}
    {c : Client} (hrooms : ∀ r ∈ c.rooms, ∃ address, r = room address ∧ Owns env w.db c address)
    {d : Delivery} (hd : d ∈ c.share (byVault entries created)) :
    d.Own env w.db c ∧ d.execution ∈ created := by
  obtain ⟨-, hroom, hd⟩ := mem_share.1 hd
  obtain ⟨g, hg, haddress, hrow⟩ := mem_deliveries.1 hd
  obtain ⟨vaultId, hentry, hrows⟩ := mem_byVault hg
  rw [hrows] at hrow
  obtain ⟨hcreated, hid⟩ := List.mem_filter.1 hrow
  obtain ⟨v, hv, hvaddress, hvid⟩ := h.entries (g.1, vaultId) (by rw [htick]; exact hentry)
  obtain ⟨address, hjoined, v', hv', rfl, hown⟩ := hrooms _ hroom
  -- the vault of the room is the vault of the group, as addresses are unique
  have hsame : v'.address = v.address := (room_inj hjoined).symm.trans (haddress.trans hvaddress.symm)
  obtain rfl : v' = v := List.inj_on_of_nodup_map w.db.addresses hv' hv hsame
  exact ⟨⟨v', hv, hvaddress.trans haddress.symm, hvid.trans (of_decide_eq_true hid).symm, hown⟩,
    hcreated⟩

/-- The groups come by checksummed addresses. -/
theorem getAddress_byVault (h : Sound env w) {entries : List (String × String)}
    {keys : List (String × Nat)} (htick : w.tick = .stored entries keys) {created : List ExecutionRow} :
    ∀ g ∈ byVault entries created, env.getAddress g.1 = some g.1 := by
  intro g hg
  obtain ⟨vaultId, hentry, -⟩ := mem_byVault hg
  obtain ⟨v, hv, haddress, -⟩ := h.entries (g.1, vaultId) (by rw [htick]; exact hentry)
  rw [← haddress]
  exact h.checksummed v hv

/-- The broadcast keeps the world sound. -/
theorem sound_findCreated (h : Sound env w) (created : List ExecutionRow) :
    Sound env (step env w (.findCreated created)) := by
  rw [step]
  split
  · rename_i entries keys htick
    split
    · rename_i hperm
      have hentries := h.entries
      rw [htick] at hentries
      have hmem {row : ExecutionRow} (hrow : row ∈ created) : row ∈ w.executions ∧ row.key ∈ keys := by
        obtain ⟨hrow, hkey⟩ := List.mem_filter.1 (hperm.mem_iff.1 hrow)
        exact ⟨hrow, List.contains_iff_mem.1 hkey⟩
      have hcreated : (created.map ExecutionRow.key).Nodup :=
        (hperm.map _).nodup_iff.2 (w.executions.nodup.sublist (List.filter_sublist.map _))
      rw [emitAll_eq (getAddress_byVault h htick)]
      refine ⟨h.checksummed, hentries, fun _ hr => absurd hr List.not_mem_nil,
        fun _ _ hkey => absurd hkey List.not_mem_nil, fun p hp => ?_, fun k c' hc' => ?_⟩
      · obtain ⟨c, hc, howns⟩ := h.pending p hp
        exact ⟨c.deliverAll (byVault entries created), congrArg (Option.map _) hc, howns⟩
      · obtain ⟨c, hc, rfl⟩ := Option.map_eq_some_iff.1 hc'
        have hserved := h.clients k c hc
        have hunsent := hserved.unsent
        rw [htick] at hunsent
        refine ⟨hserved.rooms, ?_, fun d hd => ?_, fun _ _ hkey => absurd hkey List.not_mem_nil⟩
        · rw [Client.deliverAll, List.map_append, List.nodup_append']
          refine ⟨hserved.once, (nodup_deliveries hcreated).sublist ((share_sublist c _).map _), ?_⟩
          -- what the client has already was not waiting to be sent
          intro key hold hnew
          obtain ⟨d, hd, rfl⟩ := List.mem_map.1 hold
          obtain ⟨d', hd', heq⟩ := List.mem_map.1 hnew
          exact hunsent d hd (heq ▸ (hmem (own_of_share h htick hserved.rooms hd').2).2)
        · rcases List.mem_append.1 hd with hd | hd
          · exact hserved.own d hd
          · obtain ⟨hown, hrow⟩ := own_of_share h htick hserved.rooms hd
            exact ⟨hown, (hmem hrow).1⟩
    · exact h
  · exact h

/-- A step keeps the world sound. -/
theorem step_sound (hchecksum : ∀ x y, env.getAddress x = some y → env.getAddress y = some y)
    (h : Sound env w) (l : Label) : Sound env (step env w l) := by
  cases l with
  | connect k verified => exact sound_connect h k verified
  | subscribe k vaultAddress answered => exact sound_subscribe h k vaultAddress answered
  | join i => exact sound_join h i
  | disconnect k => exact sound_disconnect h k
  | database call => exact sound_database hchecksum h call
  | findVaults => exact sound_findVaults h
  | findExisting rows => exact sound_findExisting h rows
  | transaction => exact sound_transaction h
  | findCreated created => exact sound_findCreated h created
  | endTick =>
    exact h.setTick (fun _ he => absurd he List.not_mem_nil) (fun _ hr => absurd hr List.not_mem_nil) rfl
  | restart => exact sound_restart h

/-- The world is sound when the gateway starts. -/
theorem started_sound {db : Database} {executions : Table ExecutionRow ExecutionRow.key}
    (hdb : ∀ v ∈ db.vaults, env.getAddress v.address = some v.address) :
    Sound env (started db executions) where
  checksummed := hdb
  entries _ he := absurd he List.not_mem_nil
  fresh _ hr := absurd hr List.not_mem_nil
  known _ _ hkey := absurd hkey List.not_mem_nil
  pending _ hp := absurd hp List.not_mem_nil
  clients _ _ hc := nomatch hc

/-- **A client receives its own executions, once each.** Whatever clients, requests and the indexer do,
in any order, what a client has received are different execution rows of vaults that the address of its
token owns. -/
theorem received_own (hchecksum : ∀ x y, env.getAddress x = some y → env.getAddress y = some y)
    {db : Database} (hdb : ∀ v ∈ db.vaults, env.getAddress v.address = some v.address)
    (executions : Table ExecutionRow ExecutionRow.key) (ls : List Label)
    (hw : w = run (step env) (started db executions) ls) {k : Nat} {c : Client}
    (hc : w.clients k = some c) :
    (c.received.map fun d => d.execution.key).Nodup ∧
      ∀ d ∈ c.received, d.execution ∈ w.executions ∧ ∃ v ∈ w.db.vaults, v.address = d.vaultAddress ∧
        v.id = d.execution.vaultId ∧ OwnVault env.providers (c.address.getD "") v := by
  subst hw
  have hsound : Sound env (run (step env) (started db executions) ls) :=
    run_invariant (I := Sound env) (fun w l h _ => step_sound hchecksum h l) (started_sound hdb)
      (admitted_true _ _ ls)
  have hserved := hsound.clients k c hc
  exact ⟨hserved.once, fun d hd => ⟨(hserved.own d hd).2, (hserved.own d hd).1⟩⟩

end Runs

/-! ## Two clients -/

/-- Every text is an address, and there is no chain. -/
def sampleEnv : Env := ⟨sampleProviders, none⟩

/-- An execution in this transaction. -/
def sampleExecution (txHash : String) : ExecutionRow :=
  ⟨"", 0, ⟨9⟩, txHash, 10, 0, 1000, some 5, some ⟨7⟩, none⟩

/-- Of two users with a vault each, both ask for the vault of the first. -/
def sampleSubscriptions : List Label :=
  [.connect 0 (some (some "0x1111111111111111111111111111111111111111")),
    .connect 1 (some (some "0x2222222222222222222222222222222222222222")),
    .subscribe 0 (some "0x3333333333333333333333333333333333333333") true,
    .subscribe 1 (some "0x3333333333333333333333333333333333333333") true, .join 0, .join 0]

/-- Both vaults are executed. -/
def sampleTick : List Label :=
  [.findVaults,
    .findExisting [("0x3333333333333333333333333333333333333333", sampleExecution "0xa"),
      ("0x4444444444444444444444444444444444444444", sampleExecution "0xb")],
    .transaction,
    .findCreated [{ sampleExecution "0xb" with vaultId := "v2" },
      { sampleExecution "0xa" with vaultId := "v1" }]]

/-- Two users have asked for the same vault. -/
def sampleWorld : World := run (step sampleEnv) (started twoUsers Table.empty) sampleSubscriptions

/-- The tick has run after that. -/
def sampleWorld' : World := run (step sampleEnv) sampleWorld sampleTick

/-- The row that the first user's vault has then. -/
def sampleRow : ExecutionRow := { sampleExecution "0xa" with vaultId := "v1" }

theorem sampleEnv_checksum (x y : String) (_ : sampleEnv.getAddress x = some y) :
    sampleEnv.getAddress y = some y := rfl

theorem received_own_sample : ∃ c, sampleWorld'.clients 0 = some c ∧
    c.received.map Delivery.execution = [sampleRow] ∧
      ∀ d ∈ c.received, ∃ v ∈ sampleWorld'.db.vaults, v.address = d.vaultAddress ∧ v.id = "v1" := by
  obtain ⟨c, hc, hreceived⟩ := Option.map_eq_some_iff.1
    (show (sampleWorld'.clients 0).map (fun c => c.received.map Delivery.execution) = some [sampleRow] by
      decide)
  have hw : sampleWorld' = run (step sampleEnv) (started twoUsers Table.empty)
      (sampleSubscriptions ++ sampleTick) := (run_append _ _ _ _).symm
  obtain ⟨-, hown⟩ := received_own sampleEnv_checksum
    (fun _ _ => rfl) Table.empty (sampleSubscriptions ++ sampleTick) hw hc
  refine ⟨c, hc, hreceived, fun d hd => ?_⟩
  obtain ⟨-, v, hv, haddress, hid, -⟩ := hown d hd
  have hrow : d.execution ∈ [sampleRow] := hreceived ▸ List.mem_map_of_mem hd
  rw [List.mem_singleton.1 hrow] at hid
  exact ⟨v, hv, haddress, hid⟩

end StrategyBuilder.Indexer.ExecutionsGateway
