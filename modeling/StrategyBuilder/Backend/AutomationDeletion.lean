import StrategyBuilder.Backend.AutomationAccess
import StrategyBuilder.Backend.TriggerStatus
import StrategyBuilder.Lib.Transition

/-!
# Deleting automations

The `DELETE` route of `automation.controller.ts` with the cache of `getStatuses`, on a chain that goes
on. A request awaits the guard and the row, a reconciliation where the row is a draft, the statuses of
the vault and at last the removal; transactions, status routes and other requests may come between.

A removal can come too late, or its check can see too little: a cached list may be older than the
activation, an automation that cannot be read counts as inactive, and nothing holds the chain or the
row between the check and the removal. Where none of that happens, no active public automation is
removed (`deletes_only_inactive`).
-/

set_option autoImplicit false

namespace StrategyBuilder.Backend

open StrategyBuilder.Contracts
open StrategyBuilder.Contracts.Vault
open StrategyBuilder.Lib
open StrategyBuilder.Lib.Js
open StrategyBuilder.Lib.Transition

/-! ## The system -/

/-- What a `DELETE` request awaits. -/
inductive DeleteStage where
  /-- The guard, and the row in `findById`. -/
  | finding
  /-- The linked ids in `tryReconcile`. -/
  | linking (automation : AutomationRow) (vault : VaultRow)
  /-- The search of `tryReconcile` on the chain, and its write. -/
  | reconciling (automation : AutomationRow) (vault : VaultRow) (linked : Nat → Bool)
  /-- Nothing but its turn: it goes on with the automation. -/
  | found (automation : AutomationRow)
  | checking (automation : AutomationRow) (read : StatusRead)
  | removing (automation : AutomationRow)

/-- A deletion in progress, and how far it has come. -/
structure Deletion where
  user : String
  address : String
  id : String
  stage : DeleteStage

/-- The moment at which an await of a `DELETE` request is settled. A write that is not answered may
have been made all the same. -/
structure DeleteMoment extends Moment where
  written : Bool
  /-- What `tryReconcile` reads on the chain. -/
  rpc : Option Chain

/-- The chain with a vault at every address, and the backend. -/
structure Site where
  /-- In milliseconds. -/
  now : Nat
  vaults : String → State
  db : Database
  cache : Map String CacheEntry
  /-- The status routes in progress, with the addresses they were asked for. -/
  reads : List (String × StatusRead)
  deletions : List Deletion

/-- Time, transactions, reads of the status and deletions, in any order. -/
inductive SiteEvent where
  | wait (ms : Nat)
  | transact (address : String) (tx : Tx)
  | readStatuses (address : String)
  | resumeRead (k : Nat) (m : Moment)
  | delete (user address id : String)
  | resumeDelete (k : Nat) (m : DeleteMoment)

namespace Site

/-- The cached list of an address, until it expires. -/
def cached (w : Site) (address : String) : Option (List AutomationStatus) :=
  match w.cache address with
  | none => none
  | some entry => if w.now < entry.expiresAt then some entry.statuses else none

/-- `this.cache.set(vaultAddress, { statuses, expiresAt: Date.now() + CACHE_TTL })` -/
def store (w : Site) (address : String) (statuses : List AutomationStatus) : Map String CacheEntry :=
  w.cache.set address ⟨statuses, w.now + cacheTtl⟩

/-- The vault that an address in a request names. -/
def vaultAt (env : Providers) (w : Site) (address : String) : State :=
  w.vaults ((env.getAddress address).getD address)

end Site

/-- What a request leaves when it goes on: without a stage it is answered. -/
structure Resumed where
  db : Database
  cache : Map String CacheEntry
  stage : Option DeleteStage

section System

variable (env : Providers) (stepTypes : List (Address × String))

/-- The check of the route against a list. -/
def Deletion.check (d : Deletion) (automation : AutomationRow) (statuses : List AutomationStatus) :
    Option DeleteStage :=
  match respond.activeOnChain
      { env with getStatuses := fun _ => some (statuses.map fun s => (s.onChainId, s.active)) }
      d.address automation with
  | .error _ => none
  | .ok () => some (.removing automation)

/-- A request goes on at the moment of what it awaits. -/
def Deletion.resume (d : Deletion) (w : Site) (m : DeleteMoment) : Resumed :=
  match d.stage with
  | .finding =>
      match m.answered, assertOwnership env w.db d.address d.user, w.db.findAutomation d.id with
      | true, .ok _, some (automation, vault) =>
          -- the guard passed; only a draft without a link is looked up on the chain
          if automation.isDraft = true ∧ automation.onChainId = none then
            ⟨w.db, w.cache, some (.linking automation vault)⟩
          else ⟨w.db, w.cache, some (.found automation)⟩
      | _, _, _ => ⟨w.db, w.cache, none⟩
  | .linking automation vault =>
      if m.answered then
        ⟨w.db, w.cache, some (.reconciling automation vault (w.db.linked vault.id))⟩
      else ⟨w.db, w.cache, some (.found automation)⟩
  | .reconciling automation vault linked =>
      match reconciledData { env with rpc := m.rpc } linked automation vault with
      | none => ⟨w.db, w.cache, some (.found automation)⟩
      | some data =>
          match w.db.updateAutomation automation.id data with
          | .error _ => ⟨w.db, w.cache, some (.found automation)⟩
          | .ok (db, reconciled) =>
              -- a write that is not answered is caught, and the row from before is used
              if m.answered then ⟨db, w.cache, some (.found reconciled)⟩
              else ⟨if m.written then db else w.db, w.cache, some (.found automation)⟩
  | .found automation =>
      if automation.onChainId ≠ none ∧ automation.ownerOnly = false then
        match w.cached d.address with
        | some statuses => ⟨w.db, w.cache, d.check env automation statuses⟩
        -- nothing that is still valid: the vault is read, which takes several awaits
        | none => ⟨w.db, w.cache, some (.checking automation .automationCount)⟩
      else ⟨w.db, w.cache, some (.removing automation)⟩
  | .checking automation read =>
      match read.resume stepTypes (w.vaultAt env d.address) w.now m.toMoment with
      | .awaits read => ⟨w.db, w.cache, some (.checking automation read)⟩
      | .caches statuses => ⟨w.db, w.store d.address statuses, d.check env automation statuses⟩
      | .returns statuses => ⟨w.db, w.cache, d.check env automation statuses⟩
      | .throws => ⟨w.db, w.cache, none⟩
  | .removing _ =>
      match w.db.deleteAutomation d.id with
      | .ok db => ⟨if m.answered || m.written then db else w.db, w.cache, none⟩
      | .error _ => ⟨w.db, w.cache, none⟩

namespace Site

/-- The `k`-th status route goes on. -/
def resumeRead (w : Site) (k : Nat) (m : Moment) : Site :=
  match w.reads[k]? with
  | none => w
  | some (address, read) =>
      match read.resume stepTypes (w.vaultAt env address) w.now m with
      | .awaits read => { w with reads := w.reads.set k (address, read) }
      | .caches statuses =>
          { w with
            cache := w.store address statuses
            reads := w.reads.eraseIdx k }
      | .returns _ | .throws => { w with reads := w.reads.eraseIdx k }

/-- The `k`-th `DELETE` request goes on. -/
def resumeDelete (w : Site) (k : Nat) (m : DeleteMoment) : Site :=
  match w.deletions[k]? with
  | none => w
  | some d =>
      let r := d.resume env stepTypes w m
      { w with
        db := r.db
        cache := r.cache
        deletions :=
          match r.stage with
          | some stage => w.deletions.set k { d with stage := stage }
          | none => w.deletions.eraseIdx k }

/-- One event. -/
def step (w : Site) : SiteEvent → Site
  | .wait ms => { w with now := w.now + ms }
  | .transact address tx =>
      { w with vaults := Function.update w.vaults address (Vault.step (w.vaults address) tx) }
  | .readStatuses address =>
      match w.cached address with
      | some _ => w
      | none => { w with reads := w.reads ++ [(address, .automationCount)] }
  | .resumeRead k m => w.resumeRead env stepTypes k m
  | .delete user address id =>
      { w with deletions := w.deletions ++ [⟨user, address, id, .finding⟩] }
  | .resumeDelete k m => w.resumeDelete env stepTypes k m

end Site

/-! ## What a removal must not do -/

namespace Site

/-- The address of an automation's vault. -/
def addressOf (w : Site) (a : AutomationRow) : Option String :=
  (w.db.vaults.find? a.vaultId).map VaultRow.address

/-- The on-chain active flag of an automation. -/
def activeOnChain (w : Site) (a : AutomationRow) : Bool :=
  match a.onChainId, w.addressOf a with
  | some (.ofNat n), some address => ((w.vaults address).automations n).active
  | _, _ => false

/-- No public automation is removed while it is active. -/
def RemovesInactive (w : Site) (event : SiteEvent) : Prop :=
  ∀ a ∈ w.db.automations, a.onChainId ≠ none → a.ownerOnly = false →
    ¬ (w.step env stepTypes event).db.automations.Has a.id → w.activeOnChain a = false

/-- Before the first request: nothing is cached, and the vaults are as their owners and executors
have left them. -/
structure Start (w : Site) : Prop where
  cache : w.cache = Map.empty
  reads : w.reads = []
  deletions : w.deletions = []
  vaults : ∀ address, Reachable Vault.step Initial (fun _ _ => True) (w.vaults address)

end Site

/-- The automation is linked to `n` and not for its owner alone. -/
def PublicAt (a : AutomationRow) (n : Nat) : Prop :=
  a.onChainId = some (n : Int) ∧ a.ownerOnly = false

/-- The automation that a request checks or removes. -/
def DeleteStage.automation? : DeleteStage → Option AutomationRow
  | .checking automation _ | .removing automation => some automation
  | _ => none

/-- A request that is not past its check, and has not found the automation `n` inactive. -/
def DeleteStage.Shows (n : Nat) : DeleteStage → Prop
  | .checking _ read => read.Shows n
  | .removing _ => False
  | _ => True

/-- The request names the vault of the automation. -/
def Deletion.Names (d : Deletion) (w : Site) (a : AutomationRow) : Prop :=
  ∃ address, env.getAddress d.address = some address ∧ w.addressOf a = some address

/-- What a request must find where it goes on. -/
def Deletion.Careful (d : Deletion) (w : Site) (m : DeleteMoment) : Prop :=
  match d.stage with
  -- a cached list must not be older than the activation, nor come from a read that failed
  | .found a => ∀ n, PublicAt a n → d.Names env w a ∧ ∀ statuses, w.cached d.address = some statuses →
      w.activeOnChain a = true → ListsActive statuses n
  -- an active automation must be read
  | .checking a (.automation loop) => PublicAt a loop.statuses.length → w.activeOnChain a = true →
      m.answered = true
  -- the row must still be linked as the request has read it
  | .removing a => ∀ row ∈ w.db.automations, row.id = d.id →
      row.vaultId = a.vaultId ∧ row.onChainId = a.onChainId ∧ row.ownerOnly = a.ownerOnly
  | _ => True

/-- What keeps removals safe: a transaction activates no automation that a request has found inactive,
and every request finds what it must. -/
def Site.Careful (w : Site) : SiteEvent → Prop
  | .transact address tx => ∀ d ∈ w.deletions, ∀ a n, d.stage.automation? = some a → PublicAt a n →
      w.activeOnChain a = false →
      (w.step env stepTypes (.transact address tx)).activeOnChain a = true → d.stage.Shows n
  | .resumeDelete k m => ∀ d, w.deletions[k]? = some d → d.Careful env w m
  | _ => True

end System

/-! ## The invariant -/

section Invariant

variable {env : Providers} {stepTypes : List (Address × String)} {w w' : Site} {d : Deletion}
  {a : AutomationRow} {m : DeleteMoment} {n : Nat}

/-- While the automation of a request is active, the request has not found it inactive. -/
def Deletion.Guarded (env : Providers) (w : Site) (d : Deletion) : Prop :=
  ∀ a n, d.stage.automation? = some a → PublicAt a n →
    d.Names env w a ∧ (w.activeOnChain a = true → d.stage.Shows n)

/-- An active automation exists, and a deletion that goes on has passed what its stage says. -/
structure Site.Inv (env : Providers) (w : Site) : Prop where
  created : ∀ address n, ((w.vaults address).automations n).active = true →
    n < (w.vaults address).automationCount
  guarded : ∀ d ∈ w.deletions, d.Guarded env w

theorem Site.addressOf_congr (hdb : w'.db.vaults = w.db.vaults) : w'.addressOf a = w.addressOf a := by
  rw [Site.addressOf, Site.addressOf, hdb]

theorem Site.activeOnChain_congr (hvaults : w'.vaults = w.vaults) (hdb : w'.db.vaults = w.db.vaults) :
    w'.activeOnChain a = w.activeOnChain a := by
  simp only [Site.activeOnChain, Site.addressOf_congr hdb, hvaults]

/-- Requests are guarded as before where neither the chain nor the vault rows change. -/
theorem Deletion.Guarded.congr (h : d.Guarded env w) (hvaults : w'.vaults = w.vaults)
    (hdb : w'.db.vaults = w.db.vaults) : d.Guarded env w' := by
  intro a n ha hn
  obtain ⟨⟨address, hnormal, haddress⟩, hshows⟩ := h a n ha hn
  refine ⟨⟨address, hnormal, ?_⟩, ?_⟩
  · rw [Site.addressOf_congr hdb, haddress]
  · rw [Site.activeOnChain_congr hvaults hdb]
    exact hshows

/-- The vault that a request names is the one with the automation's flag. -/
theorem Deletion.Names.active (h : d.Names env w a) (hn : PublicAt a n)
    (hactive : w.activeOnChain a = true) :
    ((w.vaultAt env d.address).automations n).active = true := by
  obtain ⟨address, hnormal, haddress⟩ := h
  simp only [Site.activeOnChain, haddress, hn.1] at hactive
  rw [Site.vaultAt, hnormal]
  exact hactive

/-- The check refuses an automation that the list has active. -/
theorem Deletion.check_listed {statuses : List AutomationStatus} (hn : PublicAt a n)
    (hlist : ListsActive statuses n) : d.check env a statuses = none := by
  obtain ⟨s, hfind, hactive⟩ := hlist
  have hlist : (statuses.map fun s => ((s.onChainId : Int), s.active)).find?
      (fun s => s.1 = (n : Int)) = some ((s.onChainId : Int), true) := by
    rw [List.find?_map, ← hactive]
    have hid : ((fun s : Int × Bool => decide (s.1 = (n : Int))) ∘
        fun s : AutomationStatus => ((s.onChainId : Int), s.active)) =
        fun s => decide (s.onChainId = n) := by
      funext s
      exact decide_eq_decide.2 Int.natCast_inj
    rw [hid, hfind]
    rfl
  simp only [Deletion.check, respond.activeOnChain, hn.1, hn.2, hlist]

theorem Deletion.check_eq_some {statuses : List AutomationStatus} {stage : DeleteStage}
    (h : d.check env a statuses = some stage) : stage = .removing a := by
  rw [Deletion.check] at h
  split at h
  · cases h
  · exact (Option.some.inj h).symm

/-- What a step of a request can leave in the database: the same rows, an update of one of them, or,
from its last stage, all but its own. -/
theorem Deletion.resume_db (d : Deletion) (w : Site) (m : DeleteMoment) :
    (d.resume env stepTypes w m).db = w.db ∨
      (∃ id data row, w.db.updateAutomation id data = .ok ((d.resume env stepTypes w m).db, row)) ∨
      (∃ a, d.stage = .removing a ∧ (d.resume env stepTypes w m).db = w.db.eraseAutomation d.id) := by
  rw [Deletion.resume]
  split
  · split
    · split_ifs
      · exact Or.inl rfl
      · exact Or.inl rfl
    · exact Or.inl rfl
  · split_ifs
    · exact Or.inl rfl
    · exact Or.inl rfl
  -- `tryReconcile`: only where there is something to write, and the write succeeds
  · split
    · exact Or.inl rfl
    · split
      · exact Or.inl rfl
      · rename_i data _ _ db row hupdate
        split_ifs
        · exact Or.inr (Or.inl ⟨_, data, row, hupdate⟩)
        · exact Or.inr (Or.inl ⟨_, data, row, hupdate⟩)
        · exact Or.inl rfl
  · split_ifs
    · split
      · exact Or.inl rfl
      · exact Or.inl rfl
    · exact Or.inl rfl
  · split
    · exact Or.inl rfl
    · exact Or.inl rfl
    · exact Or.inl rfl
    · exact Or.inl rfl
  -- the removal
  · rename_i a hstage
    split
    · rename_i db hdelete
      rw [Database.deleteAutomation] at hdelete
      split at hdelete
      · cases hdelete
      · cases hdelete
        split_ifs
        · exact Or.inr (Or.inr ⟨a, hstage, rfl⟩)
        · exact Or.inl rfl
    · exact Or.inl rfl

/-- The vault rows stay. -/
theorem Deletion.resume_vaults (d : Deletion) (w : Site) (m : DeleteMoment) :
    (d.resume env stepTypes w m).db.vaults = w.db.vaults := by
  rcases d.resume_db w m with hdb | ⟨id, data, row, hupdate⟩ | ⟨a, -, hdb⟩
  · rw [hdb]
  · exact (updateAutomation_keeps hupdate).1
  · rw [hdb]
    rfl

theorem Deletion.guarded_of_none {stage : DeleteStage} (h : stage.automation? = none) :
    ({ d with stage := stage } : Deletion).Guarded env w := by
  intro a n ha
  cases h.symm.trans ha

/-- A request past its check is guarded: the list would have refused an active automation. -/
theorem Deletion.check_guarded {statuses : List AutomationStatus} {stage : DeleteStage}
    (hnames : ∀ n, PublicAt a n → d.Names env w a)
    (hlist : ∀ n, PublicAt a n → w.activeOnChain a = true → ListsActive statuses n)
    (h : d.check env a statuses = some stage) :
    ({ d with stage := stage } : Deletion).Guarded env w := by
  have hremoving := Deletion.check_eq_some h
  subst hremoving
  intro b n hb hn
  cases hb
  refine ⟨hnames n hn, fun hactive => ?_⟩
  rw [Deletion.check_listed hn (hlist n hn hactive)] at h
  cases h

/-- A request that goes on with an automation it may check or remove. -/
theorem Deletion.found_guarded (hstage : d.stage = .found a) (hcareful : d.Careful env w m)
    {stage : DeleteStage} (h : (d.resume env stepTypes w m).stage = some stage) :
    ({ d with stage := stage } : Deletion).Guarded env w := by
  simp only [Deletion.Careful, hstage] at hcareful
  simp only [Deletion.resume, hstage] at h
  split_ifs at h with hpublic
  · split at h
    · rename_i statuses hcached
      exact Deletion.check_guarded (fun n hn => (hcareful n hn).1)
        (fun n hn => (hcareful n hn).2 statuses hcached) h
    · cases h
      intro b n hb hn
      cases hb
      exact ⟨(hcareful n hn).1, fun _ => trivial⟩
  · cases h
    intro b n hb hn
    cases hb
    -- without a link, or for its owner alone, it is not public
    exact absurd ⟨by rw [hn.1]; nofun, hn.2⟩ hpublic

/-- A request that reads the statuses of its vault. -/
theorem Deletion.checking_guarded (hw : w.Inv env) (hd : d.Guarded env w) {read : StatusRead}
    (hstage : d.stage = .checking a read) (hcareful : d.Careful env w m)
    {stage : DeleteStage} (h : (d.resume env stepTypes w m).stage = some stage) :
    ({ d with stage := stage } : Deletion).Guarded env w := by
  have hnames (n : Nat) (hn : PublicAt a n) : d.Names env w a :=
    (hd a n (by rw [hstage]; rfl) hn).1
  -- while the automation is active, what the read comes to still shows it
  have hnext (n : Nat) (hn : PublicAt a n) (hactive : w.activeOnChain a = true) :
      (read.resume stepTypes (w.vaultAt env d.address) w.now m.toMoment).Shows n := by
    have hshows := (hd a n (by rw [hstage]; rfl) hn).2 hactive
    rw [hstage] at hshows
    have hflag := (hnames n hn).active hn hactive
    refine StatusRead.resume_shows hshows (hw.created _ n hflag) hflag ?_
    rintro loop rfl hlength
    simp only [Deletion.Careful, hstage, hlength] at hcareful
    exact hcareful hn hactive
  simp only [Deletion.resume, hstage] at h
  cases hread : read.resume stepTypes (w.vaultAt env d.address) w.now m.toMoment with
  | awaits next =>
    simp only [hread] at h hnext
    cases h
    intro b n hb hn
    cases hb
    exact ⟨hnames n hn, hnext n hn⟩
  | returns statuses =>
    simp only [hread] at h hnext
    exact Deletion.check_guarded hnames hnext h
  | caches statuses =>
    simp only [hread] at h hnext
    exact Deletion.check_guarded hnames hnext h
  | throws =>
    simp only [hread] at h
    cases h

/-- **One step of a request.** It goes on guarded. -/
theorem Deletion.resume_guarded (hw : w.Inv env) (hd : d.Guarded env w) (hcareful : d.Careful env w m)
    {stage : DeleteStage} (h : (d.resume env stepTypes w m).stage = some stage) :
    ({ d with stage := stage } : Deletion).Guarded env w := by
  cases hstage : d.stage with
  | found a => exact Deletion.found_guarded hstage hcareful h
  | checking a read => exact Deletion.checking_guarded hw hd hstage hcareful h
  | removing a =>
    simp only [Deletion.resume, hstage] at h
    split at h
    · cases h
    · cases h
  -- the first stages have found no automation to check
  | finding =>
    simp only [Deletion.resume, hstage] at h
    apply Deletion.guarded_of_none
    split at h
    · split_ifs at h
      · cases h
        rfl
      · cases h
        rfl
    · cases h
  | linking a v =>
    simp only [Deletion.resume, hstage] at h
    apply Deletion.guarded_of_none
    split_ifs at h
    · cases h
      rfl
    · cases h
      rfl
  | reconciling a v linked =>
    simp only [Deletion.resume, hstage] at h
    apply Deletion.guarded_of_none
    split at h
    · cases h
      rfl
    · split at h
      · cases h
        rfl
      · split_ifs at h
        · cases h
          rfl
        · cases h
          rfl
        · cases h
          rfl

/-- A request goes on, or is answered; the other requests stay. -/
theorem Site.mem_resumeDelete {k : Nat} {d' : Deletion}
    (h : d' ∈ (w.resumeDelete env stepTypes k m).deletions) : d' ∈ w.deletions ∨
      ∃ d stage, w.deletions[k]? = some d ∧ (d.resume env stepTypes w m).stage = some stage ∧
        d' = { d with stage := stage } := by
  rw [Site.resumeDelete] at h
  split at h
  · exact Or.inl h
  · rename_i d hd
    simp only at h
    split at h
    · rename_i stage hstage
      rcases List.mem_or_eq_of_mem_set h with h | rfl
      · exact Or.inl h
      · exact Or.inr ⟨d, stage, hd, hstage, rfl⟩
    · exact Or.inl (List.mem_of_mem_eraseIdx h)

theorem Site.resumeDelete_vaults (w : Site) (k : Nat) (m : DeleteMoment) :
    (w.resumeDelete env stepTypes k m).vaults = w.vaults ∧
      (w.resumeDelete env stepTypes k m).db.vaults = w.db.vaults := by
  rw [Site.resumeDelete]
  split
  · exact ⟨rfl, rfl⟩
  · rename_i d hd
    exact ⟨rfl, d.resume_vaults w m⟩

/-- A read that goes on changes the cache at most. -/
theorem Site.resumeRead_keeps (w : Site) (k : Nat) (m : Moment) :
    (w.resumeRead env stepTypes k m).vaults = w.vaults ∧
      (w.resumeRead env stepTypes k m).db = w.db ∧
      (w.resumeRead env stepTypes k m).deletions = w.deletions := by
  rw [Site.resumeRead]
  split
  · exact ⟨rfl, rfl, rfl⟩
  · split
    · exact ⟨rfl, rfl, rfl⟩
    · exact ⟨rfl, rfl, rfl⟩
    · exact ⟨rfl, rfl, rfl⟩
    · exact ⟨rfl, rfl, rfl⟩

/-- The invariant where only the clock, the cache and the status routes change. -/
theorem Site.Inv.congr (h : w.Inv env) (hvaults : w'.vaults = w.vaults) (hdb : w'.db = w.db)
    (hdeletions : w'.deletions = w.deletions) : w'.Inv env := by
  constructor
  · rw [hvaults]
    exact h.created
  · intro d hd
    rw [hdeletions] at hd
    exact (h.guarded d hd).congr hvaults (by rw [hdb])

/-- **One step.** Every step keeps the requests guarded. -/
theorem Site.step_inv (hw : w.Inv env) {event : SiteEvent}
    (hcareful : w.Careful env stepTypes event) : (w.step env stepTypes event).Inv env := by
  cases event with
  | wait ms => exact hw.congr rfl rfl rfl
  | readStatuses address =>
    simp only [Site.step]
    cases w.cached address with
    | some statuses => exact hw
    | none => exact hw.congr rfl rfl rfl
  | resumeRead k m =>
    obtain ⟨hvaults, hdb, hdeletions⟩ := w.resumeRead_keeps k m
    exact hw.congr hvaults hdb hdeletions
  | delete user address id =>
    refine ⟨hw.created, fun d hd => ?_⟩
    rcases List.mem_append.1 hd with hd | hd
    · exact (hw.guarded d hd).congr rfl rfl
    -- a new request has no automation yet
    · rw [List.mem_singleton] at hd
      subst hd
      intro a n ha
      cases ha
  | resumeDelete k m =>
    obtain ⟨hvaults, hdb⟩ := w.resumeDelete_vaults k m
    refine ⟨fun address n hactive => ?_, fun d' hd' => ?_⟩
    · have hsame : (w.step env stepTypes (.resumeDelete k m)).vaults = w.vaults := hvaults
      rw [hsame] at hactive ⊢
      exact hw.created address n hactive
    · rcases Site.mem_resumeDelete hd' with hd' | ⟨d, stage, hd, hstage, rfl⟩
      · exact (hw.guarded d' hd').congr hvaults hdb
      -- the request that went on
      · have hguarded := hw.guarded d (List.mem_of_getElem? hd)
        exact (Deletion.resume_guarded hw hguarded (hcareful d hd) hstage).congr hvaults hdb
  | transact address tx =>
    refine ⟨fun address' n hactive => ?_, fun d hd a n ha hn => ?_⟩
    · by_cases heq : address' = address
      · subst heq
        simp only [Site.step, Function.update_self] at hactive ⊢
        exact step_created _ tx (hw.created address') n hactive
      · simp only [Site.step, Function.update_of_ne heq] at hactive ⊢
        exact hw.created address' n hactive
    · obtain ⟨hnames, hshows⟩ := hw.guarded d hd a n ha hn
      refine ⟨hnames, fun hactive => ?_⟩
      -- it was active before, or the transaction activates it
      cases hbefore : w.activeOnChain a with
      | true => exact hshows hbefore
      | false => exact hcareful d hd a n ha hn hbefore hactive

/-- A row is removed by the last step of a request for it. -/
theorem Site.removed (ha : a ∈ w.db.automations) {event : SiteEvent}
    (h : ¬ (w.step env stepTypes event).db.automations.Has a.id) :
    ∃ k m d b, event = .resumeDelete k m ∧ w.deletions[k]? = some d ∧ d.stage = .removing b ∧
      a.id = d.id := by
  have hhas : w.db.automations.Has a.id := ⟨a, ha, rfl⟩
  cases event with
  | wait ms => exact absurd hhas h
  | transact address tx => exact absurd hhas h
  | delete user address id => exact absurd hhas h
  | readStatuses address =>
    simp only [Site.step] at h
    cases hcached : w.cached address with
    | some statuses =>
      rw [hcached] at h
      exact absurd hhas h
    | none =>
      rw [hcached] at h
      exact absurd hhas h
  | resumeRead k m =>
    have hdb : (w.step env stepTypes (.resumeRead k m)).db = w.db := (w.resumeRead_keeps k m).2.1
    rw [hdb] at h
    exact absurd hhas h
  | resumeDelete k m =>
    cases hd : w.deletions[k]? with
    | none =>
      simp only [Site.step, Site.resumeDelete, hd] at h
      exact absurd hhas h
    | some d =>
      simp only [Site.step, Site.resumeDelete, hd] at h
      rcases d.resume_db w m with
        hdb | ⟨id, data, row, hupdate⟩ | ⟨b, hstage, hdb⟩
      · rw [hdb] at h
        exact absurd hhas h
      -- an update keeps the ids
      · exact absurd (((updateAutomation_keeps hupdate).2 a.id).2 hhas) h
      · refine ⟨k, m, d, b, rfl, hd, hstage, ?_⟩
        by_contra hne
        rw [hdb] at h
        exact h ⟨a, Table.mem_erase.2 ⟨ha, hne⟩, rfl⟩

/-- What is removed is inactive. -/
theorem Site.removesInactive (hw : w.Inv env) {event : SiteEvent}
    (hcareful : w.Careful env stepTypes event) : w.RemovesInactive env stepTypes event := by
  intro a ha hlinked howner hremoved
  obtain ⟨k, m, d, b, rfl, hd, hstage, hid⟩ := Site.removed ha hremoved
  have hrow := hcareful d hd
  simp only [Deletion.Careful, hstage] at hrow
  obtain ⟨hvault, hchain, howned⟩ := hrow a ha hid
  cases hn : a.onChainId with
  | none => exact absurd hn hlinked
  | some i =>
    cases i with
    -- no automation on the chain has a negative id
    | negSucc j => simp only [Site.activeOnChain, hn]
    | ofNat n =>
      have hpublic : PublicAt b n := ⟨by rw [← hchain, hn]; rfl, by rw [← howned, howner]⟩
      obtain ⟨-, hshows⟩ := hw.guarded d (List.mem_of_getElem? hd) b n (by rw [hstage]; rfl) hpublic
      -- the row is linked as the request has read it, so it has the same flag
      have hsame : w.activeOnChain a = w.activeOnChain b := by
        simp only [Site.activeOnChain, Site.addressOf, hvault, hchain]
      rw [hsame, Bool.eq_false_iff]
      intro hactive
      have hshown := hshows hactive
      rw [hstage] at hshown
      exact hshown

theorem Site.Start.inv (h : w.Start) : w.Inv env := by
  refine ⟨fun address => reachable_created (h.vaults address), fun d hd => ?_⟩
  rw [h.deletions] at hd
  cases hd

/-- **No active public automation is deleted** in a run in which every request finds what it must and
no transaction activates an automation behind a request's back. -/
theorem deletes_only_inactive (hw : w.Start) {events : List SiteEvent}
    (h : Admitted (Site.step env stepTypes) (Site.Careful env stepTypes) w events) :
    Admitted (Site.step env stepTypes) (Site.RemovesInactive env stepTypes) w events := by
  refine Admitted.of_invariant (I := Site.Inv env) (fun w event hw hcareful => ?_)
    (fun w event hw hcareful => ?_) hw.inv h
  · exact Site.step_inv hw hcareful
  · exact Site.removesInactive hw hcareful

end Invariant

/-! ## A list that is older than the activation -/

/-- A vault with a public automation that is linked to its first one on the chain. -/
def onePublic : Database where
  vaults := ⟨[sampleVault "v1" "0x3333333333333333333333333333333333333333"
    "0x1111111111111111111111111111111111111111"], by decide⟩
  automations := ⟨[{ freshAutomation "v1" "a1" with
    onChainId := some 0
    isDraft := false }], by decide⟩
  addresses := by decide
  labels := by decide
  onChainIds := by
    intro a ha b hb _ _ _
    exact (List.mem_singleton.1 ha).trans (List.mem_singleton.1 hb).symm
  references := by
    intro a ha
    rw [← Table.mem_rows, List.mem_singleton] at ha
    subst ha
    exact ⟨_, List.mem_singleton_self _, rfl⟩

/-- The vault with one public automation, and its row. -/
def sampleSite : Site where
  now := 0
  vaults := fun _ => Vault.sampleVault
  db := onePublic
  cache := Map.empty
  reads := []
  deletions := []

theorem sampleSite_start : sampleSite.Start where
  cache := rfl
  reads := rfl
  deletions := rfl
  vaults := by
    intro address
    have hinit : Initial (initialized ⟨1⟩ Address.zero Address.zero) := ⟨_, _, _, rfl⟩
    exact (Reachable.start hinit).next (l := sampleCreate) trivial

/-- The owner sets the flag of the automation. -/
def toggle (active : Bool) : SiteEvent :=
  .transact "0x3333333333333333333333333333333333333333"
    ⟨⟨1⟩, sampleEnv [], .setAutomationActive 0 active⟩

/-- The owner's request, and the answers that it gets. -/
def deleteRequest : SiteEvent :=
  .delete "0x1111111111111111111111111111111111111111"
    "0x3333333333333333333333333333333333333333" "a1"

/-- The first deletion goes on; its reads succeed. -/
def goOn : SiteEvent := .resumeDelete 0 ⟨⟨true, true⟩, true, none⟩

/-- A status route and its five answers. -/
def statusRoute : List SiteEvent :=
  .readStatuses "0x3333333333333333333333333333333333333333" ::
    List.replicate 5 (.resumeRead 0 ⟨true, true⟩)

/-- A list is cached while the automation is inactive; then it is activated, and deleted within the
lifetime of the list. -/
theorem stale_list_deletes_active : sampleSite.Start ∧
    ¬ Admitted (Site.step sampleProviders []) (Site.RemovesInactive sampleProviders []) sampleSite
      (toggle false :: (statusRoute ++ [toggle true, deleteRequest, goOn, goOn, goOn])) := by
  refine ⟨sampleSite_start, fun h => ?_⟩
  have hlast := h.2.2.2.2.2.2.2.2.2.2.2.1
  have hinactive := hlast _ (List.mem_singleton_self _) (by decide) (by decide) ?_
  · exact absurd hinactive (by decide)
  · rintro ⟨a, ha, -⟩
    cases ha

/-- Deactivated first, it is checked on the chain and deleted. -/
theorem deletes_only_inactive_sample :
    Admitted (Site.step sampleProviders []) (Site.RemovesInactive sampleProviders []) sampleSite
      (toggle false :: deleteRequest :: List.replicate 8 goOn) ∧
      ¬ (run (Site.step sampleProviders []) sampleSite
        (toggle false :: deleteRequest :: List.replicate 8 goOn)).db.automations.Has "a1" := by
  refine ⟨deletes_only_inactive sampleSite_start ?_, ?_⟩
  · refine ⟨?_, trivial, ?_, ?_, ?_, ?_, ?_, ?_, ?_, ?_, trivial⟩
    · intro d hd
      cases hd
    · intro d hd
      cases hd
      trivial
    · intro d hd
      cases hd
      -- the count is read from the chain, as nothing is cached
      intro n hn
      refine ⟨⟨_, rfl, rfl⟩, fun statuses hcached => ?_⟩
      cases hcached
    · intro d hd
      cases hd
      trivial
    · intro d hd
      cases hd
      trivial
    · intro d hd
      cases hd
      trivial
    · intro d hd
      cases hd
      intro _ _
      rfl
    · intro d hd
      cases hd
      trivial
    · intro d hd
      cases hd
      -- the row is deleted, its automation off
      intro row hrow _
      cases List.mem_singleton.1 hrow
      exact ⟨rfl, rfl, rfl⟩
  · rintro ⟨a, ha, -⟩
    cases ha

end StrategyBuilder.Backend
