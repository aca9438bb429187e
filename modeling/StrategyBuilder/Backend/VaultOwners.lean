import StrategyBuilder.Backend.Reconciliation
import StrategyBuilder.Backend.VaultService

/-!
# Owners of vaults

The requests that write the tables of vaults and automations, as one step of the database. The handlers
of an automation write in three ways only, so a relation that these keep is kept by a request
(`WriteRule.handle`). Here it is that vaults keep their ids, addresses and owners
(`DatabaseCall.run_kept`); the checks of ownership rest on it that go on while others write.
-/

set_option autoImplicit false

namespace StrategyBuilder.Backend.VaultOwners

open StrategyBuilder.Lib
open StrategyBuilder.Lib.Js

/-! ## Requests -/

/-- The requests that write vaults and automations. -/
inductive DatabaseCall where
  | request (r : Request)
  | createDraft (id vaultId : String) (label description : Option String)
  | createVault (id ownerAddress : String) (dto : CreateVaultDto)
  | updateLabel (vaultAddress ownerAddress label : String)

/-- What the backend calls, with the factory that a registration asks. -/
structure Env where
  providers : Providers
  factory : Option FactoryChain

/-- The library for addresses. -/
def Env.getAddress (env : Env) : String → Option String := env.providers.getAddress

/-- What the service of vaults is given of it. -/
def Env.vaultProviders (env : Env) : VaultProviders := ⟨env.getAddress, env.factory⟩

/-- The tables after a handler: an exception leaves them as they were. -/
def written {α : Type} (db : Database) (result : Except HttpError α) (database : α → Database) :
    Database :=
  match result with
  | .error _ => db
  | .ok out => database out

/-- The tables after a call. -/
def DatabaseCall.run (env : Env) (db : Database) : DatabaseCall → Database
  | .request r => (handle env.providers db r).1
  | .createDraft id vaultId label description =>
      written db (Reconciliation.createDraft db id vaultId label description) fun db => db
  | .createVault id ownerAddress dto =>
      written db (Backend.createVault env.vaultProviders db id ownerAddress dto) Prod.fst
  | .updateLabel vaultAddress ownerAddress label =>
      written db (Backend.updateLabel db vaultAddress ownerAddress label) Prod.fst

/-- What the elementary writes of a request keep. -/
structure WriteRule (R : Database → Database → Prop) : Prop where
  refl : ∀ db, R db db
  trans : ∀ {db db' db''}, R db db' → R db' db'' → R db db''
  update : ∀ {db db' id data row}, db.updateAutomation id data = .ok (db', row) → R db db'
  erase : ∀ db id, R db (db.eraseAutomation id)
  slots : ∀ db vaultId slots, R db (db.setContextSlots vaultId slots)

namespace WriteRule

variable {R : Database → Database → Prop} (rule : WriteRule R) (env : Providers) (db : Database)

include rule

theorem answerUpdate {result : Except HttpError (Database × AutomationRow)}
    (h : ∀ db' row, result = .ok (db', row) → R db db') :
    R db (Backend.answerUpdate db result).1 := by
  cases result with
  | error e => exact rule.refl db
  | ok written => exact h written.1 written.2 rfl

theorem confirmDeployment {id : String} {onChainId stepCount : JsNumber} {ownerOnly : Bool}
    {db' : Database} {row : AutomationRow}
    (h : Backend.confirmDeployment db id onChainId ownerOnly stepCount = .ok (db', row)) :
    R db db' := by
  rw [Backend.confirmDeployment] at h
  split at h
  · exact rule.update h
  · cases h

theorem tryReconcile (a : AutomationRow) (v : VaultRow) : R db (Backend.tryReconcile env db a v).1 := by
  rw [Backend.tryReconcile]
  split
  · exact rule.refl db
  · split
    · exact rule.refl db
    · rename_i hupdate
      exact rule.update hupdate

/-- The rule for a read, which may link a draft. -/
theorem findById (id : String) : R db (Backend.findById env db id).1 := by
  rw [Backend.findById]
  split
  · exact rule.refl db
  · rename_i a v _
    have hreconciled := rule.tryReconcile env db a v
    split
    · cases hreconcile : Backend.tryReconcile env db a v with
      | mk db' reconciled =>
        rw [hreconcile] at hreconciled
        -- reconciled or not, the database is the one of the attempt
        cases reconciled with
        | none => exact hreconciled
        | some row => exact hreconciled
    · exact rule.refl db

/-- The rule for all routes of an automation. -/
theorem respond (vault : VaultRow) (r : Request) : R db (Backend.respond env db vault r).1 := by
  have hfound := rule.findById env db r.id
  rw [Backend.respond]
  cases hfind : Backend.findById env db r.id with
  | mk db' result =>
    rw [hfind] at hfound
    cases r.route with
    -- an update looks nothing up
    | update body =>
      simp only
      split
      · exact rule.answerUpdate db fun _ _ h => rule.confirmDeployment db h
      · exact rule.answerUpdate db fun _ _ h => rule.update h
    | get =>
      cases result with
      | error e => exact hfound
      | ok found => exact hfound
    | encode body =>
      cases result with
      | error e => exact hfound
      | ok found => exact rule.trans hfound (rule.slots db' _ _)
    | encodeUpdate body =>
      cases result with
      | error e => exact hfound
      | ok found =>
        simp only
        split
        · exact hfound
        · exact rule.trans hfound (rule.slots db' _ _)
    | encodeToggle active =>
      cases result with
      | error e => exact hfound
      | ok found =>
        simp only
        split
        · exact hfound
        · exact hfound
    | encodeExecute =>
      cases result with
      | error e => exact hfound
      | ok found =>
        simp only
        split
        · exact hfound
        · exact hfound
    | delete =>
      cases result with
      | error e => exact hfound
      | ok found =>
        simp only
        split
        · exact hfound
        · split
          · exact hfound
          · rename_i db'' hdelete
            rw [Database.deleteAutomation] at hdelete
            split at hdelete
            · cases hdelete
            · cases hdelete
              exact rule.trans hfound (rule.erase db' r.id)

/-- A request keeps what its writes keep. -/
theorem handle (r : Request) : R db (Backend.handle env db r).1 := by
  rw [Backend.handle]
  split
  · exact rule.refl db
  · exact rule.respond env db _ r

end WriteRule

/-- Vaults stay, each with its id, address and owner, and the address of a new one is checksummed. -/
structure VaultsKept (getAddress : String → Option String) (db db' : Database) : Prop where
  kept : ∀ v ∈ db.vaults, ∃ v' ∈ db'.vaults,
    v'.id = v.id ∧ v'.address = v.address ∧ v'.ownerAddress = v.ownerAddress
  added : ∀ v' ∈ db'.vaults, (∃ v ∈ db.vaults, v.address = v'.address) ∨
    ∃ address, getAddress address = some v'.address

section Kept

variable {getAddress : String → Option String} {db db' db'' : Database}

theorem VaultsKept.of_eq (h : db'.vaults = db.vaults) : VaultsKept getAddress db db' := by
  refine ⟨fun v hv => ⟨v, h ▸ hv, rfl, rfl, rfl⟩, fun v hv => ?_⟩
  rw [h] at hv
  exact .inl ⟨v, hv, rfl⟩

theorem VaultsKept.refl (db : Database) : VaultsKept getAddress db db := .of_eq rfl

/-- What is kept twice is kept. -/
theorem VaultsKept.trans (h : VaultsKept getAddress db db') (h' : VaultsKept getAddress db' db'') :
    VaultsKept getAddress db db'' := by
  constructor
  · intro v hv
    obtain ⟨v', hv', hid, haddress, howner⟩ := h.kept v hv
    obtain ⟨v'', hv'', hid', haddress', howner'⟩ := h'.kept v' hv'
    exact ⟨v'', hv'', hid'.trans hid, haddress'.trans haddress, howner'.trans howner⟩
  · intro v'' hv''
    rcases h'.added v'' hv'' with ⟨v', hv', haddress⟩ | hchecksummed
    · rw [← haddress]
      exact h.added v' hv'
    · exact .inr hchecksummed

/-- A write to other columns of the rows. -/
theorem VaultsKept.of_update {k : String} {f : VaultRow → VaultRow} {hf : ∀ v, (f v).id = v.id}
    (h : db'.vaults = db.vaults.update k f hf)
    (hcolumns : ∀ v, (f v).address = v.address ∧ (f v).ownerAddress = v.ownerAddress) :
    VaultsKept getAddress db db' := by
  constructor
  · intro v hv
    by_cases hk : v.id = k
    · refine ⟨f v, ?_, hf v, hcolumns v⟩
      rw [h]
      exact Table.mem_update.2 (.inr ⟨v, hv, hk, rfl⟩)
    · refine ⟨v, ?_, rfl, rfl, rfl⟩
      rw [h]
      exact Table.mem_update.2 (.inl ⟨hv, hk⟩)
  · intro v' hv'
    rw [h] at hv'
    left
    rcases Table.mem_update.1 hv' with ⟨hv, -⟩ | ⟨v, hv, -, rfl⟩
    · exact ⟨v', hv, rfl⟩
    · exact ⟨v, hv, (hcolumns v).1.symm⟩

/-- No write of an automation changes a vault. -/
theorem writeRule_vaultsKept (getAddress : String → Option String) :
    WriteRule (VaultsKept getAddress) where
  refl := .refl
  trans := .trans
  update h := .of_eq (updateAutomation_keeps h).1
  erase _ _ := .of_eq rfl
  slots db vaultId slots := by
    have h : (db.setContextSlots vaultId slots).vaults =
        db.vaults.update vaultId (fun v => { v with contextSlots := slots }) fun _ => rfl := rfl
    exact .of_update h fun _ => ⟨rfl, rfl⟩

/-- A new vault keeps the others. -/
theorem createVault_kept {env : VaultProviders} {id ownerAddress : String} {dto : CreateVaultDto}
    {v : VaultRow} (h : createVault env db id ownerAddress dto = .ok (db', v)) :
    VaultsKept env.getAddress db db' := by
  rw [createVault] at h
  cases haddress : env.getAddress dto.address with
  | none =>
    rw [haddress] at h
    cases h
  | some address =>
    simp only [haddress] at h
    split at h
    · cases h
    · split at h
      · cases h
      · split at h
        · cases h
        · split at h
          · cases h
          · split at h
            · cases h
            -- all checks have passed: the row is added, the others stay
            · rename_i hinsert
              cases h
              rw [Database.insertVault] at hinsert
              split_ifs at hinsert
              cases hinsert
              constructor
              · exact fun v hv => ⟨v, Table.mem_insert.2 (.inl hv), rfl, rfl, rfl⟩
              · intro v' hv'
                rcases Table.mem_insert.1 hv' with hv | ⟨rfl, -⟩
                · exact .inl ⟨v', hv, rfl⟩
                · exact .inr ⟨dto.address, haddress⟩

/-- **Owners stay.** No request of the backend changes the address or the owner of a vault. -/
theorem DatabaseCall.run_kept (env : Env) (db : Database) (c : DatabaseCall) :
    VaultsKept env.getAddress db (c.run env db) := by
  have hrule := writeRule_vaultsKept env.getAddress
  cases c with
  | request r => exact hrule.handle env.providers db r
  | createDraft id vaultId label description =>
    rw [DatabaseCall.run]
    cases h : Reconciliation.createDraft db id vaultId label description with
    | error e => exact hrule.refl db
    | ok db' => exact .of_eq (Reconciliation.createDraft_eq_ok h).1
  | createVault id ownerAddress dto =>
    rw [DatabaseCall.run]
    cases h : Backend.createVault env.vaultProviders db id ownerAddress dto with
    | error e => exact hrule.refl db
    | ok out => exact createVault_kept h
  | updateLabel vaultAddress ownerAddress label =>
    rw [DatabaseCall.run]
    cases h : Backend.updateLabel db vaultAddress ownerAddress label with
    | error e => exact hrule.refl db
    | ok out =>
      obtain ⟨r, -, -, hvaults⟩ := updateVaultLabel_eq_ok (updateLabel_eq_ok h)
      exact .of_update hvaults fun _ => ⟨rfl, rfl⟩

end Kept

end StrategyBuilder.Backend.VaultOwners
