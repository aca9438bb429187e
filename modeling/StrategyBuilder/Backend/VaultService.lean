import StrategyBuilder.Backend.AutomationService

/-!
# The vaults of a user

`createVault` and `updateLabel` of `vault.service.ts`. A registration ends in a conflict for two reasons:
its address has a row, or its owner has a vault with the label (`createVault_conflict_iff`). The default
label counts the vaults of the owner, so a vault that was renamed can have it already
(`createVault_after_rename`).
-/

set_option autoImplicit false

namespace StrategyBuilder.Backend

open StrategyBuilder.Lib

/-- The body of a request to register a vault. -/
structure CreateVaultDto where
  address : String
  chainId : Int
  depositToken : String
  txHash : String
  createdAtBlock : Int
  label : Option String
deriving DecidableEq, Repr

/-- What the service asks of the chain; `none` is a failure. -/
structure FactoryChain where
  isRegisteredVault : String → Option Bool
  owner : String → Option String

/-- What the service is given. -/
structure VaultProviders where
  /-- The checksummed address; `none` where the string is no address. -/
  getAddress : String → Option String
  /-- Without `RPC_URL` or `FACTORY_ADDRESS` there is no chain. -/
  factory : Option FactoryChain

/-- The status of the answer. -/
def HttpError.status : HttpError → Nat
  | .badRequest _ => 400
  | .forbidden _ => 403
  | .notFound _ => 404
  | .conflict _ => 409
  | .internal => 500

/-! ## The tables -/

namespace Database

variable (db : Database)

/-- The vaults by their owners and labels. -/
def byLabel : Table VaultRow (fun v => (v.ownerAddress, v.label)) := ⟨db.vaults.rows, db.labels⟩

/-- `prisma.vault.create`; it fails where a number does not fit or a unique column has the value. -/
def insertVault (v : VaultRow) : Except HttpError Database :=
  if (fitsInt4 v.chainId && fitsInt4 v.createdAtBlock) = false then .error .internal
  else if db.vaults.Has v.id then .error .internal
  else if haddress : db.byAddress.Has v.address then .error .internal
  else if hlabel : db.byLabel.Has (v.ownerAddress, v.label) then .error .internal
  else .ok { db with
    vaults := db.vaults.insert v
    addresses := Table.nodup_map_insert db.addresses fun v' hv' heq => haddress ⟨v', hv', heq⟩
    labels := Table.nodup_map_insert db.labels fun v' hv' heq => hlabel ⟨v', hv', heq⟩
    references := fun a ha => Table.has_insert.2 (Or.inl (db.references a ha)) }

/-- Another vault of the owner has the label. -/
def labelElsewhere (v : VaultRow) (label : String) : Bool :=
  db.vaults.rows.any fun v' => v'.id ≠ v.id && v'.ownerAddress = v.ownerAddress && v'.label = label

/-- `prisma.vault.update` of a label; it fails where there is no such row or the label is taken. -/
def updateVaultLabel (address label : String) : Except HttpError (Database × VaultRow) :=
  match h : db.byAddress.find? address with
  | none => .error .internal
  | some v =>
      if hfree : db.labelElsewhere v label = true then .error .internal
      else .ok ({ db with
        vaults := db.vaults.update v.id (fun v => { v with label := label }) fun _ => rfl
        addresses := Table.nodup_map_update db.addresses fun _ => rfl
        labels := by
          have hv : v ∈ db.vaults := (Table.find?_eq_some.1 h).1
          apply Table.nodup_map_update_fresh db.labels
          intro r hr hne r' hr' hid heq
          obtain rfl : r' = v := Table.eq_of_key hr' hv hid
          obtain ⟨howner, hlabel⟩ := Prod.mk.inj heq
          apply hfree
          rw [labelElsewhere, List.any_eq_true]
          exact ⟨r, hr, by simp [hne, howner, hlabel]⟩
        references := by
          intro a ha
          obtain ⟨r, hr, hid⟩ := db.references a ha
          exact Table.has_update.2 ⟨r, hr, hid⟩ }, { v with label := label })

end Database

/-! ## The service -/

/-- `validateOnChain`: the vault is the factory's, and its owner is the one who asks. -/
def validateOnChain (env : VaultProviders) (vaultAddress expectedOwner : String) :
    Except HttpError Unit :=
  match env.factory with
  | none => .error (.badRequest "ON_CHAIN_VALIDATION_NOT_CONFIGURED")
  | some chain =>
      match chain.isRegisteredVault vaultAddress with
      -- a call that fails is not caught
      | none => .error .internal
      | some false => .error (.badRequest "VAULT_NOT_REGISTERED_ON_CHAIN")
      | some true =>
          match (chain.owner vaultAddress).bind env.getAddress, env.getAddress expectedOwner with
          | some onChainOwner, some owner =>
              if onChainOwner = owner then .ok () else .error (.badRequest "VAULT_OWNER_MISMATCH")
          | _, _ => .error .internal

/-- `generateDefaultLabel`: the number of the owner's vaults, plus one. -/
def generateDefaultLabel (db : Database) (ownerAddress : String) : String :=
  let count := db.vaults.rows.countP fun v => v.ownerAddress = ownerAddress
  "Vault #" ++ toString (count + 1)

/-- The label under which a vault is to be registered. -/
def CreateVaultDto.labelIn (dto : CreateVaultDto) (db : Database) (ownerAddress : String) : String :=
  dto.label.getD (generateDefaultLabel db ownerAddress)

/-- The new row, where the address and the deposit token are checksummed. -/
def CreateVaultDto.row (dto : CreateVaultDto) (id address ownerAddress depositToken label : String) :
    VaultRow where
  id := id
  address := address
  chainId := dto.chainId
  ownerAddress := ownerAddress
  depositToken := depositToken
  label := label
  createdAtBlock := dto.createdAtBlock
  txHash := dto.txHash
  contextSlots := []

/-- `createVault`; `id` is the `uuid()` of the new row. -/
def createVault (env : VaultProviders) (db : Database) (id ownerAddress : String)
    (dto : CreateVaultDto) : Except HttpError (Database × VaultRow) :=
  match env.getAddress dto.address with
  | none => .error (.badRequest "INVALID_VAULT_ADDRESS")
  | some checksummedAddress =>
      if db.byAddress.Has checksummedAddress then .error (.conflict "VAULT_ALREADY_REGISTERED")
      else
        match validateOnChain env checksummedAddress ownerAddress with
        | .error e => .error e
        | .ok () =>
            let label := dto.labelIn db ownerAddress
            if db.byLabel.Has (ownerAddress, label) then .error (.conflict "LABEL_ALREADY_EXISTS")
            else
              match env.getAddress dto.depositToken with
              | none => .error .internal
              | some depositToken =>
                  let v := dto.row id checksummedAddress ownerAddress depositToken label
                  -- the unique keys once more: nothing locks the table since they were checked
                  match db.insertVault v with
                  | .error e => .error e
                  | .ok db' => .ok (db', v)

/-- `updateLabel`, behind the guard of the owner -/
def updateLabel (db : Database) (vaultAddress ownerAddress label : String) :
    Except HttpError (Database × VaultRow) :=
  match db.byLabel.find? (ownerAddress, label) with
  | none => db.updateVaultLabel vaultAddress label
  | some existingLabel =>
      if existingLabel.address ≠ vaultAddress then .error (.conflict "LABEL_ALREADY_EXISTS")
      else db.updateVaultLabel vaultAddress label

/-! ## What a registration comes to -/

/-- The database has a row of the address, and the owner has it. -/
def RegisteredTo (env : VaultProviders) (db : Database) (ownerAddress address : String) : Prop :=
  ∃ v ∈ db.vaults, env.getAddress address = some v.address ∧ v.ownerAddress = ownerAddress

/-- The row of the address is there, or the chain has the vault and the label is taken. -/
def Conflicts (env : VaultProviders) (db : Database) (ownerAddress : String) (dto : CreateVaultDto) :
    Prop :=
  ∃ address, env.getAddress dto.address = some address ∧
    (db.byAddress.Has address ∨ validateOnChain env address ownerAddress = .ok () ∧
      db.byLabel.Has (ownerAddress, dto.labelIn db ownerAddress))

section Service

variable {env : VaultProviders} {db db' : Database} {id ownerAddress : String} {dto : CreateVaultDto}

theorem mem_insertVault {v : VaultRow} (h : db.insertVault v = .ok db') : v ∈ db'.vaults := by
  rw [Database.insertVault] at h
  split_ifs at h with hfits hid haddress hlabel
  cases h
  exact Table.mem_insert.2 (Or.inr ⟨rfl, hid⟩)

theorem insertVault_ne_conflict {v : VaultRow} (message : String) :
    db.insertVault v ≠ .error (.conflict message) := by
  rw [Database.insertVault]
  split_ifs
  all_goals exact fun h => by cases h

/-- The checks on the chain never answer by 409. -/
theorem validateOnChain_ne_conflict {vaultAddress expectedOwner message : String} :
    validateOnChain env vaultAddress expectedOwner ≠ .error (.conflict message) := by
  rw [validateOnChain]
  split
  · exact fun h => by cases h
  · split
    · exact fun h => by cases h
    · exact fun h => by cases h
    · split
      · split_ifs
        all_goals exact fun h => by cases h
      · exact fun h => by cases h

/-- A registration that succeeds has written the row. -/
theorem createVault_registers {v : VaultRow}
    (h : createVault env db id ownerAddress dto = .ok (db', v)) :
    RegisteredTo env db' ownerAddress dto.address := by
  rw [createVault] at h
  cases haddress : env.getAddress dto.address with
  | none =>
    rw [haddress] at h
    cases h
  | some address =>
    simp only [haddress] at h
    by_cases hhas : db.byAddress.Has address
    · rw [if_pos hhas] at h
      cases h
    rw [if_neg hhas] at h
    cases hchain : validateOnChain env address ownerAddress with
    | error e =>
      rw [hchain] at h
      cases h
    | ok u =>
      simp only [hchain] at h
      split at h
      · cases h
      · split at h
        · cases h
        · split at h
          · cases h
          · next hinsert =>
            cases h
            exact ⟨_, mem_insertVault hinsert, haddress, rfl⟩

/-- **The two reasons for a conflict.** -/
theorem createVault_conflict_iff :
    (∃ message, createVault env db id ownerAddress dto = .error (.conflict message)) ↔
      Conflicts env db ownerAddress dto := by
  rw [createVault, Conflicts]
  cases haddress : env.getAddress dto.address with
  | none =>
    simp only [reduceCtorEq, false_and, exists_false, Except.error.injEq]
  | some address =>
    simp only [Option.some.injEq, exists_eq_left']
    by_cases hhas : db.byAddress.Has address
    · rw [if_pos hhas]
      exact ⟨fun _ => Or.inl hhas, fun _ => ⟨_, rfl⟩⟩
    rw [if_neg hhas]
    cases hchain : validateOnChain env address ownerAddress with
    | error e =>
      constructor
      · rintro ⟨message, h⟩
        -- the checks on the chain end in no conflict
        cases h
        exact absurd hchain validateOnChain_ne_conflict
      · rintro (h | ⟨h, -⟩)
        · exact absurd h hhas
        · cases h
    | ok u =>
      by_cases hlabel : db.byLabel.Has (ownerAddress, dto.labelIn db ownerAddress)
      · simp only [if_pos hlabel]
        exact ⟨fun _ => Or.inr ⟨trivial, hlabel⟩, fun _ => ⟨_, rfl⟩⟩
      · simp only [if_neg hlabel]
        constructor
        · rintro ⟨message, h⟩
          split at h
          · cases h
          · split at h
            · next hinsert =>
              cases h
              exact absurd hinsert (insertVault_ne_conflict message)
            · cases h
        · rintro (h | ⟨-, h⟩)
          · exact absurd h hhas
          · exact absurd h hlabel

/-- A rename changes one row. -/
theorem updateVaultLabel_eq_ok {address label : String} {v : VaultRow}
    (h : db.updateVaultLabel address label = .ok (db', v)) :
    ∃ r ∈ db.vaults, v = { r with label := label } ∧
      db'.vaults = db.vaults.update r.id (fun r => { r with label := label }) fun _ => rfl := by
  rw [Database.updateVaultLabel] at h
  split at h
  · cases h
  · next r hfind =>
    split at h
    · cases h
    · cases h
      exact ⟨r, (Table.find?_eq_some.1 hfind).1, rfl, rfl⟩

/-- A rename by the owner is one of the table. -/
theorem updateLabel_eq_ok {vaultAddress label : String} {v : VaultRow}
    (h : updateLabel db vaultAddress ownerAddress label = .ok (db', v)) :
    db.updateVaultLabel vaultAddress label = .ok (db', v) := by
  rw [updateLabel] at h
  split at h
  · exact h
  · split at h
    · cases h
    · exact h

/-- A new label leaves the number of vaults of an owner. -/
theorem generateDefaultLabel_rename {k label : String}
    (h : db'.vaults = db.vaults.update k (fun r => { r with label := label }) fun _ => rfl) :
    generateDefaultLabel db' ownerAddress = generateDefaultLabel db ownerAddress := by
  have hcount : (db'.vaults.rows.countP fun v => v.ownerAddress = ownerAddress) =
      db.vaults.rows.countP fun v => v.ownerAddress = ownerAddress := by
    rw [h, Table.update, List.countP_map]
    apply List.countP_congr
    intro r _
    simp only [Function.comp_apply]
    split
    · rfl
    · rfl
  rw [generateDefaultLabel, generateDefaultLabel, hcount]

/-- **A rename to the next default label stops the registration** of the owner's next vault without
one. -/
theorem createVault_after_rename {vaultAddress address : String} {v : VaultRow}
    (hrename : updateLabel db vaultAddress ownerAddress (generateDefaultLabel db ownerAddress) =
      .ok (db', v)) (howner : v.ownerAddress = ownerAddress)
    (haddress : env.getAddress dto.address = some address) (hnew : ¬ db'.byAddress.Has address)
    (hchain : validateOnChain env address ownerAddress = .ok ()) (hlabel : dto.label = none) :
    createVault env db' id ownerAddress dto = .error (.conflict "LABEL_ALREADY_EXISTS") := by
  obtain ⟨r, hr, rfl, hvaults⟩ := updateVaultLabel_eq_ok (updateLabel_eq_ok hrename)
  have hdefault : dto.labelIn db' ownerAddress = generateDefaultLabel db ownerAddress := by
    rw [CreateVaultDto.labelIn, hlabel]
    exact generateDefaultLabel_rename hvaults
  have htaken : db'.byLabel.Has (ownerAddress, dto.labelIn db' ownerAddress) := by
    refine ⟨{ r with label := generateDefaultLabel db ownerAddress }, ?_, ?_⟩
    · show _ ∈ db'.vaults
      rw [hvaults]
      exact Table.mem_update.2 (Or.inr ⟨r, hr, rfl, rfl⟩)
    · rw [hdefault, ← howner]
  rw [createVault]
  simp only [haddress, if_neg hnew, hchain, if_pos htaken]

end Service

end StrategyBuilder.Backend
