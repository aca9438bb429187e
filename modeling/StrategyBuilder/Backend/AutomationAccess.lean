import StrategyBuilder.Backend.AutomationService
import Mathlib.Data.Fintype.EquivFin

/-!
# Who reaches an automation

`VaultOwnerGuard` checks the `:address` of a request, the handlers look the automation up by its
`:id`. A request changes the automation with its id and no other (`handle_touches`), so a request
leaves the vaults of others alone, and learns nothing of them, exactly when its id is the id of an
automation of its user (`isolated_iff`).
-/

set_option autoImplicit false

namespace StrategyBuilder.Backend

open StrategyBuilder.Contracts.Vault
open StrategyBuilder.Lib
open StrategyBuilder.Lib.Js

/-! ## What belongs to a user -/

/-- The user owns the vault. -/
def OwnVault (env : Providers) (user : String) (v : VaultRow) : Prop :=
  ∃ owner, env.getAddress v.ownerAddress = some owner ∧ env.getAddress user = some owner

/-- An automation of a vault that the user owns. -/
def OwnAutomation (env : Providers) (user : String) (db : Database) (a : AutomationRow) : Prop :=
  a ∈ db.automations ∧ ∃ v ∈ db.vaults, v.id = a.vaultId ∧ OwnVault env user v

/-- An automation of a vault that the user does not own. -/
def ForeignAutomation (env : Providers) (user : String) (db : Database) (a : AutomationRow) : Prop :=
  a ∈ db.automations ∧ ∃ v ∈ db.vaults, v.id = a.vaultId ∧ ¬ OwnVault env user v

/-- The user has the same vaults and the same automations in both databases. -/
structure Agree (env : Providers) (user : String) (db db' : Database) : Prop where
  vaults : ∀ v, OwnVault env user v → (v ∈ db.vaults ↔ v ∈ db'.vaults)
  automations : ∀ a, OwnAutomation env user db a ↔ OwnAutomation env user db' a

/-- The request leaves the automations of others as they are, and its response does not depend on
them. -/
structure Isolated (env : Providers) (db : Database) (r : Request) : Prop where
  untouched : ∀ a, ForeignAutomation env r.user db a → a ∈ (handle env db r).1.automations
  independent : ∀ db', Agree env r.user db db' → (handle env db' r).2 = (handle env db r).2

/-- The id is of an automation of the user. -/
def NamesOwn (env : Providers) (db : Database) (r : Request) : Prop :=
  ∃ a, OwnAutomation env r.user db a ∧ a.id = r.id

/-- A number that an `Int` column stores. -/
def Storable (x : JsNumber) : Prop := ∃ n, x.integer? = some n ∧ fitsInt4 n = true

/-- A confirmation with numbers that cannot be stored. -/
def Unstorable (route : Route) : Prop :=
  ∃ body onChainId, route = .update body ∧ body.onChainId = some onChainId ∧
    ¬ (Storable onChainId ∧ Storable (body.stepCount.getD (.ofInt 0)))

section Agree

variable {env : Providers} {user : String} {db db' db'' : Database}

theorem Agree.symm (h : Agree env user db db') : Agree env user db' db :=
  ⟨fun v hv => (h.vaults v hv).symm, fun a => (h.automations a).symm⟩

theorem Agree.trans (h : Agree env user db db') (h' : Agree env user db' db'') :
    Agree env user db db'' :=
  ⟨fun v hv => (h.vaults v hv).trans (h'.vaults v hv),
    fun a => (h.automations a).trans (h'.automations a)⟩

/-- The automations of a vault of the user are the same. -/
theorem Agree.rows (h : Agree env user db db') {v : VaultRow} (hv : v ∈ db.vaults)
    (hown : OwnVault env user v) {a : AutomationRow} (ha : a.vaultId = v.id) :
    a ∈ db.automations ↔ a ∈ db'.automations := by
  constructor
  · intro hmem
    exact ((h.automations a).1 ⟨hmem, v, hv, ha.symm, hown⟩).1
  · intro hmem
    exact ((h.automations a).2 ⟨hmem, v, (h.vaults v hown).1 hv, ha.symm, hown⟩).1

/-- Tables that agree for a user link the same automations of his vaults. -/
theorem Agree.linked (h : Agree env user db db') {v : VaultRow} (hv : v ∈ db.vaults)
    (hown : OwnVault env user v) : db.linked v.id = db'.linked v.id := by
  funext i
  have hiff : db.linked v.id i = true ↔ db'.linked v.id i = true := by
    simp only [Database.linked, List.any_eq_true, Bool.and_eq_true, decide_eq_true_eq,
      Table.mem_rows]
    constructor
    · rintro ⟨a, ha, hvault, hlinked⟩
      exact ⟨a, (h.rows hv hown hvault).1 ha, hvault, hlinked⟩
    · rintro ⟨a, ha, hvault, hlinked⟩
      exact ⟨a, (h.rows hv hown hvault).2 ha, hvault, hlinked⟩
  exact Bool.eq_iff_iff.2 hiff

/-- Whether an automation is linked elsewhere is the same, too. -/
theorem Agree.linkedElsewhere (h : Agree env user db db') {v : VaultRow} (hv : v ∈ db.vaults)
    (hown : OwnVault env user v) {a : AutomationRow} (ha : a.vaultId = v.id) :
    db.linkedElsewhere a = db'.linkedElsewhere a := by
  have hiff : db.linkedElsewhere a = true ↔ db'.linkedElsewhere a = true := by
    rw [Database.linkedElsewhere_iff, Database.linkedElsewhere_iff]
    apply and_congr_right
    intro _
    constructor
    · rintro ⟨b, hb, hid, hvault, hlinked⟩
      exact ⟨b, (h.rows hv hown (hvault.trans ha)).1 hb, hid, hvault, hlinked⟩
    · rintro ⟨b, hb, hid, hvault, hlinked⟩
      exact ⟨b, (h.rows hv hown (hvault.trans ha)).2 hb, hid, hvault, hlinked⟩
  exact Bool.eq_iff_iff.2 hiff

end Agree

/-! ## The guard -/

section Guard

variable {env : Providers} {user address : String} {db db' : Database} {v : VaultRow}

/-- The guard lets the owner of the vault through, and nobody else. -/
theorem assertOwnership_eq_ok : assertOwnership env db address user = .ok v ↔
    v ∈ db.vaults ∧ OwnVault env user v ∧ env.getAddress address = some v.address := by
  constructor
  · intro h
    rw [assertOwnership] at h
    split at h
    · rename_i normalizedVault normalizedUser haddress huser
      split at h
      · cases h
      · rename_i vault hfind
        obtain ⟨hmem, hkey⟩ := Table.find?_eq_some.1 hfind
        split at h
        · cases h
        · rename_i owner howner
          split at h
          · rename_i heq
            cases h
            exact ⟨hmem, ⟨owner, howner, heq ▸ huser⟩, hkey ▸ haddress⟩
          · cases h
    · cases h
  · rintro ⟨hmem, ⟨owner, howner, huser⟩, haddress⟩
    have hfind : db.byAddress.find? v.address = some v := Table.find?_eq_some.2 ⟨hmem, rfl⟩
    rw [assertOwnership]
    simp only [haddress, huser, hfind, howner, if_true]

/-- The guard attaches the same vault in both databases. -/
theorem Agree.assertOwnership (h : Agree env user db db')
    (hguard : assertOwnership env db address user = .ok v) :
    assertOwnership env db' address user = .ok v := by
  obtain ⟨hmem, hown, haddress⟩ := assertOwnership_eq_ok.1 hguard
  exact assertOwnership_eq_ok.2 ⟨(h.vaults v hown).1 hmem, hown, haddress⟩

end Guard

/-! ## What a request changes -/

/-- All automations but the one with the id are the same. -/
def SameExcept (id : String) (db db' : Database) : Prop :=
  ∀ a : AutomationRow, a.id ≠ id → (a ∈ db.automations ↔ a ∈ db'.automations)

section Touches

variable {env : Providers} {db db' : Database} {id : String}

theorem SameExcept.refl (id : String) (db : Database) : SameExcept id db db :=
  fun _ _ => Iff.rfl

theorem SameExcept.trans {db'' : Database} (h : SameExcept id db db') (h' : SameExcept id db' db'') :
    SameExcept id db db'' :=
  fun a ha => (h a ha).trans (h' a ha)

/-- An update that succeeds changes the one row. -/
theorem updateAutomation_eq_ok {data : AutomationData} {row : AutomationRow}
    (h : db.updateAutomation id data = .ok (db', row)) :
    ∃ a ∈ db.automations, a.id = id ∧ row = data.apply a ∧
      db'.automations = db.automations.update id data.apply data.apply_id := by
  rw [Database.updateAutomation] at h
  split at h
  · cases h
  · rename_i a hfind
    obtain ⟨ha, rfl⟩ := Table.find?_eq_some.1 hfind
    split at h
    · cases h
    · split at h
      · cases h
      · cases h
        exact ⟨a, ha, rfl, rfl, rfl⟩

/-- An update leaves the vaults and the keys of the automations. -/
theorem updateAutomation_keeps {data : AutomationData} {row : AutomationRow}
    (h : db.updateAutomation id data = .ok (db', row)) :
    db'.vaults = db.vaults ∧ ∀ k, db'.automations.Has k ↔ db.automations.Has k := by
  refine ⟨?_, fun k => ?_⟩
  · rw [Database.updateAutomation] at h
    split at h
    · cases h
    · split_ifs at h
      cases h
      rfl
  · obtain ⟨a, -, -, -, hdb⟩ := updateAutomation_eq_ok h
    rw [hdb, Table.has_update]

/-- An update touches no other row. -/
theorem updateAutomation_touches {data : AutomationData} {row : AutomationRow}
    (h : db.updateAutomation id data = .ok (db', row)) : SameExcept id db db' := by
  obtain ⟨a, -, -, -, hdb⟩ := updateAutomation_eq_ok h
  intro b hb
  rw [hdb, Table.mem_update]
  constructor
  · intro hmem
    exact Or.inl ⟨hmem, hb⟩
  · rintro (⟨hmem, -⟩ | ⟨b', hb', hid, rfl⟩)
    · exact hmem
    · exact absurd hid hb

theorem eraseAutomation_touches (db : Database) (id : String) :
    SameExcept id db (db.eraseAutomation id) := by
  intro a ha
  constructor
  · intro hmem
    exact Table.mem_erase.2 ⟨hmem, ha⟩
  · intro hmem
    exact (Table.mem_erase.1 hmem).1

theorem deleteAutomation_touches (h : db.deleteAutomation id = .ok db') : SameExcept id db db' := by
  rw [Database.deleteAutomation] at h
  split at h
  · cases h
  · cases h
    exact eraseAutomation_touches db id

theorem answerUpdate_touches {result : Except HttpError (Database × AutomationRow)}
    (h : ∀ db' row, result = .ok (db', row) → SameExcept id db db') :
    SameExcept id db (answerUpdate db result).1 := by
  cases result with
  | error e => exact SameExcept.refl id db
  | ok written => exact h written.1 written.2 rfl

theorem confirmDeployment_touches {onChainId stepCount : JsNumber} {ownerOnly : Bool}
    {row : AutomationRow}
    (h : confirmDeployment db id onChainId ownerOnly stepCount = .ok (db', row)) :
    SameExcept id db db' := by
  rw [confirmDeployment] at h
  split at h
  · exact updateAutomation_touches h
  · cases h

/-- The search for a draft touches no other row. -/
theorem tryReconcile_touches (env : Providers) (db : Database) (a : AutomationRow) (v : VaultRow) :
    SameExcept a.id db (tryReconcile env db a v).1 := by
  rw [tryReconcile]
  split
  · exact SameExcept.refl a.id db
  · split
    · exact SameExcept.refl a.id db
    · rename_i hupdate
      exact updateAutomation_touches hupdate

/-- The row with the id, and the row of its vault. -/
theorem findAutomation_eq_some {a : AutomationRow} {v : VaultRow} :
    db.findAutomation id = some (a, v) ↔
      a ∈ db.automations ∧ a.id = id ∧ v ∈ db.vaults ∧ v.id = a.vaultId := by
  rw [Database.findAutomation]
  constructor
  · intro h
    split at h
    · cases h
    · rename_i a' ha'
      obtain ⟨hmem, hid⟩ := Table.find?_eq_some.1 ha'
      rw [Option.map_eq_some_iff] at h
      obtain ⟨v', hv', heq⟩ := h
      cases heq
      obtain ⟨hvault, hvid⟩ := Table.find?_eq_some.1 hv'
      exact ⟨hmem, hid, hvault, hvid⟩
  · rintro ⟨hmem, hid, hvault, hvid⟩
    have hfind : db.automations.find? id = some a := Table.find?_eq_some.2 ⟨hmem, hid⟩
    have hfind' : db.vaults.find? a.vaultId = some v := Table.find?_eq_some.2 ⟨hvault, hvid⟩
    simp only [hfind, hfind', Option.map_some]

/-- A read touches no other row. -/
theorem findById_touches (env : Providers) (db : Database) (id : String) :
    SameExcept id db (findById env db id).1 := by
  rw [findById]
  split
  · exact SameExcept.refl id db
  · rename_i a v hfind
    obtain ⟨-, rfl, -, -⟩ := findAutomation_eq_some.1 hfind
    have htouches := tryReconcile_touches env db a v
    split
    · cases hreconcile : tryReconcile env db a v with
      | mk db' reconciled =>
        rw [hreconcile] at htouches
        -- reconciled or not, the lookup has written to no other row
        cases reconciled with
        | none => exact htouches
        | some row => exact htouches
    · exact SameExcept.refl a.id db

/-- No route touches the row of another automation. -/
theorem respond_touches (env : Providers) (db : Database) (vault : VaultRow) (r : Request) :
    SameExcept r.id db (respond env db vault r).1 := by
  have hfound := findById_touches env db r.id
  rw [respond]
  cases hfind : findById env db r.id with
  | mk db' result =>
    rw [hfind] at hfound
    cases r.route with
    -- an update looks nothing up: it writes where the row is
    | update body =>
      simp only
      split
      · apply answerUpdate_touches
        intro db' row h
        exact confirmDeployment_touches h
      · apply answerUpdate_touches
        intro db' row h
        exact updateAutomation_touches h
    | get =>
      cases result with
      | error e => exact hfound
      | ok found => exact hfound
    | encode body =>
      cases result with
      | error e => exact hfound
      | ok found => exact hfound
    | encodeUpdate body =>
      cases result with
      | error e => exact hfound
      | ok found =>
        simp only
        split
        · exact hfound
        · exact hfound
    | encodeToggle active =>
      cases result with
      | error e => exact hfound
      | ok found =>
        simp only
        split
        · exact hfound
        · exact hfound
    | encodeExecute =>
      cases result with
      | error e => exact hfound
      | ok found =>
        simp only
        split
        · exact hfound
        · exact hfound
    | delete =>
      cases result with
      | error e => exact hfound
      | ok found =>
        simp only
        split
        · exact hfound
        · split
          · exact hfound
          · rename_i hdelete
            exact hfound.trans (deleteAutomation_touches hdelete)

/-- **A request changes the automation with its id and no other.** -/
theorem handle_touches (env : Providers) (db : Database) (r : Request) :
    SameExcept r.id db (handle env db r).1 := by
  rw [handle]
  split
  · exact SameExcept.refl r.id db
  · exact respond_touches env db _ r

end Touches

/-! ## What a response depends on -/

section Responses

variable {env : Providers} {user id : String} {db db' : Database} {a : AutomationRow} {v : VaultRow}

/-- An update answers the same in both databases. -/
theorem Agree.updateAutomation (h : Agree env user db db') (ha : a ∈ db.automations)
    (hv : v ∈ db.vaults) (hid : v.id = a.vaultId) (hown : OwnVault env user v)
    (data : AutomationData) :
    (db.updateAutomation a.id data).map Prod.snd = (db'.updateAutomation a.id data).map Prod.snd := by
  have hfind : db.automations.find? a.id = some a := Table.find?_eq_some.2 ⟨ha, rfl⟩
  have hfind' : db'.automations.find? a.id = some a :=
    Table.find?_eq_some.2 ⟨(h.rows hv hown hid.symm).1 ha, rfl⟩
  have hlinked : db.linkedElsewhere (data.apply a) = db'.linkedElsewhere (data.apply a) :=
    h.linkedElsewhere hv hown hid.symm
  -- the answer depends on the row and on whether the id is linked elsewhere in its vault
  have hanswer (d : Database) (hd : d.automations.find? a.id = some a) :
      (d.updateAutomation a.id data).map Prod.snd =
        if data.fits = false then .error .internal
        else if d.linkedElsewhere (data.apply a) = true then .error .internal
        else .ok (data.apply a) := by
    rw [Database.updateAutomation]
    split
    · rename_i hnone
      rw [hd] at hnone
      cases hnone
    · rename_i a' ha'
      rw [hd, Option.some.injEq] at ha'
      subst ha'
      split
      · rfl
      · split
        · rfl
        · rfl
  rw [hanswer db hfind, hanswer db' hfind', hlinked]

/-- The search for a draft finds the same in tables that agree. -/
theorem Agree.tryReconcile (h : Agree env user db db') (ha : a ∈ db.automations)
    (hv : v ∈ db.vaults) (hid : v.id = a.vaultId) (hown : OwnVault env user v) :
    (tryReconcile env db a v).2 = (tryReconcile env db' a v).2 := by
  unfold StrategyBuilder.Backend.tryReconcile
  rw [← h.linked hv hown]
  split
  · rfl
  · rename_i data hdata
    have hupdate := h.updateAutomation ha hv hid hown data
    cases hdb : db.updateAutomation a.id data with
    | error e =>
      cases hdb' : db'.updateAutomation a.id data with
      | error e' => rfl
      | ok written =>
        rw [hdb, hdb'] at hupdate
        cases hupdate
    | ok written =>
      cases hdb' : db'.updateAutomation a.id data with
      | error e' =>
        rw [hdb, hdb'] at hupdate
        cases hupdate
      | ok written' =>
        rw [hdb, hdb'] at hupdate
        exact congrArg some (Except.ok.inj hupdate)

/-- A lookup that finds something leaves a row with the id. -/
theorem findById_has (h : db.findAutomation id = some (a, v)) :
    (findById env db id).1.automations.Has id := by
  obtain ⟨ha, rfl, -, -⟩ := findAutomation_eq_some.1 h
  rw [findById]
  simp only [h]
  split
  · cases hreconcile : tryReconcile env db a v with
    | mk db' reconciled =>
      rw [tryReconcile] at hreconcile
      split at hreconcile
      · cases hreconcile
        exact ⟨a, ha, rfl⟩
      · rename_i data hdata
        split at hreconcile
        · cases hreconcile
          exact ⟨a, ha, rfl⟩
        · rename_i row hupdate
          cases hreconcile
          obtain ⟨a', ha', hid, rfl, hdb⟩ := updateAutomation_eq_ok hupdate
          refine ⟨data.apply a', ?_, hid⟩
          rw [hdb]
          exact Table.mem_update.2 (Or.inr ⟨a', ha', hid, rfl⟩)
  · exact ⟨a, ha, rfl⟩

/-- A lookup of an automation of the user finds the same in both databases. -/
theorem Agree.findById (h : Agree env user db db') (ha : a ∈ db.automations) (hv : v ∈ db.vaults)
    (hid : v.id = a.vaultId) (hown : OwnVault env user v) :
    ∃ db₁ db₁' found, findById env db a.id = (db₁, .ok found) ∧
      findById env db' a.id = (db₁', .ok found) ∧ db₁.automations.Has a.id ∧
        db₁'.automations.Has a.id := by
  have hfind : db.findAutomation a.id = some (a, v) := findAutomation_eq_some.2 ⟨ha, rfl, hv, hid⟩
  have hfind' : db'.findAutomation a.id = some (a, v) :=
    findAutomation_eq_some.2 ⟨(h.rows hv hown hid.symm).1 ha, rfl, (h.vaults v hown).1 hv, hid⟩
  have hhas := @findById_has env _ _ _ _ hfind
  have hhas' := @findById_has env _ _ _ _ hfind'
  have hreconcile := h.tryReconcile ha hv hid hown
  unfold StrategyBuilder.Backend.findById at hhas hhas' ⊢
  simp only [hfind, hfind'] at hhas hhas' ⊢
  split
  -- both databases reconcile the draft to the same row
  · rename_i hdraft
    rw [if_pos hdraft] at hhas hhas'
    cases hdb : StrategyBuilder.Backend.tryReconcile env db a v with
    | mk db₁ reconciled =>
      cases hdb' : StrategyBuilder.Backend.tryReconcile env db' a v with
      | mk db₁' reconciled' =>
        rw [hdb, hdb'] at hreconcile
        rw [hdb] at hhas
        rw [hdb'] at hhas'
        have hsame : reconciled = reconciled' := hreconcile
        subst hsame
        cases reconciled with
        | none => exact ⟨db₁, db₁', (a, v), rfl, rfl, hhas, hhas'⟩
        | some row => exact ⟨db₁, db₁', (row, v), rfl, rfl, hhas, hhas'⟩
  · rename_i hdraft
    rw [if_neg hdraft] at hhas hhas'
    exact ⟨db, db', (a, v), rfl, rfl, hhas, hhas'⟩

theorem deleteAutomation_of_has (h : db.automations.Has id) :
    db.deleteAutomation id = .ok (db.eraseAutomation id) := by
  obtain ⟨a, ha, hid⟩ := h
  have hfind : db.automations.find? id = some a := Table.find?_eq_some.2 ⟨ha, hid⟩
  rw [Database.deleteAutomation]
  simp only [hfind]

/-- The answer to an update depends on the row alone. -/
theorem answerUpdate_eq {result result' : Except HttpError (Database × AutomationRow)}
    (h : result.map Prod.snd = result'.map Prod.snd) :
    (answerUpdate db result).2 = (answerUpdate db' result').2 := by
  cases result with
  | error e =>
    cases result' with
    | error e' =>
      cases h
      rfl
    | ok written' => cases h
  | ok written =>
    cases result' with
    | error e' => cases h
    | ok written' =>
      obtain ⟨d, row⟩ := written
      obtain ⟨d', row'⟩ := written'
      have hrow : row = row' := Except.ok.inj h
      subst hrow
      rfl

/-- A route answers the same in tables that agree for the user. -/
theorem Agree.respond (h : Agree env user db db') (ha : a ∈ db.automations) (hv : v ∈ db.vaults)
    (hid : v.id = a.vaultId) (hown : OwnVault env user v) (vault : VaultRow) (r : Request)
    (hr : a.id = r.id) : (respond env db' vault r).2 = (respond env db vault r).2 := by
  -- both lookups find the same row, and leave tables that still agree
  obtain ⟨db₁, db₁', found, hfind, hfind', hhas, hhas'⟩ := h.findById ha hv hid hown
  rw [hr] at hfind hfind' hhas hhas'
  unfold StrategyBuilder.Backend.respond
  cases r.route with
  | update body =>
    simp only
    split
    · apply answerUpdate_eq
      unfold confirmDeployment
      split
      · rw [← hr]
        exact (h.updateAutomation ha hv hid hown _).symm
      · rfl
    · apply answerUpdate_eq
      rw [← hr]
      exact (h.updateAutomation ha hv hid hown _).symm
  | get => simp only [hfind, hfind']
  | encode body =>
    simp only [hfind, hfind']
    rfl
  | encodeUpdate body =>
    simp only [hfind, hfind']
    split
    · rfl
    · rfl
  | encodeToggle active =>
    simp only [hfind, hfind']
    split
    · rfl
    · rfl
  | encodeExecute =>
    simp only [hfind, hfind']
    split
    · rfl
    · rfl
  | delete =>
    simp only [hfind, hfind', deleteAutomation_of_has hhas, deleteAutomation_of_has hhas']
    split
    · rfl
    · rfl

end Responses

/-! ## Requests for an automation of the user -/

section Own

variable {env : Providers} {db : Database} {r : Request}

/-- A request that names the user's own automation tells nothing of others. -/
theorem isolated_of_own {vault : VaultRow}
    (hguard : assertOwnership env db r.address r.user = .ok vault) (h : NamesOwn env db r) :
    Isolated env db r := by
  obtain ⟨a, ⟨ha, v, hv, hid, hown⟩, hr⟩ := h
  refine ⟨?_, ?_⟩
  · rintro b ⟨hb, w, hw, hwid, hforeign⟩
    have hne : b.id ≠ r.id := by
      intro heq
      -- the row of the user and the other row would be one row
      have hsame : b = a := Table.eq_of_key hb ha (heq.trans hr.symm)
      subst hsame
      -- and so would their vaults, of which the user owns one
      have hvault : v = w := Table.eq_of_key hv hw (hid.trans hwid.symm)
      exact hforeign (hvault ▸ hown)
    exact (handle_touches env db r b hne).1 hb
  · intro db' hagree
    unfold handle
    simp only [hguard, hagree.assertOwnership hguard]
    exact hagree.respond ha hv hid hown vault r hr

/-- A body that no column can hold ends in an exception. -/
theorem handle_unstorable {vault : VaultRow}
    (hguard : assertOwnership env db r.address r.user = .ok vault) (h : Unstorable r.route) :
    handle env db r = (db, .error .internal) := by
  obtain ⟨body, onChainId, hroute, hbody, hnot⟩ := h
  have hconfirm : confirmDeployment db r.id onChainId (body.ownerOnly.getD false)
      (body.stepCount.getD (.ofInt 0)) = .error .internal := by
    rw [confirmDeployment]
    split
    · rename_i n k hn hk
      have hfits : (AutomationData.fits
          { onChainId := some n
            isDraft := some false
            ownerOnly := some (body.ownerOnly.getD false)
            stepCount := some k }) = false := by
        -- one of the numbers does not fit its column
        rw [← Bool.not_eq_true]
        intro hfits
        rw [AutomationData.fits] at hfits
        simp only [Option.all_some, Bool.and_eq_true] at hfits
        exact hnot ⟨⟨n, hn, hfits.1⟩, ⟨k, hk, hfits.2⟩⟩
      rw [Database.updateAutomation]
      split
      · rfl
      · exact if_pos hfits
    · rfl
  rw [handle]
  simp only [hguard]
  rw [respond]
  simp only [hroute, hbody, hconfirm]
  rfl

/-- Such a request tells nothing of others. -/
theorem isolated_of_unstorable {vault : VaultRow}
    (hguard : assertOwnership env db r.address r.user = .ok vault) (h : Unstorable r.route) :
    Isolated env db r := by
  refine ⟨?_, ?_⟩
  · intro a ha
    rw [handle_unstorable hguard h]
    exact ha.1
  · intro db' hagree
    rw [handle_unstorable hguard h, handle_unstorable (hagree.assertOwnership hguard) h]

end Own

/-! ## Requests for any other id -/

/-- A vault and an automation of it that are nowhere in the database: the string is in no row. -/
structure Fresh (db : Database) (s id : String) : Prop where
  vault : ¬ db.vaults.Has s
  address : ∀ v ∈ db.vaults, v.address ≠ s
  label : ∀ v ∈ db.vaults, v.label ≠ s
  automation : ¬ db.automations.Has id

/-- A vault of `owner` that is named by the string. -/
def freshVault (owner s : String) : VaultRow where
  id := s
  address := s
  chainId := 1
  ownerAddress := owner
  depositToken := s
  label := s
  createdAtBlock := 0
  txHash := s
  contextSlots := []

/-- An automation of that vault, no draft and without graph. -/
def freshAutomation (s id : String) : AutomationRow where
  id := id
  vaultId := s
  onChainId := none
  label := none
  description := none
  ownerOnly := false
  editorState := none
  stepCount := 0
  isDraft := false

/-- There is a vault with its ids that is new to the tables. -/
theorem exists_fresh (db : Database) (id : String) (hid : ¬ db.automations.Has id) :
    ∃ s, Fresh db s id := by
  -- there are more strings than the table holds
  obtain ⟨s, hs⟩ := Infinite.exists_notMem_finset
    (db.vaults.rows.flatMap fun v => [v.id, v.address, v.label]).toFinset
  rw [List.mem_toFinset, List.mem_flatMap] at hs
  refine ⟨s, ⟨?_, ?_, ?_, hid⟩⟩
  · rintro ⟨v, hv, rfl⟩
    exact hs ⟨v, hv, by simp⟩
  · rintro v hv rfl
    exact hs ⟨v, hv, by simp⟩
  · rintro v hv rfl
    exact hs ⟨v, hv, by simp⟩

section Foreign

variable {env : Providers} {user owner : String} {db : Database} {s id : String}

theorem Fresh.notMem_automations (h : Fresh db s id) {a : AutomationRow} (ha : a ∈ db.automations) :
    a.vaultId ≠ s := by
  rintro rfl
  exact h.vault (db.references a ha)

/-- The database with the automation of another owner. -/
def Database.withForeign (db : Database) (owner : String) (h : Fresh db s id) : Database where
  vaults := db.vaults.insert (freshVault owner s)
  automations := db.automations.insert (freshAutomation s id)
  addresses := Table.nodup_map_insert db.addresses h.address
  labels := by
    apply Table.nodup_map_insert db.labels
    intro v hv heq
    exact h.label v hv (congrArg Prod.snd heq)
  onChainIds := by
    intro a ha b hb hvault hlinked hne
    -- the new automation is linked to nothing
    rcases Table.mem_insert.1 ha with ha | ⟨rfl, -⟩
    · rcases Table.mem_insert.1 hb with hb | ⟨rfl, -⟩
      · exact db.onChainIds a ha b hb hvault hlinked hne
      · exact absurd hlinked hne
    · exact absurd rfl hne
  references := by
    intro a ha
    rcases Table.mem_insert.1 ha with ha | ⟨rfl, -⟩
    · exact Table.has_insert.2 (Or.inl (db.references a ha))
    · exact Table.has_insert.2 (Or.inr rfl)

/-- A foreign vault with an automation changes nothing for the user. -/
theorem agree_withForeign (h : Fresh db s id) (howner : ¬ OwnVault env user (freshVault owner s)) :
    Agree env user db (db.withForeign owner h) := by
  have hvaults (v : VaultRow) (hown : OwnVault env user v) :
      v ∈ db.vaults ↔ v ∈ (db.withForeign owner h).vaults := by
    constructor
    · intro hv
      exact Table.mem_insert.2 (Or.inl hv)
    · intro hv
      rcases Table.mem_insert.1 hv with hv | ⟨rfl, -⟩
      · exact hv
      · exact absurd hown howner
  refine ⟨hvaults, fun a => ?_⟩
  constructor
  · rintro ⟨ha, v, hv, hid, hown⟩
    exact ⟨Table.mem_insert.2 (Or.inl ha), v, (hvaults v hown).1 hv, hid, hown⟩
  · rintro ⟨ha, v, hv, hid, hown⟩
    have hv' := (hvaults v hown).2 hv
    rcases Table.mem_insert.1 ha with ha | ⟨rfl, -⟩
    · exact ⟨ha, v, hv', hid, hown⟩
    · exact absurd ⟨v, hv', hid⟩ h.vault

theorem agree_eraseAutomation (h : ∀ a, OwnAutomation env user db a → a.id ≠ id) :
    Agree env user db (db.eraseAutomation id) := by
  refine ⟨fun v _ => Iff.rfl, fun a => ?_⟩
  constructor
  · intro hown
    exact ⟨Table.mem_erase.2 ⟨hown.1, h a hown⟩, hown.2⟩
  · rintro ⟨ha, hvault⟩
    exact ⟨(Table.mem_erase.1 ha).1, hvault⟩

theorem not_has_eraseAutomation (db : Database) (id : String) :
    ¬ (db.eraseAutomation id).automations.Has id := by
  rintro ⟨a, ha, hid⟩
  exact (Table.mem_erase.1 ha).2 hid

/-- No automation has the id: an update fails, any other request finds nothing. -/
theorem respond_missing {vault : VaultRow} {r : Request} (h : ¬ db.automations.Has r.id) :
    (respond env db vault r).2 =
      match r.route with
      | .update _ => .error .internal
      | _ => .error (.notFound "AUTOMATION_NOT_FOUND") := by
  have hfind : db.automations.find? r.id = none := Table.find?_eq_none.2 h
  have hupdate (data : AutomationData) : db.updateAutomation r.id data = .error .internal := by
    rw [Database.updateAutomation]
    split
    · rfl
    · rename_i a ha
      rw [hfind] at ha
      cases ha
  have hmissing : findById env db r.id = (db, .error (.notFound "AUTOMATION_NOT_FOUND")) := by
    have hnone : db.findAutomation r.id = none := by
      rw [Database.findAutomation]
      simp only [hfind]
    rw [findById]
    simp only [hnone]
  rw [respond]
  cases r.route with
  | update body =>
    simp only
    split
    · rw [confirmDeployment]
      split
      · rw [hupdate]
        rfl
      · rfl
    · rw [hupdate]
      rfl
  -- every other route looks the automation up first
  | _ => simp only [hmissing]

/-- The new automation can be written as any storable data say. -/
theorem updateAutomation_foreign (owner : String) (h : Fresh db s id) (data : AutomationData)
    (hfits : data.fits = true) : ∃ db' row,
      (db.withForeign owner h).updateAutomation id data = .ok (db', row) := by
  have hmem : freshAutomation s id ∈ (db.withForeign owner h).automations :=
    Table.mem_insert.2 (Or.inr ⟨rfl, h.automation⟩)
  have hfind : (db.withForeign owner h).automations.find? id = some (freshAutomation s id) :=
    Table.find?_eq_some.2 ⟨hmem, rfl⟩
  have hfree : (db.withForeign owner h).linkedElsewhere (data.apply (freshAutomation s id)) ≠ true := by
    intro hlinked
    obtain ⟨-, b, hb, hid, hvault, -⟩ := ((db.withForeign owner h).linkedElsewhere_iff).1 hlinked
    rcases Table.mem_insert.1 hb with hb | ⟨rfl, -⟩
    · exact h.notMem_automations hb hvault
    · exact hid rfl
  rw [Database.updateAutomation]
  split
  · rename_i hnone
    rw [hfind] at hnone
    cases hnone
  · rename_i a ha
    rw [hfind, Option.some.injEq] at ha
    subst ha
    rw [if_neg (by rw [hfits]; decide), dif_neg hfree]
    exact ⟨_, _, rfl⟩

/-- The new automation is found: the request is answered as for an automation of the user. -/
theorem respond_foreign {vault : VaultRow} {r : Request} (h : Fresh db s r.id)
    (hstorable : ¬ Unstorable r.route) :
    (respond env (db.withForeign owner h) vault r).2 ≠
      match r.route with
      | .update _ => .error .internal
      | _ => .error (.notFound "AUTOMATION_NOT_FOUND") := by
  have hmem : freshAutomation s r.id ∈ (db.withForeign owner h).automations :=
    Table.mem_insert.2 (Or.inr ⟨rfl, h.automation⟩)
  have hvault : freshVault owner s ∈ (db.withForeign owner h).vaults :=
    Table.mem_insert.2 (Or.inr ⟨rfl, h.vault⟩)
  have hfind : findById env (db.withForeign owner h) r.id =
      (db.withForeign owner h, .ok (freshAutomation s r.id, freshVault owner s)) := by
    have hfound := findAutomation_eq_some.2 ⟨hmem, rfl, hvault, rfl⟩
    rw [findById]
    simp only [freshAutomation] at hfound ⊢
    simp only [hfound, Bool.false_eq_true, false_and, if_false]
  have hencoded (d : Database) (vaultId : String)
      (result : ContextSlots × Except Thrown EncodeResult) :
      (answerEncoding d vaultId result).2 ≠ .error (.notFound "AUTOMATION_NOT_FOUND") := by
    intro heq
    rw [answerEncoding] at heq
    cases hresult : result.2 with
    | ok answer =>
      simp only [hresult] at heq
      cases heq
    | error e =>
      simp only [hresult] at heq
      cases e with
      | badRequest message => cases heq
      | internal => cases heq
  rw [respond]
  cases hroute : r.route with
  | update body =>
    simp only
    split
    · rename_i onChainId hbody
      have hboth : Storable onChainId ∧ Storable (body.stepCount.getD (.ofInt 0)) := by
        -- otherwise the body is one that cannot be stored
        by_contra hnot
        exact hstorable ⟨body, onChainId, hroute, hbody, hnot⟩
      obtain ⟨⟨n, hn, hnfits⟩, ⟨k, hk, hkfits⟩⟩ := hboth
      obtain ⟨db', row, hupdate⟩ := updateAutomation_foreign owner h
        ⟨some n, none, none, some (body.ownerOnly.getD false), none, some k, some false⟩
        (by unfold AutomationData.fits; simp only [Option.all_some, hnfits, hkfits, Bool.and_self])
      unfold confirmDeployment
      simp only [hn, hk, hupdate]
      intro heq
      cases heq
    · obtain ⟨db', row, hupdate⟩ := updateAutomation_foreign owner h
        ⟨none, body.label, body.description, none, body.editorState, none, none⟩ rfl
      simp only [hupdate]
      intro heq
      cases heq
  | get =>
    simp only [hfind]
    intro heq
    cases heq
  | encode body =>
    simp only [hfind]
    exact hencoded _ _ _
  | encodeUpdate body =>
    simp only [hfind, freshAutomation]
    intro heq
    cases heq
  | encodeToggle active =>
    simp only [hfind, freshAutomation]
    intro heq
    cases heq
  | encodeExecute =>
    simp only [hfind, freshAutomation]
    intro heq
    cases heq
  | delete =>
    have hhas : (db.withForeign owner h).automations.Has r.id := ⟨_, hmem, rfl⟩
    simp only [hfind, respond.activeOnChain, freshAutomation, deleteAutomation_of_has hhas]
    intro heq
    cases heq

end Foreign

/-- A request that tells nothing of others names the user's own automation. -/
theorem own_of_isolated {env : Providers} {db : Database} {r : Request} {vault : VaultRow} {w : String}
    (hne : env.getAddress w ≠ env.getAddress r.user)
    (hguard : assertOwnership env db r.address r.user = .ok vault) (h : Isolated env db r)
    (hstorable : ¬ Unstorable r.route) : NamesOwn env db r := by
  by_contra hown
  -- without the automation, and with one of the other user: the user sees the same databases
  have hagree : Agree env r.user db (db.eraseAutomation r.id) :=
    agree_eraseAutomation fun a ha hid => hown ⟨a, ha, hid⟩
  have hmissing := not_has_eraseAutomation db r.id
  obtain ⟨s, hfresh⟩ := exists_fresh _ _ hmissing
  have hforeign : ¬ OwnVault env r.user (freshVault w s) := by
    rintro ⟨owner, howner, huser⟩
    exact hne (howner.trans huser.symm)
  have hagree' := hagree.trans (agree_withForeign hfresh hforeign)
  have hsame := (h.independent _ hagree).trans (h.independent _ hagree').symm
  unfold handle at hsame
  simp only [hagree.assertOwnership hguard, hagree'.assertOwnership hguard] at hsame
  rw [respond_missing hmissing] at hsame
  exact respond_foreign hfresh hstorable hsame.symm

/-- **A request is isolated exactly when its id is an automation of its user**, or what it sends
cannot be stored. -/
theorem isolated_iff (env : Providers) (db : Database) (r : Request) (w : String)
    (hne : env.getAddress w ≠ env.getAddress r.user) (vault : VaultRow)
    (hguard : assertOwnership env db r.address r.user = .ok vault) :
    Isolated env db r ↔ NamesOwn env db r ∨ Unstorable r.route := by
  constructor
  · intro h
    by_cases hunstorable : Unstorable r.route
    · exact Or.inr hunstorable
    · exact Or.inl (own_of_isolated hne hguard h hunstorable)
  · rintro (h | h)
    · exact isolated_of_own hguard h
    · exact isolated_of_unstorable hguard h

/-! ## Two users with a vault each -/

/-- No step types, no chain, and every text is an address. -/
def sampleProviders : Providers where
  services := ⟨[], fun _ _ => none⟩
  getAddress := some
  rpc := none
  getStatuses := fun _ => none

/-- The vault at the address, with its owner. -/
def sampleVault (id address ownerAddress : String) : VaultRow :=
  { freshVault ownerAddress id with
    address := address }

/-- A vault of each user, with an automation each. -/
def twoUsers : Database where
  vaults := ⟨[
    sampleVault "v1" "0x3333333333333333333333333333333333333333"
      "0x1111111111111111111111111111111111111111",
    sampleVault "v2" "0x4444444444444444444444444444444444444444"
      "0x2222222222222222222222222222222222222222"], by decide⟩
  automations := ⟨[freshAutomation "v1" "a1", freshAutomation "v2" "a2"], by decide⟩
  addresses := by decide
  labels := by decide
  onChainIds := by
    intro a ha b hb hvault hlinked hne
    rcases List.mem_cons.1 ha with rfl | ha
    · exact absurd rfl hne
    · rw [List.mem_singleton] at ha
      subst ha
      exact absurd rfl hne
  references := by
    intro a ha
    rcases List.mem_cons.1 ha with rfl | ha
    · exact ⟨_, List.mem_cons_self .., rfl⟩
    · rw [List.mem_singleton] at ha
      subst ha
      exact ⟨_, List.mem_cons_of_mem _ (List.mem_singleton_self _), rfl⟩

/-- The first user asks for an automation through his vault. -/
def firstUserRequest (id : String) (route : Route) : Request where
  user := "0x1111111111111111111111111111111111111111"
  address := "0x3333333333333333333333333333333333333333"
  id := id
  route := route

/-- He reads his own. -/
theorem isolated_iff_sample : Isolated sampleProviders twoUsers (firstUserRequest "a1" .get) := by
  refine (isolated_iff sampleProviders twoUsers (firstUserRequest "a1" .get)
    "0x2222222222222222222222222222222222222222" (by decide) _ rfl).2 (Or.inl ?_)
  refine ⟨freshAutomation "v1" "a1", ⟨List.mem_cons_self .., ?_⟩, rfl⟩
  exact ⟨_, List.mem_cons_self .., rfl, ⟨_, rfl, rfl⟩⟩

/-- He deletes the automation of the other user. -/
theorem other_automation_deleted :
    ¬ Isolated sampleProviders twoUsers (firstUserRequest "a2" .delete) := by
  intro h
  have hforeign : ForeignAutomation sampleProviders (firstUserRequest "a2" .delete).user twoUsers
      (freshAutomation "v2" "a2") := by
    refine ⟨List.mem_cons_of_mem _ (List.mem_singleton_self _), ?_⟩
    refine ⟨_, List.mem_cons_of_mem _ (List.mem_singleton_self _), rfl, ?_⟩
    rintro ⟨owner, howner, huser⟩
    have hsame := howner.trans huser.symm
    exact absurd hsame (by decide)
  have hrows : (handle sampleProviders twoUsers (firstUserRequest "a2" .delete)).1.automations.rows =
      [freshAutomation "v1" "a1"] := rfl
  have hmem := h.untouched _ hforeign
  rw [← Table.mem_rows, hrows, List.mem_singleton] at hmem
  exact absurd (congrArg AutomationRow.id hmem) (by decide)

end StrategyBuilder.Backend
