import StrategyBuilder.Indexer.ExecutionsGateway

/-!
# No execution is missed

A client that has joined the room of a vault and stays connected receives every execution of it that the
indexer stores from then on (`received_all`), unless a tick fails between storing rows and reading them
back: these rows are not handed over, and the next tick finds them stored.
-/

set_option autoImplicit false

namespace StrategyBuilder.Indexer.ExecutionsGateway

open StrategyBuilder.Backend
open StrategyBuilder.Backend.VaultOwners
open StrategyBuilder.Lib
open StrategyBuilder.Lib.Js
open StrategyBuilder.Lib.Transition

/-! ## Nothing is missed -/

/-- The client is connected only if it was, and has lost nothing then. -/
structure Client.Follows (c c' : Client) : Prop where
  connected : c'.connected = true → c.connected = true
  rooms : c'.connected = true → ∀ r ∈ c.rooms, r ∈ c'.rooms
  received : ∀ d ∈ c.received, d ∈ c'.received

/-- As long as the client is connected, it is in the room of the vault and has all rows of it that were
not there before, but the ones to be sent yet. -/
def Client.UpToDate (c : Client) (w : World) (address vaultId : String)
    (before : Table ExecutionRow ExecutionRow.key) : Prop :=
  c.connected = true → room address ∈ c.rooms ∧ ∀ row ∈ w.executions, row ∉ before →
    row.vaultId = vaultId → row.key ∈ w.tick.unsent ∨ ⟨address, row⟩ ∈ c.received

/-- A tick does not fail between storing rows and reading them back. -/
def Uninterrupted (w : World) (l : Label) : Prop := l = .endTick → w.tick.unsent = []

section Complete

variable {env : Env} {w : World} {k : Nat} {c : Client}

theorem Client.Follows.refl (c : Client) : c.Follows c := ⟨id, fun _ _ hr => hr, fun _ hd => hd⟩

/-- An answered subscription loses nothing that was received. -/
theorem follows_answered (c : Client) (env : Env) (result : Except HttpError VaultRow) :
    c.Follows (c.answered env result) := by
  rw [Client.answered]
  split
  · cases joins env result with
    | none => exact ⟨id, fun _ _ hr => hr, fun _ hd => hd⟩
    | some r => exact ⟨id, fun _ _ hr => List.mem_append_left _ hr, fun _ hd => hd⟩
  · exact .refl c

theorem follows_gone (c : Client) : c.Follows c.gone :=
  ⟨fun h => (nomatch h), fun h => (nomatch h), fun _ hd => hd⟩

/-- A delivery loses nothing that was received. -/
theorem follows_deliver (c : Client) (address : String) (executions : List ExecutionRow) :
    c.Follows (c.deliver address executions) := by
  rw [Client.deliver]
  split
  · exact ⟨id, fun _ _ hr => hr, fun _ hd => List.mem_append_left _ hd⟩
  · exact .refl c

theorem Client.Follows.trans {c' c'' : Client} (h : c.Follows c') (h' : c'.Follows c'') :
    c.Follows c'' :=
  ⟨fun hc => h.connected (h'.connected hc),
    fun hc r hr => h'.rooms hc r (h.rooms (h'.connected hc) r hr),
    fun d hd => h'.received d (h.received d hd)⟩

/-- Nor does a change of one socket. -/
theorem setClient_follows (hc : w.clients k = some c) {j : Nat} {c₁ c₂ : Client}
    (hj : w.clients j = some c₁) (h : c₁.Follows c₂) :
    ∃ c', (w.setClient j c₂).clients k = some c' ∧ c.Follows c' := by
  by_cases hk : k = j
  · subst hk
    obtain rfl : c₁ = c := Option.some.inj (hj.symm.trans hc)
    exact ⟨c₂, w.setClient_self c₂, h⟩
  · exact ⟨c, (w.setClient_of_ne c₂ hk).trans hc, .refl c⟩

/-- Nor do all broadcasts of a tick. -/
theorem emitAll_follows (hc : w.clients k = some c) (groups : List (String × List ExecutionRow)) :
    ∃ c', (emitAll env groups w).clients k = some c' ∧ c.Follows c' := by
  induction groups generalizing w c with
  | nil => exact ⟨c, hc, .refl c⟩
  | cons g rest ih =>
    rw [emitAll, emitNewExecutions]
    cases env.getAddress g.1 with
    | none => exact ⟨c, hc, .refl c⟩
    | some address =>
      obtain ⟨c', hc', hfollows⟩ := ih (w := { w with
        clients := fun k => (w.clients k).map fun c => c.deliver address g.2 })
        (congrArg (Option.map fun c => c.deliver address g.2) hc)
      exact ⟨c', hc', (follows_deliver c address g.2).trans hfollows⟩

/-- A step takes nothing from a client that stays. -/
theorem step_follows (env : Env) (hc : w.clients k = some c) (l : Label) :
    ∃ c', (step env w l).clients k = some c' ∧ c.Follows c' := by
  have hsame : ∃ c', w.clients k = some c' ∧ c.Follows c' := ⟨c, hc, .refl c⟩
  cases l with
  -- a new connection takes no place that is taken
  | connect j verified =>
    cases hj : w.clients j with
    | some c₁ =>
      simp only [step, handleConnection, hj]
      exact hsame
    | none =>
      have hne : k ≠ j := by
        rintro rfl
        rw [hc] at hj
        cases hj
      simp only [step, handleConnection, hj]
      cases verified with
      | some sub => exact ⟨c, (w.setClient_of_ne _ hne).trans hc, .refl c⟩
      | none => exact ⟨c, (w.setClient_of_ne _ hne).trans hc, .refl c⟩
  | subscribe j vaultAddress answered =>
    rw [step, onSubscribe]
    split
    · exact hsame
    · split
      · exact hsame
      · exact hsame
  -- rooms and answers are only added
  | join i =>
    rw [step, onJoin]
    split
    · exact hsame
    · rename_i j result _
      split
      · exact hsame
      · rename_i c₁ hj
        exact setClient_follows hc hj (follows_answered c₁ env result)
  | disconnect j =>
    rw [step]
    split
    · exact hsame
    · rename_i c₁ hj
      exact setClient_follows hc hj (follows_gone c₁)
  | database call => exact hsame
  | findVaults =>
    rw [step]
    split
    · exact hsame
    · exact hsame
  | findExisting rows => exact hsame
  | transaction =>
    rw [step]
    split
    · exact hsame
    · exact hsame
  -- the only step that sends events
  | findCreated created =>
    rw [step]
    split
    · rename_i entries keys _
      split
      · have hscanning : ({ w with tick := .scanning entries } : World).clients k = some c := hc
        exact emitAll_follows hscanning _
      · exact hsame
    · exact hsame
  | endTick => exact hsame
  | restart => exact ⟨c.gone, congrArg (Option.map Client.gone) hc, follows_gone c⟩

/-- What a step does to the rows and to what is still to be sent. -/
theorem step_rows (env : Env) {l : Label} (hl : Uninterrupted w l) :
    ((step env w l).executions = w.executions ∧
        ∀ key ∈ w.tick.unsent, key ∈ (step env w l).tick.unsent) ∨
      l = .restart ∨ (l = .transaction ∧ ∃ entries newRows, w.tick = .found entries newRows) ∨
      ∃ created entries keys, l = .findCreated created ∧ w.tick = .stored entries keys ∧
        created.Perm (w.executions.rows.filter fun r => keys.contains r.key) := by
  cases l with
  -- connections and rooms touch neither the rows nor the tick
  | connect j verified =>
    left
    cases hj : w.clients j with
    | some c =>
      simp only [step, handleConnection, hj]
      exact ⟨trivial, fun _ hkey => hkey⟩
    | none =>
      cases verified with
      | some sub => simp only [step, handleConnection, hj]; exact ⟨rfl, fun _ hkey => hkey⟩
      | none => simp only [step, handleConnection, hj]; exact ⟨rfl, fun _ hkey => hkey⟩
  | subscribe j vaultAddress answered =>
    left
    rw [step, onSubscribe]
    split
    · exact ⟨rfl, fun _ hkey => hkey⟩
    · split
      · exact ⟨rfl, fun _ hkey => hkey⟩
      · exact ⟨rfl, fun _ hkey => hkey⟩
  | join i =>
    left
    rw [step, onJoin]
    split
    · exact ⟨rfl, fun _ hkey => hkey⟩
    · split
      · exact ⟨rfl, fun _ hkey => hkey⟩
      · exact ⟨rfl, fun _ hkey => hkey⟩
  | disconnect j =>
    left
    rw [step]
    split
    · exact ⟨rfl, fun _ hkey => hkey⟩
    · exact ⟨rfl, fun _ hkey => hkey⟩
  | database call => exact .inl ⟨rfl, fun _ hkey => hkey⟩
  -- a tick begins only when none is under way, so nothing is lost
  | findVaults =>
    left
    rw [step]
    split
    · rename_i hidle _
      refine ⟨rfl, fun key hkey => ?_⟩
      rw [hidle] at hkey
      cases hkey
    · exact ⟨rfl, fun _ hkey => hkey⟩
  -- where keys are still to be sent, the tick is past this read
  | findExisting rows =>
    left
    refine ⟨rfl, fun key hkey => ?_⟩
    cases htick : w.tick with
    | stored entries keys =>
      rw [step, htick]
      rwa [htick] at hkey
    | idle =>
      rw [htick] at hkey
      cases hkey
    | scanning entries =>
      rw [htick] at hkey
      cases hkey
    | found entries newRows =>
      rw [htick] at hkey
      cases hkey
  -- the exceptions: the rows are written, or what has been created is sent
  | transaction =>
    rw [step]
    split
    · rename_i entries newRows htick
      exact .inr (.inr (.inl ⟨rfl, entries, newRows, htick⟩))
    · exact .inl ⟨rfl, fun _ hkey => hkey⟩
  | findCreated created =>
    rw [step]
    split
    · rename_i entries keys htick
      split
      · rename_i hperm
        exact .inr (.inr (.inr ⟨created, entries, keys, rfl, htick, hperm⟩))
      · exact .inl ⟨rfl, fun _ hkey => hkey⟩
    · exact .inl ⟨rfl, fun _ hkey => hkey⟩
  -- `Uninterrupted`: a tick ends with nothing left to send
  | endTick =>
    left
    refine ⟨rfl, fun key hkey => ?_⟩
    rw [hl rfl] at hkey
    cases hkey
  | restart => exact .inr (.inl rfl)

/-- The rows of the vault that were stored come to a client in its room. -/
theorem mem_share_of_stored (h : Sound env w) {entries : List (String × String)}
    {keys : List (String × Nat)} (htick : w.tick = .stored entries keys) {created : List ExecutionRow}
    (hperm : created.Perm (w.executions.rows.filter fun r => keys.contains r.key)) {v : VaultRow}
    (hv : v ∈ w.db.vaults) (hconnected : c.connected = true) (hroom : room v.address ∈ c.rooms)
    {row : ExecutionRow} (hrow : row ∈ w.executions) (hkey : row.key ∈ keys)
    (hid : row.vaultId = v.id) : ⟨v.address, row⟩ ∈ c.share (byVault entries created) := by
  have hcreated : row ∈ created :=
    hperm.mem_iff.2 (List.mem_filter.2 ⟨hrow, List.contains_iff_mem.2 hkey⟩)
  have hentries := h.entries
  have hknown := h.known row hrow
  rw [htick] at hentries hknown
  obtain ⟨e, he, hevault⟩ := hknown hkey
  -- the entry that is looked up is of the vault, and so has its address
  cases hfind : entries.find? fun e => e.2 = row.vaultId with
  | none => exact absurd (decide_eq_true hevault) (List.find?_eq_none.1 hfind e he)
  | some e' =>
    have heid := List.find?_some hfind
    rw [decide_eq_true_iff] at heid
    obtain ⟨v', hv', haddress, hid'⟩ := hentries e' (List.mem_of_find?_eq_some hfind)
    obtain rfl : v' = v := Table.eq_of_key hv' hv (hid'.trans (heid.trans hid))
    refine mem_share.2 ⟨hconnected, hroom, mem_deliveries.2 ⟨(e'.1, created.filter fun r =>
      r.vaultId = row.vaultId), ?_, haddress, List.mem_filter.2 ⟨hcreated, decide_eq_true rfl⟩⟩⟩
    refine List.mem_filterMap.2 ⟨row.vaultId, mem_distinct.2 (List.mem_map_of_mem hcreated), ?_⟩
    rw [hfind]
    rfl

/-- A step keeps a socket up to date, while nothing interrupts it. -/
theorem step_upToDate (h : Sound env w) {v : VaultRow} (hv : v ∈ w.db.vaults)
    {before : Table ExecutionRow ExecutionRow.key} (hc : w.clients k = some c)
    (hup : c.UpToDate w v.address v.id before) {l : Label} (hl : Uninterrupted w l) :
    ∃ c', (step env w l).clients k = some c' ∧
      c'.UpToDate (step env w l) v.address v.id before := by
  obtain ⟨c', hc', hfollows⟩ := step_follows env hc l
  rcases step_rows env hl with ⟨hrows, hunsent⟩ | rfl | ⟨rfl, entries, newRows, htick⟩ |
    ⟨created, entries, keys, rfl, htick, hperm⟩
  · refine ⟨c', hc', fun hconnected => ?_⟩
    obtain ⟨hroom, hall⟩ := hup (hfollows.connected hconnected)
    refine ⟨hfollows.rooms hconnected _ hroom, fun row hrow hnew hid => ?_⟩
    rw [hrows] at hrow
    rcases hall row hrow hnew hid with hkey | hd
    · exact .inl (hunsent _ hkey)
    · exact .inr (hfollows.received _ hd)
  · exact ⟨c.gone, congrArg (Option.map Client.gone) hc, fun hconnected => nomatch hconnected⟩
  · have hstep : step env w .transaction = { w with
        executions := w.executions.insertMany (newRows.map (executionRow entries))
        tick := .stored entries (newRows.map fun r => r.2.key) } := by
      rw [step, htick]
    rw [hstep]
    refine ⟨c, hc, fun hconnected => ?_⟩
    obtain ⟨hroom, hall⟩ := hup hconnected
    refine ⟨hroom, fun row hrow hnew hid => ?_⟩
    rcases Table.mem_of_mem_insertMany hrow with hrow | hrow
    · -- nothing was to be sent before
      rcases hall row hrow hnew hid with hkey | hd
      · rw [htick] at hkey
        cases hkey
      · exact .inr hd
    · obtain ⟨r, hr, rfl⟩ := List.mem_map.1 hrow
      exact .inl (List.mem_map.2 ⟨r, hr, rfl⟩)
  · have hstep : step env w (.findCreated created) = { w with
        tick := .scanning entries
        clients := fun k => (w.clients k).map fun c => c.deliverAll (byVault entries created) } := by
      simp only [step, htick]
      rw [if_pos hperm, emitAll_eq (getAddress_byVault h htick)]
    rw [hstep]
    refine ⟨c.deliverAll (byVault entries created), congrArg (Option.map _) hc, fun hconnected => ?_⟩
    obtain ⟨hroom, hall⟩ := hup hconnected
    refine ⟨hroom, fun row hrow hnew hid => .inr ?_⟩
    rcases hall row hrow hnew hid with hkey | hd
    · rw [htick] at hkey
      exact List.mem_append_right _ (mem_share_of_stored h htick hperm hv hconnected hroom hrow hkey hid)
    · exact List.mem_append_left _ hd

/-- A broadcast leaves the tables. -/
theorem emitAll_db (groups : List (String × List ExecutionRow)) (w : World) :
    (emitAll env groups w).db = w.db := by
  induction groups generalizing w with
  | nil => rfl
  | cons g rest ih =>
    rw [emitAll, emitNewExecutions]
    cases env.getAddress g.1 with
    | none => rfl
    | some address => exact ih _

/-- A step keeps the vaults. -/
theorem step_vaultsKept (env : Env) (w : World) (l : Label) :
    VaultsKept env.getAddress w.db (step env w l).db := by
  have hsame : VaultsKept env.getAddress w.db w.db := .refl w.db
  cases l with
  | connect j verified =>
    simp only [step, handleConnection]
    cases w.clients j with
    | some c => exact hsame
    | none =>
      cases verified with
      | some sub => exact hsame
      | none => exact hsame
  | subscribe j vaultAddress answered =>
    rw [step, onSubscribe]
    split
    · exact hsame
    · split
      · exact hsame
      · exact hsame
  | join i =>
    rw [step, onJoin]
    split
    · exact hsame
    · split
      · exact hsame
      · exact hsame
  | disconnect j =>
    rw [step]
    split
    · exact hsame
    · exact hsame
  -- the one step that writes vaults
  | database call => exact call.run_kept env w.db
  | findVaults =>
    rw [step]
    split
    · exact hsame
    · exact hsame
  | findExisting rows => exact hsame
  | transaction =>
    rw [step]
    split
    · exact hsame
    · exact hsame
  | findCreated created =>
    rw [step]
    split
    · split
      · exact .of_eq (congrArg Database.vaults (emitAll_db _ _))
      · exact hsame
    · exact hsame
  | endTick => exact hsame
  | restart => exact hsame

/-- **A client that stays misses nothing.** From a reachable state in which a client is in the room of a
vault, over any run in which no tick fails after it has stored rows: if the client is still connected at
the end, it has received every execution of the vault that was stored in between. -/
theorem received_all (hchecksum : ∀ x y, env.getAddress x = some y → env.getAddress y = some y)
    {db : Database} (hdb : ∀ v ∈ db.vaults, env.getAddress v.address = some v.address)
    (executions : Table ExecutionRow ExecutionRow.key) (ls ls' : List Label)
    (hw : w = run (step env) (started db executions) ls)
    (hls' : Admitted (step env) Uninterrupted w ls') {v : VaultRow} (hv : v ∈ w.db.vaults)
    (hc : w.clients k = some c) (hroom : room v.address ∈ c.rooms) {w' : World} {c' : Client}
    (hw' : w' = run (step env) w ls') (hsent : w'.tick.unsent = []) (hc' : w'.clients k = some c')
    (hconnected : c'.connected = true) {row : ExecutionRow} (hrow : row ∈ w'.executions)
    (hnew : row ∉ w.executions) (hid : row.vaultId = v.id) : ⟨v.address, row⟩ ∈ c'.received := by
  have hsound : Sound env w := by
    rw [hw]
    exact run_invariant (I := Sound env) (fun w l h _ => step_sound hchecksum h l)
      (started_sound hdb) (admitted_true _ _ ls)
  -- the vault stays, and the client is up to date with it
  have hrun := run_invariant (I := fun s => Sound env s ∧
      (∃ v' ∈ s.db.vaults, v'.address = v.address ∧ v'.id = v.id) ∧
      ∃ c, s.clients k = some c ∧ c.UpToDate s v.address v.id w.executions)
    (fun s l h hl => by
      obtain ⟨hs, ⟨v', hv', haddress, hvid⟩, c₁, hc₁, hup⟩ := h
      rw [← haddress, ← hvid] at hup
      have hnext := step_upToDate hs hv' hc₁ hup hl
      rw [haddress, hvid] at hnext
      obtain ⟨v'', hv'', hvid', haddress', -⟩ := (step_vaultsKept env s l).kept v' hv'
      exact ⟨step_sound hchecksum hs l, ⟨v'', hv'', haddress'.trans haddress, hvid'.trans hvid⟩,
        hnext⟩)
    ⟨hsound, ⟨v, hv, rfl, rfl⟩, c, hc, fun _ => ⟨hroom, fun _ hold hnot => absurd hold hnot⟩⟩ hls'
  rw [← hw'] at hrun
  obtain ⟨-, -, c₁, hc₁, hup⟩ := hrun
  obtain rfl : c₁ = c' := Option.some.inj (hc₁.symm.trans hc')
  rcases (hup hconnected).2 row hrow hnew hid with hkey | hd
  · rw [hsent] at hkey
    cases hkey
  · exact hd

end Complete

theorem received_all_sample : ∃ c, sampleWorld'.clients 0 = some c ∧
    ⟨"0x3333333333333333333333333333333333333333", sampleRow⟩ ∈ c.received := by
  obtain ⟨c, hc, hrooms⟩ := Option.map_eq_some_iff.1
    (show (sampleWorld.clients 0).map Client.rooms =
      some [room "0x3333333333333333333333333333333333333333"] by decide)
  obtain ⟨c', hc', hconnected⟩ := Option.map_eq_some_iff.1
    (show (sampleWorld'.clients 0).map Client.connected = some true by decide)
  have hv : sampleVault "v1" "0x3333333333333333333333333333333333333333"
      "0x1111111111111111111111111111111111111111" ∈ sampleWorld.db.vaults := List.mem_cons_self ..
  have huninterrupted : Admitted (step sampleEnv) Uninterrupted sampleWorld sampleTick := by
    refine ⟨?_, ?_, ?_, ?_, trivial⟩
    all_goals exact fun h => by cases h
  have hrow : sampleRow ∈ sampleWorld'.executions := by
    rw [← Table.mem_rows]
    decide
  have hnew : sampleRow ∉ sampleWorld.executions := Table.notMem_empty sampleRow
  exact ⟨c', hc', received_all sampleEnv_checksum
    (fun _ _ => rfl) Table.empty sampleSubscriptions sampleTick rfl huninterrupted hv hc
    (hrooms ▸ List.mem_singleton_self _) rfl rfl hc' hconnected hrow hnew rfl⟩

end StrategyBuilder.Indexer.ExecutionsGateway
