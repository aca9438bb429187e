import StrategyBuilder.Indexer.Window

/-!
# The flow part of a window

Which logs a subscription makes flows of a vault (`LogSubscription.Matches`), the rows that are built of
them (`protocolFlowRows_of`), and the triples of the flow part: a subscription whose calls are answered
leaves a row of every flow in the range (`triple_indexSubscription`). The whole part never throws
(`triple_indexProtocolFlows`).
-/

set_option autoImplicit false

namespace StrategyBuilder.Indexer

open StrategyBuilder.Contracts
open StrategyBuilder.Lib
open StrategyBuilder.Lib.Async
open StrategyBuilder.Lib.Js

/-! ## Flows of a vault -/

/-- The subscription asks for the log, and the log names the address. -/
structure LogSubscription.Matches (sub : LogSubscription) (a : Address) (l : RawLog) : Prop where
  address : l.address = sub.address
  topic0 : ∃ topic, l.topics.head? = some topic ∧ lowerCase topic = lowerCase sub.topic0
  vaultTopic : ∃ topic, l.topics[sub.vaultTopicIndex]? = some topic ∧ isPaddedAddress topic a = true

/-- The node answers the logs that name a known vault. -/
theorem matches_iff {sub : LogSubscription} {V : VaultMap} {l : RawLog} :
    (l.address = sub.address && vaultTopicFilter sub (V.rows.map VaultEntry.address) l) = true ↔
      ∃ v ∈ V, sub.Matches v.address l := by
  rw [vaultTopicFilter]
  constructor
  · intro h
    rw [Bool.and_eq_true, Bool.and_eq_true, decide_eq_true_eq] at h
    obtain ⟨haddress, htopic0, hvault⟩ := h
    cases hhead : l.topics.head? with
    | none =>
      rw [hhead] at htopic0
      cases htopic0
    | some topic =>
      rw [hhead] at htopic0
      cases hindex : l.topics[sub.vaultTopicIndex]? with
      | none =>
        rw [hindex] at hvault
        cases hvault
      | some vaultTopic =>
        rw [hindex] at hvault
        obtain ⟨a, ha, hpadded⟩ := List.any_eq_true.1 hvault
        obtain ⟨v, hv, rfl⟩ := List.mem_map.1 ha
        exact ⟨v, hv, haddress, ⟨topic, hhead, of_decide_eq_true htopic0⟩,
          ⟨vaultTopic, hindex, hpadded⟩⟩
  · rintro ⟨v, hv, haddress, ⟨topic, hhead, htopic0⟩, ⟨vaultTopic, hindex, hpadded⟩⟩
    rw [Bool.and_eq_true, Bool.and_eq_true, hhead, hindex]
    refine ⟨decide_eq_true haddress, decide_eq_true htopic0, List.any_eq_true.2 ?_⟩
    exact ⟨v.address, List.mem_map_of_mem hv, hpadded⟩

/-- The row of a flow of the vault. -/
structure ProtocolFlowRow.IsOf (sub : LogSubscription) (v : VaultEntry) (l : RawLog)
    (r : ProtocolFlowRow) : Prop where
  log : sub.Matches v.address l
  draft : sub.toDraft l.topics l.data = .draft r.draft
  vaultAddress : r.vaultAddress = v.address
  txHash : r.txHash = l.transactionHash
  blockNumber : r.blockNumber = l.blockNumber
  logIndex : r.logIndex = l.index

section Rows

variable {sub : LogSubscription} {V : VaultMap} {blockTimestamps : Map Nat Nat}

/-- What becomes of a log that names a known vault. -/
theorem protocolFlowRow_eq {l : RawLog} {v : VaultEntry} {ts : Nat} (hv : v ∈ V)
    (hl : sub.Matches v.address l) (hts : blockTimestamps l.blockNumber = some ts) :
    protocolFlowRow sub V blockTimestamps l =
      match sub.toDraft l.topics l.data with
      | .thrown => none
      | .skipped => some []
      | .draft draft => some [⟨draft, v.address, l.transactionHash, l.blockNumber, l.index,
          ts * 1000⟩] := by
  -- the node has filtered the logs already, so the guards of the mapper skip none of them
  obtain ⟨topic, hhead, htopic0⟩ := hl.topic0
  obtain ⟨vaultTopic, hindex, hpadded⟩ := hl.vaultTopic
  have hhas : V.Has v.address := ⟨v, hv, rfl⟩
  rw [protocolFlowRow]
  cases sub.toDraft l.topics l.data with
  | thrown =>
    simp only [hhead, hindex, Option.getD_some, htopic0, ne_eq, not_true_eq_false, if_false,
      addressFromTopic_padded hpadded, hhas]
  | skipped =>
    simp only [hhead, hindex, Option.getD_some, htopic0, ne_eq, not_true_eq_false, if_false,
      addressFromTopic_padded hpadded, hhas]
  | draft draft =>
    simp only [hhead, hindex, Option.getD_some, htopic0, ne_eq, not_true_eq_false, if_false,
      addressFromTopic_padded hpadded, hhas, hts]

/-- The rows are those of the drafts; nothing is built where the decoder throws. -/
theorem protocolFlowRows_of {logs : List RawLog}
    (hlogs : ∀ l ∈ logs, ∃ v ∈ V, sub.Matches v.address l)
    (hts : ∀ l ∈ logs, ∃ ts, blockTimestamps l.blockNumber = some ts) :
    match buildProtocolFlowRows sub V blockTimestamps logs with
    | none => ∃ l ∈ logs, sub.toDraft l.topics l.data = .thrown
    | some rows =>
        (∀ r ∈ rows, ∃ l ∈ logs, ∃ v ∈ V, ProtocolFlowRow.IsOf sub v l r) ∧
          ∀ l ∈ logs, ∀ draft, sub.toDraft l.topics l.data = .draft draft →
            ∃ r ∈ rows, r.txHash = l.transactionHash ∧ r.logIndex = l.index := by
  induction logs with
  | nil =>
    constructor
    · intro r hr
      cases hr
    · intro l hl
      cases hl
  | cons l logs ih =>
    have ih := ih (fun k hk => hlogs k (List.mem_cons_of_mem _ hk))
      (fun k hk => hts k (List.mem_cons_of_mem _ hk))
    obtain ⟨v, hv, hl⟩ := hlogs l (List.mem_cons_self ..)
    obtain ⟨ts, htsl⟩ := hts l (List.mem_cons_self ..)
    rw [buildProtocolFlowRows]
    rw [protocolFlowRow_eq hv hl htsl]
    -- one log on which the decoder throws leaves no row of the others
    cases hrest : buildProtocolFlowRows sub V blockTimestamps logs with
    | none =>
      rw [hrest] at ih
      obtain ⟨k, hk, hthrown⟩ := ih
      cases hdraft : sub.toDraft l.topics l.data with
      | thrown => exact ⟨l, List.mem_cons_self .., hdraft⟩
      | skipped => exact ⟨k, List.mem_cons_of_mem _ hk, hthrown⟩
      | draft d => exact ⟨k, List.mem_cons_of_mem _ hk, hthrown⟩
    | some rows =>
      rw [hrest] at ih
      obtain ⟨hbuilt, hrow⟩ := ih
      have hbuilt' : ∀ r ∈ rows, ∃ k ∈ l :: logs, ∃ v ∈ V, ProtocolFlowRow.IsOf sub v k r := by
        intro r hr
        obtain ⟨k, hk, hof⟩ := hbuilt r hr
        exact ⟨k, List.mem_cons_of_mem _ hk, hof⟩
      cases hdraft : sub.toDraft l.topics l.data with
      | thrown => exact ⟨l, List.mem_cons_self .., hdraft⟩
      | skipped =>
        refine ⟨hbuilt', fun k hk d hd => ?_⟩
        rcases List.mem_cons.1 hk with rfl | hk
        · rw [hdraft] at hd
          cases hd
        · exact hrow k hk d hd
      | draft d =>
        constructor
        · intro r hr
          rcases List.mem_cons.1 hr with rfl | hr
          · exact ⟨l, List.mem_cons_self .., v, hv, hl, hdraft, rfl, rfl, rfl, rfl⟩
          · exact hbuilt' r hr
        · intro k hk d' hd'
          rcases List.mem_cons.1 hk with rfl | hk
          · exact ⟨_, List.mem_cons_self .., rfl, rfl⟩
          · obtain ⟨r, hr, hkey⟩ := hrow k hk d' hd'
            exact ⟨r, List.mem_cons_of_mem _ hr, hkey⟩

end Rows

/-! ## Triples -/

section

variable {cfg : Config} {H : History} {outside : Nat → Moment} {R : Nat → Prop}
  {P T S : World → Prop} {V : VaultMap} {range : BlockRange}

/-- A call that stores the flows of a range fails. -/
def StoreFails (outside : Nat → Moment) (R : Nat → Prop) (range : BlockRange) : Prop :=
  Fails outside R (.flow range .findMany) ∨ Fails outside R (.flow range .prices) ∨
    Fails outside R (.flow range .createMany)

/-- A log of the range that the subscription asks for: it names a known vault. -/
structure Asked (H : History) (V : VaultMap) (range : BlockRange) (sub : LogSubscription)
    (l : RawLog) : Prop where
  block : ∃ n, range.fromBlock ≤ n ∧ n ≤ range.toBlock ∧ l ∈ H.blocks n
  vault : ∃ v ∈ V, sub.Matches v.address l

/-- A log that is asked for keeps the subscription from being indexed: the timestamp of its block is not
read, the decoder throws on it, or the flows are not stored, of which it is one. -/
def DisturbedBy (outside : Nat → Moment) (R : Nat → Prop) (range : BlockRange) (sub : LogSubscription)
    (l : RawLog) : Prop :=
  Fails outside R (.flow range .getBlock) ∨
    (∃ i, R i ∧ (outside i).timestamp l.blockNumber = none) ∨
    sub.toDraft l.topics l.data = .thrown ∨
    (∃ draft, sub.toDraft l.topics l.data = .draft draft) ∧ StoreFails outside R range

/-- Something keeps a subscription from being indexed in a range: the call for its logs fails, or one of
these logs does. -/
def Disturbed (H : History) (V : VaultMap) (outside : Nat → Moment) (R : Nat → Prop)
    (range : BlockRange) (sub : LogSubscription) : Prop :=
  Fails outside R (.flow range .getLogs) ∨
    ∃ l, Asked H V range sub l ∧ DisturbedBy outside R range sub l

theorem asked_iff {sub : LogSubscription} {l : RawLog} : Asked H V range sub l ↔
    (∃ n, range.fromBlock ≤ n ∧ n ≤ range.toBlock ∧ l ∈ H.blocks n) ∧ ∃ v ∈ V, sub.Matches v.address l :=
  ⟨fun h => ⟨h.block, h.vault⟩, fun h => ⟨h.1, h.2⟩⟩

/-- To store flows, or to fail as the flow part may. -/
theorem triple_persistProtocolFlows {rows : List ProtocolFlowRow} (hP : Stable outside R P)
    (hstore : ∀ w (data : List FlowRow), (∀ r ∈ data, ∃ d ∈ rows, ∃ usd, r = flowOf V d usd) →
      P w → P { w with protocolFlows := w.protocolFlows.insertMany data })
    (hT : rows ≠ [] → StoreFails outside R range → ∀ w, P w → T w) (hS : ∀ w, P w → S w) :
    Triple outside R P (persistProtocolFlows range rows V)
      (fun _ w => P w ∧ ∀ d ∈ rows, w.protocolFlows.Has (d.txHash, d.logIndex)) T S := by
  rw [persistProtocolFlows]
  split
  · rename_i hnone
    apply Triple.pure
    intro w hw
    refine ⟨hw, fun d hd => ?_⟩
    rw [List.length_eq_zero_iff.1 hnone] at hd
    cases hd
  · rename_i hsome
    have hrows : rows ≠ [] := fun hnil => hsome (List.length_eq_zero_iff.2 hnil)
    apply triple_persistNew hP
    · intro w vaults
      rfl
    · intro d usd
      rfl
    · intro data keys hdata
      exact triple_store hP (fun _ _ => rfl) (fun _ _ => rfl) (fun _ w => hstore w data hdata)
        (fun hfails => hT hrows (Or.inr (Or.inr hfails))) hS
    -- the two calls before the write
    · rintro (hfails | hfails)
      · exact hT hrows (Or.inl hfails)
      · exact hT hrows (Or.inr (Or.inl hfails))
    · exact hS

/-- The row of a flow in the table. -/
def FlowRow.IsOf (V : VaultMap) (sub : LogSubscription) (l : RawLog) (r : FlowRow) : Prop :=
  ∃ v ∈ V, ∃ d usd, ProtocolFlowRow.IsOf sub v l d ∧ r = flowOf V d usd

/-- Every flow of the range has a row. -/
def FlowsStored (H : History) (V : VaultMap) (range : BlockRange) (sub : LogSubscription)
    (w : World) : Prop :=
  ∀ n, range.fromBlock ≤ n → n ≤ range.toBlock → ∀ l ∈ H.blocks n,
    (∃ v ∈ V, sub.Matches v.address l) →
      ∀ draft, sub.toDraft l.topics l.data = .draft draft →
        w.protocolFlows.Has (l.transactionHash, l.index)

/-- The logs of the range that the subscription asks for. -/
theorem triple_flowLogs {b : Nat} {sub : LogSubscription} (hP : Stable outside R P)
    (hR : ∀ i, R i → (outside i).Sees H b) (hto : range.toBlock ≤ b)
    (hT : Disturbed H V outside R range sub → ∀ w, P w → T w) (hS : ∀ w, P w → S w) :
    Triple outside R P
      (query (.flow range .getLogs) fun m _ => (logsIn m.blocks range).filter fun log =>
        log.address = sub.address && vaultTopicFilter sub (V.rows.map VaultEntry.address) log)
      (fun logs w => (∀ l, l ∈ logs ↔ Asked H V range sub l) ∧ P w) T S := by
  apply (triple_query hP (fun hfails => hT (Or.inl hfails)) hS).post
  rintro logs w ⟨hw, i, hi, rfl⟩
  refine ⟨fun l => ?_, hw⟩
  rw [List.mem_filter, mem_logsIn, matches_iff, asked_iff]
  refine and_congr_left fun _ => exists_congr fun n => and_congr_right fun _ => ?_
  refine and_congr_right fun hn => ?_
  rw [hR i hi n (Nat.le_trans hn hto)]

/-- The logs of one subscription are stored, or owed. -/
theorem triple_indexSubscription {b : Nat} {sub : LogSubscription} (hP : Stable outside R P)
    (hR : ∀ i, R i → (outside i).Sees H b) (hto : range.toBlock ≤ b)
    (hstore : ∀ w (data : List FlowRow),
      (∀ r ∈ data, ∃ n, ∃ l ∈ H.blocks n, r.IsOf V sub l) → P w →
        P { w with protocolFlows := w.protocolFlows.insertMany data })
    (hT : Disturbed H V outside R range sub → ∀ w, P w → T w) (hS : ∀ w, P w → S w) :
    Triple outside R P (indexSubscription range V sub)
      (fun _ w => P w ∧ FlowsStored H V range sub w) T S := by
  rw [indexSubscription]
  apply Triple.bind (triple_flowLogs hP hR hto hT hS)
  intro logs
  apply Triple.assume
  intro hlogs
  have hmatch : ∀ l ∈ logs, ∃ v ∈ V, sub.Matches v.address l := fun l hl => ((hlogs l).1 hl).vault
  split
  · rename_i hnone
    apply Triple.pure
    intro w hw
    refine ⟨hw, fun n hfrom hto l hl hv => ?_⟩
    have hmem := (hlogs l).2 ⟨⟨n, hfrom, hto, hl⟩, hv⟩
    rw [List.length_eq_zero_iff.1 hnone] at hmem
    cases hmem
  · apply Triple.bind (triple_resolveTimestamps hP ?_ hS)
    · intro blockTimestamps
      apply Triple.assume
      intro hts
      have hrows := protocolFlowRows_of hmatch fun l hl => hts _ (List.mem_map_of_mem hl)
      -- every log has its timestamp here, so a missing row is due to the decoder
      cases hbuild : buildProtocolFlowRows sub V blockTimestamps logs with
      | none =>
        rw [hbuild] at hrows
        obtain ⟨l, hl, hthrown⟩ := hrows
        exact Triple.throw (hT (Or.inr ⟨l, (hlogs l).1 hl, Or.inr (Or.inr (Or.inl hthrown))⟩))
      | some rows =>
        rw [hbuild] at hrows
        obtain ⟨hbuilt, hrow⟩ := hrows
        apply (triple_persistProtocolFlows hP ?_ ?_ hS).post
        · rintro - w ⟨hw, hstored⟩
          refine ⟨hw, fun n hfrom hto l hl hv draft hdraft => ?_⟩
          obtain ⟨r, hr, hhash, hindex⟩ := hrow l ((hlogs l).2 ⟨⟨n, hfrom, hto, hl⟩, hv⟩) draft hdraft
          rw [← hhash, ← hindex]
          exact hstored r hr
        · intro w data hdata hw
          refine hstore w data (fun r hr => ?_) hw
          obtain ⟨d, hd, usd, rfl⟩ := hdata r hr
          obtain ⟨l, hl, v, hv, hof⟩ := hbuilt d hd
          obtain ⟨n, -, -, hn⟩ := ((hlogs l).1 hl).block
          exact ⟨n, l, hn, v, hv, d, usd, hof, rfl⟩
        -- a row that is not stored is that of a log which is asked for
        · intro hne hfails
          obtain ⟨d, hd⟩ := List.exists_mem_of_ne_nil rows hne
          obtain ⟨l, hl, v, -, hof⟩ := hbuilt d hd
          exact hT (Or.inr ⟨l, (hlogs l).1 hl, Or.inr (Or.inr (Or.inr ⟨⟨_, hof.draft⟩, hfails⟩))⟩)
    · rintro ⟨n, hn, hno⟩
      obtain ⟨l, hl, rfl⟩ := List.mem_map.1 hn
      rcases hno with hfails | hmissing
      · exact hT (Or.inr ⟨l, (hlogs l).1 hl, Or.inl hfails⟩)
      · exact hT (Or.inr ⟨l, (hlogs l).1 hl, Or.inr (Or.inl hmissing)⟩)

/-- What a round adds: the answer of the source, or nothing where it throws. -/
def Answers (outside : Nat → Moment) (R : Nat → Prop) (source : Nat) (more : List LogSubscription) :
    Prop :=
  (∃ i, R i ∧ (outside i).logSubscriptions source = some more) ∨
    (more = [] ∧ (Fails outside R (.logSubscriptions source) ∨
      ∃ i, R i ∧ (outside i).logSubscriptions source = none))

/-- The subscriptions of one source. -/
theorem triple_addSubscriptions {subs : List LogSubscription} {source : Nat}
    {Q : List LogSubscription → World → Prop} (hP : Stable outside R P)
    (hanswer : ∀ more w, Answers outside R source more → P w → Q (subs ++ more) w)
    (hS : ∀ w, P w → S w) : Triple outside R P (addSubscriptions subs source) Q T S := by
  have hcall : Triple outside R P
      (await (.logSubscriptions source) fun m w =>
        (m.logSubscriptions source).map fun more => (more, w))
      (fun more w => Answers outside R source more ∧ P w)
      (fun w => Answers outside R source [] ∧ P w) S := by
    refine triple_keep hP (fun _ _ hw => hw.2) ?_ ?_
      (fun hfails w hw => ⟨Or.inr ⟨rfl, Or.inl hfails⟩, hw⟩) hS
    · intro i w more w' hi hw heq
      obtain ⟨more', hmore, heq⟩ := Option.map_eq_some_iff.1 heq
      cases heq
      exact ⟨Or.inl ⟨i, hi, hmore⟩, hw⟩
    · intro i w hi hw hnone
      exact ⟨Or.inr ⟨rfl, Or.inr ⟨i, hi, Option.map_eq_none_iff.1 hnone⟩⟩, hw⟩
  -- the handler goes on without the source
  rw [addSubscriptions]
  apply Triple.tryCatch (hcall.bind fun more => Triple.pure fun w hw => hanswer more w hw.1 hw.2)
  apply Triple.pure
  rintro w ⟨hskipped, hw⟩
  have hq := hanswer [] w hskipped hw
  rw [List.append_nil] at hq
  exact hq

/-- The subscriptions are resolved once: `K` says what is known of them while sources are left. -/
theorem triple_resolveFlowSubscriptions {K : List Nat → List LogSubscription → Prop}
    (hP : Stable outside R P) (hinit : K (List.range cfg.flowSources) [])
    (hstep : ∀ source rest subs more, Answers outside R source more → K (source :: rest) subs →
      K rest (subs ++ more))
    (hcached : ∀ w subs, P w → w.flowSubs = some subs → K [] subs)
    (hsubs : ∀ w subs, K [] subs → P w → P { w with flowSubs := some subs })
    (hS : ∀ w, P w → S w) :
    Triple outside R P (resolveFlowSubscriptions cfg) (fun subs w => K [] subs ∧ P w) T S := by
  rw [resolveFlowSubscriptions]
  apply Triple.bind (Triple.get (Q := fun w' w => w' = w ∧ P w) fun w hw => ⟨rfl, hw⟩)
  intro w'
  cases hflow : w'.flowSubs with
  -- resolved by an earlier tick
  | some subs =>
    apply Triple.pure
    rintro w ⟨rfl, hw⟩
    exact ⟨hcached w' subs hw hflow, hw⟩
  | none =>
    -- one source after the other; the result is stored only when all have answered
    apply Triple.bind ((Triple.foldlM (I := fun rest subs w => K rest subs ∧ P w) ?_).imp
      (fun w hw => ⟨hinit, hw.2⟩) fun subs w hw => hw)
    · intro subs
      apply Triple.bind (Triple.modify (Q := fun _ w => K [] subs ∧ P w) ?_)
      · intro
        exact Triple.pure fun w hw => hw
      · rintro w ⟨hK, hw⟩
        exact ⟨hK, hsubs w subs hK hw⟩
    · intro subs source rest
      apply Triple.assume
      intro hK
      apply triple_addSubscriptions hP
      · intro more w hmore hw
        exact ⟨hstep source rest subs more hmore hK, hw⟩
      · exact hS

theorem FlowsStored.insertMany {sub : LogSubscription} {w : World} {data : List FlowRow}
    (h : FlowsStored H V range sub w) :
    FlowsStored H V range sub { w with protocolFlows := w.protocolFlows.insertMany data } := by
  intro n hfrom hto l hl hv draft hdraft
  exact Table.has_insertMany.2 (Or.inl (h n hfrom hto l hl hv draft hdraft))

/-- The loop over the subscriptions. -/
theorem triple_indexSubscriptions {b : Nat} {subs : List LogSubscription}
    (hP : Stable outside R P) (hR : ∀ i, R i → (outside i).Sees H b) (hto : range.toBlock ≤ b)
    (hstore : ∀ w (data : List FlowRow),
      (∀ r ∈ data, ∃ sub ∈ subs, ∃ n, ∃ l ∈ H.blocks n, r.IsOf V sub l) → P w →
        P { w with protocolFlows := w.protocolFlows.insertMany data })
    (hT : (∃ sub ∈ subs, Disturbed H V outside R range sub) → ∀ w, P w → T w)
    (hS : ∀ w, P w → S w) :
    Triple outside R P (subs.forM (indexSubscription range V))
      (fun _ w => P w ∧ ∀ sub ∈ subs, FlowsStored H V range sub w) T S := by
  -- a subscription is still to come, or its flows are stored
  apply (Triple.forM (I := fun rest w => (∀ sub ∈ rest, sub ∈ subs) ∧
    (P w ∧ ∀ sub ∈ subs, sub ∈ rest ∨ FlowsStored H V range sub w)) ?_).imp
  · intro w hw
    exact ⟨fun sub h => h, hw, fun sub h => Or.inl h⟩
  · rintro - w ⟨-, hw, hall⟩
    exact ⟨hw, fun sub h => (hall sub h).resolve_left List.not_mem_nil⟩
  · intro sub rest
    apply Triple.assume
    intro hrest
    have hsub := hrest sub (List.mem_cons_self ..)
    apply (triple_indexSubscription
      (P := fun w => P w ∧ ∀ sub' ∈ subs, sub' ∈ sub :: rest ∨ FlowsStored H V range sub' w)
      ?_ hR hto ?_ (fun hd w hw => hT ⟨sub, hsub, hd⟩ w hw.1) (fun w hw => hS w hw.1)).post
    · rintro - w ⟨⟨hw, hall⟩, hstored⟩
      refine ⟨fun k hk => hrest k (List.mem_cons_of_mem _ hk), hw, fun k hk => ?_⟩
      rcases hall k hk with hmem | hk
      · rcases List.mem_cons.1 hmem with rfl | hmem
        · exact Or.inr hstored
        · exact Or.inl hmem
      · exact Or.inr hk
    · exact hP.and fun _ _ _ hw => hw
    · rintro w data hdata ⟨hw, hall⟩
      refine ⟨hstore w data (fun r hr => ⟨sub, hsub, hdata r hr⟩) hw, fun k hk => ?_⟩
      exact (hall k hk).imp_right FlowsStored.insertMany

/-- The flow part does not throw: the flows of all subscriptions are stored, or one of these was
disturbed. -/
theorem triple_indexProtocolFlows {b : Nat} {K : List Nat → List LogSubscription → Prop}
    (hP : Stable outside R P) (hR : ∀ i, R i → (outside i).Sees H b) (hto : range.toBlock ≤ b)
    (hinit : K (List.range cfg.flowSources) [])
    (hstep : ∀ source rest subs more, Answers outside R source more → K (source :: rest) subs →
      K rest (subs ++ more))
    (hcached : ∀ w subs, P w → w.flowSubs = some subs → K [] subs)
    (hsubs : ∀ w subs, K [] subs → P w → P { w with flowSubs := some subs })
    (hstore : ∀ w subs (data : List FlowRow), K [] subs →
      (∀ r ∈ data, ∃ sub ∈ subs, ∃ n, ∃ l ∈ H.blocks n, r.IsOf V sub l) → P w →
        P { w with protocolFlows := w.protocolFlows.insertMany data })
    (hS : ∀ w, P w → S w) :
    Triple outside R P (indexProtocolFlows cfg range V)
      (fun _ w => P w ∧ ∃ subs, K [] subs ∧ ((∀ sub ∈ subs, FlowsStored H V range sub w) ∨
        ∃ sub ∈ subs, Disturbed H V outside R range sub)) T S := by
  have hbody : Triple outside R P
      (do
        let subs ← resolveFlowSubscriptions cfg
        if subs.length = 0 then pure ()
        else if V.rows.length = 0 then pure ()
        else subs.forM (indexSubscription range V))
      (fun _ w => P w ∧ ∃ subs, K [] subs ∧ ((∀ sub ∈ subs, FlowsStored H V range sub w) ∨
        ∃ sub ∈ subs, Disturbed H V outside R range sub))
      (fun w => P w ∧ ∃ subs, K [] subs ∧ ∃ sub ∈ subs, Disturbed H V outside R range sub) S := by
    apply Triple.bind (triple_resolveFlowSubscriptions hP hinit hstep hcached hsubs hS)
    intro subs
    apply Triple.assume
    intro hK
    split
    · rename_i hnone
      apply Triple.pure
      intro w hw
      refine ⟨hw, subs, hK, Or.inl fun sub hsub => ?_⟩
      rw [List.length_eq_zero_iff.1 hnone] at hsub
      cases hsub
    · split
      · rename_i hnone
        apply Triple.pure
        intro w hw
        refine ⟨hw, subs, hK, Or.inl fun sub _ n _ _ l _ hv => ?_⟩
        obtain ⟨v, hv, -⟩ := hv
        have hmem := Table.mem_rows.2 hv
        rw [List.length_eq_zero_iff.1 hnone] at hmem
        cases hmem
      · apply (triple_indexSubscriptions (T := fun w => P w ∧ ∃ subs, K [] subs ∧
          ∃ sub ∈ subs, Disturbed H V outside R range sub) hP hR hto
          (fun w data => hstore w subs data hK) (fun hd w hw => ⟨hw, subs, hK, hd⟩) hS).post
        rintro - w ⟨hw, hall⟩
        exact ⟨hw, subs, hK, Or.inl hall⟩
  -- what is thrown ends here: the window goes on to its cursor
  apply hbody.tryCatch
  apply Triple.pure
  rintro w ⟨hw, subs, hK, hsub⟩
  exact ⟨hw, subs, hK, Or.inr hsub⟩

end

end StrategyBuilder.Indexer
