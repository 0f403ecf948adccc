import PaymentRail.Hub.Synced

/-!
# SyncedRuns — the rail and the hub stay in step

`Synced` is kept by what happens around the call under way as well: by transactions that are mined,
revert or are dropped, by settlements, and by the transactions of others.  With the steps of the
calls this is an invariant of every run (`Rail.Ok.run`), and what happens to the hub is a run of the
contract (`hub_run`).
-/

namespace PaymentRail
namespace Hub

open Machine Strings Money Collections Refunds
open Escrow (SessionId TxHash Reply EscrowSession HubCall SessionsBounded)
open Settlement (Fate)
open Contracts (World transact Faithful)

/-! ## Transactions that are not mined -/

section Events

variable {net : Network} {hub : World} {store store' : Store} {p : Option Process}

/-- The chain has moved on, but nothing new was mined. -/
theorem Synced.fated (hs : Synced net hub store p) (haround : Around net hub hub store store')
    (hmined : ∀ hash, (store'.escrow.fateOf hash).isMined = (store.escrow.fateOf hash).isMined)
    (hpending : ∀ hash, store'.escrow.fateOf hash = .pending → store.escrow.fateOf hash = .pending)
    (hclosing : ∀ hash, store'.fateOf hash = .pending → store.fateOf hash = .pending) :
    Synced net hub store' p := by
  refine hs.around haround (hs.mirrors.moves (.of_same haround.find ?_) haround.settled) ?_
  · intro sid
    cases p with
    | none => rfl
    | some q =>
        have hpaid : paidOut store' q = paidOut store q := by
          cases q with
          | escrow q =>
              cases q with
              | waitPayOut release hash => exact hmined hash
              | _ => rfl
          | _ => rfl
        simp only [reservedBy, hpaid]
  · exact ⟨fun hash h => hs.waited.transactions hash (hpending hash h),
      fun hash h => hs.waited.closings hash (hclosing hash h)⟩

/-- A transaction of which the fate changes is still found, with its call. -/
theorem lookup_fated {escrow : Escrow.Store} {tx : Escrow.Transaction} (fate : Fate)
    (hlookup : Table.lookup Escrow.Transaction.hash escrow.transactions tx.hash = some tx)
    (hash : TxHash) (tx₁ : Escrow.Transaction)
    (h : Table.lookup Escrow.Transaction.hash escrow.transactions hash = some tx₁) :
    ∃ tx', Table.lookup Escrow.Transaction.hash
        (escrow.broadcast { tx with fate }).transactions hash = some tx' ∧ tx'.call = tx₁.call := by
  by_cases hhash : tx.hash = hash
  · subst hhash
    rw [hlookup] at h
    cases h
    exact ⟨_, Table.lookup_put_self _ _, rfl⟩
  · have hother : Table.lookup Escrow.Transaction.hash
        (escrow.broadcast { tx with fate }).transactions hash =
          Table.lookup Escrow.Transaction.hash escrow.transactions hash :=
      Table.lookup_put_of_ne _ _ hhash
    exact ⟨tx₁, hother.trans h, rfl⟩

theorem closing_fated {tx : ClosingTx} (fate : Fate)
    (hlookup : Table.lookup ClosingTx.hash store.closings tx.hash = some tx) (hash : TxHash)
    (tx₁ : ClosingTx) (h : Table.lookup ClosingTx.hash store.closings hash = some tx₁) :
    ∃ tx', Table.lookup ClosingTx.hash (store.broadcast { tx with fate }).closings hash = some tx' ∧
      tx'.escrowId = tx₁.escrowId ∧ (tx'.fate = tx₁.fate ∨ tx₁ = tx ∧ tx'.fate = fate) := by
  by_cases hhash : tx.hash = hash
  · subst hhash
    rw [hlookup] at h
    cases h
    exact ⟨_, Table.lookup_put_self _ _, rfl, Or.inr ⟨rfl, rfl⟩⟩
  · have hother : Table.lookup ClosingTx.hash (store.broadcast { tx with fate }).closings hash =
        Table.lookup ClosingTx.hash store.closings hash := Table.lookup_put_of_ne _ _ hhash
    exact ⟨tx₁, hother.trans h, rfl, Or.inl rfl⟩

/-- A fate that is not newly mined. -/
structure Unmined (before after : Fate) : Prop where
  isMined : after.isMined = before.isMined
  pending : after = .pending → before = .pending

theorem unmined_of_canBecome {before after : Fate} (h : before.canBecome after = true)
    (hmined : after.isMined = false ∨ before.isMined = true) : Unmined before after := by
  refine ⟨?_, ?_⟩
  · cases hold : before.isMined with
    | true => exact Fate.isMined_of_canBecome h hold
    | false =>
        rcases hmined with hnew | hnew
        · exact hnew
        · rw [hold] at hnew
          cases hnew
  · rintro rfl
    cases before with
    | pending => rfl
    | mined depth => simp [Fate.canBecome] at h
    | reverted => simp [Fate.canBecome] at h
    | dropped => simp [Fate.canBecome] at h

theorem Synced.evolve {tx : Escrow.Transaction} {fate : Fate} (hs : Synced net hub store p)
    (hlookup : Table.lookup Escrow.Transaction.hash store.escrow.transactions tx.hash = some tx)
    (hfate : Unmined tx.fate fate) :
    Synced net hub (store.withEscrow (store.escrow.broadcast { tx with fate })) p := by
  have hold := fateOf_of_lookup hlookup
  have haround : Around net hub hub store
      (store.withEscrow (store.escrow.broadcast { tx with fate })) :=
    { sessions := rfl
      claims := rfl
      settlements := rfl
      refunds := rfl
      transactions := lookup_fated fate hlookup
      closings := fun hash tx₁ h => ⟨tx₁, h, rfl, Or.inl⟩
      closed := fun _ _ hclosed => hclosed }
  refine hs.fated haround ?_ ?_ fun _ h => h
  · intro hash
    simp only [Store.withEscrow, fateOf_broadcast]
    split
    · rename_i hhash
      rw [← hhash, hold]
      exact hfate.isMined
    · rfl
  · intro hash hpending
    simp only [Store.withEscrow, fateOf_broadcast] at hpending
    split at hpending
    · rename_i hhash
      rw [← hhash, hold]
      exact hfate.pending hpending
    · exact hpending

theorem Synced.closing {tx : ClosingTx} {fate : Fate} (hs : Synced net hub store p)
    (hlookup : Table.lookup ClosingTx.hash store.closings tx.hash = some tx)
    (hfate : Unmined tx.fate fate) : Synced net hub (store.broadcast { tx with fate }) p := by
  have hold := closingFate_of_lookup hlookup
  have haround : Around net hub hub store (store.broadcast { tx with fate }) :=
    { sessions := rfl
      claims := rfl
      settlements := rfl
      refunds := rfl
      transactions := fun hash tx₁ h => ⟨tx₁, h, rfl⟩
      closings := by
        intro hash tx₁ h
        rcases closing_fated fate hlookup hash tx₁ h with ⟨tx', hlookup', hid, hsame | ⟨rfl, hnew⟩⟩
        · exact ⟨tx', hlookup', hid, fun hmined => Or.inl (by rw [← hsame]; exact hmined)⟩
        · exact ⟨tx', hlookup', hid, fun hmined => Or.inl (by rw [← hfate.isMined, ← hnew]; exact hmined)⟩
      closed := fun _ _ hclosed => hclosed }
  refine hs.fated haround (fun _ => rfl) (fun _ h => h) ?_
  intro hash hpending
  rw [closingFate_broadcast] at hpending
  split at hpending
  · rename_i hhash
    rw [← hhash, hold]
    exact hfate.pending hpending
  · exact hpending

end Events

/-! ## Transactions that are mined -/

section Mining

variable {net : Network} {hub hub' : World} {now depth : Nat} {accepts : Bool} {store : Store}
  {p : Option Process} {msg : Contracts.Msg} {call : Contracts.Call}

/-- A closed escrow stays closed. -/
theorem closed_of_transact (hfaithful : Faithful hub) (hnow : 0 < now)
    (h : transact net.hub now msg call accepts hub = some hub') (sid : SessionId)
    (hclosed : Closed net hub sid) : Closed net hub' sid := by
  rw [Closed, Network.escrow, Contracts.transact_closed hfaithful hnow h hclosed.1 hclosed.2]
  exact hclosed

/-- A payout is mined: the hub has spent what was reserved. -/
theorem mirrors_payout {release : Escrow.EscrowRelease} {hash : TxHash} {reserved' : SessionId → Int}
    (hfaithful : Faithful hub) (hnow : 0 < now)
    (hs : Synced net hub store (some (.escrow (.waitPayOut release hash))))
    (hunpaid : paidOut store (.escrow (.waitPayOut release hash)) = false)
    (h : net.execute now (.settleBatch release.escrowId release.id release.amount.wei) accepts hub =
      some hub') (hreserved : ∀ sid, reserved' sid = 0) : Mirrors net hub' store reserved' := by
  rcases (hs.process _ rfl).reserves _ _ rfl with ⟨session, hfind, _⟩
  simp only [Network.execute] at h
  split at h
  · rename_i msg call hencode
    rcases encode_settleBatch hencode with ⟨amount, hamount, rfl⟩
    have hspend := Contracts.transact_settleBatch hfaithful hnow h
    have hreservedBy : ∀ sid, reservedBy store (some (.escrow (.waitPayOut release hash))) sid =
        if release.escrowId = sid then release.amount.wei else 0 := by
      intro sid
      rw [reservedBy_of_some rfl, hunpaid]
      simp
    refine hs.mirrors.hubSteps (by rw [hfind]; rfl) ?_ ?_ ?_ ?_
    · intro k hk
      exact Contracts.transact_other hfaithful hnow h fun hEq => hk (Option.some.inj hEq).symm
    · rw [hreserved, hreservedBy, if_pos rfl, Network.escrow, Network.escrow, hspend,
        Contracts.EscrowSession.spend_spent]
      push_cast
      omega
    · intro k hk
      rw [hreserved, hreservedBy, if_neg (Ne.symm hk)]
    · intro stored hstored hcreated
      rw [Network.escrow, hspend] at hcreated ⊢
      exact hs.mirrors.deposit _ stored hstored hcreated
  · cases h

/-- The call of `open` or `close` is mined. -/
theorem mirrors_call {call : HubCall} {reserved : SessionId → Int} (hfaithful : Faithful hub)
    (hnow : 0 < now) (hmirrors : Mirrors net hub store reserved) (hcall : ForSession store call)
    (h : net.execute now call accepts hub = some hub') : Mirrors net hub' store reserved := by
  simp only [Network.execute] at h
  split at h
  · rename_i msg c hencode
    cases call with
    | openEscrow sid agentB budgetWei verificationRequired ttl depositWei =>
        rcases hcall with ⟨session, hfind, hdeposit⟩
        rcases encode_openEscrow hencode with ⟨payee, budget, ttl', _, hvalue, rfl⟩
        rcases Contracts.transact_openEscrow hfaithful hnow h with ⟨hfresh, hopened, hunspent⟩
        refine hmirrors.hubSteps (by rw [hfind]; rfl) ?_ ?_ (fun _ _ => rfl) ?_
        · intro k hk
          exact Contracts.transact_other hfaithful hnow h fun hEq => hk (Option.some.inj hEq).symm
        · -- nothing was spent before it was opened
          have hzero : hub.escrows (net.escrowIdHash sid) = Contracts.EscrowSession.unset := by
            rw [hfaithful.sessions] at hfresh ⊢
            exact Contracts.replay_unset hfaithful.legal hfresh
          rw [Network.escrow, Network.escrow, hunspent, hzero]
          rfl
        · intro stored hstored _
          rw [hfind] at hstored
          cases hstored
          rw [Network.escrow, hopened, hvalue, hdeposit]
    | closeEscrow sid =>
        cases hencode
        refine hmirrors.hubKeeps ?_
        intro k _
        -- closing changes neither what was spent nor the deposit
        by_cases hk : net.escrowIdHash k = net.escrowIdHash sid
        · rw [Network.escrow, Network.escrow, hk, Contracts.transact_closeEscrow hfaithful hnow h]
          exact ⟨rfl, rfl, rfl⟩
        · rw [Network.escrow, Network.escrow, Contracts.transact_other hfaithful hnow h
            fun hEq => hk (Option.some.inj hEq).symm]
          exact ⟨rfl, rfl, rfl⟩
    | settleBatch sid releaseId amountWei => exact hcall.elim
  · cases h

theorem execute_eq_some {call : HubCall} (h : net.execute now call accepts hub = some hub') :
    ∃ msg c, net.encode call = some (msg, c) ∧ transact net.hub now msg c accepts hub = some hub' := by
  simp only [Network.execute] at h
  split at h
  · rename_i msg c hencode
    exact ⟨msg, c, hencode, h⟩
  · cases h

theorem Synced.mine {tx : Escrow.Transaction} (hfaithful : Faithful hub) (hnow : 0 < now)
    (hs : Synced net hub store p)
    (hlookup : Table.lookup Escrow.Transaction.hash store.escrow.transactions tx.hash = some tx)
    (hpending : tx.fate = .pending) (h : net.execute now tx.call accepts hub = some hub') :
    Synced net hub' (store.withEscrow (store.escrow.broadcast { tx with fate := .mined depth })) p := by
  have hfate : store.escrow.fateOf tx.hash = .pending := (fateOf_of_lookup hlookup).trans hpending
  rcases Option.bind_eq_some_iff.1 (hs.waited.transactions tx.hash hfate) with ⟨q, rfl, hwaits⟩
  have hknows := (hs.process q rfl).knows
  rcases execute_eq_some h with ⟨msg, c, _, htransact⟩
  refine hs.around ?_ ?_ ?_
  · exact
      { sessions := rfl
        claims := rfl
        settlements := rfl
        refunds := rfl
        transactions := lookup_fated _ hlookup
        closings := fun hash tx₁ h => ⟨tx₁, h, rfl, Or.inl⟩
        closed := fun sid _ => closed_of_transact hfaithful hnow htransact sid }
  · -- the process waits for a payout, or for the call of `open` or `close`
    cases q with
    | escrow q =>
        cases q with
        | waitPayOut release hash =>
            cases hwaits
            rcases hknows with ⟨tx₁, hlookup₁, hcall⟩
            rw [hlookup] at hlookup₁
            cases hlookup₁
            rw [hcall] at h
            have hunpaid : paidOut store (.escrow (.waitPayOut release tx.hash)) = false := by
              rw [paidOut, hfate]
              rfl
            have hmirrors : Mirrors net hub' store fun _ => 0 :=
              mirrors_payout hfaithful hnow hs hunpaid h fun _ => rfl
            refine hmirrors.moves (.of_same (fun _ => rfl) ?_) fun _ => rfl
            intro sid
            -- once it is mined, the reservation counts as paid out
            rw [reservedBy_of_some rfl, paidOut]
            simp [Store.withEscrow, fateOf_broadcast, Fate.isMined]
        | waitCall session hash =>
            cases hwaits
            rcases hknows with ⟨tx₁, hlookup₁, hcall⟩
            rw [hlookup] at hlookup₁
            cases hlookup₁
            exact (mirrors_call hfaithful hnow hs.mirrors hcall h).moves
              (.of_same (fun _ => rfl) fun _ => rfl) fun _ => rfl
        | _ => cases hwaits
    | _ => cases hwaits
  · refine ⟨?_, fun hash hclosing => hs.waited.closings hash hclosing⟩
    -- the transaction itself is pending no longer
    intro hash hpending'
    simp only [Store.withEscrow, fateOf_broadcast] at hpending'
    split at hpending'
    · cases hpending'
    · exact hs.waited.transactions hash hpending'

theorem Synced.mineClosing {tx : ClosingTx} (hfaithful : Faithful hub) (hnow : 0 < now)
    (hs : Synced net hub store p)
    (hlookup : Table.lookup ClosingTx.hash store.closings tx.hash = some tx)
    (h : net.emergencyClose now tx.escrowId accepts hub = some hub') :
    Synced net hub' (store.broadcast { tx with fate := .mined depth }) p := by
  rcases Contracts.transact_emergencyClose hfaithful hnow h with ⟨hopen, hdeactivated⟩
  refine hs.around ?_ ?_ ?_
  · refine
      { sessions := rfl
        claims := rfl
        settlements := rfl
        refunds := rfl
        transactions := fun hash tx₁ h => ⟨tx₁, h, rfl⟩
        closings := ?_
        closed := fun sid _ => closed_of_transact hfaithful hnow h sid }
    intro hash tx₁ hlookup₁
    rcases closing_fated (.mined depth) hlookup hash tx₁ hlookup₁ with
      ⟨tx', hlookup', hid, hsame | ⟨rfl, _⟩⟩
    · exact ⟨tx', hlookup', hid, fun hmined => Or.inl (by rw [← hsame]; exact hmined)⟩
    · refine ⟨tx', hlookup', hid, fun _ => Or.inr ?_⟩
      rw [Closed, Network.escrow, hdeactivated]
      exact ⟨hopen, rfl⟩
  · have hkeeps : Mirrors net hub' store (reservedBy store p) := by
      refine hs.mirrors.hubKeeps ?_
      intro k _
      by_cases hk : net.escrowIdHash k = net.escrowIdHash tx.escrowId
      · rw [Network.escrow, Network.escrow, hk, hdeactivated]
        exact ⟨rfl, rfl, rfl⟩
      · rw [Network.escrow, Network.escrow, Contracts.transact_other hfaithful hnow h
          fun hEq => hk (Option.some.inj hEq).symm]
        exact ⟨rfl, rfl, rfl⟩
    refine hkeeps.moves (.of_same (fun _ => rfl) fun sid => ?_) fun _ => rfl
    cases p with
    | none => rfl
    | some q =>
        cases q with
        | _ => rfl
  · refine ⟨hs.waited.transactions, ?_⟩
    intro hash hpending
    rw [closingFate_broadcast] at hpending
    split at hpending
    · cases hpending
    · exact hs.waited.closings hash hpending

/-- Others deal with other escrows. -/
theorem Synced.others (hfaithful : Faithful hub) (hnow : 0 < now) (hs : Synced net hub store p)
    (hcall : ∀ session ∈ store.escrow.sessions, call.escrowId? ≠ some (net.escrowIdHash session.id))
    (h : transact net.hub now msg call accepts hub = some hub') : Synced net hub' store p := by
  have hsame : ∀ sid, (store.escrow.find sid).isSome = true →
      net.escrow hub' sid = net.escrow hub sid := by
    intro sid hsome
    rcases Option.isSome_iff_exists.1 hsome with ⟨session, hfind⟩
    have hother := hcall session (Escrow.Store.mem_of_find hfind)
    rw [Escrow.Store.id_of_find hfind] at hother
    exact Contracts.transact_other hfaithful hnow h hother
  refine hs.around ?_ (hs.mirrors.hubKeeps ?_) hs.waited
  · exact
      { sessions := rfl
        claims := rfl
        settlements := rfl
        refunds := rfl
        transactions := fun hash tx₁ h => ⟨tx₁, h, rfl⟩
        closings := fun hash tx₁ h => ⟨tx₁, h, rfl, Or.inl⟩
        closed := fun sid _ => closed_of_transact hfaithful hnow h sid }
  · intro sid hsome
    rw [hsame sid hsome]
    exact ⟨rfl, rfl, rfl⟩

end Mining

/-! ## Settlements -/

section Settlements

variable {net : Network} {hub hub' : World} {now : Nat} {accepts : Bool} {store : Store}
  {row : SettlementRow}

/-- A row takes the place of one that does not count. -/
theorem settled_saveSettlement
    (h : ∀ other ∈ store.settlements, other.id = row.id → other.status ≠ .settled) (sid : SessionId) :
    (store.saveSettlement row).settled sid = store.settled sid +
      if row.escrowId = sid ∧ row.status = .settled then row.totalAmount.wei else 0 := by
  have hrest : (Table.drop SettlementRow.id store.settlements row.id).filter
      (fun other => other.escrowId = sid ∧ other.status = .settled) =
        store.settlements.filter fun other => other.escrowId = sid ∧ other.status = .settled := by
    rw [Table.drop, List.filter_filter]
    refine List.filter_congr ?_
    intro other hother
    by_cases hid : other.id = row.id
    · simp [h other hother hid]
    · simp [hid]
  rw [Store.settled, Store.saveSettlement, Table.put, List.filter_cons]
  split
  · rename_i hcounts
    rw [List.map_cons, List.sum_cons, hrest, if_pos (of_decide_eq_true hcounts), Store.settled]
    exact add_comm _ _
  · rename_i hcounts
    have hnot : ¬ (row.escrowId = sid ∧ row.status = .settled) := by simpa using hcounts
    rw [hrest, if_neg hnot, Store.settled, add_zero]

theorem Synced.settlement (hs : Synced net hub store none)
    (h : ∀ other ∈ store.settlements, other.id = row.id → other.status ≠ .settled)
    (hstatus : row.status ≠ .settled) : Synced net hub (store.saveSettlement row) none where
  rows := hs.rows.keeps rfl (.of_same rfl)
  bounded := hs.bounded
  mirrors := by
    refine hs.mirrors.moves (.of_same (fun _ => rfl) fun _ => rfl) ?_
    intro sid
    rw [settled_saveSettlement h, if_neg fun hcounts => hstatus hcounts.2, add_zero]
  waited := ⟨hs.waited.transactions, hs.waited.closings⟩
  process := by
    intro q hq
    cases hq

theorem settleBatch_eq_some {receiptsHash : Contracts.Bytes32}
    (h : net.settleBatch now row receiptsHash accepts hub = some hub') :
    ∃ amount : Nat, (amount : Int) = row.totalAmount.wei ∧
      transact net.hub now { sender := net.wallet, value := 0 }
        (.settleBatch (net.escrowIdHash row.escrowId) receiptsHash amount) accepts hub = some hub' := by
  simp only [Network.settleBatch] at h
  split at h
  · rename_i amount hamount
    exact ⟨amount, uint256_eq_some hamount, h⟩
  · cases h

theorem Synced.settle {receiptsHash : Contracts.Bytes32} (hfaithful : Faithful hub) (hnow : 0 < now)
    (hs : Synced net hub store none) (hstored : (store.escrow.find row.escrowId).isSome = true)
    (hrows : ∀ other ∈ store.settlements, other.id = row.id → other.status ≠ .settled)
    (h : net.settleBatch now row receiptsHash accepts hub = some hub') :
    Synced net hub' (store.saveSettlement { row with status := .settled }) none := by
  rcases settleBatch_eq_some h with ⟨amount, hwei, htransact⟩
  have hspend := Contracts.transact_settleBatch hfaithful hnow htransact
  have hsettled : ∀ sid, (store.saveSettlement { row with status := .settled }).settled sid =
      store.settled sid + if row.escrowId = sid then row.totalAmount.wei else 0 := by
    intro sid
    let saved : SettlementRow := { row with status := .settled }
    have hsaved : ∀ other ∈ store.settlements, other.id = saved.id → other.status ≠ .settled := hrows
    rw [settled_saveSettlement hsaved]
    simp [saved]
  have hother : ∀ sid, row.escrowId ≠ sid → (store.escrow.find sid).isSome = true →
      net.escrow hub' sid = net.escrow hub sid := by
    intro sid hne hsome
    refine Contracts.transact_other hfaithful hnow htransact ?_
    intro hEq
    exact hne (hs.mirrors.apart row.escrowId sid hstored hsome (Option.some.inj hEq))
  refine ⟨hs.rows.keeps rfl (.of_same rfl), hs.bounded, ⟨hs.mirrors.apart, ?_, ?_, ?_⟩,
    ⟨hs.waited.transactions, hs.waited.closings⟩, fun q hq => by cases hq⟩
  · intro sid hnone
    have hne : row.escrowId ≠ sid := by
      rintro rfl
      have hfind : store.escrow.find row.escrowId = none := hnone
      rw [hfind] at hstored
      cases hstored
    rw [hsettled, if_neg hne, add_zero]
    exact hs.mirrors.unsettled sid hnone
  · intro sid session hsession
    have hold := hs.mirrors.spent sid session hsession
    rw [hsettled]
    by_cases hid : row.escrowId = sid
    · subst hid
      rw [if_pos rfl, Network.escrow, hspend, Contracts.EscrowSession.spend_spent]
      rw [Network.escrow] at hold
      simp only [reservedBy] at hold ⊢
      push_cast
      omega
    · rw [if_neg hid, add_zero, hother sid hid (Option.isSome_iff_exists.2 ⟨session, hsession⟩)]
      exact hold
  · intro sid session hsession hcreated
    by_cases hid : row.escrowId = sid
    · subst hid
      rw [Network.escrow, hspend] at hcreated ⊢
      exact hs.mirrors.deposit _ session hsession hcreated
    · rw [hother sid hid (Option.isSome_iff_exists.2 ⟨session, hsession⟩)] at hcreated ⊢
      exact hs.mirrors.deposit sid session hsession hcreated

end Settlements

/-! ## The rail -/

/-- No call is under way, or `p` is, and it is the only one. -/
def Alone (c : State) : Option Process → Prop
  | none => c.processes = []
  | some p => ∃ id, c.processes = [(id, p)]

structure Rail.Ok (net : Network) (r : Rail) : Prop where
  faithful : Faithful r.hub
  now : 0 < r.now
  synced : ∃ p, Alone r.calls p ∧ Synced net r.hub r.store p

section Rail

variable {net : Network} {cfg : Config} {r r' : Rail} {c : State} {id : CallId} {p : Process}
  {reply : Reply}

theorem alone_go {store : Store} {flow : Flow Process Answer}
    (h : c.processes = [] ∨ ∃ q, c.processes = [(id, q)]) :
    Alone (c.go id store flow) (waiting flow) := by
  have hdrop : Table.drop Prod.fst c.processes id = [] := by
    rcases h with h | ⟨q, h⟩
    · rw [h]
      rfl
    · rw [h]
      simp [Table.drop]
  cases flow with
  | await q => exact ⟨id, by rw [Calls.go, Table.put, hdrop]⟩
  | answer a => exact hdrop

theorem alone_process {k : CallId} {q : Process} (h : c.processes = [(k, q)])
    (hp : c.process id = some p) : id = k ∧ p = q := by
  by_cases hid : k = id
  · simp [Calls.process, Table.lookup, h, hid] at hp
    exact ⟨hid.symm, hp.symm⟩
  · simp [Calls.process, Table.lookup, h, hid] at hp

theorem unused_iff {sid : SessionId} (h : net.unused r sid = true) :
    (net.escrow r.hub sid).createdAt = 0 ∧ ∀ session ∈ r.store.escrow.sessions,
      net.escrowIdHash session.id ≠ net.escrowIdHash sid := by
  rcases Bool.and_eq_true_iff.1 h with ⟨hfresh, hall⟩
  exact ⟨of_decide_eq_true hfresh,
    fun session hsession => of_decide_eq_true (List.all_eq_true.1 hall session hsession)⟩

theorem unsettled_iff {row : SettlementRow} (h : Network.unsettled r row = true)
    (other : SettlementRow) (hother : other ∈ r.store.settlements) (hid : other.id = row.id) :
    other.status ≠ .settled := by
  rcases Bool.or_eq_true_iff.1 (List.all_eq_true.1 h other hother) with hne | hstatus
  · exact absurd hid (of_decide_eq_true hne)
  · exact of_decide_eq_true hstatus

theorem newOnHub_of_allows {q : Escrow.Process} (h : net.allows (.resume id reply) r = true)
    (hp : r.calls.process id = some (.escrow q)) : NewOnHub net r.hub r.store q reply := by
  cases q with
  | insertSession dto =>
      cases reply with
      | inserted new =>
          simp only [Network.allows, hp] at h
          exact unused_iff h
      | _ => trivial
  | commit session now limit =>
      simp only [Network.allows, hp] at h
      exact unused_iff h
  | _ => trivial

theorem dead_of_allows {message : String} {hash : TxHash}
    (h : net.allows (.resume id (.failed message)) r = true) (hp : r.calls.process id = some p) :
    (waitsFor p = some hash → (r.store.escrow.fateOf hash).live = false) ∧
      (waitsForClosing p = some hash → (r.store.fateOf hash).live = false) := by
  cases p with
  | escrow q =>
      refine ⟨fun hwaits => ?_, nofun⟩
      cases q with
      | waitCall session hash' =>
          cases hwaits
          simp only [Network.allows, hp] at h
          simpa using h
      | waitPayOut release hash' =>
          cases hwaits
          simp only [Network.allows, hp] at h
          simpa using h
      | _ => cases hwaits
  | refund caller sid stage =>
      refine ⟨nofun, fun hwaits => ?_⟩
      cases stage with
      | waitFor refund hash' =>
          cases hwaits
          simp only [Network.allows, hp] at h
          simpa using h
      | _ => cases hwaits
  | _ => exact ⟨nofun, nofun⟩

theorem alone_eq_none {p : Option Process} (h : Alone c p) (hempty : c.processes = []) : p = none := by
  cases p with
  | none => rfl
  | some q =>
      rcases h with ⟨k, hprocesses⟩
      rw [hempty] at hprocesses
      cases hprocesses

/-- The call that goes on is the one under way. -/
theorem alone_eq_some {q : Option Process} (h : Alone c q) (hp : c.process id = some p) :
    q = some p ∧ c.processes = [(id, p)] := by
  cases q with
  | none =>
      have hnone : c.process id = none := by
        rw [Calls.process, show c.processes = [] from h]
        rfl
      rw [hp] at hnone
      cases hnone
  | some q =>
      rcases h with ⟨k, hprocesses⟩
      rcases alone_process hprocesses hp with ⟨rfl, rfl⟩
      exact ⟨rfl, hprocesses⟩

theorem Synced.happens {e : Event} {store : Store} {q : Option Process}
    (hs : Synced net r.hub r.store q) (halone : Alone r.calls q) (h : Happens r.store e store)
    (hone : oneByOne (.external e) r.calls = true) (hallows : net.allows (.external e) r = true) :
    Synced net r.hub store q := by
  have hidle : r.calls.processes.isEmpty = true → q = none :=
    fun hempty => alone_eq_none halone (List.isEmpty_iff.1 hempty)
  cases h with
  | escrow hmark h =>
      cases h with
      | expireDue now =>
          rw [hidle hone] at hs ⊢
          exact hs.expireDue now
      | markRefunded sid refundedAt => exact absurd rfl (hmark sid refundedAt)
      | @evolve tx fate hlookup hbecome =>
          refine hs.evolve hlookup (unmined_of_canBecome hbecome ?_)
          rw [← fateOf_of_lookup hlookup]
          simpa [Network.allows] using hallows
      | _ =>
          -- the clock and the pauses are on neither side of the equation
          exact hs.fated ⟨rfl, rfl, rfl, rfl, fun _ tx h => ⟨tx, h, rfl⟩,
            fun _ tx h => ⟨tx, h, rfl, Or.inl⟩, fun _ _ hclosed => hclosed⟩
            (fun _ => rfl) (fun _ h => h) fun _ h => h
  | @settlement row =>
      rw [hidle hone] at hs ⊢
      rcases Bool.and_eq_true_iff.1 hallows with ⟨hstatus, hrows⟩
      exact hs.settlement (unsettled_iff hrows) (of_decide_eq_true hstatus)
  | @closing hash fate tx hlookup hbecomes honce =>
      obtain rfl : tx.hash = hash := Table.key_of_lookup hlookup
      refine hs.closing hlookup (unmined_of_canBecome hbecomes ?_)
      rw [← closingFate_of_lookup hlookup]
      simpa [Network.allows] using hallows

theorem Rail.Ok.moves {m : Move Request Reply Event} {calls : State}
    (hcfg : cfg.escrow.hubConfigured = true) (hr : r.Ok net) (hallows : net.allows m r = true)
    (h : oneByOneStep cfg m r.calls = some calls) : Rail.Ok net { r with calls } := by
  rcases guarded_eq_some.1 h with ⟨hone, hstep⟩
  rcases hr.synced with ⟨q, halone, hs⟩
  refine ⟨hr.faithful, hr.now, ?_⟩
  cases Service.steps_of_step hstep with
  | call id request hnew hunanswered =>
      have hempty : r.calls.processes = [] := List.isEmpty_iff.1 hone
      rw [alone_eq_none halone hempty] at hs
      refine ⟨_, alone_go (Or.inl hempty), ?_⟩
      rw [Rail.store, Calls.store_go]
      exact hs.start request
  | resume id p reply store flow hp hresume =>
      rcases alone_eq_some halone hp with ⟨rfl, hprocesses⟩
      refine ⟨_, alone_go (Or.inr ⟨p, hprocesses⟩), ?_⟩
      rw [Rail.store, Calls.store_go]
      refine hs.resumes hcfg hr.faithful (resumes_of_resume hresume) ?_ ?_ ?_
      · rintro q rfl
        exact newOnHub_of_allows hallows hp
      · rintro message hash rfl
        exact (dead_of_allows hallows hp).1
      · rintro message hash rfl
        exact (dead_of_allows hallows hp).2
  | external e store hexternal =>
      exact ⟨q, halone, hs.happens halone (happens_of_external hexternal) hone hallows⟩

theorem Rail.Ok.step (hcfg : cfg.escrow.hubConfigured = true) (hr : r.Ok net)
    (h : Acts net cfg r r') : r'.Ok net := by
  rcases hr.synced with ⟨q, halone, hs⟩
  cases h with
  | rail hallows h => exact hr.moves hcfg hallows h
  | mined hlookup hpending h =>
      rcases execute_eq_some h with ⟨msg, c, _, htransact⟩
      exact ⟨Contracts.transact_faithful hr.faithful hr.now htransact, hr.now, q, halone,
        hs.mine hr.faithful hr.now hlookup hpending h⟩
  | reverted hlookup hpending =>
      refine ⟨hr.faithful, hr.now, q, halone, hs.evolve hlookup ?_⟩
      rw [hpending]
      exact ⟨rfl, nofun⟩
  | minedClosing hlookup h =>
      exact ⟨Contracts.transact_faithful hr.faithful hr.now h, hr.now, q, halone,
        hs.mineClosing hr.faithful hr.now hlookup h⟩
  | revertedClosing hlookup hpending =>
      refine ⟨hr.faithful, hr.now, q, halone, hs.closing hlookup ?_⟩
      rw [hpending]
      exact ⟨rfl, nofun⟩
  | settled hidle hstored hunsettled h =>
      obtain rfl : q = none := alone_eq_none halone hidle
      rcases settleBatch_eq_some h with ⟨amount, _, htransact⟩
      exact ⟨Contracts.transact_faithful hr.faithful hr.now htransact, hr.now, none, halone,
        hs.settle hr.faithful hr.now hstored (unsettled_iff hunsettled) h⟩
  | others hsender hcall h =>
      exact ⟨Contracts.transact_faithful hr.faithful hr.now h, hr.now, q, halone,
        hs.others hr.faithful hr.now hcall h⟩
  | block hnow => exact ⟨hr.faithful, hr.now.trans hnow, q, halone, hs⟩

theorem Rail.Ok.start {hub : World} {now : Nat} (hfaithful : Faithful hub) (hnow : 0 < now) :
    (Rail.start hub now).Ok net := by
  have hmirrors : Mirrors net hub .empty fun _ => 0 := by
    refine ⟨?_, fun _ _ => rfl, ?_, ?_⟩
    · intro k l hk
      cases hk
    · intro sid session hsession
      cases hsession
    · intro sid session hsession
      cases hsession
  refine ⟨hfaithful, hnow, none, rfl, ?_, ?_, hmirrors, ⟨?_, ?_⟩, ?_⟩
  · intro sid refund hrow
    cases hrow
  · intro session hsession
    cases hsession
  · intro hash hpending
    cases hpending
  · intro hash hpending
    cases hpending
  · intro q hq
    cases hq

theorem Rail.Ok.run {acts : List Act} (hcfg : cfg.escrow.hubConfigured = true) (hr : r.Ok net)
    (h : run (net.step cfg) acts r = some r') : r'.Ok net :=
  run_invariant (fun _ _ _ hd hd' => hd.step hcfg (acts_of_step hd')) hr h

end Rail

end Hub
end PaymentRail
