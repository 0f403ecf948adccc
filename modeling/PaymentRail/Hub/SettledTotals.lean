import PaymentRail.Hub.AccruedFees
import PaymentRail.Settlement.SettledPaid

/-!
# SettledTotals — what the ledger calls settled, the hub has spent

The settlement machine and the hub together, as in `AccruedFees`.  Every transaction of the rail that
is mined is in the history of the hub with its whole amount, and a settled row has one of its own.  So
the totals of the settled rows of an escrow are covered by what the hub has spent from it, whoever
else has spent from it, and never exceed its deposit (`settled_within_deposit`).
-/

namespace PaymentRail
namespace Contracts

/-! ## Histories that grow -/

section Suffix

variable {es es' : List Entry} {id : Bytes32}

theorem payouts_append (later es : List Entry) (id : Bytes32) :
    payouts id (later ++ es) = payouts id later + payouts id es := by
  rw [payouts, List.map_append, List.sum_append]
  rfl

theorem fees_append (later es : List Entry) (id : Bytes32) :
    fees id (later ++ es) = fees id later + fees id es := by
  rw [fees, List.map_append, List.sum_append]
  rfl

/-- What has been spent from an escrow stays spent. -/
theorem spent_of_suffix {w : World} (hw : Faithful w) (h : es <:+ w.ledger) (id : Bytes32) :
    payouts id es + fees id es ≤ (w.escrows id).spent := by
  rcases h with ⟨later, hledger⟩
  have hlegal := hw.legal
  rw [hw.sessions, ← payouts_add_fees hlegal id, ← hledger, payouts_append, fees_append]
  omega

theorem spent_le_of_history {w w' : World} (hw : Faithful w) (hw' : Faithful w')
    (h : w.ledger <:+ w'.ledger) (id : Bytes32) : (w.escrows id).spent ≤ (w'.escrows id).spent := by
  rw [hw.sessions, ← payouts_add_fees hw.legal id]
  exact spent_of_suffix hw' h id

end Suffix

end Contracts

namespace Hub

open Machine Strings Money Fees Collections Settlement
open Contracts (Address Bytes32 Msg World transactWith)

/-! ## Transactions of the rail -/

/-- What a transaction of the rail has spent from an escrow. -/
def spentOn (net : Chain) (store : Store) (key : Bytes32) (tx : Transaction) : Int :=
  if tx.fate.isMined = true ∧ (store.escrowOf tx.settlementId).map net.keccak256 = some key then
    tx.amountWei
  else
    0

/-- The hub has spent at least what the transactions of the rail say. -/
structure Covered (net : Chain) (policy : FeePolicy) (b : Books) : Prop where
  backed : Backed policy b
  copied : Copied b.rail
  spent : ∀ key, (b.rail.store.transactions.map (spentOn net b.rail.store key)).sum ≤
    ((b.hub.escrows key).spent : Int)

section Steps

variable {net : Chain} {cfg : Config} {b b' : Books}

theorem spentOn_nonneg {policy : FeePolicy} {store : Store} (hstore : BilledStore policy store)
    (key : Bytes32) {tx : Transaction} (htx : tx ∈ store.transactions) :
    0 ≤ spentOn net store key tx := by
  have hamount := nonneg_of_charges hstore (hstore.sent tx htx)
  unfold spentOn
  split
  · exact hamount
  · exact Int.le_refl _

theorem spentOn_pending (store : Store) (key : Bytes32) {tx : Transaction} (h : tx.fate = .pending) :
    spentOn net store key tx = 0 := by
  rw [spentOn, h]
  exact if_neg fun hmined => Bool.false_ne_true hmined.1

theorem spentOn_of_mined {store : Store} {tx : Transaction} {escrowId : Text}
    (hmined : tx.fate.isMined = true) (hescrow : store.escrowOf tx.settlementId = some escrowId)
    (key : Bytes32) :
    spentOn net store key tx = if net.keccak256 escrowId = key then tx.amountWei else 0 := by
  simp [spentOn, hmined, hescrow]

/-- A settlement keeps its escrow, so its transactions count for the same one. -/
theorem spentOn_continues {policy : FeePolicy} {store store' : Store}
    (hstore : BilledStore policy store) (hcontinues : Continues store store') (key : Bytes32)
    {tx : Transaction} (htx : tx ∈ store.transactions) :
    spentOn net store' key tx = spentOn net store key tx := by
  rcases hstore.sent tx htx with ⟨row, hrow, _⟩
  have hescrow : store.escrowOf tx.settlementId = some row.escrowId := by
    rw [Store.escrowOf, hrow]
    rfl
  rw [spentOn, spentOn, hescrow, hcontinues.escrow _ _ hescrow]

/-- Replacing a transaction by one that adds no more. -/
theorem sum_broadcast_le {store : Store} (f : Transaction → Int)
    (hkeyed : Table.Keyed Transaction.hash store.transactions) (tx : Transaction)
    (h : f tx ≤ (Table.lookup Transaction.hash store.transactions tx.hash).elim 0 f) :
    ((store.broadcast tx).transactions.map f).sum ≤ (store.transactions.map f).sum := by
  have hsum := Table.sum_put_add f hkeyed tx
  show ((Table.put Transaction.hash store.transactions tx).map f).sum ≤ _
  omega

/-- A step of the rail mines nothing. -/
theorem rail_spends_nothing {a : Settlement.Action} {rail : Settlement.State} (key : Bytes32)
    (hbilled : Billed cfg.policy b.rail) (hcopied : Copied b.rail)
    (hallows : Chain.allows b a = true) (h : Settlement.step cfg a b.rail = some rail) :
    (rail.store.transactions.map (spentOn net rail.store key)).sum ≤
      (b.rail.store.transactions.map (spentOn net b.rail.store key)).sum := by
  have hstore := hbilled.store
  have hcontinues : Continues b.rail.store rail.store := (step_copied hbilled hcopied h).1
  -- the old transactions count as before
  have hsame : b.rail.store.transactions.map (spentOn net rail.store key) =
      b.rail.store.transactions.map (spentOn net b.rail.store key) :=
    List.map_congr_left fun tx htx => spentOn_continues hstore hcontinues key htx
  have hnonneg : ∀ tx ∈ b.rail.store.transactions, 0 ≤ spentOn net rail.store key tx := by
    intro tx htx
    rw [spentOn_continues hstore hcontinues key htx]
    exact spentOn_nonneg hstore key htx
  rw [← hsame]
  cases Settlement.acts_of_step h with
  | @resume pid now reply p _ hp hresumes =>
      rcases resumes_transactions hresumes with hunchanged |
        ⟨caller, begun, entity, amountWei, hash, rfl, hbroadcast⟩
      · rw [hunchanged]
      · rw [hbroadcast] at hnonneg ⊢
        refine sum_broadcast_le _ hstore.hashes _ ?_
        rw [spentOn_pending _ key rfl]
        cases hlookup : Table.lookup Transaction.hash b.rail.store.transactions hash with
        | none => exact Int.le_refl _
        | some tx => exact hnonneg tx (Table.mem_of_lookup hlookup)
  | @evolve hash fate tx htx hbecome =>
      have hhash : tx.hash = hash := Table.key_of_lookup htx
      have hlookup : Table.lookup Transaction.hash b.rail.store.transactions tx.hash = some tx := by
        rw [hhash]
        exact htx
      refine sum_broadcast_le _ hstore.hashes { tx with fate } ?_
      show spentOn net _ key { tx with fate } ≤
        (Table.lookup Transaction.hash b.rail.store.transactions tx.hash).elim 0 _
      rw [hlookup]
      -- what is mined now was mined before
      cases hmined : fate.isMined with
      | false =>
          have hnothing : spentOn net (b.rail.store.broadcast { tx with fate }) key
              { tx with fate } = 0 := if_neg fun hboth => by simp [hmined] at hboth
          rw [hnothing]
          exact hnonneg tx (Table.mem_of_lookup htx)
      | true =>
          have hbefore : tx.fate.isMined = true := by
            simpa [Chain.allows, hmined, fateOf, htx] using hallows
          simp [spentOn, hmined, hbefore]
  | _ => exact Int.le_refl _

/-- A batch of the rail that is mined is spent from its escrow. -/
theorem settleBatch_spends {tx : Transaction} {callee : Option (List Contracts.Action)} {hub : World}
    (hbacked : Backed cfg.policy b) (depth : Nat) (key : Bytes32)
    (h : net.settleBatch b tx callee = some hub) :
    ((b.hub.escrows key).spent : Int) +
        spentOn net b.rail.store key { tx with fate := .mined depth } ≤ (hub.escrows key).spent := by
  simp only [Chain.settleBatch] at h
  split at h
  · rename_i row amount hrow hamount
    have htransacts := Contracts.transacts_of_transactWith h
    have hfaithful := hbacked.faithful
    have hfaithful' := htransacts.faithful hfaithful hbacked.now
    have hsuffix := htransacts.settleBatch hbacked.now
    have hspent := Contracts.spent_of_suffix hfaithful' hsuffix key
    have hescrow : b.rail.store.escrowOf tx.settlementId = some row.escrowId := by
      rw [Store.escrowOf, hrow]
      rfl
    have hbefore : Contracts.payouts key b.hub.ledger + Contracts.fees key b.hub.ledger =
        (b.hub.escrows key).spent := by
      rw [hfaithful.sessions]
      exact Contracts.payouts_add_fees hfaithful.legal key
    have hcons : ∀ payee payout fee, Contracts.payouts key
        (.paid (net.keccak256 row.escrowId) payee payout fee :: b.hub.ledger) +
          Contracts.fees key (.paid (net.keccak256 row.escrowId) payee payout fee :: b.hub.ledger) =
        (if net.keccak256 row.escrowId = key then payout + fee else 0) +
          (b.hub.escrows key).spent := by
      intro payee payout fee
      simp only [Contracts.payouts, Contracts.fees, List.map_cons, List.sum_cons,
        Contracts.Entry.payoutOf, Contracts.Entry.feeOf] at hbefore ⊢
      split
      · omega
      · omega
    rw [hcons] at hspent
    have hspends : spentOn net b.rail.store key { tx with fate := .mined depth } =
        if net.keccak256 row.escrowId = key then tx.amountWei else 0 := by
      refine spentOn_of_mined ?_ ?_ key
      · rfl
      · exact hescrow
    rw [hspends]
    by_cases hkey : net.keccak256 row.escrowId = key
    · have hwhole : amount - amount * b.hub.feePercent / 10000 +
          amount * b.hub.feePercent / 10000 = amount := by
        rw [hfaithful.feePercent]
        omega
      rw [if_pos hkey, hwhole] at hspent
      rw [if_pos hkey, ← uint256_eq_some hamount]
      push_cast [← Int.ofNat_le] at hspent
      omega
    · rw [if_neg hkey] at hspent
      rw [if_neg hkey]
      omega
  · cases h

theorem fated_copied {tx : Transaction} {fate : Fate} (hbilled : Billed cfg.policy b.rail)
    (hcopied : Copied b.rail) (hmem : tx ∈ b.rail.store.transactions) (hpending : tx.fate = .pending) :
    Continues b.rail.store (Chain.fated b tx fate).store ∧ Copied (Chain.fated b tx fate) := by
  have hbecome : tx.fate.canBecome fate = true := by
    rw [hpending]
    rfl
  exact ⟨continues_evolve hbilled hmem hbecome, evolve_copied hbilled hcopied hmem hbecome⟩

/-- The transaction adds what it spends now that its fate is known, and nothing else. -/
theorem fated_spent {tx : Transaction} {fate : Fate} (key : Bytes32)
    (hbilled : Billed cfg.policy b.rail) (hmem : tx ∈ b.rail.store.transactions)
    (hpending : tx.fate = .pending) :
    ((Chain.fated b tx fate).store.transactions.map
        (spentOn net (Chain.fated b tx fate).store key)).sum =
      (b.rail.store.transactions.map (spentOn net b.rail.store key)).sum +
        spentOn net b.rail.store key { tx with fate } := by
  have hlookup : Table.lookup Transaction.hash b.rail.store.transactions tx.hash = some tx :=
    Table.lookup_of_mem hbilled.store.hashes hmem
  have hsum := Table.sum_put_add (spentOn net b.rail.store key) hbilled.store.hashes { tx with fate }
  have hold : (Table.lookup Transaction.hash b.rail.store.transactions { tx with fate }.hash).elim 0
      (spentOn net b.rail.store key) = 0 := by
    show (Table.lookup Transaction.hash b.rail.store.transactions tx.hash).elim 0
      (spentOn net b.rail.store key) = 0
    rw [hlookup]
    exact spentOn_pending _ key hpending
  rw [hold, Int.add_zero] at hsum
  exact hsum

theorem step_covered {a : BooksAct} (hcovered : Covered net cfg.policy b)
    (h : net.step cfg a b = some b') : Covered net cfg.policy b' := by
  have hbilled := hcovered.backed.billed
  have hbacked' : Backed cfg.policy b' := step_backed hcovered.backed h
  cases booksActs_of_step h with
  | rail hallows hrail =>
      refine ⟨hbacked', (step_copied hbilled hcovered.copied hrail).2, ?_⟩
      intro key
      exact (rail_spends_nothing key hbilled hcovered.copied hallows hrail).trans
        (hcovered.spent key)
  | @mined tx depth callee hub hmem hpending hsettle =>
      refine ⟨hbacked', (fated_copied hbilled hcovered.copied hmem hpending).2, ?_⟩
      intro key
      calc ((Chain.fated b tx (.mined depth)).store.transactions.map
              (spentOn net (Chain.fated b tx (.mined depth)).store key)).sum
          = (b.rail.store.transactions.map (spentOn net b.rail.store key)).sum +
              spentOn net b.rail.store key { tx with fate := .mined depth } :=
            fated_spent key hbilled hmem hpending
        _ ≤ (b.hub.escrows key).spent +
              spentOn net b.rail.store key { tx with fate := .mined depth } :=
            Int.add_le_add_right (hcovered.spent key) _
        _ ≤ (hub.escrows key).spent := settleBatch_spends hcovered.backed depth key hsettle
  | @reverted tx hmem hpending =>
      refine ⟨hbacked', (fated_copied hbilled hcovered.copied hmem hpending).2, ?_⟩
      intro key
      have hnothing : spentOn net b.rail.store key { tx with fate := .reverted } = 0 :=
        if_neg fun hboth => Bool.false_ne_true hboth.1
      calc ((Chain.fated b tx .reverted).store.transactions.map
              (spentOn net (Chain.fated b tx .reverted).store key)).sum
          = (b.rail.store.transactions.map (spentOn net b.rail.store key)).sum +
              spentOn net b.rail.store key { tx with fate := .reverted } :=
            fated_spent key hbilled hmem hpending
        _ = (b.rail.store.transactions.map (spentOn net b.rail.store key)).sum := by
            rw [hnothing, Int.add_zero]
        _ ≤ (b.hub.escrows key).spent := hcovered.spent key
  | @others actions s hrun hstack =>
      refine ⟨hbacked', hcovered.copied, ?_⟩
      intro key
      have hok : Contracts.State.Ok { journal := .start b.hub, now := b.now } :=
        ⟨Journal.All.start hcovered.backed.faithful, hcovered.backed.now⟩
      have hsuffix := Contracts.history_survives hok rfl ⟨actions, hrun⟩
      have hgrows := Contracts.spent_le_of_history hcovered.backed.faithful hbacked'.faithful
        hsuffix key
      exact (hcovered.spent key).trans (Int.ofNat_le.2 hgrows)

end Steps

/-! ## Settled rows -/

/-- The mined transaction behind a settled row. -/
def paymentOf (store : Store) (row : SettlementRow) : Option Transaction :=
  store.transactions.find? fun tx => tx.settlementId = row.id && tx.fate.isMined

section Rows

variable {net : Chain} {policy : FeePolicy} {store : Store} {row : SettlementRow}

theorem paymentOf_settled (hcopy : Copy store row) (hsettled : row.status = .settled) :
    ∃ tx ∈ store.transactions, paymentOf store row = some tx ∧ tx.settlementId = row.id ∧
      tx.fate.isMined = true := by
  rcases hcopy.paid hsettled with ⟨hash, tx, htx, hid, _, hmined⟩
  have hsome : (paymentOf store row).isSome = true :=
    List.find?_isSome.2 ⟨tx, htx, by simp [hid, hmined]⟩
  rcases Option.isSome_iff_exists.1 hsome with ⟨tx', htx'⟩
  have hspec := List.find?_some htx'
  simp only [Bool.and_eq_true, decide_eq_true_eq] at hspec
  exact ⟨tx', List.mem_of_find?_eq_some htx', htx', hspec.1, hspec.2⟩

/-- The settled rows of an escrow. -/
def settledRows (store : Store) (escrowId : Text) : List SettlementRow :=
  store.settlements.filter fun row => row.escrowId = escrowId ∧ row.status = .settled

/-- Different settled rows are backed by different transactions, each over the total of its row. -/
theorem settledRows_le (net : Chain) (hstore : BilledStore policy store)
    (hrows : ∀ id row, store.find id = some row → Copy store row) (escrowId : Text) :
    ((settledRows store escrowId).map fun row => weiOf row.totalAmount).sum ≤
      (store.transactions.map (spentOn net store (net.keccak256 escrowId))).sum := by
  have hfound : ∀ row ∈ settledRows store escrowId, store.find row.id = some row ∧
      row.escrowId = escrowId ∧ row.status = .settled := by
    intro row hrow
    rcases List.mem_filter.1 hrow with ⟨hmem, hof⟩
    have hboth : row.escrowId = escrowId ∧ row.status = .settled := of_decide_eq_true hof
    exact ⟨Table.lookup_of_mem hstore.keyed hmem, hboth⟩
  refine sum_map_le_of_partner (paymentOf store) ?_ ?_ fun tx htx => spentOn_nonneg hstore _ htx
  · have hids : ((settledRows store escrowId).map (paymentOf store)).map
        (Option.map Transaction.settlementId) =
          ((settledRows store escrowId).map SettlementRow.id).map some := by
      rw [List.map_map, List.map_map]
      apply List.map_congr_left
      intro row hrow
      rcases hfound row hrow with ⟨hfind, _, hsettled⟩
      rcases paymentOf_settled (hrows _ row hfind) hsettled with ⟨tx, _, hpayment, hid, _⟩
      simp [hpayment, hid]
    have hnodup : (((settledRows store escrowId).map SettlementRow.id).map some).Nodup :=
      (hstore.keyed.sublist (List.filter_sublist.map _)).map (Option.some_injective _)
    rw [← hids] at hnodup
    exact hnodup.of_map _
  · intro row hrow
    rcases hfound row hrow with ⟨hfind, hescrow, hsettled⟩
    have hcopy := hrows _ row hfind
    rcases paymentOf_settled hcopy hsettled with ⟨tx, htx, hpayment, hid, hmined⟩
    refine ⟨tx, htx, hpayment, ?_⟩
    have hcharges := hstore.sent tx htx
    have howner : store.escrowOf tx.settlementId = some row.escrowId := by
      rw [hid]
      exact hcopy.escrow
    rw [spentOn_of_mined hmined howner, hescrow, if_pos rfl]
    rw [hid] at hcharges
    exact (Store.charges.unique ⟨row, hfind, rfl⟩ hcharges).le

end Rows

/-- In every run of settlements on a hub that is in use, with any interleaving of attempts, ticks and
replays and any failing write, the totals of the settled rows of an escrow add up to at most what the
hub has spent from it, and so to no more than its deposit and its budget. -/
theorem settled_within_deposit {net : Chain} {cfg : Config} {owner : Address}
    {funded parent delay : Nat} {s : Contracts.State}
    (hhub : Contracts.Reachable net.hub owner funded parent delay s) {as : List BooksAct} {b : Books}
    (hrun : run (net.step cfg) as (Chain.start s.world s.now) = some b) (escrowId : Text) :
    let session := b.hub.escrows (net.keccak256 escrowId)
    ((settledRows b.rail.store escrowId).map fun row => weiOf row.totalAmount).sum ≤
        (session.spent : Int) ∧
      session.spent ≤ session.deposit ∧ session.spent ≤ session.budgetLimit := by
  have hok := hhub.ok
  have hstart : Covered net cfg.policy (Chain.start s.world s.now) :=
    { backed := ⟨initial_billed cfg.policy, hok.worlds.1, hok.now, Int.natCast_nonneg _⟩
      copied := initial_copied
      spent := fun _ => Int.natCast_nonneg _ }
  have hcovered : Covered net cfg.policy b :=
    run_invariant (fun _ _ _ ht hstep => step_covered ht hstep) hstart hrun
  have hfaithful := hcovered.backed.faithful
  refine ⟨?_, ?_⟩
  · exact (settledRows_le net hcovered.backed.billed.store hcovered.copied.rows escrowId).trans
      (hcovered.spent _)
  · rw [hfaithful.sessions]
    exact Contracts.spent_le hfaithful.legal _

/-- The outcome of the payment is saved as well: 1.5 are settled, and the payee has claimed more. -/
theorem settled_within_deposit_paidSettlement :
    ∃ s b, run (Contracts.step sampleChain.hub) sampleEscrow (Contracts.initial 1 0 0 0) = some s ∧
      run (sampleChain.step Settlement.sampleConfig) (paidSettlement ++ [.rail (.resume 0 0 .done)])
        (Chain.start s.world s.now) = some b ∧
      ((settledRows b.rail.store Settlement.sampleInput.escrowId).map fun row =>
        weiOf row.totalAmount).sum = 1500000000000000000 ∧
      (1500000000000000000 : Int) ≤
        (b.hub.escrows (sampleChain.keccak256 Settlement.sampleInput.escrowId)).spent := by
  have hreached : ((run (Contracts.step sampleChain.hub) sampleEscrow (Contracts.initial 1 0 0 0)).any
      fun s => (run (sampleChain.step Settlement.sampleConfig)
        (paidSettlement ++ [.rail (.resume 0 0 .done)]) (Chain.start s.world s.now)).any fun b =>
          ((settledRows b.rail.store Settlement.sampleInput.escrowId).map fun row =>
            weiOf row.totalAmount).sum = 1500000000000000000) = true := by
    decide +kernel
  rcases (Option.any_eq_true _ _).1 hreached with ⟨s, hs, hpaid⟩
  rcases (Option.any_eq_true _ _).1 hpaid with ⟨b, hb, hsum⟩
  have hreach : Contracts.Reachable sampleChain.hub 1 0 0 0 s := ⟨_, hs⟩
  have htotal := of_decide_eq_true hsum
  have hcovered := (settled_within_deposit hreach hb Settlement.sampleInput.escrowId).1
  rw [htotal] at hcovered
  exact ⟨s, b, hs, hb, htotal, hcovered⟩

end Hub
end PaymentRail
