import PaymentRail.Collections.Sums
import PaymentRail.Contracts.Callbacks
import PaymentRail.Hub.Wallet
import PaymentRail.Settlement.Accruals

/-!
# AccruedFees — the fee ledger and the fees withheld by the hub

The settlement machine and the hub together.  What a settlement sends is executed on the hub: its
transaction is mined when `transactWith` succeeds, and reverts otherwise (`Act.mine`); the provider
tells the rail the truth about it.  Everything else that happens on the hub (`Act.others`) is any run
of its machine.

The rail books a fee of its own for every settlement, computed from decimal texts; the hub withholds a
fee for every batch, computed in wei.  With equal rates the ledger never claims more than the hub has
(`accruals_backed`).
-/

namespace PaymentRail
namespace Hub

open Machine Strings Money Fees Collections Settlement
open Contracts (Address Bytes32 Msg World transactWith feesWithheld)

/-- The hub, the wallet of the rail, and the hash under which texts are sent. -/
structure Chain where
  /-- `ESCROW_HUB_ADDRESS` -/
  hub : Address
  wallet : Address
  /-- The hub has no key, and signs nothing. -/
  wallet_ne_hub : wallet ≠ hub
  /-- `keccak256(toUtf8Bytes(text))` -/
  keccak256 : Text → Bytes32

/-- The settlements of the rail, the hub, and the time of the current block. -/
structure Books where
  rail : Settlement.State
  hub : World
  now : Nat

inductive BooksAct where
  | rail (a : Settlement.Action)
  /-- A transaction of a settlement is executed. -/
  | mine (hash : TxHash) (depth : Nat) (callee : Option (List Contracts.Action))
  /-- Anything else that happens on the hub. -/
  | others (actions : List Contracts.Action)

namespace Chain

def start (hub : World) (now : Nat) : Books where
  rail := Settlement.initial
  hub := hub
  now := now

/-- A transaction is mined by `mine` only. -/
def allows (b : Books) : Settlement.Action → Bool
  | .evolve hash fate => !fate.isMined || (fateOf b.rail.store.transactions (some hash)).isMined
  | _ => true

/-- The `settleBatch` of a settlement, as the wallet sent it. -/
def settleBatch (net : Chain) (b : Books) (tx : Transaction) (callee : Option (List Contracts.Action)) :
    Option World :=
  match b.rail.store.find tx.settlementId, uint256 tx.amountWei with
  | some row, some amount =>
      transactWith net.hub b.now { sender := net.wallet, value := 0 }
        (.settleBatch (net.keccak256 row.escrowId) (net.keccak256 row.receiptsHash) amount) callee b.hub
  | _, _ => none

/-- The rail learns what became of a transaction. -/
def fated (b : Books) (tx : Transaction) (fate : Fate) : Settlement.State :=
  { b.rail with store := b.rail.store.broadcast { tx with fate } }

def step (net : Chain) (cfg : Config) : BooksAct → Books → Option Books
  | .rail a, b =>
      if allows b a = true then (Settlement.step cfg a b.rail).map fun rail => { b with rail } else none
  | .mine hash depth callee, b =>
      match Table.lookup Transaction.hash b.rail.store.transactions hash with
      | none => none
      | some tx =>
          if tx.fate = .pending then
            match net.settleBatch b tx callee with
            | some hub => some { b with rail := fated b tx (.mined depth), hub }
            | none => some { b with rail := fated b tx .reverted }
          else
            none
  | .others actions, b =>
      match run (Contracts.step net.hub) actions { journal := .start b.hub, now := b.now } with
      | some s => if s.journal.stack = [] then some { b with hub := s.world, now := s.now } else none
      | none => none

end Chain

/-! ## What a step can do -/

inductive BooksActs (net : Chain) (cfg : Config) (b : Books) : Books → Prop
  | rail {a : Settlement.Action} {rail : Settlement.State} (hallows : Chain.allows b a = true)
      (h : Settlement.step cfg a b.rail = some rail) : BooksActs net cfg b { b with rail }
  | mined {tx : Transaction} {depth : Nat} {callee : Option (List Contracts.Action)} {hub : World}
      (hmem : tx ∈ b.rail.store.transactions) (hpending : tx.fate = .pending)
      (h : net.settleBatch b tx callee = some hub) :
      BooksActs net cfg b { b with rail := Chain.fated b tx (.mined depth), hub }
  | reverted {tx : Transaction} (hmem : tx ∈ b.rail.store.transactions) (hpending : tx.fate = .pending) :
      BooksActs net cfg b { b with rail := Chain.fated b tx .reverted }
  | others {actions : List Contracts.Action} {s : Contracts.State}
      (h : run (Contracts.step net.hub) actions { journal := .start b.hub, now := b.now } = some s)
      (hstack : s.journal.stack = []) : BooksActs net cfg b { b with hub := s.world, now := s.now }

theorem booksActs_of_step {net : Chain} {cfg : Config} {a : BooksAct} {b b' : Books}
    (h : net.step cfg a b = some b') : BooksActs net cfg b b' := by
  cases a with
  | rail a =>
      simp only [Chain.step] at h
      split at h
      · rename_i hallows
        rcases Option.map_eq_some_iff.1 h with ⟨rail, hrail, rfl⟩
        exact .rail hallows hrail
      · cases h
  | mine hash depth callee =>
      simp only [Chain.step] at h
      split at h
      · cases h
      · rename_i tx hlookup
        split at h
        · rename_i hpending
          split at h
          · rename_i hub hsettle
            cases h
            exact .mined (Table.mem_of_lookup hlookup) hpending hsettle
          · cases h
            exact .reverted (Table.mem_of_lookup hlookup) hpending
        · cases h
  | others actions =>
      simp only [Chain.step] at h
      split at h
      · rename_i s hrun
        split at h
        · rename_i hstack
          cases h
          exact .others hrun hstack
        · cases h
      · cases h

/-! ## The hub of a run is one its own machine reaches -/

/-- The state of the hub's machine between two transactions. -/
def Books.onHub (b : Books) : Contracts.State where
  journal := .start b.hub
  now := b.now

theorem BooksActs.reaches {net : Chain} {cfg : Config} {b b' : Books} (h : BooksActs net cfg b b') :
    Reaches (Contracts.step net.hub) b.onHub b'.onHub := by
  cases h with
  | rail _ _ => exact Reaches.refl _
  | reverted _ _ => exact Reaches.refl _
  | mined _ _ hsettle =>
      simp only [Chain.settleBatch] at hsettle
      split at hsettle
      · exact (Contracts.transacts_of_transactWith hsettle).steps net.wallet_ne_hub
      · cases hsettle
  | @others actions s hrun hstack =>
      have hend : (Contracts.State.mk (.start s.world) s.now) = s := by
        rcases s with ⟨⟨current, stack⟩, now⟩
        cases hstack
        rfl
      refine ⟨actions, ?_⟩
      show run (Contracts.step net.hub) actions b.onHub = some ⟨.start s.world, s.now⟩
      rw [hend]
      exact hrun

theorem reaches_of_books {net : Chain} {cfg : Config} {as : List BooksAct} {b b' : Books}
    (h : run (net.step cfg) as b = some b') :
    Reaches (Contracts.step net.hub) b.onHub b'.onHub :=
  run_invariant (P := fun t => Reaches (Contracts.step net.hub) b.onHub t.onHub)
    (fun _ _ _ ht hstep => ht.trans (booksActs_of_step hstep).reaches) (Reaches.refl _) h

/-! ## Mined transactions and withheld fees -/

/-- The fee the hub has withheld for a transaction. -/
def withheld (feePercent : Nat) (tx : Transaction) : Int :=
  if tx.fate.isMined = true then tx.amountWei * feePercent / 10000 else 0

/-- The hub is in order and has withheld what the mined transactions of the rail say. -/
structure Backed (policy : FeePolicy) (b : Books) : Prop where
  billed : Billed policy b.rail
  faithful : Contracts.Faithful b.hub
  now : 0 < b.now
  fees : (b.rail.store.transactions.map (withheld b.hub.feePercent)).sum ≤ feesWithheld b.hub.ledger

section Steps

variable {net : Chain} {cfg : Config} {b b' : Books}

/-- The total of a settlement is not negative: its fee was computed. -/
theorem nonneg_of_charges {policy : FeePolicy} {store : Store} (hstore : BilledStore policy store)
    {id : SettlementId} {wei : Int} (h : store.charges id wei) : 0 ≤ wei := by
  rcases h with ⟨row, hrow, rfl⟩
  rcases (hstore.rows id row hrow).priced.fee with ⟨breakdown, _, hbreakdown, _, _⟩
  exact nonneg_of_computeFee hbreakdown

theorem withheld_nonneg {policy : FeePolicy} {store : Store} (hstore : BilledStore policy store)
    (feePercent : Nat) {tx : Transaction} (htx : tx ∈ store.transactions) : 0 ≤ withheld feePercent tx := by
  have hamount := nonneg_of_charges hstore (hstore.sent tx htx)
  unfold withheld
  split
  · exact Int.ediv_nonneg (Int.mul_nonneg hamount (Int.natCast_nonneg _)) (by decide)
  · exact Int.le_refl _

/-- Replacing a transaction by one with no larger fee. -/
theorem fees_broadcast {store : Store} (hkeyed : Table.Keyed Transaction.hash store.transactions)
    (feePercent : Nat) (tx : Transaction)
    (h : withheld feePercent tx ≤
      (Table.lookup Transaction.hash store.transactions tx.hash).elim 0 (withheld feePercent)) :
    ((store.broadcast tx).transactions.map (withheld feePercent)).sum ≤
      (store.transactions.map (withheld feePercent)).sum := by
  have hsum := Table.sum_put_add (withheld feePercent) hkeyed tx
  show ((Table.put Transaction.hash store.transactions tx).map (withheld feePercent)).sum ≤ _
  omega

theorem withheld_pending (feePercent : Nat) {tx : Transaction} (h : tx.fate = .pending) :
    withheld feePercent tx = 0 := by
  rw [withheld, h]
  rfl

/-- A step of the rail mines nothing. -/
theorem rail_fees {a : Settlement.Action} {rail : Settlement.State} (feePercent : Nat)
    (hbilled : Billed cfg.policy b.rail) (hallows : Chain.allows b a = true)
    (h : Settlement.step cfg a b.rail = some rail) :
    (rail.store.transactions.map (withheld feePercent)).sum ≤
      (b.rail.store.transactions.map (withheld feePercent)).sum := by
  have hstore := hbilled.store
  have hold : ∀ hash, 0 ≤ (Table.lookup Transaction.hash b.rail.store.transactions hash).elim 0
      (withheld feePercent) := by
    intro hash
    cases hlookup : Table.lookup Transaction.hash b.rail.store.transactions hash with
    | none => exact Int.le_refl _
    | some tx => exact withheld_nonneg hstore feePercent (Table.mem_of_lookup hlookup)
  cases Settlement.acts_of_step h with
  | resume hp hresumes =>
      rcases resumes_transactions hresumes with hsame |
        ⟨caller, begun, entity, amountWei, hash, rfl, hbroadcast⟩
      · rw [hsame]
      · rw [hbroadcast]
        refine fees_broadcast hstore.hashes feePercent _ ?_
        rw [withheld_pending feePercent rfl]
        exact hold _
  | @evolve hash fate tx htx hbecome =>
      refine fees_broadcast hstore.hashes feePercent _ ?_
      have hhash : tx.hash = hash := Table.key_of_lookup htx
      have hlookup : Table.lookup Transaction.hash b.rail.store.transactions tx.hash = some tx := by
        rw [hhash]
        exact htx
      show withheld feePercent { tx with fate } ≤
        (Table.lookup Transaction.hash b.rail.store.transactions tx.hash).elim 0 (withheld feePercent)
      rw [hlookup]
      -- what is mined now was mined before
      cases hmined : fate.isMined with
      | false =>
          have hnothing : withheld feePercent { tx with fate } = 0 := by
            simp [withheld, hmined]
          rw [hnothing]
          exact withheld_nonneg hstore feePercent (Table.mem_of_lookup htx)
      | true =>
          have hbefore : tx.fate.isMined = true := by
            simpa [Chain.allows, hmined, fateOf, htx] using hallows
          simp [withheld, hmined, hbefore]
  | _ => exact Int.le_refl _

/-- A batch of the rail that is mined leaves its fee on the books of the hub. -/
theorem settleBatch_fees {tx : Transaction} {callee : Option (List Contracts.Action)} {hub : World}
    (hbacked : Backed cfg.policy b) (h : net.settleBatch b tx callee = some hub) :
    Contracts.Faithful hub ∧
      (feesWithheld b.hub.ledger : Int) + tx.amountWei * b.hub.feePercent / 10000 ≤
        feesWithheld hub.ledger := by
  simp only [Chain.settleBatch] at h
  split at h
  · rename_i row amount hrow hamount
    have htransacts := Contracts.transacts_of_transactWith h
    refine ⟨htransacts.faithful hbacked.faithful hbacked.now, ?_⟩
    have hle := Contracts.feesWithheld_of_suffix (htransacts.settleBatch hbacked.now)
    rw [← uint256_eq_some hamount]
    have hcons : feesWithheld b.hub.ledger + amount * b.hub.feePercent / 10000 ≤
        feesWithheld hub.ledger := by
      rw [Nat.add_comm]
      exact hle
    exact_mod_cast hcons
  · cases h

theorem fated_billed {tx : Transaction} {fate : Fate} (hbilled : Billed cfg.policy b.rail)
    (hmem : tx ∈ b.rail.store.transactions) (hpending : tx.fate = .pending) :
    Billed cfg.policy (Chain.fated b tx fate) :=
  evolve_billed hbilled hmem (by rw [hpending]; rfl)

/-- The mined transaction adds its fee, and nothing else. -/
theorem fated_fees {tx : Transaction} {fate : Fate} (feePercent : Nat)
    (hbilled : Billed cfg.policy b.rail) (hmem : tx ∈ b.rail.store.transactions)
    (hpending : tx.fate = .pending) :
    ((Chain.fated b tx fate).store.transactions.map (withheld feePercent)).sum =
      (b.rail.store.transactions.map (withheld feePercent)).sum +
        withheld feePercent { tx with fate } := by
  have hlookup : Table.lookup Transaction.hash b.rail.store.transactions tx.hash = some tx :=
    Table.lookup_of_mem hbilled.store.hashes hmem
  have hsum := Table.sum_put_add (withheld feePercent) hbilled.store.hashes { tx with fate }
  have hold : (Table.lookup Transaction.hash b.rail.store.transactions { tx with fate }.hash).elim 0
      (withheld feePercent) = 0 := by
    show (Table.lookup Transaction.hash b.rail.store.transactions tx.hash).elim 0 (withheld feePercent) = 0
    rw [hlookup]
    exact withheld_pending feePercent hpending
  rw [hold, Int.add_zero] at hsum
  exact hsum

theorem step_backed {a : BooksAct} (hbacked : Backed cfg.policy b) (h : net.step cfg a b = some b') :
    Backed cfg.policy b' := by
  have hpercent := hbacked.faithful.feePercent
  cases booksActs_of_step h with
  | rail hallows hrail =>
      exact ⟨step_billed hbacked.billed hrail, hbacked.faithful, hbacked.now,
        Int.le_trans (rail_fees _ hbacked.billed hallows hrail) hbacked.fees⟩
  | @mined tx depth callee hub hmem hpending hsettle =>
      rcases settleBatch_fees hbacked hsettle with ⟨hfaithful, hfees⟩
      refine ⟨fated_billed hbacked.billed hmem hpending, hfaithful, hbacked.now, ?_⟩
      have hsame : hub.feePercent = b.hub.feePercent := hfaithful.feePercent.trans hpercent.symm
      calc ((Chain.fated b tx (.mined depth)).store.transactions.map (withheld hub.feePercent)).sum
          = (b.rail.store.transactions.map (withheld b.hub.feePercent)).sum +
              tx.amountWei * b.hub.feePercent / 10000 := by
            rw [hsame]
            exact fated_fees _ hbacked.billed hmem hpending
        _ ≤ feesWithheld b.hub.ledger + tx.amountWei * b.hub.feePercent / 10000 :=
            Int.add_le_add_right hbacked.fees _
        _ ≤ feesWithheld hub.ledger := hfees
  | @reverted tx hmem hpending =>
      refine ⟨fated_billed hbacked.billed hmem hpending, hbacked.faithful, hbacked.now, ?_⟩
      calc ((Chain.fated b tx .reverted).store.transactions.map (withheld b.hub.feePercent)).sum
          = (b.rail.store.transactions.map (withheld b.hub.feePercent)).sum + 0 :=
            fated_fees _ hbacked.billed hmem hpending
        _ = (b.rail.store.transactions.map (withheld b.hub.feePercent)).sum := Int.add_zero _
        _ ≤ feesWithheld b.hub.ledger := hbacked.fees
  | @others actions s hrun hstack =>
      have hok : Contracts.State.Ok { journal := .start b.hub, now := b.now } :=
        ⟨Journal.All.start hbacked.faithful, hbacked.now⟩
      have hend : s.Ok := run_invariant (fun a t t' ht hstep => Contracts.step_ok a t t' ht hstep) hok hrun
      have hsuffix := Contracts.history_survives hok rfl ⟨actions, hrun⟩
      have hsame : s.world.feePercent = b.hub.feePercent := hend.worlds.1.feePercent.trans hpercent.symm
      refine ⟨hbacked.billed, hend.worlds.1, hend.now, ?_⟩
      calc (b.rail.store.transactions.map (withheld s.world.feePercent)).sum
          = (b.rail.store.transactions.map (withheld b.hub.feePercent)).sum := by rw [hsame]
        _ ≤ feesWithheld b.hub.ledger := hbacked.fees
        _ ≤ feesWithheld s.world.ledger := by
            exact_mod_cast Contracts.feesWithheld_of_suffix hsuffix

end Steps

/-! ## The fee ledger -/

/-- The sum of the accruals, in wei. -/
def accruedWei (store : Store) : Int := (store.accruals.map fun entry => weiOf entry.2).sum

/-- The total of a settlement, in wei. -/
def totalWei (store : Store) (id : SettlementId) : Int :=
  (store.find id).elim 0 fun row => weiOf row.totalAmount

theorem totalWei_of_charges {store : Store} {id : SettlementId} {wei : Int} (h : store.charges id wei) :
    totalWei store id = wei := by
  rcases h with ⟨row, hrow, rfl⟩
  rw [totalWei, hrow]
  rfl

section Ledger

variable {policy : FeePolicy} {store : Store}

/-- An accrual is the rounded-down share of the total of its settlement. -/
theorem weiOf_accrual {entry : SettlementId × Text} (hmin : policy.minFee = 0)
    (hmax : policy.maxFee = none) (hbps : policy.bps ≤ 10000) (h : Accrued policy store entry) :
    weiOf entry.2 = totalWei store entry.1 * policy.bps / 10000 := by
  rcases h.fee with ⟨wei, breakdown, hcharges, hbreakdown, hfee⟩
  rw [totalWei_of_charges hcharges, weiOf_of_ok hfee]
  exact computeFee_proportional hmin hmax hbps hbreakdown

/-- The mined transaction behind an accrual. -/
def payment (store : Store) (entry : SettlementId × Text) : Option Transaction :=
  store.transactions.find? fun tx => tx.settlementId = entry.1 && tx.fate.isMined

theorem payment_of_accrued {entry : SettlementId × Text} (h : Accrued policy store entry) :
    ∃ tx ∈ store.transactions, payment store entry = some tx ∧ tx.settlementId = entry.1 ∧
      tx.fate.isMined = true := by
  rcases h.paid with ⟨hash, tx, htx, hid, _, hmined⟩
  have hsome : (payment store entry).isSome = true :=
    List.find?_isSome.2 ⟨tx, htx, by simp [hid, hmined]⟩
  rcases Option.isSome_iff_exists.1 hsome with ⟨tx', htx'⟩
  have hspec := List.find?_some htx'
  simp only [Bool.and_eq_true, decide_eq_true_eq] at hspec
  exact ⟨tx', List.mem_of_find?_eq_some htx', htx', hspec.1, hspec.2⟩

/-- Different accruals are backed by different transactions. -/
theorem accruedWei_le {feePercent : Nat} (hstore : BilledStore policy store) (hmin : policy.minFee = 0)
    (hmax : policy.maxFee = none) (hbps : policy.bps ≤ 10000) (hrate : policy.bps = feePercent) :
    accruedWei store ≤ (store.transactions.map (withheld feePercent)).sum := by
  refine sum_map_le_of_partner (payment store) ?_ ?_ ?_
  · have hids : (store.accruals.map (payment store)).map (Option.map Transaction.settlementId) =
        (store.accruals.map Prod.fst).map some := by
      rw [List.map_map, List.map_map]
      apply List.map_congr_left
      intro entry hentry
      rcases payment_of_accrued (hstore.accruals entry hentry) with ⟨tx, _, hpayment, hid, _⟩
      simp [hpayment, hid]
    have hnodup : ((store.accruals.map Prod.fst).map some).Nodup :=
      hstore.once.map (Option.some_injective _)
    rw [← hids] at hnodup
    exact hnodup.of_map _
  · intro entry hentry
    have haccrued := hstore.accruals entry hentry
    rcases payment_of_accrued haccrued with ⟨tx, htx, hpayment, hid, hmined⟩
    refine ⟨tx, htx, hpayment, ?_⟩
    have hcharges := hstore.sent tx htx
    rw [hid] at hcharges
    rw [weiOf_accrual hmin hmax hbps haccrued, totalWei_of_charges hcharges, hrate, withheld,
      if_pos hmined]
  · exact fun tx htx => withheld_nonneg hstore feePercent htx

end Ledger

/-- With a policy that takes the hub's own rate, no minimum and no cap, in every run of settlements on
a hub that is in use, the accruals are at most the fees the hub has withheld, and they are exactly the
rounded-down shares of the settlements whose accrual was written, each of them once.  The hub meanwhile
does nothing that its machine does not. -/
theorem accruals_backed {net : Chain} {cfg : Config} {owner : Address} {funded parent delay : Nat}
    {s : Contracts.State} (hhub : Contracts.Reachable net.hub owner funded parent delay s)
    (hbps : cfg.policy.bps = s.world.feePercent) (hmin : cfg.policy.minFee = 0)
    (hmax : cfg.policy.maxFee = none) {as : List BooksAct} {b : Books}
    (hrun : run (net.step cfg) as (Chain.start s.world s.now) = some b) :
    accruedWei b.rail.store ≤ feesWithheld b.hub.ledger ∧
      accruedWei b.rail.store = (b.rail.store.accruals.map fun entry =>
        totalWei b.rail.store entry.1 * b.hub.feePercent / 10000).sum ∧
      (b.rail.store.accruals.map Prod.fst).Nodup ∧
      Reaches (Contracts.step net.hub) (Chain.start s.world s.now).onHub b.onHub := by
  have hok := hhub.ok
  have hstart : Backed cfg.policy (Chain.start s.world s.now) :=
    ⟨initial_billed cfg.policy, hok.worlds.1, hok.now, Int.natCast_nonneg _⟩
  have hbacked : Backed cfg.policy b :=
    run_invariant (fun _ _ _ ht hstep => step_backed ht hstep) hstart hrun
  have hstore := hbacked.billed.store
  have hrate : cfg.policy.bps = b.hub.feePercent := by
    have hpercent : s.world.feePercent = 50 := hok.worlds.1.feePercent
    rw [hbps, hpercent, hbacked.faithful.feePercent]
  have hsmall : cfg.policy.bps ≤ 10000 := by
    rw [hrate, hbacked.faithful.feePercent]
    decide
  refine ⟨?_, ?_, hstore.once, reaches_of_books hrun⟩
  · calc accruedWei b.rail.store
        ≤ (b.rail.store.transactions.map (withheld b.hub.feePercent)).sum :=
          accruedWei_le hstore hmin hmax hsmall hrate
      _ ≤ feesWithheld b.hub.ledger := hbacked.fees
  · unfold accruedWei
    congr 1
    apply List.map_congr_left
    intro entry hentry
    rw [weiOf_accrual hmin hmax hsmall (hstore.accruals entry hentry), hrate]

theorem sampleWallet_ne_hub : (0xa11 : Address) ≠ 0x11b := by decide

def sampleChain : Chain where
  hub := 0x11b
  wallet := 0xa11
  wallet_ne_hub := sampleWallet_ne_hub
  keccak256 := fun text => Fin.ofNat _ text.length

/-- Account 2 has opened the escrow of the sample settlement, with a deposit of 2. -/
def sampleEscrow : List Contracts.Action :=
  [.call { sender := 2, value := 2 * 10 ^ 18 } (.openEscrow 1 3 (2 * 10 ^ 18) false 60)]

/-- A first attempt over 1.5 that is mined and confirmed; while it is paid, the payee claims a stream
of the same escrow, and keeps it. -/
def paidSettlement : List BooksAct :=
  [.rail (.settleBatch 0 7 sampleInput), .rail (.resume 0 0 .done), .rail (.resume 0 0 (.gas none)),
    .rail (.resume 0 0 (.sent 100)), .rail (.resume 0 0 .done),
    .mine 100 3 (some [.call { sender := 3, value := 0 } (.claimStream 1 1000000), .ret]),
    .rail (.resume 0 0 .done), .rail (.resume 0 0 .done)]

theorem accruals_backed_paidSettlement :
    ∃ s b, run (Contracts.step sampleChain.hub) sampleEscrow (Contracts.initial 1 0 0 0) = some s ∧
      run (sampleChain.step Settlement.sampleConfig) paidSettlement (Chain.start s.world s.now) =
        some b ∧
      accruedWei b.rail.store = 7500000000000000 ∧
      accruedWei b.rail.store ≤ feesWithheld b.hub.ledger := by
  have hreached : ((run (Contracts.step sampleChain.hub) sampleEscrow (Contracts.initial 1 0 0 0)).any
      fun s => s.world.feePercent = 50 ∧
        (run (sampleChain.step Settlement.sampleConfig) paidSettlement
          (Chain.start s.world s.now)).any fun b => accruedWei b.rail.store = 7500000000000000) = true := by
    decide +kernel
  rcases (Option.any_eq_true _ _).1 hreached with ⟨s, hs, hfacts⟩
  obtain ⟨hpercent, hpaid⟩ := of_decide_eq_true hfacts
  rcases (Option.any_eq_true _ _).1 hpaid with ⟨b, hb, hwei⟩
  have hreach : Contracts.Reachable sampleChain.hub 1 0 0 0 s := ⟨_, hs⟩
  exact ⟨s, b, hs, hb, of_decide_eq_true hwei,
    (accruals_backed hreach (hpercent.symm ▸ rfl) rfl rfl hb).1⟩

end Hub
end PaymentRail
