import PaymentRail.Escrow.ReleaseRows
import PaymentRail.Escrow.ReleaseTotals

/-!
# ReleasePayouts — a failed release was not paid

A release sends one `settleBatch` transaction at most.  When the wait for it is given up, the release
is marked failed and its amount goes back to the session, whatever becomes of the transaction later.
So a failed release is unpaid in the runs in which a wait is given up only for a transaction that
can no longer be mined (`waitsOut`): one that was reverted or dropped.
-/

namespace PaymentRail
namespace Escrow

open Machine Strings Money Collections
open Settlement (Fate)

/-! ## Payouts -/

/-- The transaction pays out the release. -/
def Transaction.pays (tx : Transaction) (releaseId : ReleaseId) : Prop :=
  ∃ escrowId amountWei, tx.call = .settleBatch escrowId releaseId amountWei

/-- What a transaction has paid out of the session. -/
def Transaction.paidFrom (sid : SessionId) (tx : Transaction) : Int :=
  match tx.call with
  | .settleBatch escrowId _ amountWei =>
      if escrowId = sid ∧ tx.fate.isMined = true then amountWei else 0
  | _ => 0

/-- What the hub has spent of the session for releases. -/
def Store.spentOnReleases (store : Store) (sid : SessionId) : Int :=
  (store.transactions.map (Transaction.paidFrom sid)).sum

/-- The wait for a payout is given up only once its transaction cannot be mined any more. -/
def waitsOut : Process → Reply → Store → Bool
  | .waitPayOut _ hash, .failed _, store => !(store.fateOf hash).live
  | _, _, _ => true

/-! ## The invariant -/

/-- Every payout belongs to a row with its amount, which counts as long as the payout may be mined;
and no release is paid out twice. -/
structure PayoutsFaithful (store : Store) : Prop where
  transactions : Table.Keyed Transaction.hash store.transactions
  releases : Table.Keyed EscrowRelease.id store.releases
  rows : ∀ tx ∈ store.transactions, ∀ escrowId releaseId amountWei,
    tx.call = .settleBatch escrowId releaseId amountWei →
      ∃ row, Table.lookup EscrowRelease.id store.releases releaseId = some row ∧
        row.escrowId = escrowId ∧ row.amount.wei = amountWei ∧
        (tx.fate.live = true → row.status = .completed)
  once : ∀ tx ∈ store.transactions, ∀ tx' ∈ store.transactions, ∀ releaseId,
    tx.pays releaseId → tx'.pays releaseId → tx = tx'
  pos : ∀ row ∈ store.releases, 0 < row.amount.wei

/-- What a call knows of the payout of its release. -/
def Process.Payout (store : Store) : Process → Prop
  | .sendCall _ call => call.payout? = none
  | .payOut release => ∀ tx ∈ store.transactions, ¬ tx.pays release.id
  | .waitPayOut release hash => ∀ tx ∈ store.transactions, tx.pays release.id → tx.hash = hash
  | .giveBack release _ => ∀ tx ∈ store.transactions, tx.pays release.id → tx.fate.live = false
  | .saveFailed release => ∀ tx ∈ store.transactions, tx.pays release.id → tx.fate.live = false
  | _ => True

theorem Process.Payout.of_transactions {store store' : Store} {p : Process} (h : p.Payout store)
    (hEq : store'.transactions = store.transactions) : p.Payout store' := by
  cases p with
  | sendCall session call => exact h
  | payOut release => simpa only [Process.Payout, hEq] using h
  | waitPayOut release hash => simpa only [Process.Payout, hEq] using h
  | giveBack release message => simpa only [Process.Payout, hEq] using h
  | saveFailed release => simpa only [Process.Payout, hEq] using h
  | _ => trivial

/-- A new transaction that does not pay out the release of a call changes nothing for it. -/
theorem Process.Payout.broadcast {store : Store} {p : Process} {tx : Transaction}
    (h : p.Payout store) (hother : ∀ r ∈ p.release?, ¬ tx.pays r.id) :
    p.Payout (store.broadcast tx) := by
  -- a transaction of the release is one of the earlier ones
  have hold : ∀ r ∈ p.release?, ∀ x ∈ (store.broadcast tx).transactions, x.pays r.id →
      x ∈ store.transactions := by
    intro r hr x hx hpays
    rcases Table.mem_put hx with rfl | ⟨hmem, _⟩
    · exact absurd hpays (hother r hr)
    · exact hmem
  cases p with
  | sendCall session call => exact h
  | payOut release => exact fun x hx hpays => h x (hold _ rfl x hx hpays) hpays
  | waitPayOut release hash => exact fun x hx hpays => h x (hold _ rfl x hx hpays) hpays
  | giveBack release message => exact fun x hx hpays => h x (hold _ rfl x hx hpays) hpays
  | saveFailed release => exact fun x hx hpays => h x (hold _ rfl x hx hpays) hpays
  | _ => trivial

theorem pays_of_payout {tx : Transaction} {releaseId : ReleaseId} (h : tx.call.payout? = none) :
    ¬ tx.pays releaseId := by
  rintro ⟨escrowId, amountWei, hcall⟩
  rw [hcall] at h
  cases h

section Writes

variable {store store' : Store}

theorem PayoutsFaithful.of_eq (h : PayoutsFaithful store)
    (htransactions : store'.transactions = store.transactions)
    (hreleases : store'.releases = store.releases) : PayoutsFaithful store' where
  transactions := by rw [htransactions]; exact h.transactions
  releases := by rw [hreleases]; exact h.releases
  rows := by rw [htransactions, hreleases]; exact h.rows
  once := by rw [htransactions]; exact h.once
  pos := by rw [hreleases]; exact h.pos

theorem PayoutsFaithful.saveRelease {entity : EscrowRelease} (h : PayoutsFaithful store)
    (hpos : 0 < entity.amount.wei)
    (hrow : ∀ tx ∈ store.transactions, ∀ escrowId amountWei,
      tx.call = .settleBatch escrowId entity.id amountWei →
        entity.escrowId = escrowId ∧ entity.amount.wei = amountWei ∧
          (tx.fate.live = true → entity.status = .completed)) :
    PayoutsFaithful (store.saveRelease entity) where
  transactions := h.transactions
  releases := Table.Keyed.put h.releases
  rows := by
    intro tx htx escrowId releaseId amountWei hcall
    by_cases hid : entity.id = releaseId
    · subst hid
      exact ⟨entity, Table.lookup_put_self _ _, hrow tx htx escrowId amountWei hcall⟩
    · rw [Store.saveRelease, Table.lookup_put_of_ne _ _ hid]
      exact h.rows tx htx escrowId releaseId amountWei hcall
  once := h.once
  pos := by
    intro row hmem
    rcases Table.mem_put hmem with rfl | ⟨hmem, _⟩
    · exact hpos
    · exact h.pos row hmem

theorem PayoutsFaithful.broadcast {tx : Transaction} (h : PayoutsFaithful store)
    (hrow : ∀ escrowId releaseId amountWei, tx.call = .settleBatch escrowId releaseId amountWei →
      ∃ row, Table.lookup EscrowRelease.id store.releases releaseId = some row ∧
        row.escrowId = escrowId ∧ row.amount.wei = amountWei ∧
        (tx.fate.live = true → row.status = .completed))
    (honce : ∀ x ∈ store.transactions, x.hash ≠ tx.hash → ∀ releaseId, tx.pays releaseId →
      ¬ x.pays releaseId) :
    PayoutsFaithful (store.broadcast tx) where
  transactions := Table.Keyed.put h.transactions
  releases := h.releases
  rows := by
    intro x hx escrowId releaseId amountWei hcall
    rcases Table.mem_put hx with rfl | ⟨hmem, _⟩
    · exact hrow escrowId releaseId amountWei hcall
    · exact h.rows x hmem escrowId releaseId amountWei hcall
  once := by
    intro x hx y hy releaseId hpaysx hpaysy
    rcases Table.mem_put hx with rfl | ⟨hmemx, hnex⟩
    · rcases Table.mem_put hy with rfl | ⟨hmemy, hney⟩
      · rfl
      · exact absurd hpaysy (honce y hmemy hney releaseId hpaysx)
    · rcases Table.mem_put hy with rfl | ⟨hmemy, hney⟩
      · exact absurd hpaysx (honce x hmemx hnex releaseId hpaysy)
      · exact h.once x hmemx y hmemy releaseId hpaysx hpaysy
  pos := h.pos

/-- The row of an owned release agrees with every payout of it. -/
theorem PayoutsFaithful.of_stored {release : EscrowRelease} (h : PayoutsFaithful store)
    (hstored : Stored store release) {tx : Transaction} (htx : tx ∈ store.transactions)
    {escrowId : SessionId} {amountWei : Int}
    (hcall : tx.call = .settleBatch escrowId release.id amountWei) :
    release.escrowId = escrowId ∧ release.amount.wei = amountWei := by
  rcases h.rows tx htx escrowId release.id amountWei hcall with ⟨row, hrow, hescrow, hamount, _⟩
  rcases hstored.row with ⟨row', hrow', hescrow', hamount', _⟩
  rw [hrow] at hrow'
  cases hrow'
  exact ⟨hescrow'.symm.trans hescrow, by rw [← hamount', hamount]⟩

/-- A payout that moves on stays the payout it was. -/
theorem PayoutsFaithful.evolve {tx : Transaction} {fate : Fate} (h : PayoutsFaithful store)
    (hlookup : Table.lookup Transaction.hash store.transactions tx.hash = some tx)
    (hbecome : tx.fate.canBecome fate = true) :
    PayoutsFaithful (store.broadcast { tx with fate }) := by
  have htx := Table.mem_of_lookup hlookup
  refine h.broadcast ?_ ?_
  · intro escrowId releaseId amountWei hcall
    rcases h.rows tx htx escrowId releaseId amountWei hcall with ⟨row, hrow, hescrow, hamount, hlive⟩
    exact ⟨row, hrow, hescrow, hamount,
      fun hlive' => hlive (Fate.live_of_canBecome hbecome hlive')⟩
  · intro x hx hne releaseId hpays hpays'
    have hEq : x = tx := h.once x hx tx htx releaseId hpays' hpays
    exact hne (by rw [hEq])

theorem Process.Payout.evolve {p : Process} {tx : Transaction} {fate : Fate} (h : p.Payout store)
    (hlookup : Table.lookup Transaction.hash store.transactions tx.hash = some tx)
    (hbecome : tx.fate.canBecome fate = true) : p.Payout (store.broadcast { tx with fate }) := by
  -- each transaction was there before, with a fate that could become what it is now
  have hback : ∀ x ∈ (store.broadcast { tx with fate }).transactions,
      ∃ y ∈ store.transactions, y.call = x.call ∧ y.hash = x.hash ∧
        (x.fate.live = true → y.fate.live = true) := by
    intro x hx
    rcases Table.mem_put hx with rfl | ⟨hmem, _⟩
    · exact ⟨tx, Table.mem_of_lookup hlookup, rfl, rfl, Fate.live_of_canBecome hbecome⟩
    · exact ⟨x, hmem, rfl, rfl, id⟩
  have hdead : ∀ release : EscrowRelease,
      (∀ y ∈ store.transactions, y.pays release.id → y.fate.live = false) →
        ∀ x ∈ (store.broadcast { tx with fate }).transactions, x.pays release.id →
          x.fate.live = false := by
    intro release hall x hx hpays
    rcases hback x hx with ⟨y, hy, hcall, _, hlive⟩
    rw [Transaction.pays, ← hcall] at hpays
    have hy' := hall y hy hpays
    by_contra hx'
    rw [hlive (by simpa using hx')] at hy'
    cases hy'
  cases p with
  | sendCall session call => exact h
  | payOut release =>
      intro x hx hpays
      rcases hback x hx with ⟨y, hy, hcall, _, _⟩
      rw [Transaction.pays, ← hcall] at hpays
      exact h y hy hpays
  | waitPayOut release hash =>
      intro x hx hpays
      rcases hback x hx with ⟨y, hy, hcall, hhash, _⟩
      rw [Transaction.pays, ← hcall] at hpays
      rw [← hhash]
      exact h y hy hpays
  | giveBack release message => exact hdead release h
  | saveFailed release => exact hdead release h
  | _ => trivial

end Writes

/-! ## One step -/

section Steps

variable {cfg : Config} {id : CallId} {store store' : Store} {p q : Process} {reply : Reply}
  {flow : Flow Process Answer}

theorem PayoutsFaithful.fateOf (h : PayoutsFaithful store) {tx : Transaction}
    (htx : tx ∈ store.transactions) : store.fateOf tx.hash = tx.fate := by
  rw [Store.fateOf, Table.lookup_of_mem h.transactions htx]

theorem Waits.payout (h : Waits cfg store p reply q) (hG : waitsOut p reply store = true)
    (hI : PayoutsFaithful store) (hp : p.Payout store) : q.Payout store := by
  cases h with
  | unsent => exact fun tx htx hpays => absurd hpays (hp tx htx)
  | gaveUp =>
      intro tx htx hpays
      have hhash := hp tx htx hpays
      have hfate := hI.fateOf htx
      rw [hhash] at hfate
      rw [waitsOut, hfate] at hG
      simpa using hG
  | _ => trivial

/-- What a step keeps of the payouts. -/
structure KeepsPayouts (store store' : Store) (p : Process) (flow : Flow Process Answer) : Prop where
  faithful : PayoutsFaithful store'
  self : flow.Awaits (Process.Payout store')
  others : ∀ q : Process, q.Owns store → q.Apart p → q.Payout store → q.Payout store'

/-- A step that neither sends a transaction nor writes a release. -/
theorem keepsPayouts_of_same (hI : PayoutsFaithful store)
    (htransactions : store'.transactions = store.transactions)
    (hreleases : store'.releases = store.releases) (hself : flow.Awaits (Process.Payout store')) :
    KeepsPayouts store store' p flow where
  faithful := hI.of_eq htransactions hreleases
  self := hself
  others := fun _ _ _ hq => hq.of_transactions htransactions

/-- A step that writes a release. -/
theorem keepsPayouts_of_saved {entity : EscrowRelease}
    (hfaithful : PayoutsFaithful (store.saveRelease entity))
    (hself : flow.Awaits (Process.Payout (store.saveRelease entity))) :
    KeepsPayouts store (store.saveRelease entity) p flow where
  faithful := hfaithful
  self := hself
  others := fun _ _ _ hq => hq.of_transactions rfl

theorem Resumes.keepsPayouts (h : Resumes cfg id store p reply store' flow)
    (hG : waitsOut p reply store = true) (hI : PayoutsFaithful store) (hp : p.Owns store)
    (hpayout : p.Payout store) : KeepsPayouts store store' p flow := by
  cases h with
  | waits h => exact keepsPayouts_of_same hI rfl rfl (h.payout hG hI hpayout)
  | ends h => exact keepsPayouts_of_same hI rfl rfl trivial
  | inserts hnew =>
      exact keepsPayouts_of_same hI rfl rfl (afterOpen_awaits (fun _ _ hcall => hcall) _ _)
  | locks hfree => exact keepsPayouts_of_same hI rfl rfl trivial
  | exceeds => exact keepsPayouts_of_same hI rfl rfl trivial
  | commits hnew =>
      exact keepsPayouts_of_same hI rfl rfl (afterOpen_awaits (fun _ _ hcall => hcall) _ _)
  | @sendsCall session call hash hnew =>
      have hnopay : ∀ releaseId, ¬ Transaction.pays { hash, call, fate := .pending } releaseId :=
        fun _ => pays_of_payout hpayout
      refine ⟨hI.broadcast ?_ ?_, trivial, ?_⟩
      · intro escrowId releaseId amountWei hcall
        exact absurd ⟨escrowId, amountWei, hcall⟩ (hnopay releaseId)
      · exact fun x _ _ releaseId hpays => absurd hpays (hnopay releaseId)
      · exact fun q _ _ hq => hq.broadcast fun r _ => hnopay r.id
  | saves =>
      exact keepsPayouts_of_same hI rfl rfl (afterSave_awaits (fun _ _ hcall => hcall) _ _ _ _)
  | reserves hfind hok => exact keepsPayouts_of_same hI rfl rfl trivial
  | @insertsRelease sid dto amount new hnew =>
      -- nobody has sent a payout for an id that did not exist
      have hnone : ∀ tx ∈ store.transactions, ¬ tx.pays new := by
        rintro tx htx ⟨escrowId, amountWei, hcall⟩
        rcases hI.rows tx htx escrowId new amountWei hcall with ⟨row, hrow, _⟩
        rw [hnew] at hrow
        cases hrow
      refine keepsPayouts_of_saved (hI.saveRelease hp ?_) ?_
      · exact fun tx htx escrowId amountWei hcall => absurd ⟨escrowId, amountWei, hcall⟩ (hnone tx htx)
      · have hpayout : Process.Payout (store.saveRelease (newRelease new sid dto amount))
            (.payOut (newRelease new sid dto amount)) := hnone
        exact afterInsert_of hpayout trivial cfg
  | @paysOut release hash hnew =>
      have hown : ∀ releaseId, Transaction.pays
          { hash, call := .settleBatch release.escrowId release.id release.amount.wei
            fate := .pending } releaseId → releaseId = release.id := by
        rintro releaseId ⟨escrowId, amountWei, hcall⟩
        cases hcall
        rfl
      refine ⟨hI.broadcast ?_ ?_, ?_, ?_⟩
      · intro escrowId releaseId amountWei hcall
        cases hcall
        rcases hp.1.row with ⟨row, hrow, hescrow, hamount, hstatus⟩
        exact ⟨row, hrow, hescrow, by rw [hamount], fun _ => hstatus⟩
      · intro x hx _ releaseId hpays
        rw [hown releaseId hpays]
        exact hpayout x hx
      · intro x hx hpays
        rcases Table.mem_put hx with rfl | ⟨hmem, _⟩
        · rfl
        · exact absurd hpays (hpayout x hmem)
      · intro q _ hapart hq
        exact hq.broadcast fun r hr hpays => hapart r hr release rfl (hown r.id hpays)
  | givesBack hfind hok => exact keepsPayouts_of_same hI rfl rfl hpayout
  | givesNothingBack hrefused => exact keepsPayouts_of_same hI rfl rfl hpayout
  | failed =>
      refine keepsPayouts_of_saved (hI.saveRelease hp.1.pos ?_) trivial
      intro tx htx escrowId amountWei hcall
      have hdata := hI.of_stored hp.1 htx hcall
      have hdead := hpayout tx htx ⟨escrowId, amountWei, hcall⟩
      exact ⟨hdata.1, hdata.2, fun hlive => by rw [hlive] at hdead; cases hdead⟩
  | paid =>
      refine keepsPayouts_of_saved (hI.saveRelease hp.1.pos ?_) trivial
      intro tx htx escrowId amountWei hcall
      have hdata := hI.of_stored hp.1 htx hcall
      exact ⟨hdata.1, hdata.2, fun _ => hp.2⟩
  | claims => exact keepsPayouts_of_same hI rfl rfl trivial

theorem Happens.keepsPayouts {e : Event} (h : Happens store e store') (hI : PayoutsFaithful store) :
    PayoutsFaithful store' ∧ ∀ q : Process, q.Payout store → q.Payout store' := by
  cases h with
  | evolve hlookup hbecome =>
      exact ⟨hI.evolve hlookup hbecome, fun q hq => hq.evolve hlookup hbecome⟩
  | _ => exact ⟨hI.of_eq rfl rfl, fun q hq => hq.of_transactions rfl⟩

end Steps

/-! ## Sums -/

/-- The transaction is a mined payout of the session. -/
def Transaction.minedFrom (sid : SessionId) (tx : Transaction) : Bool :=
  match tx.call with
  | .settleBatch escrowId _ _ => escrowId = sid ∧ tx.fate.isMined = true
  | _ => false

/-- The row a payout belongs to. -/
def Store.rowOf (store : Store) (tx : Transaction) : Option EscrowRelease :=
  match tx.call with
  | .settleBatch _ releaseId _ => Table.lookup EscrowRelease.id store.releases releaseId
  | _ => none

theorem minedFrom_iff {sid : SessionId} {tx : Transaction} (h : tx.minedFrom sid = true) :
    ∃ releaseId amountWei, tx.call = .settleBatch sid releaseId amountWei ∧
      tx.fate.isMined = true ∧ tx.paidFrom sid = amountWei := by
  simp only [Transaction.minedFrom] at h
  split at h
  · rename_i escrowId releaseId amountWei hcall
    have hmined : escrowId = sid ∧ tx.fate.isMined = true := of_decide_eq_true h
    rcases hmined with ⟨rfl, hmined⟩
    exact ⟨releaseId, amountWei, hcall, hmined, by simp [Transaction.paidFrom, hcall, hmined]⟩
  · cases h

theorem paidFrom_eq_zero {sid : SessionId} {tx : Transaction} (h : tx.minedFrom sid = false) :
    tx.paidFrom sid = 0 := by
  simp only [Transaction.minedFrom] at h
  simp only [Transaction.paidFrom]
  split
  · rename_i escrowId releaseId amountWei hcall
    rw [hcall] at h
    exact if_neg (of_decide_eq_false h)
  · rfl

/-- The mined payouts of a session belong to different rows, all of which count. -/
theorem spentOnReleases_le {store : Store} (h : PayoutsFaithful store) (sid : SessionId) :
    store.spentOnReleases sid ≤ ((store.releasesOf sid).map (·.amount.wei)).sum := by
  have hmined : store.spentOnReleases sid =
      ((store.transactions.filter (Transaction.minedFrom sid)).map
        (Transaction.paidFrom sid)).sum :=
    sum_map_filter (fun _ _ _ => rfl) (fun _ _ hskip => paidFrom_eq_zero hskip)
  rw [hmined]
  refine sum_map_le_of_partner store.rowOf ?_ ?_ ?_
  · -- two payouts with the same row pay out the same release
    have hnodup : (store.transactions.filter (Transaction.minedFrom sid)).Nodup :=
      (List.Nodup.of_map Transaction.hash h.transactions).filter _
    refine hnodup.map_on ?_
    intro x hx y hy hrow
    rcases List.mem_filter.1 hx with ⟨hxmem, hxmined⟩
    rcases List.mem_filter.1 hy with ⟨hymem, hymined⟩
    rcases minedFrom_iff hxmined with ⟨rx, ax, hxcall, _, _⟩
    rcases minedFrom_iff hymined with ⟨ry, ay, hycall, _, _⟩
    rcases h.rows x hxmem sid rx ax hxcall with ⟨row, hxrow, _⟩
    simp only [Store.rowOf, hxcall, hycall] at hrow
    have hyrow : Table.lookup EscrowRelease.id store.releases ry = some row := hrow.symm.trans hxrow
    have hsame : rx = ry := (Table.key_of_lookup hxrow).symm.trans (Table.key_of_lookup hyrow)
    refine h.once x hxmem y hymem rx ⟨sid, ax, hxcall⟩ ⟨sid, ay, ?_⟩
    rw [hsame]
    exact hycall
  · intro tx htx
    rcases List.mem_filter.1 htx with ⟨hmem, hminedFrom⟩
    rcases minedFrom_iff hminedFrom with ⟨releaseId, amountWei, hcall, hisMined, hpaid⟩
    rcases h.rows tx hmem sid releaseId amountWei hcall with
      ⟨row, hrow, hescrow, hamount, hstatus⟩
    have hcompleted := hstatus (Fate.live_of_isMined hisMined)
    refine ⟨row, ?_, by rw [Store.rowOf, hcall]; exact hrow, by rw [hpaid, hamount]⟩
    refine List.mem_filter.2 ⟨Table.mem_of_lookup hrow, decide_eq_true ⟨hescrow, ?_⟩⟩
    rw [hcompleted]
    decide
  · exact fun row hrow => le_of_lt (h.pos row (List.mem_of_mem_filter hrow))

/-! ## Runs -/

theorem payouts_outline (cfg : Config) :
    Outline ((service cfg).restrict fun p reply store => waitsOut p reply store = true)
      PayoutsFaithful (fun s _ p => p.Owns s ∧ p.Payout s) Process.Apart := by
  refine outline_of (fun _ _ h => h.symm) ?_ ?_ ?_
  · intro id r s p hI hp
    refine ⟨⟨hp.owns.1, ?_⟩, fun k q _ => Process.apart_of_none hp.owns.2⟩
    cases hp with
    | _ => trivial
  · intro id p i s s' flow hG hI hA h
    have hrows := h.keepsRows hI.releases hA.1
    have hpayouts := h.keepsPayouts hG hI hA.1 hA.2
    refine ⟨hpayouts.faithful, ?_, ?_⟩
    · cases flow with
      | await q => exact ⟨hrows.self, hpayouts.self⟩
      | answer a => trivial
    · intro k q _ hq hapart
      have hothers := hrows.others q hq.1 hapart
      exact ⟨⟨hothers.1, hpayouts.others q hq.1 hapart hq.2⟩, hothers.2⟩
  · intro e s s' hI h
    have hkeeps := h.keepsPayouts hI
    exact ⟨hkeeps.1, fun k q hq => ⟨hq.1.of_releases h.releases, hkeeps.2 q hq.2⟩⟩

theorem empty_payoutsFaithful : PayoutsFaithful .empty where
  transactions := List.nodup_nil
  releases := List.nodup_nil
  rows := fun tx htx => by cases htx
  once := fun tx htx => by cases htx
  pos := fun row hrow => by cases hrow

/-- In every run in which no wait for a payout is given up while the payout may still be mined, a
release that is marked failed has no mined payout, now or later, and the hub has never spent more on
the releases of a session than its releases that have not failed. -/
theorem failed_release_not_paid {cfg : Config} {moves : List (Move Request Reply Event)}
    {c : Calls Store Process Answer}
    (h : run ((service cfg).restrict fun p reply store => waitsOut p reply store = true).step moves
      (.start .empty) = some c) :
    (∀ row ∈ c.store.releases, row.status = .failed →
      ∀ tx ∈ c.store.transactions, tx.pays row.id → tx.fate.isMined = false) ∧
    ∀ sid, c.store.spentOnReleases sid ≤ ((c.store.releasesOf sid).map (·.amount.wei)).sum := by
  have hc := (payouts_outline cfg).run (Calls.Annotated.start empty_payoutsFaithful) h
  refine ⟨?_, spentOnReleases_le hc.store⟩
  rintro row hrow hfailed tx htx ⟨escrowId, amountWei, hcall⟩
  by_contra hmined
  rcases hc.store.rows tx htx escrowId row.id amountWei hcall with ⟨stored, hstored, _, _, hstatus⟩
  rw [Table.lookup_of_mem hc.store.releases hrow] at hstored
  cases hstored
  rw [hstatus (Fate.live_of_isMined (by simpa using hmined))] at hfailed
  cases hfailed

/-- A payout is reverted, and the wait for it ends with that error; another one is mined. -/
def revertedPayout : List (Move Request Reply Event) :=
  [.call 1 (.release 1 (releaseOf "0.25")), .resume 1 .done, .resume 1 (.inserted 1),
    .resume 1 (.sent 100), .external (.evolve 100 .reverted), .resume 1 (.failed "reverted"),
    .resume 1 .done, .resume 1 .done, .call 2 (.release 1 (releaseOf "0.5")), .resume 2 .done,
    .resume 2 (.inserted 2), .resume 2 (.sent 101), .external (.evolve 101 (.mined 1))]

theorem failed_release_not_paid_revertedPayout :
    ∃ c, run ((service sampleConfig).restrict
          fun p reply store => waitsOut p reply store = true).step (opened ++ revertedPayout)
        (.start .empty) = some c ∧
      c.store.releases.any (fun row => row.status = .failed) = true ∧
      c.store.spentOnReleases 1 = 500000000000000000 ∧
      c.store.spentOnReleases 1 ≤ ((c.store.releasesOf 1).map (·.amount.wei)).sum := by
  have hreached : ((run ((service sampleConfig).restrict
        fun p reply store => waitsOut p reply store = true).step (opened ++ revertedPayout)
      (.start .empty)).any fun c => c.store.releases.any (fun row => row.status = .failed) &&
        c.store.spentOnReleases 1 = 500000000000000000) = true := by
    decide +kernel
  rcases (Option.any_eq_true _ _).1 hreached with ⟨c, hc, hstate⟩
  rcases Bool.and_eq_true_iff.1 hstate with ⟨hfailed, hspent⟩
  exact ⟨c, hc, hfailed, of_decide_eq_true hspent, (failed_release_not_paid hc).2 1⟩

/-- The wait for a payout times out while it is pending; the payout is mined later. -/
def latePayout : List (Move Request Reply Event) :=
  [.call 1 (.release 1 (releaseOf "0.5")), .resume 1 .done, .resume 1 (.inserted 1),
    .resume 1 (.sent 100), .resume 1 (.failed "timeout"), .resume 1 .done, .resume 1 .done,
    .external (.evolve 100 (.mined 1))]

/-- Without the condition a release is marked failed, its amount is back in the session, and the
payee is paid. -/
theorem failed_release_paid_late :
    ¬ ∀ (cfg : Config) (moves : List (Move Request Reply Event)) (c : Calls Store Process Answer),
      run (service cfg).step moves (.start .empty) = some c →
        ∀ row ∈ c.store.releases, row.status = .failed →
          ∀ tx ∈ c.store.transactions, tx.pays row.id → tx.fate.isMined = false := by
  intro hclaim
  have hreached : ((run (service sampleConfig).step (opened ++ latePayout) (.start .empty)).any
      fun c => c.store.releases.any fun row => row.status = .failed &&
        c.store.transactions.any fun tx =>
          tx.call = .settleBatch 1 row.id row.amount.wei && tx.fate.isMined) = true := by
    decide +kernel
  rcases (Option.any_eq_true _ _).1 hreached with ⟨c, hc, hrows⟩
  rcases List.any_eq_true.1 hrows with ⟨row, hrow, hstate⟩
  rcases Bool.and_eq_true_iff.1 hstate with ⟨hfailed, htxs⟩
  rcases List.any_eq_true.1 htxs with ⟨tx, htx, hpaid⟩
  rcases Bool.and_eq_true_iff.1 hpaid with ⟨hcall, hmined⟩
  have hnot := hclaim _ _ c hc row hrow (of_decide_eq_true hfailed) tx htx
    ⟨1, row.amount.wei, of_decide_eq_true hcall⟩
  rw [hnot] at hmined
  cases hmined

end Escrow
end PaymentRail
