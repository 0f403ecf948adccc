import Mathlib.Algebra.BigOperators.Group.Finset.Piecewise
import Mathlib.Algebra.Order.BigOperators.Group.Finset
import Mathlib.Data.Fintype.Basic
import Mathlib.Tactic.Simps.Basic
import PaymentRail.Contracts.EscrowHub

/-!
# EscrowLedger — what a history of escrow entries means

The abstract side of `EscrowHub`: a history is a list of entries, newest first.

* `replay` rebuilds every session from a history;
* `Legal` says which entry may follow which history: an escrow is opened once, paid while it is
  active and undisputed and within deposit and budget, and closed once with exactly the rest;
* `booked` is the ether a legal history leaves on the hub.

The file proves what legality alone implies.  No contract code occurs in it; that the contract
only ever produces legal histories is shown in `EscrowHubSafety`.
-/

namespace PaymentRail
namespace Contracts

open scoped BigOperators

/-! ## Replay -/

namespace EscrowSession

@[simps] def spend (s : EscrowSession) (amount : Nat) : EscrowSession :=
  { s with spent := s.spent + amount }

@[simps] def deactivate (s : EscrowSession) : EscrowSession := { s with active := false }

@[simps] def dispute (s : EscrowSession) : EscrowSession := { s with disputed := true }

end EscrowSession

def Entry.apply (sessions : Bytes32 → EscrowSession) : Entry → Bytes32 → EscrowSession
  | .opened id session => Function.update sessions id session
  | .paid id _ payout fee =>
      -- `spent` grows by the whole amount, the withheld fee included
      Function.update sessions id ((sessions id).spend (payout + fee))
  | .closed id _ _ => Function.update sessions id (sessions id).deactivate
  | .frozen id => Function.update sessions id (sessions id).dispute
  | .received _ => sessions

def replay : List Entry → Bytes32 → EscrowSession
  | [] => fun _ => EscrowSession.unset
  | e :: es => e.apply (replay es)

/-- The escrow an entry is about. -/
def Entry.escrowId? : Entry → Option Bytes32
  | .opened id _ => some id
  | .paid id _ _ _ => some id
  | .closed id _ _ => some id
  | .frozen id => some id
  | .received _ => none

/-- `e` may follow the history `es`. -/
def Entry.Legal (es : List Entry) : Entry → Prop
  | .opened id session =>
      (replay es id).createdAt = 0 ∧ session.createdAt ≠ 0 ∧ session.spent = 0 ∧
        session.active = true ∧ session.disputed = false
  | .paid id payee payout fee =>
      (replay es id).active = true ∧ (replay es id).disputed = false ∧
        payee = (replay es id).agentB ∧
        (replay es id).spent + (payout + fee) ≤ (replay es id).deposit ∧
        (replay es id).spent + (payout + fee) ≤ (replay es id).budgetLimit
  | .closed id payer refund =>
      (replay es id).active = true ∧ payer = (replay es id).agentA ∧
        refund = (replay es id).deposit - (replay es id).spent
  | .frozen id => (replay es id).active = true
  | .received _ => True

def Legal : List Entry → Prop
  | [] => True
  | e :: es => e.Legal es ∧ Legal es

theorem Legal.of_append {later earlier : List Entry} (h : Legal (later ++ earlier)) :
    Legal earlier := by
  induction later with
  | nil =>
      exact h
  | cons e later ih =>
      exact ih h.2

/-- An entry about another escrow leaves the session alone. -/
theorem replay_cons_of_ne {e : Entry} {es : List Entry} {id : Bytes32}
    (h : e.escrowId? ≠ some id) : replay (e :: es) id = replay es id := by
  cases e with
  | received amount =>
      rfl
  | _ =>
      have hne : ∀ {k : Bytes32}, some k ≠ some id → id ≠ k := by
        intro k hk hEq
        exact hk (by rw [hEq])
      simp [replay, Entry.apply, Function.update_of_ne (hne h)]

/-! ## Sessions of a legal history -/

/-- What one legal entry turns a session `s` of `id` into: it leaves it alone, opens it, or changes
it while it is active. -/
inductive Entry.Turns (id : Bytes32) (s : EscrowSession) : Entry → EscrowSession → Prop
  | other {e : Entry} (about : e.escrowId? ≠ some id) : Turns id s e s
  | opened {session : EscrowSession} (fresh : s.createdAt = 0) (created : session.createdAt ≠ 0)
      (unspent : session.spent = 0) : Turns id s (.opened id session) session
  | paid {payee : Address} {payout fee : Nat} (active : s.active = true)
      (undisputed : s.disputed = false) (inDeposit : s.spent + (payout + fee) ≤ s.deposit)
      (inBudget : s.spent + (payout + fee) ≤ s.budgetLimit) :
      Turns id s (.paid id payee payout fee) (s.spend (payout + fee))
  | closed {refund : Nat} (active : s.active = true) (rest : refund = s.deposit - s.spent) :
      Turns id s (.closed id s.agentA refund) s.deactivate
  | frozen (active : s.active = true) : Turns id s (.frozen id) s.dispute

/-- The one place where entries are taken apart; the inductions below go by these five cases. -/
theorem turns_of_legal {e : Entry} {es : List Entry} (he : e.Legal es) (id : Bytes32) :
    e.Turns id (replay es id) (replay (e :: es) id) := by
  by_cases hid : e.escrowId? = some id
  · cases e with
    | opened k session =>
        obtain rfl : k = id := by simpa [Entry.escrowId?] using hid
        simpa [replay, Entry.apply] using Entry.Turns.opened he.1 he.2.1 he.2.2.1
    | paid k payee payout fee =>
        obtain rfl : k = id := by simpa [Entry.escrowId?] using hid
        simpa [replay, Entry.apply] using
          Entry.Turns.paid he.1 he.2.1 he.2.2.2.1 he.2.2.2.2
    | closed k payer refund =>
        obtain rfl : k = id := by simpa [Entry.escrowId?] using hid
        obtain rfl : payer = (replay es k).agentA := he.2.1
        simpa [replay, Entry.apply] using Entry.Turns.closed he.1 he.2.2
    | frozen k =>
        obtain rfl : k = id := by simpa [Entry.escrowId?] using hid
        simpa [replay, Entry.apply] using Entry.Turns.frozen he
    | received amount =>
        cases hid
  · rw [replay_cons_of_ne hid]
    exact .other hid

/-- The part of a session that `openEscrow` fixes. -/
structure SameTerms (s t : EscrowSession) : Prop where
  agentA : s.agentA = t.agentA
  agentB : s.agentB = t.agentB
  deposit : s.deposit = t.deposit
  budgetLimit : s.budgetLimit = t.budgetLimit
  ttl : s.ttl = t.ttl
  createdAt : s.createdAt = t.createdAt

namespace SameTerms

theorem refl (s : EscrowSession) : SameTerms s s := ⟨rfl, rfl, rfl, rfl, rfl, rfl⟩

theorem trans {s t u : EscrowSession} (h : SameTerms s t) (h' : SameTerms t u) :
    SameTerms s u :=
  ⟨h.agentA.trans h'.agentA, h.agentB.trans h'.agentB, h.deposit.trans h'.deposit,
    h.budgetLimit.trans h'.budgetLimit, h.ttl.trans h'.ttl, h.createdAt.trans h'.createdAt⟩

end SameTerms

/-- An open session keeps its terms over an entry. -/
theorem Entry.Turns.sameTerms {e : Entry} {id : Bytes32} {s s' : EscrowSession}
    (h : e.Turns id s s') (hopen : s.createdAt ≠ 0) : SameTerms s' s := by
  cases h with
  | opened fresh =>
      exact absurd fresh hopen
  | _ =>
      exact ⟨rfl, rfl, rfl, rfl, rfl, rfl⟩

/-- A session that was never opened has never been touched, so it is not active. -/
theorem replay_unset {es : List Entry} (hes : Legal es) {id : Bytes32}
    (h : (replay es id).createdAt = 0) : replay es id = EscrowSession.unset := by
  induction es with
  | nil =>
      rfl
  | cons e es ih =>
      -- an entry that needs `id` active needs it opened before
      have hbefore : (replay es id).active = true → (replay es id).createdAt ≠ 0 := by
        intro hactive hzero
        rw [ih hes.2 hzero] at hactive
        cases hactive
      have hturn := turns_of_legal hes.1 id
      generalize replay (e :: es) id = s' at hturn h ⊢
      cases hturn with
      | other =>
          exact ih hes.2 h
      | opened _ created =>
          exact absurd h created
      | paid active =>
          exact absurd h (hbefore active)
      | closed active =>
          exact absurd h (hbefore active)
      | frozen active =>
          exact absurd h (hbefore active)

theorem createdAt_ne_zero_of_active {es : List Entry} (hes : Legal es) {id : Bytes32}
    (h : (replay es id).active = true) : (replay es id).createdAt ≠ 0 := by
  intro hzero
  rw [replay_unset hes hzero] at h
  cases h

/-- Spending stays within the deposit and the budget. -/
theorem spent_le {es : List Entry} (hes : Legal es) (id : Bytes32) :
    (replay es id).spent ≤ (replay es id).deposit ∧
      (replay es id).spent ≤ (replay es id).budgetLimit := by
  induction es with
  | nil =>
      simp [replay, EscrowSession.unset]
  | cons e es ih =>
      have hturn := turns_of_legal hes.1 id
      generalize replay (e :: es) id = s' at hturn ⊢
      cases hturn with
      | opened _ _ unspent =>
          simp [unspent]
      | paid _ _ inDeposit inBudget =>
          -- the two `require`s of the payment are about the value written to `spent`
          exact ⟨inDeposit, inBudget⟩
      | _ =>
          exact ih hes.2

/-! ## What later entries cannot undo

In the lemmas of this section `earlier` is a history and `later ++ earlier` a continuation of it.
-/

section Later

variable {later earlier : List Entry} {id : Bytes32}

theorem sameTerms_later (h : Legal (later ++ earlier))
    (hopen : (replay earlier id).createdAt ≠ 0) :
    SameTerms (replay (later ++ earlier) id) (replay earlier id) := by
  induction later with
  | nil =>
      exact SameTerms.refl _
  | cons e later ih =>
      have hterms := ih h.2
      have hopen' : (replay (later ++ earlier) id).createdAt ≠ 0 := by
        rw [hterms.createdAt]
        exact hopen
      have hstep := (turns_of_legal h.1 id).sameTerms hopen'
      exact hstep.trans hterms

/-- A closed escrow is never the subject of an entry again. -/
theorem not_about_later (h : Legal (later ++ earlier))
    (hopen : (replay earlier id).createdAt ≠ 0) (hclosed : (replay earlier id).active = false) :
    replay (later ++ earlier) id = replay earlier id ∧ ∀ e ∈ later, e.escrowId? ≠ some id := by
  induction later with
  | nil =>
      simp
  | cons e later ih =>
      rcases ih h.2 with ⟨hsame, habout⟩
      have hidle : (replay (later ++ earlier) id).active ≠ true := by
        rw [hsame, hclosed]
        exact Bool.false_ne_true
      have hturn : e.Turns id (replay (later ++ earlier) id)
          (replay (e :: later ++ earlier) id) := turns_of_legal h.1 id
      generalize replay (e :: later ++ earlier) id = s' at hturn ⊢
      cases hturn with
      | other hne =>
          exact ⟨hsame, List.forall_mem_cons.2 ⟨hne, habout⟩⟩
      | opened fresh =>
          rw [hsame] at fresh
          exact absurd fresh hopen
      | paid active =>
          exact absurd active hidle
      | closed active =>
          exact absurd active hidle
      | frozen active =>
          exact absurd active hidle

/-- A disputed escrow stays disputed and pays nothing more. -/
theorem not_paid_later (h : Legal (later ++ earlier))
    (hopen : (replay earlier id).createdAt ≠ 0) (hdisputed : (replay earlier id).disputed = true) :
    (replay (later ++ earlier) id).spent = (replay earlier id).spent ∧
      (replay (later ++ earlier) id).disputed = true ∧
      ∀ payee payout fee, Entry.paid id payee payout fee ∉ later := by
  induction later with
  | nil =>
      simpa using hdisputed
  | cons e later ih =>
      rcases ih h.2 with ⟨hspent, hstill, hpaid⟩
      have hopen' : (replay (later ++ earlier) id).createdAt ≠ 0 := by
        rw [(sameTerms_later h.2 hopen).createdAt]
        exact hopen
      have hturn : e.Turns id (replay (later ++ earlier) id)
          (replay (e :: later ++ earlier) id) := turns_of_legal h.1 id
      generalize replay (e :: later ++ earlier) id = s' at hturn ⊢
      cases hturn with
      | other hne =>
          refine ⟨hspent, hstill, ?_⟩
          intro payee payout fee hmem
          rcases List.mem_cons.1 hmem with rfl | hmem
          · exact hne rfl
          · exact hpaid _ _ _ hmem
      | opened fresh =>
          exact absurd fresh hopen'
      | paid _ undisputed =>
          rw [hstill] at undisputed
          cases undisputed
      | closed =>
          -- a disputed escrow can still be closed; that spends nothing
          exact ⟨hspent, hstill, by simpa using hpaid⟩
      | frozen =>
          exact ⟨hspent, rfl, by simpa using hpaid⟩

end Later

/-! ## Money of one escrow -/

/-- Wei paid to the payee of `id` by an entry. -/
def Entry.payoutOf (id : Bytes32) : Entry → Nat
  | .paid k _ payout _ => if k = id then payout else 0
  | _ => 0

/-- Wei of fees withheld from the payouts of `id` by an entry. -/
def Entry.feeOf (id : Bytes32) : Entry → Nat
  | .paid k _ _ fee => if k = id then fee else 0
  | _ => 0

/-- The refund transfer an entry makes for `id`; closing with nothing left transfers nothing. -/
def Entry.refundOf (id : Bytes32) : Entry → Option (Address × Nat)
  | .closed k payer refund => if k = id ∧ 0 < refund then some (payer, refund) else none
  | _ => none

def payouts (id : Bytes32) (es : List Entry) : Nat := (es.map (Entry.payoutOf id)).sum

def fees (id : Bytes32) (es : List Entry) : Nat := (es.map (Entry.feeOf id)).sum

def refunds (id : Bytes32) (es : List Entry) : List (Address × Nat) :=
  es.filterMap (Entry.refundOf id)

/-- All wei that left the hub on behalf of `id`. -/
def outflow (id : Bytes32) (es : List Entry) : Nat :=
  payouts id es + ((refunds id es).map Prod.snd).sum

/-- The wei an entry moves from escrow `id` to `account`, whatever its role. -/
def Entry.weiTo (id : Bytes32) (account : Address) : Entry → Nat
  | .paid k payee payout _ => if k = id ∧ payee = account then payout else 0
  | .closed k payer refund => if k = id ∧ payer = account then refund else 0
  | _ => 0

def weiTo (id : Bytes32) (account : Address) (es : List Entry) : Nat :=
  (es.map (Entry.weiTo id account)).sum

@[simp] theorem weiTo_cons (id : Bytes32) (account : Address) (e : Entry) (es : List Entry) :
    weiTo id account (e :: es) = e.weiTo id account + weiTo id account es := rfl

theorem not_about_moves_nothing {e : Entry} {id : Bytes32} (h : e.escrowId? ≠ some id) :
    e.payoutOf id = 0 ∧ e.feeOf id = 0 ∧ e.refundOf id = none := by
  cases e with
  | opened k session =>
      exact ⟨rfl, rfl, rfl⟩
  | paid k payee payout fee =>
      have hk : k ≠ id := fun hEq => h (by simp [Entry.escrowId?, hEq])
      simp [Entry.payoutOf, Entry.feeOf, Entry.refundOf, hk]
  | closed k payer refund =>
      have hk : k ≠ id := fun hEq => h (by simp [Entry.escrowId?, hEq])
      simp [Entry.payoutOf, Entry.feeOf, Entry.refundOf, hk]
  | frozen k =>
      exact ⟨rfl, rfl, rfl⟩
  | received amount =>
      exact ⟨rfl, rfl, rfl⟩

theorem outflow_eq_zero {es : List Entry} {id : Bytes32}
    (h : ∀ e ∈ es, e.escrowId? ≠ some id) : outflow id es = 0 := by
  induction es with
  | nil =>
      rfl
  | cons e es ih =>
      have hrest := ih (fun e' he' => h e' (by simp [he']))
      rcases not_about_moves_nothing (h e (by simp)) with ⟨hpayout, _, hrefund⟩
      simpa [outflow, payouts, refunds, hpayout, hrefund] using hrest

/-- Payouts and fees of an escrow add up to what it has spent. -/
theorem payouts_add_fees {es : List Entry} (hes : Legal es) (id : Bytes32) :
    payouts id es + fees id es = (replay es id).spent := by
  induction es with
  | nil =>
      rfl
  | cons e es ih =>
      have hrest := ih hes.2
      have hturn := turns_of_legal hes.1 id
      generalize replay (e :: es) id = s' at hturn ⊢
      cases hturn with
      | other hne =>
          rcases not_about_moves_nothing hne with ⟨hpayout, hfee, _⟩
          simpa [payouts, fees, hpayout, hfee] using hrest
      | opened fresh _ unspent =>
          -- before its opening the escrow had spent nothing
          rw [replay_unset hes.2 fresh] at hrest
          simpa [payouts, fees, Entry.payoutOf, Entry.feeOf, unspent, EscrowSession.unset]
            using hrest
      | paid =>
          simp only [payouts, fees, List.map_cons, List.sum_cons, Entry.payoutOf, Entry.feeOf,
            if_true, EscrowSession.spend_spent] at hrest ⊢
          omega
      | closed =>
          simpa [payouts, fees, Entry.payoutOf, Entry.feeOf] using hrest
      | frozen =>
          simpa [payouts, fees, Entry.payoutOf, Entry.feeOf] using hrest

/-- Every payout of an escrow goes to its payee. -/
theorem paid_to_agentB {es : List Entry} (hes : Legal es) {id : Bytes32} {payee : Address}
    {payout fee : Nat} (hmem : Entry.paid id payee payout fee ∈ es) :
    payee = (replay es id).agentB := by
  -- at the moment of the payment the payee was `agentB`, and the terms have not changed since
  obtain ⟨later, earlier, rfl⟩ := List.append_of_mem hmem
  have hpaid : Legal (Entry.paid id payee payout fee :: earlier) := Legal.of_append hes
  have hopen := createdAt_ne_zero_of_active hpaid.2 hpaid.1.1
  have hsplit : later ++ Entry.paid id payee payout fee :: earlier =
      (later ++ [Entry.paid id payee payout fee]) ++ earlier := by simp
  rw [hsplit] at hes ⊢
  rw [(sameTerms_later hes hopen).agentB]
  exact hpaid.1.2.2.1

/-- While an escrow is active it has not been refunded. -/
theorem refunds_eq_nil_of_active {es : List Entry} (hes : Legal es) {id : Bytes32}
    (h : (replay es id).active = true ∨ (replay es id).createdAt = 0) : refunds id es = [] := by
  induction es with
  | nil =>
      rfl
  | cons e es ih =>
      have hturn := turns_of_legal hes.1 id
      generalize replay (e :: es) id = s' at hturn h
      cases hturn with
      | other hne =>
          rcases not_about_moves_nothing hne with ⟨_, _, hrefund⟩
          simpa [refunds, hrefund] using ih hes.2 h
      | opened fresh =>
          exact ih hes.2 (Or.inr fresh)
      | paid active =>
          exact ih hes.2 (Or.inl active)
      | closed active =>
          -- a closed session is neither active nor unopened
          have hopen := createdAt_ne_zero_of_active hes.2 active
          rcases h with h | h
          · cases h
          · exact absurd h hopen
      | frozen active =>
          exact ih hes.2 (Or.inl active)

/-- The first refund: the escrow was active until now. -/
theorem refunds_closed {es : List Entry} (hes : Legal es) {id : Bytes32} {payer : Address}
    {refund : Nat} (hactive : (replay es id).active = true) :
    refunds id (.closed id payer refund :: es) = if 0 < refund then [(payer, refund)] else [] := by
  have hnil : refunds id es = [] := refunds_eq_nil_of_active hes (Or.inl hactive)
  simp only [refunds] at hnil
  by_cases hpos : 0 < refund
  · simp [refunds, Entry.refundOf, hpos, hnil]
  · simp [refunds, Entry.refundOf, hpos, hnil]

/-- At most one refund is made, to the payer, of exactly what was left. -/
theorem refunds_spec {es : List Entry} (hes : Legal es) (id : Bytes32) :
    (refunds id es).length ≤ 1 ∧
      ∀ r ∈ refunds id es,
        r = ((replay es id).agentA, (replay es id).deposit - (replay es id).spent) := by
  induction es with
  | nil =>
      simp [refunds]
  | cons e es ih =>
      have hturn := turns_of_legal hes.1 id
      generalize replay (e :: es) id = s' at hturn ⊢
      cases hturn with
      | other hne =>
          rcases not_about_moves_nothing hne with ⟨_, _, hrefund⟩
          simpa [refunds, hrefund] using ih hes.2
      | opened fresh =>
          have hnil : refunds id (.opened id s' :: es) = [] :=
            refunds_eq_nil_of_active hes.2 (Or.inr fresh)
          simp [hnil]
      | @paid payee payout fee active =>
          have hnil : refunds id (.paid id payee payout fee :: es) = [] :=
            refunds_eq_nil_of_active hes.2 (Or.inl active)
          simp [hnil]
      | @closed refund active rest =>
          rw [refunds_closed hes.2 active]
          split
          · simp [rest]
          · simp
      | frozen active =>
          have hnil : refunds id (.frozen id :: es) = [] :=
            refunds_eq_nil_of_active hes.2 (Or.inl active)
          simp [hnil]

/-- What a closed escrow has refunded is what was left, also when that was nothing. -/
theorem refunded_of_closed {es : List Entry} (hes : Legal es) {id : Bytes32}
    (hopen : (replay es id).createdAt ≠ 0) (hclosed : (replay es id).active = false) :
    ((refunds id es).map Prod.snd).sum = (replay es id).deposit - (replay es id).spent := by
  induction es with
  | nil =>
      exact absurd rfl hopen
  | cons e es ih =>
      have hturn := turns_of_legal hes.1 id
      generalize replay (e :: es) id = s' at hturn hopen hclosed ⊢
      cases hturn with
      | other hne =>
          rcases not_about_moves_nothing hne with ⟨_, _, hrefund⟩
          simpa [refunds, hrefund] using ih hes.2 hopen hclosed
      | opened fresh =>
          rw [hes.1.2.2.2.1] at hclosed
          cases hclosed
      | paid active =>
          rw [EscrowSession.spend_active, active] at hclosed
          cases hclosed
      | @closed refund active rest =>
          rw [refunds_closed hes.2 active, EscrowSession.deactivate_deposit,
            EscrowSession.deactivate_spent, ← rest]
          by_cases hpos : 0 < refund
          · simp [hpos]
          · simp [Nat.eq_zero_of_not_pos hpos]
      | frozen active =>
          rw [EscrowSession.dispute_active, active] at hclosed
          cases hclosed

/-! ## Money of the whole hub -/

/-- What a session still holds for its two agents. -/
def EscrowSession.held (s : EscrowSession) : Nat :=
  if s.active = true then s.deposit - s.spent else 0

def Entry.fee : Entry → Nat
  | .paid _ _ _ fee => fee
  | _ => 0

def Entry.plain : Entry → Nat
  | .received amount => amount
  | _ => 0

/-- Sum of deposit minus spent over the active escrows. -/
@[irreducible] noncomputable def heldTotal (sessions : Bytes32 → EscrowSession) : Nat :=
  ∑ id, (sessions id).held

def feesWithheld (es : List Entry) : Nat := (es.map Entry.fee).sum

def plainTransfers (es : List Entry) : Nat := (es.map Entry.plain).sum

/-- The ether a history leaves on the hub. -/
noncomputable def booked (es : List Entry) : Nat :=
  heldTotal (replay es) + feesWithheld es + plainTransfers es

/-- Writing one session moves the total by the difference of what it holds. -/
theorem heldTotal_update (sessions : Bytes32 → EscrowSession) (id : Bytes32) (s : EscrowSession) :
    heldTotal (Function.update sessions id s) + (sessions id).held =
      heldTotal sessions + s.held := by
  have hupdate : (fun k => (Function.update sessions id s k).held) =
      Function.update (fun k => (sessions k).held) id s.held := by
    funext k
    by_cases hk : k = id
    · subst hk
      simp
    · simp [Function.update_of_ne hk]
  -- both totals are the sum over the other ids plus one term
  have hnew := Finset.sum_update_of_mem (Finset.mem_univ id) (fun k => (sessions k).held) s.held
  have hold := Finset.add_sum_erase Finset.univ (fun k => (sessions k).held) (Finset.mem_univ id)
  have hset : (Finset.univ : Finset Bytes32) \ {id} = Finset.univ.erase id :=
    Finset.sdiff_singleton_eq_erase id Finset.univ
  unfold heldTotal
  rw [hupdate, hnew, hset]
  omega

/-- Effect of a legal entry on the ether the hub should hold: deposits and plain transfers come
in, payouts and refunds go out, a fee stays. -/
theorem booked_cons {e : Entry} {es : List Entry} (hes : Legal (e :: es)) :
    match e with
    | .opened _ session => booked (e :: es) = booked es + session.deposit
    | .paid _ _ payout _ => booked (e :: es) + payout = booked es
    | .closed _ _ refund => booked (e :: es) + refund = booked es
    | .frozen _ => booked (e :: es) = booked es
    | .received amount => booked (e :: es) = booked es + amount := by
  cases e with
  | opened id session =>
      -- an id that was never used held nothing before
      have hsum := heldTotal_update (replay es) id session
      have hold : (replay es id).held = 0 := by
        rw [replay_unset hes.2 hes.1.1]
        rfl
      have hnew : session.held = session.deposit := by
        simp [EscrowSession.held, hes.1.2.2.2.1, hes.1.2.2.1]
      simp only [booked, replay, Entry.apply, feesWithheld, plainTransfers, List.map_cons,
        List.sum_cons, Entry.fee, Entry.plain]
      omega
  | paid id payee payout fee =>
      -- what is held falls by `payout + fee`, the fees rise by `fee`
      have hsum := heldTotal_update (replay es) id ((replay es id).spend (payout + fee))
      have hactive : (replay es id).active = true := hes.1.1
      have hdeposit : (replay es id).spent + (payout + fee) ≤ (replay es id).deposit :=
        hes.1.2.2.2.1
      have hold : (replay es id).held = (replay es id).deposit - (replay es id).spent := by
        simp [EscrowSession.held, hactive]
      have hnew : ((replay es id).spend (payout + fee)).held =
          (replay es id).deposit - ((replay es id).spent + (payout + fee)) := by
        simp [EscrowSession.held, EscrowSession.spend, hactive]
      simp only [booked, replay, Entry.apply, feesWithheld, plainTransfers, List.map_cons,
        List.sum_cons, Entry.fee, Entry.plain]
      omega
  | closed id payer refund =>
      -- all that was held leaves as the refund
      have hsum := heldTotal_update (replay es) id (replay es id).deactivate
      have hrefund : refund = (replay es id).deposit - (replay es id).spent := hes.1.2.2
      have hold : (replay es id).held = (replay es id).deposit - (replay es id).spent := by
        simp [EscrowSession.held, hes.1.1]
      have hnew : (replay es id).deactivate.held = 0 := by
        simp [EscrowSession.held, EscrowSession.deactivate]
      simp only [booked, replay, Entry.apply, feesWithheld, plainTransfers, List.map_cons,
        List.sum_cons, Entry.fee, Entry.plain]
      omega
  | frozen id =>
      have hsum := heldTotal_update (replay es) id (replay es id).dispute
      have hsame : (replay es id).dispute.held = (replay es id).held := rfl
      simp only [booked, replay, Entry.apply, feesWithheld, plainTransfers, List.map_cons,
        List.sum_cons, Entry.fee, Entry.plain]
      omega
  | received amount =>
      simp only [booked, replay, Entry.apply, feesWithheld, plainTransfers, List.map_cons,
        List.sum_cons, Entry.fee, Entry.plain]
      omega

/-- Some of the sessions hold no more than all of them. -/
theorem sum_held_le_heldTotal (sessions : Bytes32 → EscrowSession) {ids : List Bytes32}
    (hids : ids.Nodup) : (ids.map fun id => (sessions id).held).sum ≤ heldTotal sessions := by
  unfold heldTotal
  rw [← List.sum_toFinset (fun id => (sessions id).held) hids]
  exact Finset.sum_le_sum_of_subset (Finset.subset_univ _)

theorem heldTotal_unset : heldTotal (fun _ => EscrowSession.unset) = 0 := by
  unfold heldTotal
  refine Finset.sum_eq_zero ?_
  intro id _
  simp [EscrowSession.held, EscrowSession.unset]

theorem booked_nil : booked [] = 0 := by
  have hreplay : replay [] = fun _ => EscrowSession.unset := rfl
  rw [booked, hreplay, heldTotal_unset]
  simp [feesWithheld, plainTransfers]

end Contracts
end PaymentRail
