import PaymentRail.Contracts.EscrowTransactions

/-!
# PayeeDeadline — what the payee can take by its own calls after the TTL

`claimStream` is the function made for the payee: it checks that the sender is `agentB` and that the
TTL has not passed.  The guarantee one expects from these checks is about the whole contract: after
the TTL no call of `agentB` itself moves wei of its escrow to it (`Unpaid`).

`settleBatch` reaches the same payout and looks neither at the sender nor at the time, so the
guarantee fails exactly for the calls `Call.Pays` names (`payee_unpaid_iff`).
-/

namespace PaymentRail
namespace Contracts

open Machine

/-! ## Wei that left an escrow -/

/-- Between the two worlds neither `spent` of the escrow grew nor did it pay `account`. -/
structure Unpaid (id : Bytes32) (account : Address) (w w' : World) : Prop where
  spent : (w'.escrows id).spent ≤ (w.escrows id).spent
  wei : weiTo id account w'.ledger ≤ weiTo id account w.ledger

/-! ## The effect of one call -/

/-- A call reverts, or it leaves the entry it books, what the entry says of the sessions, and at most
a `receive` on top of it. -/
inductive Called (now : Nat) (msg : Msg) (c : Call) (w w' : World) : Prop
  | reverted (message : String) : exec now msg c w = .error message → w' = w →
      Called now msg c w w'
  | booked (next : Next) (entry : Entry) : exec now msg c w = .ok next → c.Books now msg w entry →
      w'.escrows = entry.apply w.escrows →
      (∀ id account, weiTo id account w'.ledger = weiTo id account (entry :: w.ledger)) →
      Called now msg c w w'

theorem exec_entry {now : Nat} {msg : Msg} {c : Call} {w : World} {next : Next} (hw : Faithful w)
    (hnow : 0 < now) (h : exec now msg c w = .ok next) :
    ∃ entry, c.Books now msg w entry ∧ next.after.escrows = entry.apply w.escrows ∧
      next.after.ledger = entry :: w.ledger := by
  rcases exec_books h with ⟨entry, hbooks, hledger⟩
  refine ⟨entry, hbooks, ?_, hledger⟩
  rw [(exec_faithful hw hnow h).after.sessions, hledger, hw.sessions]
  rfl

theorem weiTo_received (id : Bytes32) (account : Address) (value : Nat) (es : List Entry) :
    weiTo id account (.received value :: es) = weiTo id account es := by
  simp [Entry.weiTo]

/-- The hub can always pay, so a call that passes its checks is carried out. -/
theorem called_of_step {self owner : Address} {funded parent delay : Nat} {s s' : State} {msg : Msg}
    {c : Call} (hs : Reachable self owner funded parent delay s)
    (h : step self (.call msg c) s = some s') : Called s.now msg c s.world s'.world := by
  have hw : Faithful s.world := hs.ok.worlds.1
  have hsolvent := (hub_solvent hs).2.2
  simp only [step] at h
  split at h
  · cases h
  · split at h
    · rename_i message hexec
      cases h
      exact .reverted message hexec rfl
    · rename_i w hexec
      cases h
      rcases exec_entry hw hs.ok.now hexec with ⟨entry, hbooks, hescrows, hledger⟩
      refine .booked _ entry hexec hbooks hescrows ?_
      intro id account
      rw [← hledger]
      rfl
    · rename_i w callee value entry resume hexec
      rcases exec_entry hw hs.ok.now hexec with ⟨entry', hbooks, hescrows, hledger⟩
      have hfunds : ¬ w.balance < value :=
        Nat.not_lt.2 (hsolvent msg c w callee value entry resume hexec)
      cases h
      refine .booked _ entry' hexec hbooks ?_ ?_
      · simp only [sendValue, if_neg hfunds]
        split
        · exact (escrows_resume resume).trans hescrows
        · exact hescrows
      · intro id account
        rw [← hledger]
        simp only [sendValue, if_neg hfunds]
        split
        -- a payout to the hub itself is received at once
        · calc weiTo id account (resume.run (receive value ((w.debit value).book entry))).ledger
              = weiTo id account (.received value :: ((w.debit value).book entry).ledger) := by
                rw [ledger_resume]
                rfl
            _ = weiTo id account ((w.debit value).book entry).ledger :=
                weiTo_received id account value _
        · rfl

/-! ## Calls of the payee after the TTL -/

/-- The calls that pay `agentB` of the escrow `id`, now a session with these fields, after its TTL: a
batch that passes the checks of `settleBatch`, and the payer closing an escrow it opened for
itself. -/
def Call.Pays (id : Bytes32) (msg : Msg) (w : World) : Call → Prop
  | .settleBatch k _ totalAmount =>
      k = id ∧ msg.value = 0 ∧ 0 < totalAmount ∧
        (w.escrows id).active = true ∧ (w.escrows id).disputed = false ∧
        (w.escrows id).spent + totalAmount ≤ (w.escrows id).budgetLimit ∧
        (w.escrows id).spent + totalAmount ≤ (w.escrows id).deposit ∧
        -- no arithmetic panic
        (w.escrows id).spent + totalAmount < 2 ^ 256 ∧ totalAmount * w.feePercent < 2 ^ 256
  | .closeEscrow k =>
      k = id ∧ msg.value = 0 ∧ (w.escrows id).active = true ∧
        (w.escrows id).agentA = (w.escrows id).agentB ∧ (w.escrows id).spent < (w.escrows id).deposit
  | _ => False

section Payments

variable {now : Nat} {msg : Msg} {w : World} {next : Next} {id k : Bytes32}

/-- The checks of a batch that is not reverted. -/
theorem pays_of_settleBatch {receiptsHash : Bytes32} {totalAmount : Nat}
    (h : exec now msg (.settleBatch id receiptsHash totalAmount) w = .ok next)
    (hpositive : 0 < totalAmount) :
    (Call.settleBatch id receiptsHash totalAmount).Pays id msg w := by
  simp only [exec, nonPayable, settleBatch, payAgentB, bind_eq_ok, require_eq_ok, checkedAdd_eq_ok,
    checkedMul_eq_ok, checkedSub_eq_ok, pure_eq_ok, exists_and_left, exists_const] at h
  obtain ⟨hvalue, hactive, hdisputed, spent, ⟨hspent, rfl⟩, hbudget, _, ⟨_, rfl⟩, hdeposit, _, ⟨hfee, _⟩,
    _⟩ := h
  exact ⟨rfl, hvalue, hpositive, hactive, hdisputed, hbudget, hdeposit, hspent, hfee⟩

theorem sender_of_closeEscrow (h : exec now msg (.closeEscrow id) w = .ok next) :
    msg.value = 0 ∧ (w.escrows id).active = true ∧ msg.sender = (w.escrows id).agentA := by
  simp only [exec, nonPayable, closeEscrow, bind_eq_ok, require_eq_ok, exists_and_left,
    exists_const] at h
  exact ⟨h.1, h.2.1, h.2.2.1⟩

theorem sender_of_emergencyClose (h : exec now msg (.emergencyClose id) w = .ok next) :
    msg.sender = w.owner := by
  simp only [exec, nonPayable, emergencyClose, bind_eq_ok, require_eq_ok, exists_and_left,
    exists_const] at h
  exact h.2.1

theorem in_time_of_claimStream {usageDelta : Nat}
    (h : exec now msg (.claimStream id usageDelta) w = .ok next) :
    now ≤ (w.escrows id).createdAt + (w.escrows id).ttl := by
  simp only [exec, nonPayable, claimStream, bind_eq_ok, require_eq_ok, checkedAdd_eq_ok,
    exists_and_left, exists_const] at h
  obtain ⟨_, _, _, _, _, ⟨_, rfl⟩, htime, _⟩ := h
  exact htime

/-- A batch that passes the checks is paid. -/
theorem settleBatch_of_pays (now : Nat) {receiptsHash : Bytes32} {totalAmount : Nat} (hw : Faithful w)
    (h : (Call.settleBatch k receiptsHash totalAmount).Pays id msg w) :
    ∃ next, exec now msg (.settleBatch k receiptsHash totalAmount) w = .ok next := by
  obtain ⟨rfl, hvalue, _, hactive, hdisputed, hbudget, hdeposit, hspent, hfee⟩ := h
  have hpercent : totalAmount * w.feePercent / 10000 ≤ totalAmount := by
    rw [hw.feePercent]
    omega
  simp only [exec, nonPayable, settleBatch, payAgentB, bind_eq_ok, require_eq_ok, checkedAdd_eq_ok,
    checkedMul_eq_ok, checkedSub_eq_ok, pure_eq_ok, exists_and_left, exists_const]
  exact ⟨hvalue, hactive, hdisputed, _, _, ⟨hspent, rfl⟩, hbudget, _, ⟨hspent, rfl⟩, hdeposit, _,
    ⟨hfee, rfl⟩, _, ⟨hpercent, rfl⟩, _, ⟨hspent, rfl⟩, rfl⟩

theorem closeEscrow_of_pays (now : Nat) (hpayee : msg.sender = (w.escrows id).agentB)
    (h : (Call.closeEscrow k).Pays id msg w) : ∃ next, exec now msg (.closeEscrow k) w = .ok next := by
  obtain ⟨rfl, hvalue, hactive, hself, hleft⟩ := h
  have hsender : msg.sender = (w.escrows k).agentA := hpayee.trans hself.symm
  simp only [exec, nonPayable, closeEscrow, refundAgentA, bind_eq_ok, require_eq_ok, checkedSub_eq_ok,
    exists_and_left, exists_const]
  exact ⟨hvalue, hactive, hsender, _, _, ⟨Nat.le_of_lt hleft, rfl⟩, if_pos (Nat.sub_pos_of_lt hleft)⟩

/-- An entry that is not about the escrow leaves its payee unpaid. -/
theorem unpaid_of_other {entry : Entry} {w' : World} {account : Address} (hw : Faithful w)
    (hescrows : w'.escrows = entry.apply w.escrows)
    (hwei : weiTo id account w'.ledger = weiTo id account (entry :: w.ledger))
    (hother : entry.escrowId? ≠ some id) : Unpaid id account w w' := by
  constructor
  · have hsame : w'.escrows id = w.escrows id := by
      rw [hescrows, hw.sessions]
      exact replay_cons_of_ne hother
    rw [hsame]
  · have hnothing : entry.weiTo id account = 0 := by
      cases entry with
      | paid j payee payout fee =>
          have hj : j ≠ id := fun hj => hother (by rw [hj]; rfl)
          simp [Entry.weiTo, hj]
      | closed j payer refund =>
          have hj : j ≠ id := fun hj => hother (by rw [hj]; rfl)
          simp [Entry.weiTo, hj]
      | _ => rfl
    rw [hwei, weiTo_cons, hnothing, Nat.zero_add]

end Payments

/-- After the TTL a call of the payee that is none of these leaves it unpaid. -/
theorem unpaid_of_not_pays {now : Nat} {msg : Msg} {c : Call} {w w' : World} {id : Bytes32}
    (hw : Faithful w) (hpayee : msg.sender = (w.escrows id).agentB)
    (howner : (w.escrows id).agentB ≠ w.owner)
    (hlate : (w.escrows id).createdAt + (w.escrows id).ttl < now)
    (hcalled : Called now msg c w w') (h : ¬ c.Pays id msg w) :
    Unpaid id (w.escrows id).agentB w w' := by
  rcases hcalled with ⟨message, _, rfl⟩ | ⟨next, entry, hexec, hbooks, hescrows, hwei⟩
  · exact ⟨Nat.le_refl _, Nat.le_refl _⟩
  by_cases hother : entry.escrowId? = some id
  swap
  · exact unpaid_of_other hw hescrows (hwei _ _) hother
  have hwei := hwei id (w.escrows id).agentB
  rw [hbooks.escrowId?] at hother
  cases c with
  | openEscrow k agentB budgetLimit verificationRequired ttl =>
      cases hother
      obtain ⟨_, rfl⟩ := hbooks
      refine ⟨?_, Nat.le_of_eq (hwei.trans (Nat.zero_add _))⟩
      rw [hescrows, Entry.apply, Function.update_self]
      exact Nat.zero_le _
  | settleBatch k receiptsHash totalAmount =>
      cases hother
      -- only a batch of nothing is left
      have hzero : totalAmount = 0 :=
        Nat.eq_zero_of_not_pos fun hpositive => h (pays_of_settleBatch hexec hpositive)
      obtain ⟨payout, fee, hamount, rfl⟩ := hbooks
      have hpayout : payout = 0 := by omega
      have hfee : fee = 0 := by omega
      subst hpayout hfee
      refine ⟨?_, ?_⟩
      · rw [hescrows, Entry.apply, Function.update_self]
        exact Nat.le_refl _
      · rw [hwei, weiTo_cons, Entry.weiTo, ite_self, Nat.zero_add]
  | claimStream k usageDelta =>
      cases hother
      exact absurd (in_time_of_claimStream hexec) (Nat.not_le.2 hlate)
  | closeEscrow k =>
      cases hother
      obtain ⟨hvalue, hactive, hsender⟩ := sender_of_closeEscrow hexec
      have hnothing : (w.escrows id).deposit - (w.escrows id).spent = 0 := by
        apply Nat.sub_eq_zero_of_le
        apply Nat.le_of_not_lt
        intro hleft
        exact h ⟨rfl, hvalue, hactive, hsender.symm.trans hpayee, hleft⟩
      obtain ⟨_, rfl⟩ := hbooks
      refine ⟨?_, ?_⟩
      · rw [hescrows, Entry.apply, Function.update_self]
        exact Nat.le_refl _
      · rw [hwei, weiTo_cons, Entry.weiTo, hnothing, ite_self, Nat.zero_add]
  | emergencyClose k =>
      exact absurd (hpayee.symm.trans (sender_of_emergencyClose hexec)) howner
  | freezeOnDispute k =>
      cases hother
      obtain rfl := hbooks
      refine ⟨?_, Nat.le_of_eq (hwei.trans (Nat.zero_add _))⟩
      rw [hescrows, Entry.apply, Function.update_self]
      exact Nat.le_refl _
  | receive =>
      cases hother

/-- The calls `Call.Pays` names do pay. -/
theorem not_unpaid_of_pays {now : Nat} {msg : Msg} {c : Call} {w w' : World} {id : Bytes32}
    (hw : Faithful w) (hpayee : msg.sender = (w.escrows id).agentB)
    (hcalled : Called now msg c w w') (h : c.Pays id msg w) :
    ¬ Unpaid id (w.escrows id).agentB w w' := by
  intro hunpaid
  cases c with
  | settleBatch k receiptsHash totalAmount =>
      rcases settleBatch_of_pays now hw h with ⟨next, hexec⟩
      obtain ⟨rfl, _, hpositive, _⟩ := h
      rcases hcalled with ⟨message, herror, _⟩ | ⟨_, entry, _, ⟨payout, fee, hamount, rfl⟩, hescrows, _⟩
      · rw [hexec] at herror
        cases herror
      · have hspent := hunpaid.spent
        rw [hescrows, Entry.apply, Function.update_self, hamount] at hspent
        have hgrown : (w.escrows k).spent + totalAmount ≤ (w.escrows k).spent := hspent
        omega
  | closeEscrow k =>
      rcases closeEscrow_of_pays now hpayee h with ⟨next, hexec⟩
      obtain ⟨rfl, _, _, hself, hleft⟩ := h
      rcases hcalled with ⟨message, herror, _⟩ | ⟨_, entry, _, ⟨_, rfl⟩, _, hwei⟩
      · rw [hexec] at herror
        cases herror
      · have hwei' := hunpaid.wei
        rw [hwei, weiTo_cons, Entry.weiTo, if_pos ⟨rfl, hself⟩] at hwei'
        omega
  | _ => exact h

/-- After the TTL a call of the payee leaves its escrow's `spent` and its own wei alone exactly when it
is neither a batch that passes the checks of `settleBatch` nor the refund of an escrow it opened for
itself. -/
theorem payee_unpaid_iff {self owner : Address} {funded parent delay : Nat} {s s' : State} {msg : Msg}
    {c : Call} {id : Bytes32} (hs : Reachable self owner funded parent delay s)
    (hpayee : msg.sender = (s.world.escrows id).agentB)
    (howner : (s.world.escrows id).agentB ≠ s.world.owner)
    (hlate : (s.world.escrows id).createdAt + (s.world.escrows id).ttl < s.now)
    (hcall : step self (.call msg c) s = some s') :
    Unpaid id (s.world.escrows id).agentB s.world s'.world ↔ ¬ c.Pays id msg s.world := by
  have hw : Faithful s.world := hs.ok.worlds.1
  have hcalled := called_of_step hs hcall
  constructor
  · intro hunpaid hpays
    exact not_unpaid_of_pays hw hpayee hcalled hpays hunpaid
  · exact unpaid_of_not_pays hw hpayee howner hlate hcalled

/-- Account 2 opens escrow 5 for account 3 with a TTL of 60; long after it, account 3 settles a batch of
200 of its own. -/
def paysItself : List Action :=
  [.call { sender := 2, value := 1000 } (.openEscrow 5 3 800 false 60),
    .block 1000,
    .call { sender := 3, value := 0 } (.settleBatch 5 6 200),
    .ret]

/-- Account 3 gets its batch minus the fee, so the guarantee fails. -/
theorem payee_pays_itself :
    (run (step 7) paysItself (initial 1 0 0 0)).any (fun s => weiTo 5 3 s.world.ledger = 199) = true ∧
    ¬ ∀ (self owner : Address) (funded parent delay : Nat) (s s' : State) (msg : Msg) (c : Call)
        (id : Bytes32), Reachable self owner funded parent delay s →
      msg.sender = (s.world.escrows id).agentB → (s.world.escrows id).agentB ≠ s.world.owner →
      (s.world.escrows id).createdAt + (s.world.escrows id).ttl < s.now →
      step self (.call msg c) s = some s' →
      Unpaid id (s.world.escrows id).agentB s.world s'.world := by
  refine ⟨by decide, ?_⟩
  intro hclaim
  have hrun : (run (step 7) (paysItself.take 2) (initial 1 0 0 0)).any (fun s =>
      (s.world.escrows 5).agentB = 3 ∧ s.world.owner = 1 ∧
        (s.world.escrows 5).createdAt + (s.world.escrows 5).ttl < s.now ∧
        (step 7 (.call { sender := 3, value := 0 } (.settleBatch 5 6 200)) s).any (fun s' =>
          (s.world.escrows 5).spent < (s'.world.escrows 5).spent)) = true := by
    decide
  rcases (Option.any_eq_true _ _).1 hrun with ⟨s, hs, hfacts⟩
  obtain ⟨hpayee, howner, hlate, hpaid⟩ := of_decide_eq_true hfacts
  rcases (Option.any_eq_true _ _).1 hpaid with ⟨s', hs', hgrown⟩
  have hunpaid := hclaim 7 1 0 0 0 s s' { sender := 3, value := 0 } (.settleBatch 5 6 200) 5 ⟨_, hs⟩
    hpayee.symm (by rw [hpayee, howner]; decide) hlate hs'
  exact absurd hunpaid.spent (Nat.not_le.2 (of_decide_eq_true hgrown))

/-- The same call through `claimStream` comes too late. -/
theorem payee_unpaid_iff_claimStream :
    (run (step 7) (paysItself.take 2) (initial 1 0 0 0)).any (fun s =>
        (step 7 (.call { sender := 3, value := 0 } (.claimStream 5 200)) s).isSome) = true ∧
      ∀ s s', run (step 7) (paysItself.take 2) (initial 1 0 0 0) = some s →
        step 7 (.call { sender := 3, value := 0 } (.claimStream 5 200)) s = some s' →
        Unpaid 5 (s.world.escrows 5).agentB s.world s'.world := by
  refine ⟨by decide, ?_⟩
  intro s s' hs hs'
  have hrun : (run (step 7) (paysItself.take 2) (initial 1 0 0 0)).any (fun s =>
      (s.world.escrows 5).agentB = 3 ∧ s.world.owner = 1 ∧
        (s.world.escrows 5).createdAt + (s.world.escrows 5).ttl < s.now) = true := by
    decide
  rw [hs] at hrun
  obtain ⟨hpayee, howner, hlate⟩ := of_decide_eq_true hrun
  have hnotOwner : (s.world.escrows 5).agentB ≠ s.world.owner := by
    rw [hpayee, howner]
    decide
  have hreach : Reachable 7 1 0 0 0 s := ⟨_, hs⟩
  apply (payee_unpaid_iff hreach hpayee.symm hnotOwner hlate hs').2
  exact id

end Contracts
end PaymentRail
