import PaymentRail.Contracts.EscrowHubSafety

/-!
# EscrowTransactions — what one transaction adds to the history of the hub

An external function that does not revert adds exactly one entry to the history (`Call.Books`), so
what has happened when no call is pending is never undone (`history_survives`).

`transact` is a whole transaction to the hub at once, for callees that do not call back; it is what
the machine does between two states without pending calls (`transact_steps`).
-/

namespace PaymentRail
namespace Contracts

open Machine

/-! ## Entries -/

/-- The entry a call adds to the history of `w`. -/
def Call.Books (now : Nat) (msg : Msg) (w : World) : Call → Entry → Prop
  | .openEscrow id agentB budgetLimit verificationRequired ttl, entry =>
      (w.escrows id).createdAt = 0 ∧ entry = .opened id
        { agentA := msg.sender
          agentB := agentB
          deposit := msg.value
          budgetLimit := budgetLimit
          spent := 0
          verificationRequired := verificationRequired
          ttl := ttl
          createdAt := now
          active := true
          disputed := false }
  | .settleBatch id _ amount, entry =>
      ∃ payout fee, payout + fee = amount ∧ entry = .paid id (w.escrows id).agentB payout fee
  | .claimStream id amount, entry =>
      ∃ payout fee, payout + fee = amount ∧ entry = .paid id (w.escrows id).agentB payout fee
  | .closeEscrow id, entry =>
      (w.escrows id).active = true ∧
        entry = .closed id (w.escrows id).agentA ((w.escrows id).deposit - (w.escrows id).spent)
  | .emergencyClose id, entry =>
      (w.escrows id).active = true ∧
        entry = .closed id (w.escrows id).agentA ((w.escrows id).deposit - (w.escrows id).spent)
  | .freezeOnDispute id, entry => entry = .frozen id
  | .receive, entry => entry = .received msg.value

/-- The escrow a call is about. -/
def Call.escrowId? : Call → Option Bytes32
  | .openEscrow id _ _ _ _ => some id
  | .settleBatch id _ _ => some id
  | .claimStream id _ => some id
  | .closeEscrow id => some id
  | .emergencyClose id => some id
  | .freezeOnDispute id => some id
  | .receive => none

theorem Call.Books.escrowId? {now : Nat} {msg : Msg} {w : World} {c : Call} {entry : Entry}
    (h : c.Books now msg w entry) : entry.escrowId? = c.escrowId? := by
  cases c with
  | openEscrow id agentB budgetLimit verificationRequired ttl =>
      rw [h.2]
      rfl
  | settleBatch id receiptsHash amount =>
      rcases h with ⟨payout, fee, _, rfl⟩
      rfl
  | claimStream id amount =>
      rcases h with ⟨payout, fee, _, rfl⟩
      rfl
  | closeEscrow id =>
      rw [h.2]
      rfl
  | emergencyClose id =>
      rw [h.2]
      rfl
  | freezeOnDispute id =>
      rw [h]
      rfl
  | receive =>
      rw [h]
      rfl

section Functions

variable {now : Nat} {msg : Msg} {w : World} {next : Next} {id : Bytes32}

/-- The fee is withheld from the amount, rounded down; the payee gets the rest. -/
theorem payAgentB_ledger {amount : Nat} {resume : Resume}
    (h : payAgentB id amount resume w = .ok next) :
    amount * w.feePercent / 10000 ≤ amount ∧
      next.after.ledger = .paid id (w.escrows id).agentB (amount - amount * w.feePercent / 10000)
        (amount * w.feePercent / 10000) :: w.ledger := by
  simp only [payAgentB, bind_eq_ok, require_eq_ok, checkedAdd_eq_ok, checkedMul_eq_ok,
    checkedSub_eq_ok, pure_eq_ok, exists_and_left, exists_const] at h
  obtain ⟨_, _, _, _, _, _, _, ⟨_, rfl⟩, payout, ⟨hfee, rfl⟩, _, _, rfl⟩ := h
  exact ⟨hfee, rfl⟩

theorem payAgentB_books {amount : Nat} {resume : Resume}
    (h : payAgentB id amount resume w = .ok next) :
    ∃ payout fee, payout + fee = amount ∧
      next.after.ledger = .paid id (w.escrows id).agentB payout fee :: w.ledger := by
  rcases payAgentB_ledger h with ⟨hfee, hledger⟩
  exact ⟨_, _, Nat.sub_add_cancel hfee, hledger⟩

theorem refundAgentA_books (h : refundAgentA id w = .ok next) :
    next.after.ledger = .closed id (w.escrows id).agentA
      ((w.escrows id).deposit - (w.escrows id).spent) :: w.ledger := by
  simp only [refundAgentA, bind_eq_ok, checkedSub_eq_ok] at h
  obtain ⟨refund, ⟨_, rfl⟩, h⟩ := h
  split at h
  · cases h
    rfl
  · cases h
    rfl

theorem exec_books {c : Call} (h : exec now msg c w = .ok next) :
    ∃ entry, c.Books now msg w entry ∧ next.after.ledger = entry :: w.ledger := by
  cases c with
  | openEscrow escrowId agentB budgetLimit verificationRequired ttl =>
      simp only [exec, openEscrow, bind_eq_ok, require_eq_ok, pure_eq_ok, exists_and_left,
        exists_const] at h
      obtain ⟨hfresh, _, _, rfl⟩ := h
      exact ⟨_, ⟨hfresh, rfl⟩, rfl⟩
  | settleBatch escrowId receiptsHash totalAmount =>
      simp only [exec, nonPayable, settleBatch, bind_eq_ok, require_eq_ok, exists_and_left,
        exists_const] at h
      rcases payAgentB_books h.2.2.2 with ⟨payout, fee, hamount, hledger⟩
      exact ⟨_, ⟨payout, fee, hamount, rfl⟩, hledger⟩
  | claimStream escrowId usageDelta =>
      simp only [exec, nonPayable, claimStream, bind_eq_ok, require_eq_ok, exists_and_left,
        exists_const] at h
      obtain ⟨_, _, _, _, _, _, _, h⟩ := h
      rcases payAgentB_books h with ⟨payout, fee, hamount, hledger⟩
      exact ⟨_, ⟨payout, fee, hamount, rfl⟩, hledger⟩
  | closeEscrow escrowId =>
      simp only [exec, nonPayable, closeEscrow, bind_eq_ok, require_eq_ok, exists_and_left,
        exists_const] at h
      exact ⟨_, ⟨h.2.1, rfl⟩, refundAgentA_books h.2.2.2⟩
  | emergencyClose escrowId =>
      simp only [exec, nonPayable, emergencyClose, bind_eq_ok, require_eq_ok, exists_and_left,
        exists_const] at h
      exact ⟨_, ⟨h.2.2.1, rfl⟩, refundAgentA_books h.2.2.2⟩
  | freezeOnDispute escrowId =>
      simp only [exec, nonPayable, freezeOnDispute, bind_eq_ok, require_eq_ok, pure_eq_ok,
        exists_and_left, exists_const] at h
      obtain ⟨_, _, rfl⟩ := h
      exact ⟨_, rfl, rfl⟩
  | receive =>
      obtain rfl : Next.done (receive msg.value w) = next := by simpa [exec] using h
      exact ⟨_, rfl, rfl⟩

theorem ledger_resume (resume : Resume) : (resume.run w).ledger = w.ledger := by
  cases resume with
  | _ => rfl

end Functions

/-! ## Histories survive -/

/-- A history is never taken away, whatever is added to it. -/
theorem history_kept (es : List Entry) (now : Nat) : Kept now fun w => es <:+ w.ledger where
  receive := fun _ _ hw => hw.trans (List.suffix_cons _ _)
  resume := fun w resume hw => by rw [ledger_resume]; exact hw
  exec := by
    intro msg c w next hw h
    rcases exec_books h with ⟨entry, _, hledger⟩
    rw [hledger]
    exact hw.trans (List.suffix_cons _ _)

/-- What has happened when no call is pending is never undone. -/
theorem history_survives {self : Address} {s s' : State} (hs : s.Ok) (htop : s.journal.stack = [])
    (h : Reaches (step self) s s') : s.world.ledger <:+ s'.world.ledger := by
  have hstart : s.journal.All (fun w => s.world.ledger <:+ w.ledger) ∧ 0 < s.now := by
    refine ⟨⟨List.suffix_refl _, ?_⟩, hs.now⟩
    rw [htop]
    intro frame hframe
    cases hframe
  have hend := h.invariant
    (fun a _ _ hd hd' => step_all (fun now _ => history_kept s.world.ledger now) a hd.1 hd.2 hd')
    hstart
  exact hend.1.1

/-! ## Whole transactions -/

/-- A transaction to the hub; `none` if it reverts.  `accepts` says whether the callee takes the value
it is sent. -/
def transact (self : Address) (now : Nat) (msg : Msg) (c : Call) (accepts : Bool) (w : World) :
    Option World :=
  match exec now msg c w with
  | .error _ => none
  | .ok (.done w) => some w
  | .ok (.transfer w callee value entry resume) =>
      if w.balance < value then
        none
      else if callee = self then
        some (resume.run (receive value ((w.debit value).book entry)))
      else if accepts = true then
        some (resume.run ((w.debit value).book entry))
      else
        none

theorem escrows_resume {w : World} (resume : Resume) : (resume.run w).escrows = w.escrows := by
  cases resume with
  | _ => rfl

/-- A function that has run to its call leaves the sessions as its entry says. -/
theorem escrows_after {now : Nat} {msg : Msg} {c : Call} {w : World} {next : Next} (hw : Faithful w)
    (hnow : 0 < now) (h : exec now msg c w = .ok next) :
    ∃ entry, c.Books now msg w entry ∧ next.after.escrows = entry.apply w.escrows := by
  rcases exec_books h with ⟨entry, hbooks, hledger⟩
  refine ⟨entry, hbooks, ?_⟩
  rw [(exec_faithful hw hnow h).after.sessions, hledger, hw.sessions]
  rfl

/-- The rule for transactions: what holds where the function stops at its call, and survives what
comes after, holds in the end. -/
theorem transact_rule {P : World → Prop} {self : Address} {now : Nat} {msg : Msg} {c : Call}
    {accepts : Bool} {w w' : World} (h : transact self now msg c accepts w = some w')
    (hexec : ∀ next, exec now msg c w = .ok next → P next.after)
    (hreceive : ∀ w value, P w → P (receive value w))
    (hresume : ∀ w resume, P w → P (Resume.run w resume)) : P w' := by
  simp only [transact] at h
  split at h
  · cases h
  · rename_i w₁ hdone
    cases h
    exact hexec _ hdone
  · rename_i w₁ callee value entry resume htransfer
    have hleft : P ((w₁.debit value).book entry) := hexec _ htransfer
    split at h
    · cases h
    · split at h
      · cases h
        exact hresume _ resume (hreceive _ value hleft)
      · split at h
        · cases h
          exact hresume _ resume hleft
        · cases h

theorem transact_kept {P : World → Prop} {self : Address} {now : Nat} {msg : Msg} {c : Call}
    {accepts : Bool} {w w' : World} (hP : Kept now P) (hw : P w)
    (h : transact self now msg c accepts w = some w') : P w' :=
  transact_rule h (fun next hexec => hP.exec msg c w next hw hexec) hP.receive hP.resume

section Outcomes

variable {self : Address} {now : Nat} {msg : Msg} {accepts : Bool} {w w' : World} {id k : Bytes32}

theorem transact_faithful {c : Call} (hw : Faithful w) (hnow : 0 < now)
    (h : transact self now msg c accepts w = some w') : Faithful w' :=
  transact_kept (faithful_kept hnow) hw h

/-- A transaction that does not revert does what the entry of its call says. -/
theorem transact_books {c : Call} (hw : Faithful w) (hnow : 0 < now)
    (h : transact self now msg c accepts w = some w') :
    ∃ entry, c.Books now msg w entry ∧ w'.escrows = entry.apply w.escrows :=
  transact_rule (P := fun w₁ => ∃ entry, c.Books now msg w entry ∧ w₁.escrows = entry.apply w.escrows) h
    (fun _ hexec => escrows_after hw hnow hexec) (fun _ _ hw₁ => hw₁)
    (fun _ resume hw₁ => by rw [escrows_resume]; exact hw₁)

/-- A transaction leaves the escrows alone that it is not about. -/
theorem transact_other {c : Call} (hw : Faithful w) (hnow : 0 < now)
    (h : transact self now msg c accepts w = some w') (hk : c.escrowId? ≠ some k) :
    w'.escrows k = w.escrows k := by
  rcases transact_books hw hnow h with ⟨entry, hbooks, hescrows⟩
  rw [← hbooks.escrowId?] at hk
  rw [hescrows, hw.sessions]
  exact replay_cons_of_ne hk

theorem transact_settleBatch {receiptsHash : Bytes32} {amount : Nat} (hw : Faithful w)
    (hnow : 0 < now) (h : transact self now msg (.settleBatch id receiptsHash amount) accepts w =
      some w') : w'.escrows id = (w.escrows id).spend amount := by
  rcases transact_books hw hnow h with ⟨entry, ⟨payout, fee, hamount, rfl⟩, hescrows⟩
  rw [hescrows, Entry.apply, Function.update_self, hamount]

theorem transact_openEscrow {agentB : Address} {budgetLimit ttl : Nat} {verificationRequired : Bool}
    (hw : Faithful w) (hnow : 0 < now)
    (h : transact self now msg (.openEscrow id agentB budgetLimit verificationRequired ttl) accepts w =
      some w') :
    (w.escrows id).createdAt = 0 ∧ (w'.escrows id).deposit = msg.value ∧ (w'.escrows id).spent = 0 := by
  rcases transact_books hw hnow h with ⟨entry, ⟨hfresh, rfl⟩, hescrows⟩
  rw [hescrows, Entry.apply, Function.update_self]
  exact ⟨hfresh, rfl, rfl⟩

theorem transact_closeEscrow (hw : Faithful w) (hnow : 0 < now)
    (h : transact self now msg (.closeEscrow id) accepts w = some w') :
    w'.escrows id = (w.escrows id).deactivate := by
  rcases transact_books hw hnow h with ⟨entry, ⟨_, rfl⟩, hescrows⟩
  rw [hescrows, Entry.apply, Function.update_self]

theorem transact_emergencyClose (hw : Faithful w) (hnow : 0 < now)
    (h : transact self now msg (.emergencyClose id) accepts w = some w') :
    (w.escrows id).createdAt ≠ 0 ∧ w'.escrows id = (w.escrows id).deactivate := by
  rcases transact_books hw hnow h with ⟨entry, ⟨hactive, rfl⟩, hescrows⟩
  rw [hescrows, Entry.apply, Function.update_self]
  refine ⟨?_, rfl⟩
  rw [hw.sessions] at hactive ⊢
  exact createdAt_ne_zero_of_active hw.legal hactive

/-- Only the two closing functions deactivate an escrow. -/
theorem transact_deactivates {c : Call} (hw : Faithful w) (hnow : 0 < now)
    (h : transact self now msg c accepts w = some w') (hopen : (w'.escrows k).createdAt ≠ 0)
    (hclosed : (w'.escrows k).active = false) :
    ((w.escrows k).createdAt ≠ 0 ∧ (w.escrows k).active = false) ∨
      c = .closeEscrow k ∨ c = .emergencyClose k := by
  by_cases hk : c.escrowId? = some k
  · rcases transact_books hw hnow h with ⟨entry, hbooks, hescrows⟩
    rw [hescrows] at hopen hclosed
    cases c with
    | openEscrow id agentB budgetLimit verificationRequired ttl =>
        cases hk
        rw [hbooks.2, Entry.apply, Function.update_self] at hclosed
        cases hclosed
    | settleBatch id receiptsHash amount =>
        cases hk
        rcases hbooks with ⟨payout, fee, _, rfl⟩
        rw [Entry.apply, Function.update_self] at hopen hclosed
        exact Or.inl ⟨hopen, hclosed⟩
    | claimStream id amount =>
        cases hk
        rcases hbooks with ⟨payout, fee, _, rfl⟩
        rw [Entry.apply, Function.update_self] at hopen hclosed
        exact Or.inl ⟨hopen, hclosed⟩
    | closeEscrow id =>
        cases hk
        exact Or.inr (Or.inl rfl)
    | emergencyClose id =>
        cases hk
        exact Or.inr (Or.inr rfl)
    | freezeOnDispute id =>
        cases hk
        rw [hbooks, Entry.apply, Function.update_self] at hopen hclosed
        exact Or.inl ⟨hopen, hclosed⟩
    | receive => cases hk
  · rw [transact_other hw hnow h hk] at hopen hclosed
    exact Or.inl ⟨hopen, hclosed⟩

/-- A closed escrow stays as it is. -/
theorem transact_closed {c : Call} (hw : Faithful w) (hnow : 0 < now)
    (h : transact self now msg c accepts w = some w') (hopen : (w.escrows k).createdAt ≠ 0)
    (hclosed : (w.escrows k).active = false) : w'.escrows k = w.escrows k :=
  ((hw.conserved (transact_faithful hw hnow h)
    (transact_kept (history_kept w.ledger now) (List.suffix_refl _) h) k).closedFinal hopen hclosed).1

end Outcomes

end Contracts
end PaymentRail
