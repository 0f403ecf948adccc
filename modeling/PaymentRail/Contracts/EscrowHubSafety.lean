import PaymentRail.Contracts.EscrowLedger

/-!
# EscrowHubSafety — the contract only writes legal histories

The refinement between the contract (`EscrowHub`) and the histories of `EscrowLedger`:
`Faithful w` says that storage, balance and history of a world agree and that the history is
legal.  Each external function preserves it up to its value call and beyond, so it holds at every
point of every run, also in the middle of nested calls and after any of them was undone.

Solvency and the conservation laws of one escrow are then read off the history.
-/

namespace PaymentRail
namespace Contracts

open Machine

/-! ## The invariant -/

/-- Storage and balance are what the history says, and the history is legal. -/
structure Faithful (w : World) : Prop where
  sessions : w.escrows = replay w.ledger
  legal : Legal w.ledger
  balance : w.balance = booked w.ledger
  feePercent : w.feePercent = 50

/-- A function that stops at its value call leaves a faithful world once the value has left, and
the value is there. -/
def Next.Faithful : Next → Prop
  | .done w => Contracts.Faithful w
  | .transfer w _ value entry _ =>
      value ≤ w.balance ∧ Contracts.Faithful ((w.debit value).book entry)

theorem deploy_faithful (owner : Address) (funded : Nat) : Faithful (deploy owner funded) := by
  have hlegal : Legal [.received funded] := ⟨trivial, trivial⟩
  have hbooked : booked [.received funded] = booked [] + funded := booked_cons hlegal
  refine ⟨rfl, hlegal, ?_, rfl⟩
  show funded = booked [.received funded]
  rw [hbooked, booked_nil, Nat.zero_add]

section Functions

variable {w : World} {now : Nat} {msg : Msg} {id : Bytes32} {next : Next}

theorem receive_faithful (hw : Faithful w) (value : Nat) : Faithful (receive value w) := by
  have hlegal : Legal (.received value :: w.ledger) := ⟨trivial, hw.legal⟩
  refine ⟨hw.sessions, hlegal, ?_, hw.feePercent⟩
  have hbooked : booked (.received value :: w.ledger) = booked w.ledger + value :=
    booked_cons hlegal
  have hbalance := hw.balance
  show w.balance + value = booked (.received value :: w.ledger)
  omega

/-- Events are no part of the history. -/
theorem emit_faithful (hw : Faithful w) (e : Event) : Faithful (w.emit e) :=
  ⟨hw.sessions, hw.legal, hw.balance, hw.feePercent⟩

theorem resume_faithful (hw : Faithful w) (resume : Resume) : Faithful (resume.run w) := by
  cases resume with
  | settleBatch escrowId receiptsHash totalAmount =>
      exact emit_faithful hw _
  | claimStream escrowId sender usageDelta =>
      exact emit_faithful hw _
  | close escrowId refund =>
      exact emit_faithful hw _

theorem openEscrow_faithful {agentB : Address} {budgetLimit ttl : Nat}
    {verificationRequired : Bool} (hw : Faithful w) (hnow : 0 < now)
    (h : openEscrow now msg id agentB budgetLimit verificationRequired ttl
      (w.credit msg.value) = .ok next) : next.Faithful := by
  simp only [openEscrow, bind_eq_ok, require_eq_ok, pure_eq_ok, exists_and_left, exists_const]
    at h
  obtain ⟨hfresh, _, _, rfl⟩ := h
  have hzero : (replay w.ledger id).createdAt = 0 := by
    rw [← hw.sessions]
    exact hfresh
  set session : EscrowSession :=
    { agentA := msg.sender
      agentB := agentB
      deposit := msg.value
      budgetLimit := budgetLimit
      spent := 0
      verificationRequired := verificationRequired
      ttl := ttl
      createdAt := now
      active := true
      disputed := false } with hsession
  have hlegal : Legal (.opened id session :: w.ledger) :=
    ⟨⟨hzero, Nat.pos_iff_ne_zero.1 hnow, rfl, rfl, rfl⟩, hw.legal⟩
  have hbooked : booked (.opened id session :: w.ledger) = booked w.ledger + msg.value :=
    booked_cons hlegal
  refine ⟨?_, hlegal, ?_, hw.feePercent⟩
  · show Function.update w.escrows id session = Function.update (replay w.ledger) id session
    rw [hw.sessions]
  · have hbalance := hw.balance
    show w.balance + msg.value = booked (.opened id session :: w.ledger)
    omega

/-- The two halves of a payment: the fee is withheld, the rest leaves. -/
theorem payAgentB_faithful {amount : Nat} {resume : Resume} (hw : Faithful w)
    (hactive : (w.escrows id).active = true) (hdisputed : (w.escrows id).disputed = false)
    (h : payAgentB id amount resume w = .ok next) : next.Faithful := by
  simp only [payAgentB, bind_eq_ok, require_eq_ok, checkedAdd_eq_ok, checkedMul_eq_ok,
    checkedSub_eq_ok, pure_eq_ok, exists_and_left, exists_const] at h
  obtain ⟨_, ⟨_, rfl⟩, hbudget, _, ⟨_, rfl⟩, hdeposit, _, ⟨_, rfl⟩, payout, ⟨hfee, hpayout⟩, _,
    ⟨_, rfl⟩, rfl⟩ := h
  set fee := amount * w.feePercent / 10000 with hfeeDef
  -- `checkedSub` made sure that the fee does not exceed the amount
  have hsplit : payout + fee = amount := by omega
  have hlegal : Legal (.paid id (w.escrows id).agentB payout fee :: w.ledger) := by
    rw [hw.sessions] at hactive hdisputed hbudget hdeposit ⊢
    exact ⟨⟨hactive, hdisputed, rfl, by rw [hsplit]; exact hdeposit,
      by rw [hsplit]; exact hbudget⟩, hw.legal⟩
  have hbooked : booked (.paid id (w.escrows id).agentB payout fee :: w.ledger) + payout =
      booked w.ledger := booked_cons hlegal
  have hbalance := hw.balance
  refine ⟨?_, ?_, hlegal, ?_, hw.feePercent⟩
  · show payout ≤ w.balance
    omega
  · show Function.update w.escrows id _ =
      Function.update (replay w.ledger) id ((replay w.ledger id).spend (payout + fee))
    rw [← hw.sessions, hsplit]
    rfl
  · show w.balance - payout = booked (.paid id (w.escrows id).agentB payout fee :: w.ledger)
    omega

theorem settleBatch_faithful {receiptsHash : Bytes32} {totalAmount : Nat} (hw : Faithful w)
    (h : settleBatch id receiptsHash totalAmount w = .ok next) : next.Faithful := by
  simp only [settleBatch, bind_eq_ok, require_eq_ok, exists_and_left, exists_const] at h
  obtain ⟨hactive, hdisputed, hpay⟩ := h
  exact payAgentB_faithful hw hactive hdisputed hpay

theorem claimStream_faithful {usageDelta : Nat} (hw : Faithful w)
    (h : claimStream now msg id usageDelta w = .ok next) : next.Faithful := by
  simp only [claimStream, bind_eq_ok, require_eq_ok, exists_and_left, exists_const] at h
  obtain ⟨hactive, hdisputed, _, _, _, _, hpay⟩ := h
  exact payAgentB_faithful hw hactive hdisputed hpay

/-- The refund branch and the branch without a transfer book the same entry. -/
theorem refundAgentA_faithful (hw : Faithful w) (hactive : (w.escrows id).active = true)
    (h : refundAgentA id w = .ok next) : next.Faithful := by
  simp only [refundAgentA, bind_eq_ok, checkedSub_eq_ok] at h
  obtain ⟨refund, ⟨hle, hrefund⟩, h⟩ := h
  have hlegal : Legal (.closed id (w.escrows id).agentA refund :: w.ledger) := by
    rw [hw.sessions] at hactive hrefund ⊢
    exact ⟨⟨hactive, rfl, hrefund.symm⟩, hw.legal⟩
  have hbooked : booked (.closed id (w.escrows id).agentA refund :: w.ledger) + refund =
      booked w.ledger := booked_cons hlegal
  have hbalance := hw.balance
  have hsessions : Function.update w.escrows id { w.escrows id with active := false } =
      replay (.closed id (w.escrows id).agentA refund :: w.ledger) := by
    show _ = Function.update (replay w.ledger) id (replay w.ledger id).deactivate
    rw [← hw.sessions]
    rfl
  by_cases hpos : 0 < refund
  -- with something left the refund is a call, else the function ends at once
  · simp only [hpos, if_true, pure_eq_ok] at h
    subst h
    refine ⟨?_, hsessions, hlegal, ?_, hw.feePercent⟩
    · show refund ≤ w.balance
      omega
    · show w.balance - refund = booked (.closed id (w.escrows id).agentA refund :: w.ledger)
      omega
  · simp only [hpos, if_false, pure_eq_ok] at h
    subst h
    have hclosed : w.balance = booked (.closed id (w.escrows id).agentA refund :: w.ledger) := by
      omega
    have hworld : Faithful ((w.setEscrow id { w.escrows id with active := false }).book
        (.closed id (w.escrows id).agentA refund)) :=
      ⟨hsessions, hlegal, hclosed, hw.feePercent⟩
    exact emit_faithful hworld _

theorem closeEscrow_faithful (hw : Faithful w) (h : closeEscrow msg id w = .ok next) :
    next.Faithful := by
  simp only [closeEscrow, bind_eq_ok, require_eq_ok, exists_and_left, exists_const] at h
  obtain ⟨hactive, _, hclose⟩ := h
  exact refundAgentA_faithful hw hactive hclose

theorem emergencyClose_faithful (hw : Faithful w) (h : emergencyClose msg id w = .ok next) :
    next.Faithful := by
  simp only [emergencyClose, bind_eq_ok, require_eq_ok, exists_and_left, exists_const] at h
  obtain ⟨_, hactive, hclose⟩ := h
  exact refundAgentA_faithful hw hactive hclose

theorem freezeOnDispute_faithful (hw : Faithful w) (h : freezeOnDispute id w = .ok next) :
    next.Faithful := by
  simp only [freezeOnDispute, bind_eq_ok, require_eq_ok, pure_eq_ok, exists_and_left,
    exists_const] at h
  obtain ⟨hactive, rfl⟩ := h
  have hlegal : Legal (.frozen id :: w.ledger) := by
    rw [hw.sessions] at hactive
    exact ⟨hactive, hw.legal⟩
  have hbooked : booked (.frozen id :: w.ledger) = booked w.ledger := booked_cons hlegal
  have hbalance := hw.balance
  refine ⟨?_, hlegal, ?_, hw.feePercent⟩
  · show Function.update w.escrows id _ =
      Function.update (replay w.ledger) id (replay w.ledger id).dispute
    rw [← hw.sessions]
    rfl
  · show w.balance = booked (.frozen id :: w.ledger)
    omega

/-- Every call, from a faithful world, ends in one or stops in front of one. -/
theorem exec_faithful {c : Call} (hw : Faithful w) (hnow : 0 < now)
    (h : exec now msg c w = .ok next) : next.Faithful := by
  cases c with
  | openEscrow escrowId agentB budgetLimit verificationRequired ttl =>
      exact openEscrow_faithful hw hnow h
  | settleBatch escrowId receiptsHash totalAmount =>
      obtain ⟨_, _, h⟩ := bind_eq_ok.1 h
      exact settleBatch_faithful hw h
  | claimStream escrowId usageDelta =>
      obtain ⟨_, _, h⟩ := bind_eq_ok.1 h
      exact claimStream_faithful hw h
  | closeEscrow escrowId =>
      obtain ⟨_, _, h⟩ := bind_eq_ok.1 h
      exact closeEscrow_faithful hw h
  | emergencyClose escrowId =>
      obtain ⟨_, _, h⟩ := bind_eq_ok.1 h
      exact emergencyClose_faithful hw h
  | freezeOnDispute escrowId =>
      obtain ⟨_, _, h⟩ := bind_eq_ok.1 h
      exact freezeOnDispute_faithful hw h
  | receive =>
      obtain rfl : Next.done (receive msg.value w) = next := by simpa [exec] using h
      exact receive_faithful hw msg.value

end Functions

/-! ## Runs -/

/-- The world a function leaves, once the value of its call has left. -/
def Next.after : Next → World
  | .done w => w
  | .transfer w _ value entry _ => (w.debit value).book entry

theorem Next.Faithful.after {next : Next} (h : next.Faithful) : Contracts.Faithful next.after := by
  cases next with
  | done w => exact h
  | transfer w callee value entry resume => exact h.2

/-- Nothing that happens to the hub at `now` takes `P` away. -/
structure Kept (now : Nat) (P : World → Prop) : Prop where
  receive : ∀ w value, P w → P (receive value w)
  resume : ∀ w resume, P w → P (Resume.run w resume)
  exec : ∀ msg c w next, P w → exec now msg c w = .ok next → P next.after

section Rule

variable {self : Address} {P : World → Prop} {s s' : State}

theorem Kept.sendValue {w : World} {callee : Address} {value : Nat} {entry : Entry} {resume : Resume}
    (hP : Kept s.now P) (hs : s.journal.All P) (hw : P ((w.debit value).book entry)) :
    (Contracts.sendValue self s w callee value entry resume).journal.All P ∧
      (Contracts.sendValue self s w callee value entry resume).now = s.now := by
  unfold Contracts.sendValue
  split
  · exact ⟨hs, rfl⟩
  · split
    · exact ⟨hs.update (hP.resume _ resume (hP.receive _ value hw)), rfl⟩
    · exact ⟨hs.enter hw, rfl⟩

/-- The invariant rule: what is kept at every time holds of the current world and of every world a
failing call would restore. -/
theorem step_all (hP : ∀ now, 0 < now → Kept now P) (a : Action) (hs : s.journal.All P)
    (hnow : 0 < s.now) (h : step self a s = some s') : s'.journal.All P ∧ 0 < s'.now := by
  have hP := hP s.now hnow
  cases a with
  | block timestamp =>
      simp only [step] at h
      split at h
      · rename_i hguard
        cases h
        exact ⟨hs, Nat.lt_of_le_of_lt (Nat.zero_le _) hguard.2⟩
      · cases h
  | call msg c =>
      simp only [step] at h
      split at h
      · cases h
      · split at h
        · cases h
          exact ⟨hs, hnow⟩
        -- the function ran to its end
        · rename_i w hexec
          cases h
          exact ⟨hs.update (hP.exec msg c _ _ hs.1 hexec), hnow⟩
        -- the function stopped at its value call
        · rename_i w callee value entry resume hexec
          cases h
          have hleft : P ((w.debit value).book entry) := hP.exec msg c _ _ hs.1 hexec
          refine ⟨(hP.sendValue hs hleft).1, ?_⟩
          rw [(hP.sendValue hs hleft).2]
          exact hnow
  | force value =>
      cases h
      exact ⟨hs.update (hP.receive _ value hs.1), hnow⟩
  | enter =>
      cases h
      exact ⟨hs.enter hs.1, hnow⟩
  | ret =>
      simp only [step] at h
      split at h
      · cases h
      · split at h
        · rename_i resume _
          cases h
          exact ⟨hs.commit (hP.resume _ resume hs.1), hnow⟩
        · cases h
          exact ⟨hs.commit hs.1, hnow⟩
  | fail =>
      simp only [step] at h
      split at h
      · cases h
      -- what is restored was so when the call started
      · cases h
        exact ⟨hs.rollback, hnow⟩

end Rule

/-- The invariant of the machine: the current world and every world a failing call would restore
are faithful, and block timestamps are positive. -/
structure State.Ok (s : State) : Prop where
  worlds : s.journal.All Faithful
  now : 0 < s.now

theorem initial_ok (owner : Address) (funded parent delay : Nat) :
    (initial owner funded parent delay).Ok :=
  ⟨Journal.All.start (deploy_faithful owner funded), Nat.succ_pos _⟩

theorem faithful_kept {now : Nat} (hnow : 0 < now) : Kept now Faithful where
  receive := fun _ value hw => receive_faithful hw value
  resume := fun _ resume hw => resume_faithful hw resume
  exec := fun _ _ _ _ hw h => (exec_faithful hw hnow h).after

theorem step_ok {self : Address} (a : Action) (s s' : State) (hs : s.Ok)
    (h : step self a s = some s') : s'.Ok := by
  have hstep := step_all (fun _ hnow => faithful_kept hnow) a hs.worlds hs.now h
  exact ⟨hstep.1, hstep.2⟩

/-- The states of a hub at `self`, from its deployment on. -/
def Reachable (self owner : Address) (funded parent delay : Nat) (s : State) : Prop :=
  Reaches (step self) (initial owner funded parent delay) s

theorem Reachable.ok {self owner : Address} {funded parent delay : Nat} {s : State}
    (h : Reachable self owner funded parent delay s) : s.Ok :=
  Reaches.invariant h step_ok (initial_ok owner funded parent delay)

/-! ## Solvency -/

theorem Reachable.balance_eq {self owner : Address} {funded parent delay : Nat} {s : State}
    (h : Reachable self owner funded parent delay s) :
    s.world.balance =
      heldTotal s.world.escrows + feesWithheld s.world.ledger + plainTransfers s.world.ledger := by
  have hfaithful : Faithful s.world := h.ok.worlds.1
  simpa [booked, hfaithful.sessions] using hfaithful.balance

/-- At every point of every run the balance of the hub is what the active escrows still hold, plus
the fees withheld, plus the plain transfers.  In particular the hub can always pay: the value call
a function stops at never exceeds the balance. -/
theorem hub_solvent {self owner : Address} {funded parent delay : Nat} {s : State}
    (h : Reachable self owner funded parent delay s) :
    s.world.balance =
        heldTotal s.world.escrows + feesWithheld s.world.ledger + plainTransfers s.world.ledger ∧
      heldTotal s.world.escrows ≤ s.world.balance ∧
      ∀ msg c w callee value entry resume,
        exec s.now msg c s.world = .ok (.transfer w callee value entry resume) →
          value ≤ w.balance := by
  have hbalance := h.balance_eq
  refine ⟨hbalance, by omega, ?_⟩
  intro msg c w callee value entry resume hexec
  have hnext := exec_faithful h.ok.worlds.1 h.ok.now hexec
  exact hnext.1

/-- Account 2 opens an escrow for account 3.  While a batch is being paid, account 3 claims from
inside its own payout; that inner claim fails, then the batch goes through. -/
def reentrantPayout : List Action :=
  [.call { sender := 2, value := 1000 } (.openEscrow 5 3 800 false 60),
    .call { sender := 4, value := 0 } (.settleBatch 5 6 200),
    .call { sender := 3, value := 0 } (.claimStream 5 100),
    .fail,
    .ret]

theorem hub_solvent_during_reentrantPayout :
    (run (step 7) (reentrantPayout.take 3) (initial 1 0 0 0)).isSome = true ∧
      ∀ s, run (step 7) (reentrantPayout.take 3) (initial 1 0 0 0) = some s →
        s.world.balance =
            heldTotal s.world.escrows + feesWithheld s.world.ledger +
              plainTransfers s.world.ledger ∧
          heldTotal s.world.escrows ≤ s.world.balance ∧
          ∀ msg c w callee value entry resume,
            exec s.now msg c s.world = .ok (.transfer w callee value entry resume) →
              value ≤ w.balance :=
  ⟨by decide, fun _ hs => hub_solvent ⟨_, hs⟩⟩

/-! ## Conservation of one escrow -/

/-- What relates two worlds of one surviving history, the second one later, for escrow `id`. -/
structure Conserved (id : Bytes32) (earlier later : World) : Prop where
  /-- Once opened, the terms never change ... -/
  terms : (earlier.escrows id).createdAt ≠ 0 →
    SameTerms (later.escrows id) (earlier.escrows id)
  /-- ... and the id is taken for good. -/
  openedOnce : (earlier.escrows id).createdAt ≠ 0 →
    ∀ now msg agentB budgetLimit verificationRequired ttl,
      exec now msg (.openEscrow id agentB budgetLimit verificationRequired ttl) later =
        .error "EscrowHub: already exists"
  withinDeposit : (later.escrows id).spent ≤ (later.escrows id).deposit
  withinBudget : (later.escrows id).spent ≤ (later.escrows id).budgetLimit
  /-- Payouts and withheld fees are exactly what was spent, and payouts go to `agentB`. -/
  accounted : payouts id later.ledger + fees id later.ledger = (later.escrows id).spent
  payee : ∀ payee payout fee, Entry.paid id payee payout fee ∈ later.ledger →
    payee = (later.escrows id).agentB
  /-- One refund at most, to `agentA`, of what was left; nothing of it changes afterwards. -/
  refundOnce : (refunds id later.ledger).length ≤ 1
  refundRest : ∀ r ∈ refunds id later.ledger,
    r = ((later.escrows id).agentA, (later.escrows id).deposit - (later.escrows id).spent)
  /-- The refund leaves together with the write to `active`, so after it no wei leaves at all. -/
  closedFinal : (earlier.escrows id).createdAt ≠ 0 → (earlier.escrows id).active = false →
    later.escrows id = earlier.escrows id ∧ outflow id later.ledger = outflow id earlier.ledger
  /-- Frozen for the payee: nothing is paid out in its role, and so nothing at all to its account unless
  that is the payer's, too. -/
  disputedFinal : (earlier.escrows id).disputed = true →
    (later.escrows id).spent = (earlier.escrows id).spent ∧
      payouts id later.ledger = payouts id earlier.ledger
  disputedPayee : (earlier.escrows id).disputed = true →
    (earlier.escrows id).agentA ≠ (earlier.escrows id).agentB →
    weiTo id (earlier.escrows id).agentB later.ledger =
      weiTo id (earlier.escrows id).agentB earlier.ledger

theorem outflow_append (id : Bytes32) (later earlier : List Entry) :
    outflow id (later ++ earlier) = outflow id later + outflow id earlier := by
  simp only [outflow, payouts, refunds, List.map_append, List.sum_append, List.filterMap_append]
  omega

theorem payouts_eq_zero {es : List Entry} {id : Bytes32}
    (h : ∀ payee payout fee, Entry.paid id payee payout fee ∉ es) : payouts id es = 0 := by
  induction es with
  | nil =>
      rfl
  | cons e es ih =>
      have hrest := ih (fun payee payout fee hmem => h payee payout fee (by simp [hmem]))
      have hhead : e.payoutOf id = 0 := by
        cases e with
        | paid k payee payout fee =>
            have hk : k ≠ id := by
              rintro rfl
              exact h payee payout fee (by simp)
            simp [Entry.payoutOf, hk]
        | _ =>
            rfl
      simpa [payouts, hhead] using hrest

theorem weiTo_eq_zero {es : List Entry} {id : Bytes32} {account : Address}
    (hpaid : ∀ payee payout fee, Entry.paid id payee payout fee ∉ es)
    (hrefunds : ∀ r ∈ refunds id es, r.1 ≠ account) : weiTo id account es = 0 := by
  induction es with
  | nil =>
      rfl
  | cons e es ih =>
      have hfewer : ∀ r ∈ refunds id es, r.1 ≠ account := by
        intro r hr
        rcases List.mem_filterMap.1 hr with ⟨entry, hentry, hrefund⟩
        exact hrefunds r (List.mem_filterMap.2 ⟨entry, List.mem_cons_of_mem _ hentry, hrefund⟩)
      have hrest := ih (fun payee payout fee hmem => hpaid payee payout fee (by simp [hmem])) hfewer
      have hhead : e.weiTo id account = 0 := by
        cases e with
        | paid k payee payout fee =>
            have hk : k ≠ id := by
              rintro rfl
              exact hpaid payee payout fee (by simp)
            simp [Entry.weiTo, hk]
        | closed k payer refund =>
            simp only [Entry.weiTo, ite_eq_right_iff]
            rintro ⟨rfl, rfl⟩
            -- a refund of something would be one to `account`
            by_contra hne
            have hmem : (payer, refund) ∈ refunds k (.closed k payer refund :: es) := by
              simp [refunds, Entry.refundOf, Nat.pos_of_ne_zero hne]
            exact hrefunds _ hmem rfl
        | _ =>
            rfl
      rw [weiTo_cons, hhead, hrest]

/-- A session nobody opened is not disputed. -/
theorem opened_of_disputed {es : List Entry} {id : Bytes32} (h : Legal es)
    (hdisputed : (replay es id).disputed = true) : (replay es id).createdAt ≠ 0 := by
  intro hzero
  rw [replay_unset h hzero] at hdisputed
  cases hdisputed

/-- Two faithful worlds, one continuing the history of the other, conserve every escrow. -/
theorem Faithful.conserved {w w' : World} (hw : Faithful w) (hw' : Faithful w')
    (hsurvives : w.ledger <:+ w'.ledger) (id : Bytes32) : Conserved id w w' := by
  rcases hsurvives with ⟨later, hledger⟩
  have hlegal : Legal (later ++ w.ledger) := by
    simpa [hledger] using hw'.legal
  -- from here on everything is a fact about the two histories
  have hbefore : ∀ k, w.escrows k = replay w.ledger k := fun k => by rw [hw.sessions]
  have hafter : ∀ k, w'.escrows k = replay (later ++ w.ledger) k := fun k => by
    rw [hw'.sessions, hledger]
  have hterms : (w.escrows id).createdAt ≠ 0 → SameTerms (w'.escrows id) (w.escrows id) := by
    intro hopen
    rw [hbefore] at hopen ⊢
    rw [hafter]
    exact sameTerms_later hlegal hopen
  refine
    { terms := hterms
      openedOnce := ?_
      withinDeposit := ?_
      withinBudget := ?_
      accounted := ?_
      payee := ?_
      refundOnce := ?_
      refundRest := ?_
      closedFinal := ?_
      disputedFinal := ?_
      disputedPayee := ?_ }
  · intro hopen now msg agentB budgetLimit verificationRequired ttl
    have hstill : (w'.escrows id).createdAt ≠ 0 := by
      rw [(hterms hopen).createdAt]
      exact hopen
    simp [exec, openEscrow, require, World.credit, hstill, bind, Except.bind]
  · simpa [hw'.sessions] using (spent_le hw'.legal id).1
  · simpa [hw'.sessions] using (spent_le hw'.legal id).2
  · simpa [hw'.sessions] using payouts_add_fees hw'.legal id
  · intro payee payout fee hmem
    simpa [hw'.sessions] using paid_to_agentB hw'.legal hmem
  · exact (refunds_spec hw'.legal id).1
  · simpa [hw'.sessions] using (refunds_spec hw'.legal id).2
  · intro hopen hclosed
    rw [hbefore] at hopen hclosed ⊢
    rcases not_about_later hlegal hopen hclosed with ⟨hsame, habout⟩
    refine ⟨by rw [hafter, hsame], ?_⟩
    rw [← hledger, outflow_append, outflow_eq_zero habout, Nat.zero_add]
  · intro hdisputed
    rw [hbefore] at hdisputed ⊢
    have hopen := opened_of_disputed hw.legal hdisputed
    rcases not_paid_later hlegal hopen hdisputed with ⟨hspent, _, hpaid⟩
    refine ⟨by rw [hafter, hspent], ?_⟩
    have hzero : payouts id later = 0 := payouts_eq_zero hpaid
    rw [← hledger]
    simpa [payouts] using hzero
  · intro hdisputed hdistinct
    rw [hbefore] at hdisputed hdistinct ⊢
    have hopen := opened_of_disputed hw.legal hdisputed
    rcases not_paid_later hlegal hopen hdisputed with ⟨_, _, hpaid⟩
    -- what is refunded goes to the payer, who is somebody else
    have hrefunds : ∀ r ∈ refunds id later, r.1 ≠ (replay w.ledger id).agentB := by
      intro r hr
      have hmem : r ∈ refunds id (later ++ w.ledger) := by
        rw [refunds, List.filterMap_append]
        exact List.mem_append_left _ hr
      rw [(refunds_spec hlegal id).2 r hmem, (sameTerms_later hlegal hopen).agentA]
      exact hdistinct
    have hzero := weiTo_eq_zero hpaid hrefunds
    rw [← hledger]
    simpa [weiTo] using hzero

/-- The laws of one escrow over every run.  `s'` is a later state of the run in which the effects
of `s` were not undone: its history extends the history of `s`. -/
theorem escrow_conserved {self owner : Address} {funded parent delay : Nat} {s s' : State}
    (id : Bytes32) (h : Reachable self owner funded parent delay s)
    (hrun : Reaches (step self) s s') (hsurvives : s.world.ledger <:+ s'.world.ledger) :
    Conserved id s.world s'.world := by
  have hlater : Reachable self owner funded parent delay s' := Reaches.trans h hrun
  exact Faithful.conserved h.ok.worlds.1 hlater.ok.worlds.1 hsurvives id

theorem escrow_conserved_over_reentrantPayout :
    ∃ s s', run (step 7) (reentrantPayout.take 1) (initial 1 0 0 0) = some s ∧
      run (step 7) (reentrantPayout.drop 1) s = some s' ∧
      s.world.ledger <:+ s'.world.ledger ∧ Conserved 5 s.world s'.world := by
  have hwhole : (run (step 7) (reentrantPayout.take 1 ++ reentrantPayout.drop 1)
      (initial 1 0 0 0)).isSome = true := by decide
  rcases Option.isSome_iff_exists.1 hwhole with ⟨s', hs'⟩
  rcases run_append.1 hs' with ⟨s, hs, hrest⟩
  -- the batch payout survived, the claim made from inside it did not
  have hsuffix : (run (step 7) (reentrantPayout.take 1) (initial 1 0 0 0)).map
      (fun t => t.world.ledger) =
      (run (step 7) (reentrantPayout.take 1 ++ reentrantPayout.drop 1) (initial 1 0 0 0)).map
        (fun t => t.world.ledger.drop 1) := by decide
  have hledger : s.world.ledger = s'.world.ledger.drop 1 := by
    rw [hs, hs'] at hsuffix
    exact Option.some.inj hsuffix
  have hsurvives : s.world.ledger <:+ s'.world.ledger := by
    rw [hledger]
    exact List.drop_suffix 1 s'.world.ledger
  exact ⟨s, s', hs, hrest, hsurvives, escrow_conserved 5 ⟨_, hs⟩ ⟨_, hrest⟩ hsurvives⟩

end Contracts
end PaymentRail
