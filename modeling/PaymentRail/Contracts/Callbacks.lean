import PaymentRail.Contracts.EscrowTransactions

/-!
# Callbacks — whole transactions whose callee calls back

`transactWith` is a transaction to the hub at once, as `transact` is, for a callee that may do
anything the machine allows while it has control: call the hub again, move other money, start and
abandon calls of its own.  It is what the machine does between two states without pending calls
(`Transacts.steps`).
-/

namespace PaymentRail
namespace Contracts

open Machine

/-- A transaction to the hub; `none` if it reverts.  `callee` is what the paid account does before it
returns with success, or `none` if its call fails. -/
def transactWith (self : Address) (now : Nat) (msg : Msg) (c : Call) (callee : Option (List Action))
    (w : World) : Option World :=
  match exec now msg c w with
  | .error _ => none
  | .ok (.done w) => some w
  | .ok (.transfer w account value entry resume) =>
      if w.balance < value then
        none
      else if account = self then
        some (resume.run (receive value ((w.debit value).book entry)))
      else
        match callee with
        | none => none
        | some actions =>
            match run (step self) actions { journal := .start ((w.debit value).book entry), now } with
            -- all its calls have ended, within the block
            | some s => if s.journal.stack = [] ∧ s.now = now then some (resume.run s.world) else none
            | none => none

/-! ## Runs above a pending call -/

/-- The same state with more calls pending below. -/
def State.above (below : List (Frame World (Option Resume))) (s : State) : State :=
  { journal := { current := s.journal.current, stack := s.journal.stack ++ below }, now := s.now }

section Above

variable {self : Address} {below : List (Frame World (Option Resume))} {s s' : State}

theorem sendValue_above (w : World) (callee : Address) (value : Nat) (entry : Entry)
    (resume : Resume) :
    sendValue self (s.above below) w callee value entry resume =
      (sendValue self s w callee value entry resume).above below := by
  unfold sendValue
  split
  · rfl
  · split
    · rfl
    · rfl

/-- A step inside a call does not look below it. -/
theorem step_above {a : Action} (h : step self a s = some s') (hnow : s'.now = s.now) :
    step self a (s.above below) = some (s'.above below) := by
  have hworld : (s.above below).world = s.world := rfl
  cases a with
  | block timestamp =>
      simp only [step] at h
      split at h
      · rename_i hguard
        cases h
        exact absurd hnow (Nat.ne_of_gt hguard.2)
      · cases h
  | call msg c =>
      simp only [step] at h ⊢
      split at h
      · cases h
      · rename_i hsender
        rw [if_neg hsender, hworld]
        have hthen : (s.above below).now = s.now := rfl
        rw [hthen]
        cases hexec : exec s.now msg c s.world with
        | error message =>
            rw [hexec] at h
            cases h
            rfl
        | ok next =>
            rw [hexec] at h
            cases next with
            | done w =>
                cases h
                rfl
            | transfer w callee value entry resume =>
                cases h
                exact congrArg some (sendValue_above w callee value entry resume)
  | force value =>
      cases h
      rfl
  | enter =>
      cases h
      rfl
  | ret =>
      simp only [step] at h ⊢
      cases hstack : s.journal.stack with
      | nil =>
          rw [hstack] at h
          cases h
      | cons frame rest =>
          have habove : (s.above below).journal.stack = frame :: (rest ++ below) := by
            simp [State.above, hstack]
          rw [hstack] at h
          rw [habove]
          cases htag : frame.tag with
          | some resume =>
              simp only [htag] at h ⊢
              cases h
              simp [State.above, Journal.commit, State.world, hstack]
          | none =>
              simp only [htag] at h ⊢
              cases h
              simp [State.above, Journal.commit, State.world, hstack]
  | fail =>
      simp only [step] at h ⊢
      cases hstack : s.journal.stack with
      | nil =>
          rw [hstack] at h
          cases h
      | cons frame rest =>
          have habove : (s.above below).journal.stack = frame :: (rest ++ below) := by
            simp [State.above, hstack]
          rw [hstack] at h
          rw [habove]
          cases h
          simp [State.above, Journal.rollback, hstack]

theorem now_le_of_step {a : Action} (h : step self a s = some s') : s.now ≤ s'.now := by
  cases a with
  | block timestamp =>
      simp only [step] at h
      split at h
      · rename_i hguard
        cases h
        exact Nat.le_of_lt hguard.2
      · cases h
  | call msg c =>
      simp only [step] at h
      split at h
      · cases h
      · split at h
        · cases h
          exact Nat.le_refl _
        · cases h
          exact Nat.le_refl _
        · cases h
          unfold sendValue
          split
          · exact Nat.le_refl _
          · split
            · exact Nat.le_refl _
            · exact Nat.le_refl _
  | force value =>
      cases h
      exact Nat.le_refl _
  | enter =>
      cases h
      exact Nat.le_refl _
  | ret =>
      simp only [step] at h
      split at h
      · cases h
      · split at h
        · cases h
          exact Nat.le_refl _
        · cases h
          exact Nat.le_refl _
  | fail =>
      simp only [step] at h
      split at h
      · cases h
      · cases h
        exact Nat.le_refl _

theorem now_le_of_run {actions : List Action} (h : run (step self) actions s = some s') :
    s.now ≤ s'.now :=
  run_invariant (P := fun t => s.now ≤ t.now)
    (fun _ _ _ ht hstep => Nat.le_trans ht (now_le_of_step hstep)) (Nat.le_refl _) h

/-- A run within one block, inside a call. -/
theorem run_above {actions : List Action} (h : run (step self) actions s = some s')
    (hnow : s'.now = s.now) : run (step self) actions (s.above below) = some (s'.above below) := by
  induction actions generalizing s with
  | nil =>
      cases h
      rfl
  | cons a actions ih =>
      rcases run_cons_eq_some.1 h with ⟨t, ht, hrest⟩
      have hfirst := now_le_of_step ht
      have hlater := now_le_of_run hrest
      have hsame : t.now = s.now := by omega
      exact run_cons_eq_some.2 ⟨t.above below, step_above ht hsame, ih hrest (hnow.trans hsame.symm)⟩

end Above

/-! ## Transactions -/

section Transactions

variable {self : Address} {now : Nat} {msg : Msg} {c : Call} {callee : Option (List Action)}
  {w w' : World}

/-- A transaction that does not revert ran to its end, paid the hub itself, or paid an account that
gave control back. -/
inductive Transacts (self : Address) (now : Nat) (msg : Msg) (c : Call) (w : World) : World → Prop
  | done {w' : World} (hexec : exec now msg c w = .ok (.done w')) : Transacts self now msg c w w'
  | toSelf {w₁ : World} {account : Address} {value : Nat} {entry : Entry} {resume : Resume}
      (hexec : exec now msg c w = .ok (.transfer w₁ account value entry resume))
      (hfunds : ¬ w₁.balance < value) (hself : account = self) :
      Transacts self now msg c w (resume.run (receive value ((w₁.debit value).book entry)))
  | called {w₁ : World} {account : Address} {value : Nat} {entry : Entry} {resume : Resume}
      {actions : List Action} {s : State}
      (hexec : exec now msg c w = .ok (.transfer w₁ account value entry resume))
      (hfunds : ¬ w₁.balance < value) (hself : account ≠ self)
      (hrun : run (step self) actions { journal := .start ((w₁.debit value).book entry), now } = some s)
      (hstack : s.journal.stack = []) (hnow : s.now = now) :
      Transacts self now msg c w (resume.run s.world)

theorem transacts_of_transactWith (h : transactWith self now msg c callee w = some w') :
    Transacts self now msg c w w' := by
  simp only [transactWith] at h
  split at h
  · cases h
  · rename_i w₁ hexec
    cases h
    exact .done hexec
  · rename_i w₁ account value entry resume hexec
    split at h
    · cases h
    · rename_i hfunds
      split at h
      · rename_i hself
        cases h
        exact .toSelf hexec hfunds hself
      · rename_i hself
        split at h
        · cases h
        · split at h
          · rename_i s hrun
            split at h
            · rename_i hends
              cases h
              exact .called hexec hfunds hself hrun hends.1 hends.2
            · cases h
          · cases h

/-- The machine takes the whole transaction, callbacks and all. -/
theorem Transacts.steps (h : Transacts self now msg c w w') (hsender : msg.sender ≠ self) :
    Reaches (step self) { journal := .start w, now } { journal := .start w', now } := by
  have hworld : State.world { journal := .start w, now } = w := rfl
  cases h with
  | done hexec =>
      refine ⟨[.call msg c], run_cons_eq_some.2 ⟨_, ?_, rfl⟩⟩
      simp only [step, if_neg hsender, hworld, hexec]
      rfl
  | toSelf hexec hfunds hself =>
      refine ⟨[.call msg c], run_cons_eq_some.2 ⟨_, ?_, rfl⟩⟩
      simp only [step, if_neg hsender, hworld, hexec, sendValue, if_neg hfunds, if_pos hself]
      rfl
  | @called w₁ account value entry resume actions s hexec hfunds hself hrun hstack hnow =>
      -- the callee runs above the pending call, which then returns
      let pending : Frame World (Option Resume) := { snapshot := w, tag := some resume }
      let inside : State := { journal := .start ((w₁.debit value).book entry), now }
      have hcall : step self (.call msg c) { journal := .start w, now } =
          some (inside.above [pending]) := by
        simp only [step, if_neg hsender, hworld, hexec, sendValue, if_neg hfunds, if_neg hself]
        rfl
      have hinside : run (step self) actions (inside.above [pending]) = some (s.above [pending]) :=
        run_above hrun hnow
      have hlast : step self .ret (s.above [pending]) =
          some { journal := .start (resume.run s.world), now } := by
        have habove : (s.above [pending]).journal.stack = [pending] := by
          show s.journal.stack ++ [pending] = [pending]
          rw [hstack]
          rfl
        simp only [step, habove]
        simp only [Journal.commit, State.above, hstack, hnow]
        rfl
      exact ⟨.call msg c :: (actions ++ [.ret]), run_cons_eq_some.2 ⟨_, hcall,
        run_append.2 ⟨_, hinside, run_cons_eq_some.2 ⟨_, hlast, rfl⟩⟩⟩⟩

/-- What is kept at every time, and holds where the function stops at its call, holds in the end. -/
theorem Transacts.kept {P : World → Prop} (h : Transacts self now msg c w w')
    (hP : ∀ now, 0 < now → Kept now P) (hnow : 0 < now)
    (hexec : ∀ next, exec now msg c w = .ok next → P next.after) : P w' := by
  cases h with
  | done hdone => exact hexec _ hdone
  | toSelf htransfer _ _ =>
      exact (hP now hnow).resume _ _ ((hP now hnow).receive _ _ (hexec _ htransfer))
  | @called w₁ account value entry resume actions s htransfer _ _ hrun _ _ =>
      have hstart : (Journal.start ((w₁.debit value).book entry) : Journal World (Option Resume)).All P ∧
          0 < now := ⟨Journal.All.start (hexec _ htransfer), hnow⟩
      have hend : s.journal.All P ∧ 0 < s.now :=
        run_invariant (P := fun t : State => t.journal.All P ∧ 0 < t.now)
          (fun a _ _ ht hstep => step_all hP a ht.1 ht.2 hstep) hstart hrun
      exact (hP now hnow).resume _ resume hend.1.1

theorem Transacts.faithful (h : Transacts self now msg c w w') (hw : Faithful w) (hnow : 0 < now) :
    Faithful w' :=
  h.kept (fun _ hnow => faithful_kept hnow) hnow (fun _ hexec => (exec_faithful hw hnow hexec).after)

/-- The fee of a batch is on the books when its transaction is over, whatever the payee did. -/
theorem Transacts.settleBatch {id receiptsHash : Bytes32} {amount : Nat}
    (h : Transacts self now msg (.settleBatch id receiptsHash amount) w w') (hnow : 0 < now) :
    .paid id (w.escrows id).agentB (amount - amount * w.feePercent / 10000)
      (amount * w.feePercent / 10000) :: w.ledger <:+ w'.ledger := by
  refine h.kept (fun now _ => history_kept _ now) hnow ?_
  intro next hexec
  simp only [exec, nonPayable, Contracts.settleBatch, bind_eq_ok, require_eq_ok, exists_and_left,
    exists_const] at hexec
  rw [(payAgentB_ledger hexec.2.2.2).2]

end Transactions

theorem feesWithheld_of_suffix {es es' : List Entry} (h : es <:+ es') :
    feesWithheld es ≤ feesWithheld es' := by
  rcases h with ⟨later, rfl⟩
  rw [feesWithheld, feesWithheld, List.map_append, List.sum_append]
  exact Nat.le_add_left _ _

end Contracts
end PaymentRail
