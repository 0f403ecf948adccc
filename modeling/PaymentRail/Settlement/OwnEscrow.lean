import PaymentRail.Settlement.SchedulerSafety

/-!
# OwnEscrow — a batch is paid from the escrow of its receipts

The scheduler groups receipts by `escrowId`, cuts the groups into chunks and hands the key of a group
to `settleBatch`; the receipts of a tick are used as they were read.  In every run the row of a batch
names the escrow of each of its receipts (`step_sorted`).
-/

namespace PaymentRail
namespace Settlement

/-- After its first answer a call saves no new row any more. -/
theorem not_insert_of_turns {cfg : Config} {s : State} {now : Time} {p p' : Process} {reply : Reply}
    {store' : Store} (h : Turns cfg s now p reply store' p') (entity : SettlementRow) :
    p' ≠ .insert entity := by
  cases h with
  | _ => exact nofun

end Settlement

namespace BatchScheduler

open Machine Strings Collections Receipts
open Settlement (SettlementId SettlementRow SettleBatchInput Process Reply Time)

/-! ## What the loops hold -/

def OfEscrow (escrowId : Text) (receipts : List PaymentReceipt) : Prop :=
  ∀ r ∈ receipts, r.escrowId = escrowId

def GroupsSorted (groups : List (Text × List PaymentReceipt)) : Prop :=
  ∀ group ∈ groups, OfEscrow group.1 group.2

structure Work.Sorted (work : Work) : Prop where
  chunks : ∀ chunk ∈ work.chunks, OfEscrow work.escrowId chunk
  groups : GroupsSorted work.groups

/-- The row pays from the escrow of all receipts of the batch. -/
def OwnRow (store : Settlement.Store) (sid : SettlementId) (chunk : List PaymentReceipt) : Prop :=
  ∃ row, store.find sid = some row ∧ OfEscrow row.escrowId chunk

def TickSorted (settlement : Settlement.State) : Tick → Prop
  | .settleBatch chunk _ work =>
      work.Sorted ∧ OfEscrow work.escrowId chunk ∧
        ∀ entity, settlement.process schedulerPid = some (.insert entity) →
          entity.escrowId = work.escrowId
  | .markSettled _ _ work => work.Sorted
  | _ => True

structure Sorted (s : State) : Prop where
  batches : ∀ sid chunk, (sid, chunk) ∈ s.batches → OwnRow s.settlement.store sid chunk
  tick : TickSorted s.settlement s.tick

theorem OfEscrow.sublist {escrowId : Text} {receipts chunk : List PaymentReceipt}
    (h : OfEscrow escrowId receipts) (hsub : chunk.Sublist receipts) : OfEscrow escrowId chunk :=
  fun r hr => h r (hsub.subset hr)

theorem OwnRow.mono {store store' : Settlement.Store} {sid : SettlementId}
    {chunk : List PaymentReceipt} (h : OwnRow store sid chunk) (hkept : Settlement.Kept store store') :
    OwnRow store' sid chunk := by
  rcases h with ⟨row, hrow, hof⟩
  rcases hkept.rows sid row hrow with ⟨row', hrow', hbatch⟩
  have hescrow : row'.escrowId = row.escrowId := congrArg SettleBatchInput.escrowId hbatch
  exact ⟨row', hrow', by rw [hescrow]; exact hof⟩

theorem groupsSorted_groupByEscrow (receipts : List PaymentReceipt) :
    GroupsSorted (groupByEscrow receipts) := by
  rintro ⟨escrowId, group⟩ hmem r hr
  have hgroup := (Arrange.grouped_groupBy receipts).group escrowId group hmem
  rw [hgroup] at hr
  exact of_decide_eq_true (List.mem_filter.1 hr).2

theorem initial_sorted : Sorted initial where
  batches := fun _ _ hmem => absurd hmem List.not_mem_nil
  tick := trivial

/-! ## The loops -/

section Loops

variable {cfg : Config} {keccak : Keccak} {s : State} {id : SettlementId}

theorem sorted_settleChunk {chunk : List PaymentReceipt} {work : Work}
    {leave : BatchRunResult → State}
    (hbatches : ∀ sid chunk, (sid, chunk) ∈ s.batches → OwnRow s.settlement.store sid chunk)
    (hwork : work.Sorted) (hchunk : OfEscrow work.escrowId chunk)
    (hleave : ∀ result, Sorted (leave result)) :
    Sorted (s.settleChunk cfg keccak id chunk work leave) := by
  unfold State.settleChunk
  split
  · rename_i settlement hstart
    unfold State.startChunk at hstart
    split at hstart
    · rename_i input hinput
      cases Settlement.acts_of_step hstart with
      | @settleBatch _ _ _ entity _ _ hentity =>
          refine ⟨hbatches, hwork, hchunk, ?_⟩
          intro entity' hprocess
          rw [Settlement.process_spawn_self] at hprocess
          cases hprocess
          -- the key of the group went into the input, and from there into the row
          have hrow : entity.escrowId = input.escrowId :=
            congrArg SettleBatchInput.escrowId (newSettlement_batch hentity).2
          simp only [batchInput, bind_eq_ok, pure_eq_ok] at hinput
          rcases hinput with ⟨_, _, _, _, rfl⟩
          exact hrow
    · cases hstart
  · exact hleave _

theorem sorted_nextGroup (now : Time) (result : BatchRunResult)
    {groups : List (Text × List PaymentReceipt)}
    (hbatches : ∀ sid chunk, (sid, chunk) ∈ s.batches → OwnRow s.settlement.store sid chunk)
    (hgroups : GroupsSorted groups) : Sorted (s.nextGroup cfg keccak id now result groups) := by
  induction groups generalizing result with
  | nil => exact ⟨hbatches, trivial⟩
  | cons group groups ih =>
      rcases group with ⟨escrowId, receipts⟩
      have hrest : GroupsSorted groups := fun g hg => hgroups g (List.mem_cons_of_mem _ hg)
      have hown : OfEscrow escrowId receipts := hgroups _ List.mem_cons_self
      unfold State.nextGroup
      split
      · exact ih result hrest
      · rename_i chunk chunks hdue
        have hsub : ∀ c ∈ chunk :: chunks, c.Sublist receipts := by
          intro c hc
          rw [← hdue] at hc
          exact (List.sublist_flatten_of_mem hc).trans (dueChunks_sublist cfg receipts now)
        refine sorted_settleChunk hbatches ⟨?_, hrest⟩ ?_ fun result => ih result hrest
        · exact fun c hc => hown.sublist (hsub c (List.mem_cons_of_mem _ hc))
        · exact hown.sublist (hsub chunk List.mem_cons_self)

theorem sorted_nextChunk {work : Work}
    (hbatches : ∀ sid chunk, (sid, chunk) ∈ s.batches → OwnRow s.settlement.store sid chunk)
    (hwork : work.Sorted) : Sorted (s.nextChunk cfg keccak id work) := by
  unfold State.nextChunk
  split
  · exact sorted_nextGroup _ _ hbatches hwork.groups
  · rename_i chunk chunks hchunks
    have hown : ∀ c ∈ chunk :: chunks, OfEscrow work.escrowId c := by
      intro c hc
      rw [← hchunks] at hc
      exact hwork.chunks c hc
    refine sorted_settleChunk hbatches ⟨?_, hwork.groups⟩ (hown chunk List.mem_cons_self)
      fun result => sorted_nextGroup _ _ hbatches hwork.groups
    exact fun c hc => hown c (List.mem_cons_of_mem _ hc)

end Loops

/-! ## Steps -/

section Steps

variable {lossless : Prop} {cfg : Config} {keccak : Keccak} {s s' : State} {now : Time}
  {reply : Reply} {id : SettlementId} {chunk : List PaymentReceipt} {sid : SettlementId} {work : Work}

/-- The row of the batch is written by this step, with what the call was given. -/
theorem sorted_called {p : Process} {settlement : Settlement.State}
    (hinv : Invariant lossless keccak s) (hsorted : Sorted s)
    (htick : s.tick = .settleBatch chunk sid work)
    (hp : s.settlement.process schedulerPid = some p)
    (hresumes : Settlement.Resumes cfg.settlement s.settlement schedulerPid now p reply settlement) :
    ∀ sid' chunk', (sid', chunk') ∈ (s.called settlement reply p chunk sid).batches →
      OwnRow settlement.store sid' chunk' := by
  have hkept := (Settlement.resumes_steps hinv.base.consistent hp hresumes).kept
  have hold : ∀ sid' chunk', (sid', chunk') ∈ s.batches → OwnRow settlement.store sid' chunk' :=
    fun sid' chunk' hmem => (hsorted.batches sid' chunk' hmem).mono hkept
  have hstands := hsorted.tick
  rw [htick] at hstands
  rcases hinv.tickAt htick with ⟨_, q, hq, hcall⟩
  rw [hp] at hq
  cases hq
  intro sid' chunk' hmem
  have hsaved : ∀ entity, p = .insert entity → settlement.store = s.settlement.store.save entity →
      OwnRow settlement.store sid chunk := by
    rintro entity rfl hstore
    rw [hstore, ← hcall.1]
    refine ⟨entity.stored, Settlement.find_save_self _ entity, ?_⟩
    have hescrow : entity.stored.escrowId = work.escrowId := hstands.2.2 entity hp
    rw [hescrow]
    exact hstands.2.1
  simp only [State.called] at hmem
  split at hmem
  · rename_i hwrites
    rcases List.mem_cons.1 hmem with heq | hmem
    · rcases Prod.mk.inj heq with ⟨rfl, rfl⟩
      cases hresumes with
      | inserted _ _ => exact hsaved _ rfl rfl
      | insertedOnly _ _ => exact hsaved _ rfl rfl
      | notInserted => simp [writesRow] at hwrites
      | _ => cases hwrites
    · exact hold sid' chunk' hmem
  · exact hold sid' chunk' hmem

theorem resume_sorted (hinv : Invariant lossless keccak s) (hsorted : Sorted s)
    (hstep : resume cfg keccak s now reply id s.tick = some s') : Sorted s' := by
  have hstands := hsorted.tick
  cases htick : s.tick with
  | idle =>
      rw [htick] at hstep
      cases hstep
  | findUnsettled begun =>
      rw [htick] at hstep
      cases reply with
      | done =>
          cases hstep
          exact sorted_nextGroup _ _ hsorted.batches (groupsSorted_groupByEscrow _)
      | failed error =>
          cases hstep
          exact ⟨hsorted.batches, trivial⟩
      | gas fee => cases hstep
      | sent hash => cases hstep
  | markSettled chunk sid work =>
      rw [htick] at hstep hstands
      cases reply with
      | done =>
          cases hstep
          exact sorted_nextChunk hsorted.batches ⟨hstands.chunks, hstands.groups⟩
      | failed error =>
          cases hstep
          exact sorted_nextGroup _ _ hsorted.batches hstands.groups
      | gas fee => cases hstep
      | sent hash => cases hstep
  | settleBatch chunk sid work =>
      rw [htick] at hstep hstands
      rcases hinv.tickAt htick with ⟨_, p, hp, _⟩
      rcases resume_settleBatch_cases hp hstep with ⟨settlement, hresumes, hcases⟩
      have hcalled := sorted_called hinv hsorted htick hp hresumes
      rcases hcases with ⟨_, rfl⟩ | ⟨_, _, rfl⟩ | ⟨_, _, rfl⟩
      · refine ⟨hcalled, ?_⟩
        simp only [State.called, htick]
        refine ⟨hstands.1, hstands.2.1, ?_⟩
        intro entity hprocess
        have hturns := Settlement.turns_of_resumes hresumes hprocess
        exact absurd rfl (Settlement.not_insert_of_turns hturns entity)
      · exact sorted_nextGroup _ _ hcalled hstands.1.groups
      · exact ⟨hcalled, hstands.1⟩

/-- Whatever happens, a batch stays with the escrow of its receipts. -/
theorem step_sorted {a : Action} (hinv : Invariant lossless keccak s) (hsorted : Sorted s)
    (hstep : step cfg keccak a s = some s') : Sorted s' := by
  cases a with
  | create id createdAt dto =>
      simp only [step] at hstep
      split at hstep
      · cases hstep
        exact ⟨hsorted.batches, hsorted.tick⟩
      · cases hstep
  | runOnce now =>
      simp only [step] at hstep
      split at hstep
      · cases hstep
        exact ⟨hsorted.batches, trivial⟩
      · cases hstep
        exact ⟨hsorted.batches, hsorted.tick⟩
  | resume now reply id => exact resume_sorted hinv hsorted hstep
  | other a =>
      simp only [step] at hstep
      split at hstep
      · cases hstep
      · rename_i ha
        split at hstep
        · rename_i settlement hinner
          cases hstep
          rcases Settlement.step_kept hinv.base.consistent hinner with ⟨hkept, _, hothers⟩
          refine ⟨fun sid chunk hmem => (hsorted.batches sid chunk hmem).mono hkept, ?_⟩
          have hsame := hothers schedulerPid ha
          have hstands := hsorted.tick
          cases htick : s.tick with
          | settleBatch chunk sid work =>
              rw [htick] at hstands
              exact ⟨hstands.1, hstands.2.1, fun entity h => hstands.2.2 entity (hsame.symm.trans h)⟩
          | markSettled chunk sid work =>
              rw [htick] at hstands
              exact hstands
          | _ => trivial
        · cases hstep

end Steps

end BatchScheduler
end PaymentRail
