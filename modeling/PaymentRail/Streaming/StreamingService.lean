import PaymentRail.Machine.Calls
import PaymentRail.Money.Amount

/-!
# StreamingService — the running total of stream claims

This module embeds `StreamingService.claim` of `streaming/streaming.service.ts` with the times the
database gives the rows.  A claim reads the last claim of its escrow, adds to its total and inserts a
row; nothing holds the escrow in between, and the database is free to choose among claims of one time.

So the total is right exactly as long as claims are written in turn (`InTurn`): the claim a call has read
is still the last one when its row is written, and the row gets a later time.
-/

namespace PaymentRail
namespace Streaming

open Machine Strings Money

/-! ## The service -/

abbrev Time := Nat

structure ClaimStreamDto where
  escrowId : Text
  /-- The number of the request, as the decimal it prints. -/
  usageDelta : Amount
  /-- `@Min(1)` -/
  usageDelta_min : (scale : Int) ≤ usageDelta.wei

/-- A row of `stream_claims`.  A `decimal(36, 18)` column holds an `Amount` exactly. -/
structure StreamClaim where
  id : Nat
  escrowId : Text
  usageDelta : Amount
  cumulativeAmount : Amount
  claimedAt : Time
  deriving DecidableEq, Repr

structure Store where
  claims : List StreamClaim
  /-- The message of the 503, while streaming is paused. -/
  paused : Option String
  deriving DecidableEq, Repr

def Store.empty : Store where
  claims := []
  paused := none

def Store.claimsOf (store : Store) (escrowId : Text) : List StreamClaim :=
  store.claims.filter fun claim => claim.escrowId = escrowId

/-- What `findOne` with `order: { claimedAt: 'DESC' }` may return; rows of one time have no order. -/
def Store.isLast (store : Store) (escrowId : Text) : Option StreamClaim → Bool
  | none => store.claimsOf escrowId = []
  | some claim => claim ∈ store.claimsOf escrowId ∧
      ∀ other ∈ store.claimsOf escrowId, other.claimedAt ≤ claim.claimedAt

/-- The entity of `claimRepo.create`. -/
structure NewClaim where
  escrowId : Text
  usageDelta : Amount
  cumulativeAmount : Amount
  deriving DecidableEq, Repr

def createClaim (lastClaim : Option StreamClaim) (dto : ClaimStreamDto) : NewClaim :=
  let previousCumulative := (lastClaim.map StreamClaim.cumulativeAmount).getD (Amount.fromWei 0)
  { escrowId := dto.escrowId
    usageDelta := dto.usageDelta
    cumulativeAmount := previousCumulative.plus dto.usageDelta }

/-- The row of an entity, with the columns the database fills in. -/
def NewClaim.row (claim : NewClaim) (id : Nat) (claimedAt : Time) : StreamClaim where
  id := id
  escrowId := claim.escrowId
  usageDelta := claim.usageDelta
  cumulativeAmount := claim.cumulativeAmount
  claimedAt := claimedAt

inductive Process where
  | findOne (dto : ClaimStreamDto)
  | save (lastClaim : Option StreamClaim) (claim : NewClaim)

inductive Reply where
  | found (lastClaim : Option StreamClaim)
  | inserted (id : Nat) (claimedAt : Time)
  | failed (message : String)
  deriving DecidableEq, Repr

inductive Answer where
  | claimed (claim : StreamClaim)
  /-- An exception, with its HTTP status. -/
  | error (status : Nat) (message : String)
  deriving DecidableEq, Repr

/-- An operator pauses streaming or lifts the pause. -/
inductive Event where
  | setPaused (message : Option String)
  deriving DecidableEq, Repr

def start (dto : ClaimStreamDto) (store : Store) : Store × Flow Process Answer :=
  match store.paused with
  | some message => (store, .answer (.error 503 message))
  | none => (store, .await (.findOne dto))

def resume (_ : CallId) : Process → Reply → Store → Option (Store × Flow Process Answer)
  | .findOne dto, .found lastClaim, store =>
      if store.isLast dto.escrowId lastClaim = true then
        some (store, .await (.save lastClaim (createClaim lastClaim dto)))
      else
        none
  | .save _ claim, .inserted id claimedAt, store =>
      if ∀ other ∈ store.claims, other.id ≠ id then
        let row := claim.row id claimedAt
        some ({ store with claims := row :: store.claims }, .answer (.claimed row))
      else
        none
  -- storage fails before anything is written
  | .findOne _, .failed message, store => some (store, .answer (.error 500 message))
  | .save _ _, .failed message, store => some (store, .answer (.error 500 message))
  | _, _, _ => none

def external : Event → Store → Option Store
  | .setPaused message, store => some { store with paused := message }

def service : Service Store ClaimStreamDto Process Reply Answer Event := { start, resume, external }

/-! ## Running totals -/

def total (claims : List StreamClaim) : Int := (claims.map (·.usageDelta.wei)).sum

/-- The claims of an escrow, the newest first, keep a running total: the last one has the sum of them
all, and a later claim has more than an earlier one. -/
structure RunningTotal (claims : List StreamClaim) : Prop where
  last : ∀ claim ∈ claims, (∀ other ∈ claims, other.claimedAt ≤ claim.claimedAt) →
    claim.cumulativeAmount.wei = total claims
  increasing : ∀ claim ∈ claims, ∀ other ∈ claims, claim.claimedAt < other.claimedAt →
    claim.cumulativeAmount.wei < other.cumulativeAmount.wei
  appended : claims.Pairwise fun newer older =>
    older.cumulativeAmount.wei < newer.cumulativeAmount.wei

/-- A row is written in its turn: the claim it was computed from is still the last one of the escrow,
and it gets a later time. -/
def inTurn : Process → Reply → Store → Bool
  | .save lastClaim claim, .inserted _ claimedAt, store =>
      store.isLast claim.escrowId lastClaim &&
        (store.claimsOf claim.escrowId).all fun other => other.claimedAt < claimedAt
  | _, _, _ => true

def InTurn (p : Process) (reply : Reply) (store : Store) : Prop := inTurn p reply store = true

instance (p : Process) (reply : Reply) (store : Store) : Decidable (InTurn p reply store) :=
  inferInstanceAs (Decidable (inTurn p reply store = true))

/-! ## Claims in turn -/

/-- Every claim has the sum of itself and the claims before it, at a later time than they. -/
def Totals : List StreamClaim → Prop
  | [] => True
  | claim :: earlier =>
      claim.cumulativeAmount.wei = total (claim :: earlier) ∧ 0 < claim.usageDelta.wei ∧
        (∀ other ∈ earlier, other.claimedAt < claim.claimedAt) ∧ Totals earlier

theorem total_cons (claim : StreamClaim) (claims : List StreamClaim) :
    total (claim :: claims) = claim.usageDelta.wei + total claims := by
  simp [total]

namespace Totals

variable {claims : List StreamClaim} {claim : StreamClaim}

theorem le_total (h : Totals claims) (hmem : claim ∈ claims) :
    claim.cumulativeAmount.wei ≤ total claims := by
  induction claims with
  | nil => cases hmem
  | cons newest earlier ih =>
      rcases h with ⟨hsum, hpos, _, hearlier⟩
      rcases List.mem_cons.1 hmem with rfl | hmem
      · exact le_of_eq hsum
      · have hle := ih hearlier hmem
        rw [total_cons]
        omega

/-- A claim that no other one is later than is the newest one. -/
theorem eq_newest {newest : StreamClaim} (h : Totals (newest :: claims))
    (hmem : claim ∈ newest :: claims)
    (hlast : ∀ other ∈ newest :: claims, other.claimedAt ≤ claim.claimedAt) : claim = newest := by
  rcases List.mem_cons.1 hmem with heq | hmem
  · exact heq
  · have hle := hlast newest List.mem_cons_self
    exact absurd (h.2.2.1 claim hmem) (Nat.not_lt.2 hle)

theorem runningTotal (h : Totals claims) : RunningTotal claims := by
  induction claims with
  | nil =>
      exact ⟨fun _ hmem => absurd hmem List.not_mem_nil, fun _ hmem => absurd hmem List.not_mem_nil,
        .nil⟩
  | cons newest earlier ih =>
      rcases h with ⟨hsum, hpos, hlater, hearlier⟩
      have hrest := ih hearlier
      have hless : ∀ other ∈ earlier,
          other.cumulativeAmount.wei < newest.cumulativeAmount.wei := by
        intro other hother
        have hle := hearlier.le_total hother
        rw [hsum, total_cons]
        omega
      refine ⟨?_, ?_, List.pairwise_cons.2 ⟨hless, hrest.appended⟩⟩
      · intro claim hmem hlast
        rw [eq_newest ⟨hsum, hpos, hlater, hearlier⟩ hmem hlast]
        exact hsum
      · intro claim hclaim other hother hlt
        rcases List.mem_cons.1 hclaim with rfl | hearly
        -- nothing is later than the newest claim
        · rcases List.mem_cons.1 hother with rfl | hbefore
          · exact absurd hlt (Nat.lt_irrefl _)
          · exact absurd hlt (Nat.lt_asymm (hlater other hbefore))
        · rcases List.mem_cons.1 hother with rfl | hbefore
          · exact hless claim hearly
          · exact hrest.increasing claim hearly other hbefore hlt

end Totals

/-- The assertion on the store. -/
def Kept (store : Store) : Prop := ∀ escrowId, Totals (store.claimsOf escrowId)

/-- The assertion on a waiting call: the entity was computed from the claim that was read. -/
def Computed : Process → Prop
  | .findOne _ => True
  | .save lastClaim claim => ∃ dto, claim = createClaim lastClaim dto

theorem claimsOf_cons_self (store : Store) (row : StreamClaim) :
    Store.claimsOf { store with claims := row :: store.claims } row.escrowId =
      row :: store.claimsOf row.escrowId := by
  simp [Store.claimsOf]

theorem claimsOf_cons_of_ne (store : Store) {row : StreamClaim} {escrowId : Text}
    (h : row.escrowId ≠ escrowId) :
    Store.claimsOf { store with claims := row :: store.claims } escrowId =
      store.claimsOf escrowId := by
  simp [Store.claimsOf, h]

/-- A row that is written in its turn has the sum of all claims. -/
theorem total_of_isLast {store : Store} (h : Kept store) {lastClaim : Option StreamClaim}
    {dto : ClaimStreamDto} (hlast : store.isLast dto.escrowId lastClaim = true) :
    (createClaim lastClaim dto).cumulativeAmount.wei =
      dto.usageDelta.wei + total (store.claimsOf dto.escrowId) := by
  have htotals := h dto.escrowId
  cases lastClaim with
  | none =>
      have hnone : store.claimsOf dto.escrowId = [] := of_decide_eq_true hlast
      rw [hnone]
      simp [createClaim, Amount.plus, total]
  | some claim =>
      rcases of_decide_eq_true hlast with ⟨hmem, hlatest⟩
      cases hclaims : store.claimsOf dto.escrowId with
      | nil =>
          rw [hclaims] at hmem
          cases hmem
      | cons newest earlier =>
          rw [hclaims] at htotals hmem hlatest
          rw [htotals.eq_newest hmem hlatest, ← htotals.1]
          simp [createClaim, Amount.plus]
          omega

theorem kept_insert {store : Store} (h : Kept store) {lastClaim : Option StreamClaim}
    {dto : ClaimStreamDto} (id : Nat) {claimedAt : Time}
    (hturn : InTurn (.save lastClaim (createClaim lastClaim dto)) (.inserted id claimedAt) store) :
    Kept { store with claims := (createClaim lastClaim dto).row id claimedAt :: store.claims } := by
  rcases Bool.and_eq_true_iff.1 hturn with ⟨hlast, hlater⟩
  intro escrowId
  by_cases hescrow : dto.escrowId = escrowId
  · subst hescrow
    have hcons := claimsOf_cons_self store ((createClaim lastClaim dto).row id claimedAt)
    rw [show ((createClaim lastClaim dto).row id claimedAt).escrowId = dto.escrowId from rfl] at hcons
    rw [hcons]
    refine ⟨?_, ?_, ?_, h dto.escrowId⟩
    · rw [total_cons]
      exact total_of_isLast h hlast
    · have hmin := dto.usageDelta_min
      have hscale : (0 : Int) < scale := by decide
      show 0 < dto.usageDelta.wei
      omega
    · intro other hother
      exact of_decide_eq_true (List.all_eq_true.1 hlater other hother)
  · rw [claimsOf_cons_of_ne store (show _ ≠ escrowId from hescrow)]
    exact h escrowId

/-- Calls that write in turn keep the totals; no call minds the steps of another one. -/
theorem outline : Outline (service.restrict InTurn) Kept (fun _ _ p => Computed p) (fun _ _ => True) where
  symm := fun _ _ _ => trivial
  start := by
    intro id dto store hstore
    have hsame : (start dto store).1 = store ∧ (start dto store).2.Awaits Computed := by
      unfold start
      split
      · exact ⟨rfl, trivial⟩
      · exact ⟨rfl, trivial⟩
    refine ⟨?_, hsame.2, fun _ q hq => ⟨hq, Flow.awaits_of_forall (fun _ => trivial) _⟩⟩
    show Kept (start dto store).1
    rw [hsame.1]
    exact hstore
  resume := by
    intro id p reply store store' flow hstore hp hresume
    rcases Service.restrict_resume.1 hresume with ⟨hturn, hresume⟩
    suffices hkept : Kept store' ∧ flow.Awaits Computed from
      ⟨hkept.1, hkept.2, fun _ q _ hq _ => ⟨hq, Flow.awaits_of_forall (fun _ => trivial) _⟩⟩
    change resume id p reply store = some (store', flow) at hresume
    cases p with
    | findOne dto =>
        cases reply with
        | found lastClaim =>
            simp only [resume] at hresume
            split at hresume
            · cases hresume
              exact ⟨hstore, dto, rfl⟩
            · cases hresume
        | inserted rowId claimedAt => cases hresume
        | failed message =>
            cases hresume
            exact ⟨hstore, trivial⟩
    | save lastClaim claim =>
        cases reply with
        | found lastClaim => cases hresume
        | inserted rowId claimedAt =>
            simp only [resume] at hresume
            split at hresume
            · cases hresume
              obtain ⟨dto, rfl⟩ := hp
              exact ⟨kept_insert hstore rowId hturn, trivial⟩
            · cases hresume
        | failed message =>
            cases hresume
            exact ⟨hstore, trivial⟩
  external := by
    intro e store store' hstore h
    cases e with
    | setPaused message =>
        cases h
        exact ⟨hstore, fun _ q hq => hq⟩

/-- For every interleaving of claims, at any times and with any storage failures: as long as rows are
written in turn, the claims of every escrow keep a running total. -/
theorem running_total_in_turn {moves : List (Move ClaimStreamDto Reply Event)}
    {c : Calls Store Process Answer}
    (h : run (service.restrict InTurn).step moves (Calls.start Store.empty) = some c)
    (escrowId : Text) : RunningTotal (c.store.claimsOf escrowId) := by
  have hstart : Kept Store.empty := fun _ => trivial
  have hend := outline.run (Calls.Annotated.start hstart) h
  exact (hend.store escrowId).runningTotal

theorem one_min : (scale : Int) ≤ (Amount.fromWei (10 ^ 18)).wei := by decide

/-- One token is claimed. -/
def oneToken (escrowId : Text) : ClaimStreamDto where
  escrowId := escrowId
  usageDelta := Amount.fromWei (10 ^ 18)
  usageDelta_min := one_min

/-- Two calls wait at the same time, on two escrows; then a third one follows on the first of them. -/
def claimsInTurn : List (Move ClaimStreamDto Reply Event) :=
  [.call 0 (oneToken ['a']), .call 1 (oneToken ['b']), .resume 0 (.found none), .resume 1 (.found none),
    .resume 0 (.inserted 1 10), .resume 1 (.inserted 2 10), .call 2 (oneToken ['a']),
    .resume 2 (.found (some ⟨1, ['a'], ⟨10 ^ 18⟩, ⟨10 ^ 18⟩, 10⟩)), .resume 2 (.inserted 3 11)]

theorem running_total_in_turn_claimsInTurn :
    ∃ c, run (service.restrict InTurn).step claimsInTurn (Calls.start Store.empty) = some c ∧
      (c.store.claimsOf ['a']).length = 2 ∧ RunningTotal (c.store.claimsOf ['a']) := by
  have hend : (run (service.restrict InTurn).step claimsInTurn (Calls.start Store.empty)).any
      (fun c => decide ((c.store.claimsOf ['a']).length = 2)) = true := by decide +kernel
  rcases (Option.any_eq_true _ _).1 hend with ⟨c, hc, hlength⟩
  exact ⟨c, hc, of_decide_eq_true hlength, running_total_in_turn hc ['a']⟩

/-- Both calls read that there is no claim yet. -/
def overlappingClaims : List (Move ClaimStreamDto Reply Event) :=
  [.call 0 (oneToken ['a']), .call 1 (oneToken ['a']), .resume 0 (.found none), .resume 1 (.found none),
    .resume 0 (.inserted 1 10), .resume 1 (.inserted 2 11)]

/-- After two calls that overlap, the last claim has one of the two tokens. -/
theorem overlapping_claims_lose_total :
    ¬ ∀ (moves : List (Move ClaimStreamDto Reply Event)) (c : Calls Store Process Answer),
      run service.step moves (Calls.start Store.empty) = some c → c.processes = [] →
        ∀ escrowId, RunningTotal (c.store.claimsOf escrowId) := by
  intro hclaim
  let first : StreamClaim := ⟨1, ['a'], ⟨10 ^ 18⟩, ⟨10 ^ 18⟩, 10⟩
  let second : StreamClaim := ⟨2, ['a'], ⟨10 ^ 18⟩, ⟨10 ^ 18⟩, 11⟩
  have hend : (run service.step overlappingClaims (Calls.start Store.empty)).any
      (fun c => decide (c.processes = []) && decide (c.store.claimsOf ['a'] = [second, first])) =
        true := by decide +kernel
  rcases (Option.any_eq_true _ _).1 hend with ⟨c, hc, hdone⟩
  rcases Bool.and_eq_true_iff.1 hdone with ⟨hdone, hclaims⟩
  have htotal := hclaim overlappingClaims c hc (of_decide_eq_true hdone) ['a']
  rw [of_decide_eq_true hclaims] at htotal
  have hsum := htotal.last second List.mem_cons_self (by decide)
  exact absurd hsum (by decide)

end Streaming
end PaymentRail
