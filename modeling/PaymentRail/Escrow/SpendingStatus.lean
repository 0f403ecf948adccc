import PaymentRail.Escrow.SpendingLimit
import PaymentRail.Fees.FeePolicyService

/-!
# SpendingStatus — the limits of payers, and what the status of a payer promises

This module embeds the rest of `escrow/spending-limit.service.ts` and its controller: administrators set
and clear the limit of a payer, and anybody reads the status of a payer.

The status and the check of `withinLimit` are two computations of the same balance, one for a reader and
one for a call of `open` that holds the payer's lock.  `spending_status_enforced` says that they agree:
what the status shows as remaining is what an open that comes next may lock, and the refusal of any more
prints the numbers of the status.
-/

namespace PaymentRail
namespace Escrow

open Machine Strings Money Collections

/-! ## The limits -/

/-- `ParseEthereumAddressPipe` -/
def parseEthereumAddress (value : Text) : Except String Text := do
  require (hexPattern 40 value = true)
    ("\"" ++ String.ofList value ++ "\" is not a valid Ethereum address")
  return toLowerCase value

/-- The rows of `spending_limits`, by lowercased payer. -/
abbrev Limits := List (Text × Amount)

inductive LimitRequest where
  | setLimit (payer dailyLimit : Text)
  | clearLimit (payer : Text)
  deriving DecidableEq, Repr

/-- The pattern of `SetSpendingLimitDto` is checked after the address; the amount goes through its text
and the column once more. -/
def setLimit (limits : Limits) (payer dailyLimit : Text) : Except String Limits := do
  let payer ← parseEthereumAddress payer
  require (Fees.amountPattern dailyLimit = true)
    "dailyLimit must be a non-negative decimal string with up to 18 decimals"
  let parsed ← amountFrom dailyLimit
  let stored ← amountFrom (Amount.fromWei parsed.wei).toString
  return Table.put Prod.fst limits (toLowerCase payer, stored)

def clearLimit (limits : Limits) (payer : Text) : Except String Limits := do
  let payer ← parseEthereumAddress payer
  return Table.drop Prod.fst limits (toLowerCase payer)

def LimitRequest.handle (limits : Limits) : LimitRequest → Except String Limits
  | .setLimit payer dailyLimit => Escrow.setLimit limits payer dailyLimit
  | .clearLimit payer => Escrow.clearLimit limits payer

/-- A request that is turned away changes nothing. -/
def LimitRequest.apply (limits : Limits) (request : LimitRequest) : Limits :=
  match request.handle limits with
  | .ok limits => limits
  | .error _ => limits

/-- The limits after some requests, the first of them first. -/
def limitsAfter (requests : List LimitRequest) : Limits := requests.foldl LimitRequest.apply []

/-! ## The status of a payer -/

inductive LimitSource where
  | override
  | default
  | none
  deriving DecidableEq, Repr

structure SpendingStatus where
  payer : Text
  dailyLimit : Option Text
  source : LimitSource
  windowHours : String
  windowStart : Int
  spent : Text
  remaining : Option Text
  deriving DecidableEq, Repr

def Config.sourceOf (cfg : Config) (address : Text) : LimitSource :=
  match Table.lookup Prod.fst cfg.overrides address with
  | some _ => .override
  | none => if cfg.defaultLimit = none then .none else .default

def Config.status (cfg : Config) (store : Store) (payer : Text) (now : Time) : SpendingStatus :=
  let address := toLowerCase payer
  let spent := cfg.spentInWindow store address now
  { payer := address
    dailyLimit := (cfg.limitFor address).map fun limit => (Amount.fromWei limit).toString
    source := cfg.sourceOf address
    windowHours := cfg.windowHours
    windowStart := cfg.windowStart now
    spent := (Amount.fromWei spent).toString
    remaining := (cfg.limitFor address).map fun limit =>
      (Amount.fromWei (if spent < limit then limit - spent else 0)).toString }

/-! ## The limit in force -/

def LimitRequest.payer : LimitRequest → Text
  | .setLimit payer _ => payer
  | .clearLimit payer => payer

/-- The request is not turned away. -/
def LimitRequest.accepted : LimitRequest → Bool
  | .setLimit payer dailyLimit => hexPattern 40 payer && Fees.amountPattern dailyLimit
  | .clearLimit payer => hexPattern 40 payer

/-- It is accepted and about this payer, in any letter case. -/
def LimitRequest.concerns (address : Text) (request : LimitRequest) : Bool :=
  request.accepted && toLowerCase request.payer = address

/-- The limit that a request leaves a payer with. -/
def LimitRequest.limit : LimitRequest → Option Amount
  | .setLimit _ dailyLimit => (amountFrom dailyLimit).toOption
  | .clearLimit _ => none

/-- The last request about a payer decides. -/
def inForce (requests : List LimitRequest) (address : Text) : Option Amount :=
  (requests.reverse.find? (LimitRequest.concerns address)).bind LimitRequest.limit

section Limits

variable {limits : Limits} {address payer dailyLimit : Text}

theorem parseEthereumAddress_of {value : Text} (h : hexPattern 40 value = true) :
    parseEthereumAddress value = .ok (toLowerCase value) := by
  rw [parseEthereumAddress, require_of h]
  rfl

theorem parseEthereumAddress_eq_ok {value address : Text}
    (h : parseEthereumAddress value = .ok address) : hexPattern 40 value = true := by
  rcases bind_eq_ok.1 h with ⟨_, hvalue, _⟩
  exact require_eq_ok.1 hvalue

theorem handle_setLimit (limits : Limits) (hpayer : hexPattern 40 payer = true)
    (hlimit : Fees.amountPattern dailyLimit = true) :
    ∃ limit, amountFrom dailyLimit = .ok limit ∧
      LimitRequest.handle limits (.setLimit payer dailyLimit) =
        .ok (Table.put Prod.fst limits (toLowerCase payer, limit)) := by
  rcases Fees.amountFrom_of_pattern hlimit with ⟨wei, hread, _⟩
  refine ⟨⟨wei⟩, hread, ?_⟩
  rw [LimitRequest.handle, setLimit, parseEthereumAddress_of hpayer, ok_bind, require_of hlimit, ok_bind,
    hread, ok_bind, Amount.amountFrom_toString, ok_bind, toLowerCase_toLowerCase hpayer]
  rfl

theorem handle_clearLimit (hpayer : hexPattern 40 payer = true) :
    LimitRequest.handle limits (.clearLimit payer) =
      .ok (Table.drop Prod.fst limits (toLowerCase payer)) := by
  rw [LimitRequest.handle, clearLimit, parseEthereumAddress_of hpayer, ok_bind,
    toLowerCase_toLowerCase hpayer]
  rfl

theorem accepted_of_handle {request : LimitRequest} {limits' : Limits}
    (h : request.handle limits = .ok limits') : request.accepted = true := by
  cases request with
  | setLimit payer dailyLimit =>
      rcases bind_eq_ok.1 h with ⟨address, haddress, hrest⟩
      rcases bind_eq_ok.1 hrest with ⟨_, hpattern, _⟩
      have hpattern : Fees.amountPattern dailyLimit = true := require_eq_ok.1 hpattern
      simp [LimitRequest.accepted, parseEthereumAddress_eq_ok haddress, hpattern]
  | clearLimit payer =>
      rcases bind_eq_ok.1 h with ⟨address, haddress, _⟩
      exact parseEthereumAddress_eq_ok haddress

theorem apply_of_not_accepted {request : LimitRequest} (h : ¬ request.accepted = true) :
    request.apply limits = limits := by
  unfold LimitRequest.apply
  split
  · rename_i limits' hok
    exact absurd (accepted_of_handle hok) h
  · rfl

/-- What one request does to the limit of a payer. -/
theorem lookup_apply (request : LimitRequest) (address : Text) :
    (Table.lookup Prod.fst (request.apply limits) address).map Prod.snd =
      if request.concerns address = true then request.limit
      else (Table.lookup Prod.fst limits address).map Prod.snd := by
  by_cases haccepted : request.accepted = true
  · cases request with
    | setLimit payer dailyLimit =>
        have hok : hexPattern 40 payer = true ∧ Fees.amountPattern dailyLimit = true :=
          Bool.and_eq_true_iff.1 haccepted
        rcases handle_setLimit limits hok.1 hok.2 with ⟨limit, hread, hhandle⟩
        simp only [LimitRequest.apply, hhandle]
        by_cases hsame : toLowerCase payer = address
        · subst hsame
          have hself : Table.lookup Prod.fst (Table.put Prod.fst limits (toLowerCase payer, limit))
              (toLowerCase payer) = some (toLowerCase payer, limit) :=
            Table.lookup_put_self limits (toLowerCase payer, limit)
          simp [LimitRequest.concerns, LimitRequest.payer, LimitRequest.limit, haccepted, hself, hread,
            Except.toOption]
        · have hother : Table.lookup Prod.fst (Table.put Prod.fst limits (toLowerCase payer, limit))
              address = Table.lookup Prod.fst limits address := Table.lookup_put_of_ne _ _ hsame
          simp [LimitRequest.concerns, LimitRequest.payer, hsame, hother]
    | clearLimit payer =>
        simp only [LimitRequest.apply, handle_clearLimit haccepted]
        by_cases hsame : toLowerCase payer = address
        · subst hsame
          simp [LimitRequest.concerns, LimitRequest.payer, LimitRequest.limit, haccepted]
        · simp [LimitRequest.concerns, LimitRequest.payer, hsame, Table.lookup_drop_of_ne hsame]
  · rw [apply_of_not_accepted haccepted, if_neg]
    simp [LimitRequest.concerns, haccepted]

/-- The limit of a payer is the one that the last request about it has left. -/
theorem lookup_limitsAfter (requests : List LimitRequest) (address : Text) :
    (Table.lookup Prod.fst (limitsAfter requests) address).map Prod.snd = inForce requests address := by
  induction requests using List.reverseRecOn with
  | nil => rfl
  | append_singleton requests request ih =>
      have hlast : limitsAfter (requests ++ [request]) = request.apply (limitsAfter requests) := by
        simp [limitsAfter]
      rw [hlast, lookup_apply, ih, inForce, inForce, List.reverse_append]
      by_cases hconcerns : request.concerns address = true
      · simp [hconcerns]
      · simp [hconcerns]

end Limits

/-! ## The next open -/

/-- The numbers that a status shows. -/
structure SpendingStatus.Shows (status : SpendingStatus) (limit : Option Int) (total : Int) : Prop where
  spent : amountFrom status.spent = .ok ⟨total⟩
  unlimited : limit = none → status.dailyLimit = none ∧ status.remaining = none
  limited : ∀ L, limit = some L → ∃ dailyLimit remaining,
    status.dailyLimit = some dailyLimit ∧ amountFrom dailyLimit = .ok ⟨L⟩ ∧
      status.remaining = some remaining ∧ amountFrom remaining = .ok ⟨max (L - total) 0⟩

/-- How a refusal tells them. -/
def SpendingStatus.refusal (status : SpendingStatus) : Answer :=
  .error 403 ("Spending limit exceeded: " ++ String.ofList (status.dailyLimit.getD []) ++ " per " ++
    status.windowHours ++ "h, " ++ String.ofList status.spent ++
    " already spent, " ++ String.ofList (status.remaining.getD []) ++ " remaining")

/-- A call of `open` until it holds the lock of the payer, with nothing in between. -/
def openToCheck (id : CallId) (dto : OpenEscrowDto) : List (Move Request Reply Event) :=
  [.call id (.open dto), .resume id .done, .resume id .done, .resume id .done]

/-- And its check. -/
def openUpToCheck (id : CallId) (dto : OpenEscrowDto) : List (Move Request Reply Event) :=
  openToCheck id dto ++ [.resume id .done]

/-- A call of `open` without a limit, up to its insert. -/
def openUnlimited (id : CallId) (dto : OpenEscrowDto) : List (Move Request Reply Event) :=
  [.call id (.open dto), .resume id .done]

section Opens

variable {cfg : Config} {c : Calls Store Process Answer} {id : CallId} {dto : OpenEscrowDto}
  {p q : Process} {reply : Reply} {store : Store} {limit : Int} {payer : Text} {now : Time}

/-- A call goes on, and waits again. -/
theorem exists_resume (hp : c.process id = some p) (hnone : c.answered id = none)
    (h : resume cfg id p reply c.store = some (store, .await q)) :
    ∃ c', (service cfg).step (.resume id reply) c = some c' ∧ c'.process id = some q ∧
      c'.answered id = none ∧ c'.store = store := by
  refine ⟨c.go id store (.await q), ?_, Calls.process_go_self.2 rfl, Calls.answered_go_await hnone,
    Calls.store_go⟩
  have hservice : (service cfg).resume id p reply c.store = some (store, .await q) := h
  simp only [Service.step, hp, hservice]

/-- A call goes on, and answers. -/
theorem exists_answer {answer : Answer} (hp : c.process id = some p) (hnone : c.answered id = none)
    (h : resume cfg id p reply c.store = some (store, .answer answer)) :
    ∃ c', (service cfg).step (.resume id reply) c = some c' ∧ c'.process id = none ∧
      c'.answered id = some answer := by
  refine ⟨c.go id store (.answer answer), ?_, Calls.process_go_answer,
    (Calls.answered_go_self hnone).2 rfl⟩
  have hservice : (service cfg).resume id p reply c.store = some (store, .answer answer) := h
  simp only [Service.step, hp, hservice]

theorem exists_open (cfg : Config) (hnew : c.process id = none ∧ c.answered id = none)
    (dto : OpenEscrowDto) :
    ∃ c', (service cfg).step (.call id (.open dto)) c = some c' ∧
      c'.process id = some (.limitFor dto c.store.date) ∧ c'.answered id = none ∧
      c'.store = c.store :=
  ⟨_, if_pos hnew, Calls.process_go_self.2 rfl, Calls.answered_go_await hnew.2, Calls.store_go⟩

/-- The status and the check read the same limit and the same sum. -/
theorem status_shows (cfg : Config) (store : Store) (payer : Text) (now : Time) :
    (cfg.status store payer now).Shows (cfg.limitFor (toLowerCase payer))
      (cfg.spentInWindow store (toLowerCase payer) now) := by
  refine ⟨Amount.amountFrom_toString _, ?_, ?_⟩
  · intro hnone
    simp [Config.status, hnone]
  · intro L hlimit
    refine ⟨(Amount.fromWei L).toString, (Amount.fromWei (if cfg.spentInWindow store
      (toLowerCase payer) now < L then L - cfg.spentInWindow store (toLowerCase payer) now
      else 0)).toString, ?_, Amount.amountFrom_toString _, ?_, ?_⟩
    · simp [Config.status, hlimit]
    · simp [Config.status, hlimit]
    · rw [Amount.amountFrom_toString]
      split
      · rename_i hless
        rw [max_eq_left (Int.sub_nonneg.2 (Int.le_of_lt hless))]
        rfl
      · rename_i hless
        rw [max_eq_right (Int.sub_nonpos_of_le (Int.not_lt.1 hless))]
        rfl

theorem refusal_status (hlimit : cfg.limitFor (toLowerCase payer) = some limit) :
    (cfg.status store payer now).refusal =
      limitExceeded cfg.windowHours limit (cfg.spentInWindow store (toLowerCase payer) now) := by
  simp [SpendingStatus.refusal, Config.status, hlimit, limitExceeded]

theorem run_openUnlimited (hnew : c.process id = none ∧ c.answered id = none)
    (hlimit : cfg.limitFor (toLowerCase dto.agentA) = none) :
    ∃ c', run (service cfg).step (openUnlimited id dto) c = some c' ∧
      c'.process id = some (.insertSession dto) := by
  rcases exists_open cfg hnew dto with ⟨c₁, hcall, hp₁, hnone₁, hs₁⟩
  have hresume : resume cfg id (.limitFor dto c.store.date) .done c₁.store =
      some (c₁.store, .await (.insertSession dto)) := by
    simp only [resume, hlimit]
  rcases exists_resume hp₁ hnone₁ hresume with ⟨c₂, hstep, hp₂, _⟩
  exact ⟨c₂, run_cons_eq_some.2 ⟨c₁, hcall, run_cons_eq_some.2 ⟨c₂, hstep, rfl⟩⟩, hp₂⟩

/-- With a limit, and the lock of the payer free, a call gets as far as its check. -/
theorem run_openToCheck (hnew : c.process id = none ∧ c.answered id = none)
    (hfree : Table.lookup Prod.fst c.store.locks (cfg.hashtext (toLowerCase dto.agentA)) = none)
    (hlimit : cfg.limitFor (toLowerCase dto.agentA) = some limit) :
    ∃ c', run (service cfg).step (openToCheck id dto) c = some c' ∧
      c'.process id = some (.spentInWindow dto c.store.date c.store.now limit) ∧
      c'.answered id = none ∧ c'.store.sessions = c.store.sessions := by
  rcases exists_open cfg hnew dto with ⟨c₁, hcall, hp₁, hnone₁, hs₁⟩
  have hlimitFor : resume cfg id (.limitFor dto c.store.date) .done c₁.store =
      some (c₁.store, .await (.begin dto c.store.date limit)) := by
    simp only [resume, hlimit]
  rcases exists_resume hp₁ hnone₁ hlimitFor with ⟨c₂, hstep₁, hp₂, hnone₂, hs₂⟩
  have hbegin : resume cfg id (.begin dto c.store.date limit) .done c₂.store =
      some (c₂.store, .await (.advisoryLock dto c.store.date c.store.now limit)) := by
    rw [hs₂, hs₁]
    rfl
  rcases exists_resume hp₂ hnone₂ hbegin with ⟨c₃, hstep₂, hp₃, hnone₃, hs₃⟩
  have hstore : c₃.store = c.store := by rw [hs₃, hs₂, hs₁]
  have hlock : resume cfg id (.advisoryLock dto c.store.date c.store.now limit) .done c₃.store =
      some (c.store.lock (cfg.hashtext (toLowerCase dto.agentA)) id,
        .await (.spentInWindow dto c.store.date c.store.now limit)) := by
    rw [hstore]
    exact if_pos hfree
  rcases exists_resume hp₃ hnone₃ hlock with ⟨c₄, hstep₃, hp₄, hnone₄, hs₄⟩
  refine ⟨c₄, ?_, hp₄, hnone₄, ?_⟩
  · exact run_cons_eq_some.2 ⟨c₁, hcall, run_cons_eq_some.2 ⟨c₂, hstep₁,
      run_cons_eq_some.2 ⟨c₃, hstep₂, run_cons_eq_some.2 ⟨c₄, hstep₃, rfl⟩⟩⟩⟩
  · rw [hs₄]
    rfl

/-- What the check decides. -/
theorem run_openUpToCheck (hnew : c.process id = none ∧ c.answered id = none)
    (hfree : Table.lookup Prod.fst c.store.locks (cfg.hashtext (toLowerCase dto.agentA)) = none)
    (hlimit : cfg.limitFor (toLowerCase dto.agentA) = some limit) :
    ∃ c', run (service cfg).step (openUpToCheck id dto) c = some c' ∧
      (cfg.spentInWindow c.store (toLowerCase dto.agentA) c.store.date + dto.depositAmount.wei ≤ limit →
        c'.process id = some (.insertLocked dto c.store.date c.store.now limit)) ∧
      (limit < cfg.spentInWindow c.store (toLowerCase dto.agentA) c.store.date + dto.depositAmount.wei →
        c'.process id = none ∧ c'.answered id = some (limitExceeded cfg.windowHours limit
          (cfg.spentInWindow c.store (toLowerCase dto.agentA) c.store.date))) := by
  rcases run_openToCheck hnew hfree hlimit with ⟨c₁, hrun, hp, hnone, hsessions⟩
  have hspent : cfg.spentInWindow c₁.store (toLowerCase dto.agentA) c.store.date =
      cfg.spentInWindow c.store (toLowerCase dto.agentA) c.store.date := by
    rw [Config.spentInWindow, hsessions]
    rfl
  by_cases hover : limit <
      cfg.spentInWindow c.store (toLowerCase dto.agentA) c.store.date + dto.depositAmount.wei
  · have hcheck : resume cfg id (.spentInWindow dto c.store.date c.store.now limit) .done c₁.store =
        some (c₁.store.unlock (cfg.hashtext (toLowerCase dto.agentA)),
          .answer (limitExceeded cfg.windowHours limit
            (cfg.spentInWindow c.store (toLowerCase dto.agentA) c.store.date))) := by
      simp only [resume, hspent, if_pos hover]
    rcases exists_answer hp hnone hcheck with ⟨c₂, hstep, hgone, hanswered⟩
    refine ⟨c₂, run_append.2 ⟨c₁, hrun, run_cons_eq_some.2 ⟨c₂, hstep, rfl⟩⟩, ?_, ?_⟩
    · intro hfits
      exact absurd hfits (Int.not_le.2 hover)
    · intro _
      exact ⟨hgone, hanswered⟩
  · have hcheck : resume cfg id (.spentInWindow dto c.store.date c.store.now limit) .done c₁.store =
        some (c₁.store, .await (.insertLocked dto c.store.date c.store.now limit)) := by
      simp only [resume, hspent, if_neg hover]
    rcases exists_resume hp hnone hcheck with ⟨c₂, hstep, hp₂, _⟩
    refine ⟨c₂, run_append.2 ⟨c₁, hrun, run_cons_eq_some.2 ⟨c₂, hstep, rfl⟩⟩, ?_, ?_⟩
    · intro _
      exact hp₂
    · intro h
      exact absurd h hover

/-- The limit of a payer after some requests. -/
def Config.limitAfter (cfg : Config) (requests : List LimitRequest) (address : Text) : Option Int :=
  match inForce requests address with
  | some limit => if 0 < limit.wei then some limit.wei else none
  | none => cfg.defaultLimit

theorem limitFor_limitsAfter (cfg : Config) (requests : List LimitRequest) (address : Text) :
    ({ cfg with overrides := limitsAfter requests }.limitFor address) =
      cfg.limitAfter requests address := by
  rw [Config.limitFor, Config.limitAfter, ← lookup_limitsAfter requests address]
  cases Table.lookup Prod.fst (limitsAfter requests) address with
  | none => rfl
  | some override => rfl

theorem sourceOf_limitsAfter (cfg : Config) (requests : List LimitRequest) (address : Text) :
    { cfg with overrides := limitsAfter requests }.sourceOf address = .override ↔
      (inForce requests address).isSome = true := by
  rw [Config.sourceOf, ← lookup_limitsAfter requests address]
  cases Table.lookup Prod.fst (limitsAfter requests) address with
  | none =>
      by_cases hdefault : cfg.defaultLimit = none
      · simp [hdefault]
      · simp [hdefault]
  | some override => simp

/-- The amount fits below the limit if it is at most what remains. -/
theorem le_remaining_iff {spent deposit : Int} (hdeposit : 0 < deposit) :
    deposit ≤ max (limit - spent) 0 ↔ spent + deposit ≤ limit := by
  omega

/-- Whatever limits were set and cleared, a status tells the payer its last limit, what is spent of it,
and what is left: with nothing of the payer's under way, the next open passes its check exactly if it
asks for no more than that, and the answer to any other repeats the status. -/
theorem spending_status_enforced (base : Config) (requests : List LimitRequest)
    (c : Calls Store Process Answer) (id : CallId) (dto : OpenEscrowDto) (payer : Text)
    (hnew : c.process id = none ∧ c.answered id = none)
    (hpayer : toLowerCase dto.agentA = toLowerCase payer)
    (hfree : Table.lookup Prod.fst c.store.locks (base.hashtext (toLowerCase payer)) = none) :
    let cfg := { base with overrides := limitsAfter requests }
    let status := cfg.status c.store payer c.store.date
    status.Shows (base.limitAfter requests (toLowerCase payer))
        (cfg.spentInWindow c.store (toLowerCase payer) c.store.date) ∧
      (status.source = .override ↔ (inForce requests (toLowerCase payer)).isSome = true) ∧
      (status.remaining = none →
        ∃ c', run (service cfg).step (openUnlimited id dto) c = some c' ∧
          c'.process id = some (.insertSession dto)) ∧
      (∀ remaining, status.remaining = some remaining →
        ∃ rest limit c', amountFrom remaining = .ok rest ∧
          run (service cfg).step (openUpToCheck id dto) c = some c' ∧
          (dto.depositAmount.wei ≤ rest.wei →
            c'.process id = some (.insertLocked dto c.store.date c.store.now limit)) ∧
          (rest.wei < dto.depositAmount.wei →
            c'.process id = none ∧ c'.answered id = some status.refusal)) := by
  intro cfg status
  have hlimitFor : cfg.limitFor (toLowerCase payer) = base.limitAfter requests (toLowerCase payer) :=
    limitFor_limitsAfter base requests (toLowerCase payer)
  have hshows : status.Shows (cfg.limitFor (toLowerCase payer))
      (cfg.spentInWindow c.store (toLowerCase payer) c.store.date) :=
    status_shows cfg c.store payer c.store.date
  refine ⟨hlimitFor ▸ hshows, sourceOf_limitsAfter base requests (toLowerCase payer), ?_, ?_⟩
  · intro hremaining
    refine run_openUnlimited hnew ?_
    rw [hpayer, Option.eq_none_iff_forall_ne_some]
    intro limit hlimit
    rcases hshows.limited limit hlimit with ⟨_, remaining, _, _, hsome, _⟩
    rw [hremaining] at hsome
    cases hsome
  · intro remaining hremaining
    cases hlimit : cfg.limitFor (toLowerCase payer) with
    | none =>
        have hnone := (hshows.unlimited hlimit).2
        rw [hremaining] at hnone
        cases hnone
    | some limit =>
        rcases hshows.limited limit hlimit with ⟨_, _, _, _, hsome, hread⟩
        cases hremaining.symm.trans hsome
        have hpositive : 0 < dto.depositAmount.wei :=
          Int.lt_of_lt_of_le (by decide) dto.depositAmount_min
        rw [← hpayer] at hlimit
        rcases run_openUpToCheck hnew (by rw [hpayer]; exact hfree) hlimit with
          ⟨c', hrun, hfits, hover⟩
        rw [hpayer] at hfits hover hlimit
        refine ⟨_, limit, c', hread, hrun, ?_, ?_⟩
        · intro hle
          exact hfits ((le_remaining_iff hpositive).1 hle)
        · intro hlt
          have hexceeds := hover (Int.not_le.1 (mt (le_remaining_iff hpositive).2 (Int.not_le.2 hlt)))
          refine ⟨hexceeds.1, ?_⟩
          rw [hexceeds.2, ← refusal_status hlimit]

/-- The limit of a payer is set, set again, and outlives that of somebody else. -/
def cappedPayer : Text := "0xAAAAAAAAAAAAAAAAAAAAAAAAAAAAAAAAAAAAAAAA".toList

def cappedRequests : List LimitRequest :=
  [.setLimit cappedPayer "25".toList, .setLimit (toLowerCase cappedPayer) "10.5".toList,
    .clearLimit "0xBBBBBBBBBBBBBBBBBBBBBBBBBBBBBBBBBBBBBBBB".toList]

def cappedDto : OpenEscrowDto := { limitedDto "" with agentA := cappedPayer }

/-- It has opened a session of 6. -/
def cappedCalls : Calls Store Process Answer :=
  .start { Store.empty with sessions := [newSession 1 0 cappedDto] }

theorem spending_status_enforced_capped :
    let cfg := { sampleConfig with overrides := limitsAfter cappedRequests }
    let status := cfg.status cappedCalls.store cappedPayer cappedCalls.store.date
    status.remaining = some "4.5".toList ∧
      ∃ c', run (service cfg).step (openUpToCheck 0 cappedDto) cappedCalls = some c' ∧
        c'.answered 0 = some status.refusal := by
  intro cfg status
  have hremaining : status.remaining = some "4.5".toList := by decide +kernel
  refine ⟨hremaining, ?_⟩
  rcases (spending_status_enforced sampleConfig cappedRequests cappedCalls 0 cappedDto cappedPayer
    ⟨rfl, rfl⟩ rfl rfl).2.2.2 _ hremaining with ⟨rest, _, c', hread, hrun, _, hover⟩
  have hrest : amountFrom "4.5".toList = .ok ⟨4500000000000000000⟩ := by decide +kernel
  cases hrest.symm.trans hread
  exact ⟨c', hrun, (hover (by decide)).2⟩

end Opens

end Escrow
end PaymentRail
