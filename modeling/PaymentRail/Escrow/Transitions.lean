import PaymentRail.Escrow.EscrowService

/-!
# Transitions — what a step of an escrow call can do

The functions `resume` and `external` as relations, one constructor for each thing that can happen,
with the conditions under which it does:

* `Waits` — a call reads something and goes on waiting;
* `Ends` — a call answers without having written anything in this step;
* `Resumes` — all steps, those two and the ones that write;
* `Happens` — the store changes from outside.

Every invariant is proved by cases over these relations; the functions are taken apart only here.
-/

namespace PaymentRail
namespace Escrow

open Machine Strings Money Collections
open Settlement (Fate)

/-! ## Reading -/

inductive Waits (cfg : Config) (store : Store) : Process → Reply → Process → Prop
  | unlimited {dto : OpenEscrowDto} {now : Time}
      (hlimit : cfg.limitFor (toLowerCase dto.agentA) = none) :
      Waits cfg store (.limitFor dto now) .done (.insertSession dto)
  | limited {dto : OpenEscrowDto} {now : Time} {limit : Int}
      (hlimit : cfg.limitFor (toLowerCase dto.agentA) = some limit) :
      Waits cfg store (.limitFor dto now) .done (.begin dto now limit)
  | begun {dto : OpenEscrowDto} {now : Time} {limit : Int} :
      Waits cfg store (.begin dto now limit) .done (.advisoryLock dto now store.now limit)
  | fits {dto : OpenEscrowDto} {now began : Time} {limit : Int}
      (hfits : cfg.spentInWindow store (toLowerCase dto.agentA) now + dto.depositAmount.wei ≤ limit) :
      Waits cfg store (.spentInWindow dto now began limit) .done (.insertLocked dto now began limit)
  | uncommitted {dto : OpenEscrowDto} {now began : Time} {limit : Int} {new : SessionId} :
      Waits cfg store (.insertLocked dto now began limit) (.inserted new)
        (.commit (newSession new began dto) now limit)
  | loaded {op : Closing} {sid : SessionId} {session : EscrowSession}
      (hfind : store.find sid = some session) (hcancel : op = .cancel → session.status = .open) :
      Waits cfg store (.findById op sid) .done (.saveSession op session store.date)
  | unclosed {sid : SessionId} {session : EscrowSession} {reason : Option String}
      (hfind : store.find sid = some session) (hstatus : session.status ≠ .closed) :
      Waits cfg store (.findRefunded sid reason) .done (.findClaims session reason)
  | summed {session : EscrowSession} {reason : Option String} :
      Waits cfg store (.findClaims session reason) .done
        (.findById (.refundUnused (refundOf session (store.claimsOf session.id) reason)) session.id)
  | refused {sid : SessionId} {dto : ReleaseEscrowDto} {amount : Amount}
      (hreserve : store.reserve sid amount.wei = none) :
      Waits cfg store (.reserve sid dto amount) .done (.refused sid dto)
  | unsent {release : EscrowRelease} {message : String} :
      Waits cfg store (.payOut release) (.failed message) (.giveBack release message)
  | mined {release : EscrowRelease} {hash : TxHash} (hmined : (store.fateOf hash).isMined = true) :
      Waits cfg store (.waitPayOut release hash) .done
        (.savePaid { release with txHash := some hash })
  | gaveUp {release : EscrowRelease} {hash : TxHash} {message : String} :
      Waits cfg store (.waitPayOut release hash) (.failed message) (.giveBack release message)
  | claiming {escrowId : SessionId} {usageDelta : Amount} :
      Waits cfg store (.lastClaim escrowId usageDelta) .done
        (.saveClaim (nextClaim (store.claimsOf escrowId).head? escrowId usageDelta))

inductive Ends (store : Store) : Process → Reply → Answer → Prop
  | unsent {session : EscrowSession} {call : HubCall} {message : String} :
      Ends store (.sendCall session call) (.failed message) (.session session none)
  | mined {session : EscrowSession} {hash : TxHash} (hmined : (store.fateOf hash).isMined = true) :
      Ends store (.waitCall session hash) .done (.session session (some hash))
  | gaveUp {session : EscrowSession} {hash : TxHash} {message : String} :
      Ends store (.waitCall session hash) (.failed message) (.session session none)
  | missing {op : Closing} {sid : SessionId} (hfind : store.find sid = none) :
      Ends store (.findById op sid) .done (notFound sid)
  | notOpen {sid : SessionId} {session : EscrowSession} (hfind : store.find sid = some session)
      (hstatus : session.status ≠ .open) :
      Ends store (.findById .cancel sid) .done (onlyOpenIsCancelled session)
  | nothingToRefund {sid : SessionId} {reason : Option String} (hfind : store.find sid = none) :
      Ends store (.findRefunded sid reason) .done (notFound sid)
  | closed {sid : SessionId} {session : EscrowSession} {reason : Option String}
      (hfind : store.find sid = some session) (hstatus : session.status = .closed) :
      Ends store (.findRefunded sid reason) .done (alreadyClosed sid)
  | nothingToRelease {sid : SessionId} {dto : ReleaseEscrowDto} (hfind : store.find sid = none) :
      Ends store (.refused sid dto) .done (notFound sid)
  | refusal {sid : SessionId} {dto : ReleaseEscrowDto} {session : EscrowSession}
      (hfind : store.find sid = some session) :
      Ends store (.refused sid dto) .done (refusal session dto)
  | unknown {release : EscrowRelease} (hfind : store.find release.escrowId = none) :
      Ends store (.findBalance release) .done (notFound release.escrowId)
  | released {release : EscrowRelease} {session : EscrowSession} {balance : EscrowBalance}
      (hfind : store.find release.escrowId = some session) (hbalance : balance.Reports session) :
      Ends store (.findBalance release) .done (.released release balance)

/-! ## All steps of a call -/

inductive Resumes (cfg : Config) (id : CallId) (store : Store) :
    Process → Reply → Store → Flow Process Answer → Prop
  | waits {p q : Process} {reply : Reply} (h : Waits cfg store p reply q) :
      Resumes cfg id store p reply store (.await q)
  | ends {p : Process} {reply : Reply} {a : Answer} (h : Ends store p reply a) :
      Resumes cfg id store p reply store (.answer a)
  | inserts {dto : OpenEscrowDto} {new : SessionId} (hnew : store.find new = none) :
      Resumes cfg id store (.insertSession dto) (.inserted new)
        (store.save (newSession new store.now dto)) (afterOpen cfg (newSession new store.now dto))
  | locks {dto : OpenEscrowDto} {now began : Time} {limit : Int}
      (hfree : Table.lookup Prod.fst store.locks (cfg.hashtext (toLowerCase dto.agentA)) = none) :
      Resumes cfg id store (.advisoryLock dto now began limit) .done
        (store.lock (cfg.hashtext (toLowerCase dto.agentA)) id)
        (.await (.spentInWindow dto now began limit))
  | exceeds {dto : OpenEscrowDto} {now began : Time} {limit spent : Int} :
      Resumes cfg id store (.spentInWindow dto now began limit) .done
        (store.unlock (cfg.hashtext (toLowerCase dto.agentA)))
        (.answer (limitExceeded cfg.windowHours limit spent))
  | commits {session : EscrowSession} {now : Time} {limit : Int}
      (hnew : store.find session.id = none) :
      Resumes cfg id store (.commit session now limit) .done
        ((store.save session).unlock (cfg.hashtext (toLowerCase session.agentA)))
        (afterOpen cfg session)
  | sendsCall {session : EscrowSession} {call : HubCall} {hash : TxHash}
      (hnew : Table.lookup Transaction.hash store.transactions hash = none) :
      Resumes cfg id store (.sendCall session call) (.sent hash)
        (store.broadcast { hash, call, fate := .pending }) (.await (.waitCall session hash))
  | saves {op : Closing} {loaded : EscrowSession} {closedAt : Time} :
      Resumes cfg id store (.saveSession op loaded closedAt) .done
        (store.save (op.written loaded closedAt))
        (afterSave cfg op (op.written loaded closedAt) store.date)
  | reserves {sid : SessionId} {dto : ReleaseEscrowDto} {amount : Amount} {session : EscrowSession}
      (hfind : store.find sid = some session) (hok : session.reservable amount.wei = true) :
      Resumes cfg id store (.reserve sid dto amount) .done
        (store.save { session with releasedAmount := ⟨session.releasedAmount.wei + amount.wei⟩ })
        (.await (.insertRelease sid dto amount))
  | insertsRelease {sid : SessionId} {dto : ReleaseEscrowDto} {amount : Amount} {new : ReleaseId}
      (hnew : Table.lookup EscrowRelease.id store.releases new = none) :
      Resumes cfg id store (.insertRelease sid dto amount) (.inserted new)
        (store.saveRelease (newRelease new sid dto amount))
        (.await (afterInsert cfg (newRelease new sid dto amount)))
  | paysOut {release : EscrowRelease} {hash : TxHash}
      (hnew : Table.lookup Transaction.hash store.transactions hash = none) :
      Resumes cfg id store (.payOut release) (.sent hash)
        (store.broadcast
          { hash, call := .settleBatch release.escrowId release.id release.amount.wei
            fate := .pending })
        (.await (.waitPayOut release hash))
  | givesBack {release : EscrowRelease} {message : String} {session : EscrowSession}
      (hfind : store.find release.escrowId = some session)
      (hok : session.reservable (-release.amount.wei) = true) :
      Resumes cfg id store (.giveBack release message) .done
        (store.save { session with
          releasedAmount := ⟨session.releasedAmount.wei + -release.amount.wei⟩ })
        (.await (.saveFailed (markFailed release message)))
  | givesNothingBack {release : EscrowRelease} {message : String}
      (hrefused : store.reserve release.escrowId (-release.amount.wei) = none) :
      Resumes cfg id store (.giveBack release message) .done store
        (.await (.saveFailed (markFailed release message)))
  | failed {release : EscrowRelease} {message : String} :
      Resumes cfg id store (.saveFailed release) .done (store.saveRelease release)
        (.answer (.error 502 message))
  | paid {release : EscrowRelease} :
      Resumes cfg id store (.savePaid release) .done (store.saveRelease release)
        (.await (.findBalance release))
  | claims {claim : StreamClaim} :
      Resumes cfg id store (.saveClaim claim) .done { store with claims := claim :: store.claims }
        (.answer (.claimed claim))

section Inversion

variable {cfg : Config} {id : CallId} {store store' : Store} {p : Process} {reply : Reply}
  {flow : Flow Process Answer}

/-- `open`, up to the stored row. -/
theorem resumes_of_open
    (hp : match p with
      | .limitFor _ _ | .insertSession _ | .begin _ _ _ | .advisoryLock _ _ _ _
      | .spentInWindow _ _ _ _ | .insertLocked _ _ _ _ | .commit _ _ _ => True
      | _ => False)
    (h : resume cfg id p reply store = some (store', flow)) :
    Resumes cfg id store p reply store' flow := by
  cases p with
  | limitFor dto now =>
      cases reply with
      | done =>
          simp only [resume] at h
          split at h
          · rename_i hlimit
            cases h
            exact .waits (.unlimited hlimit)
          · rename_i limit hlimit
            cases h
            exact .waits (.limited hlimit)
      | _ => cases h
  | insertSession dto =>
      cases reply with
      | inserted new =>
          simp only [resume] at h
          split at h
          · rename_i hnew
            cases h
            exact .inserts hnew
          · cases h
      | _ => cases h
  | begin dto now limit =>
      cases reply with
      | done =>
          cases h
          exact .waits .begun
      | _ => cases h
  | advisoryLock dto now began limit =>
      cases reply with
      | done =>
          simp only [resume] at h
          split at h
          · rename_i hfree
            cases h
            exact .locks hfree
          · cases h
      | _ => cases h
  | spentInWindow dto now began limit =>
      cases reply with
      | done =>
          simp only [resume] at h
          split at h
          · cases h
            exact .exceeds
          · rename_i hfits
            cases h
            exact .waits (.fits (not_lt.1 hfits))
      | _ => cases h
  | insertLocked dto now began limit =>
      cases reply with
      | inserted new =>
          cases h
          exact .waits .uncommitted
      | _ => cases h
  | commit session now limit =>
      cases reply with
      | done =>
          simp only [resume] at h
          split at h
          · rename_i hnew
            cases h
            exact .commits hnew
          · cases h
      | _ => cases h
  | _ => exact hp.elim

/-- The on-chain part of `open` and `close`. -/
theorem resumes_of_hub
    (hp : match p with
      | .sendCall _ _ | .waitCall _ _ => True
      | _ => False)
    (h : resume cfg id p reply store = some (store', flow)) :
    Resumes cfg id store p reply store' flow := by
  cases p with
  | sendCall session call =>
      cases reply with
      | sent hash =>
          simp only [resume] at h
          split at h
          · rename_i hnew
            cases h
            exact .sendsCall hnew
          · cases h
      | failed message =>
          cases h
          exact .ends .unsent
      | _ => cases h
  | waitCall session hash =>
      cases reply with
      | done =>
          simp only [resume] at h
          split at h
          · rename_i hmined
            cases h
            exact .ends (.mined hmined)
          · cases h
      | failed message =>
          cases h
          exact .ends .gaveUp
      | _ => cases h
  | _ => exact hp.elim

/-- `close`, `emergencyClose`, `cancel` and the services of `streaming`. -/
theorem resumes_of_closing
    (hp : match p with
      | .findById _ _ | .saveSession _ _ _ | .findRefunded _ _ | .findClaims _ _ | .lastClaim _ _
      | .saveClaim _ => True
      | _ => False)
    (h : resume cfg id p reply store = some (store', flow)) :
    Resumes cfg id store p reply store' flow := by
  cases p with
  | findById op sid =>
      cases reply with
      | done =>
          simp only [resume] at h
          split at h
          · rename_i hfind
            cases h
            exact .ends (.missing hfind)
          · rename_i session hfind
            split at h
            · rename_i hcancel
              obtain ⟨rfl, hstatus⟩ := hcancel
              cases h
              exact .ends (.notOpen hfind hstatus)
            · rename_i hcancel
              cases h
              refine .waits (.loaded hfind ?_)
              intro hop
              by_contra hstatus
              exact hcancel ⟨hop, hstatus⟩
      | _ => cases h
  | saveSession op loaded closedAt =>
      cases reply with
      | done =>
          cases h
          exact .saves
      | _ => cases h
  | findRefunded sid reason =>
      cases reply with
      | done =>
          simp only [resume] at h
          split at h
          · rename_i hfind
            cases h
            exact .ends (.nothingToRefund hfind)
          · rename_i session hfind
            split at h
            · rename_i hstatus
              cases h
              exact .ends (.closed hfind hstatus)
            · rename_i hstatus
              cases h
              exact .waits (.unclosed hfind hstatus)
      | _ => cases h
  | findClaims session reason =>
      cases reply with
      | done =>
          cases h
          exact .waits .summed
      | _ => cases h
  | lastClaim escrowId usageDelta =>
      cases reply with
      | done =>
          cases h
          exact .waits .claiming
      | _ => cases h
  | saveClaim claim =>
      cases reply with
      | done =>
          cases h
          exact .claims
      | _ => cases h
  | _ => exact hp.elim

/-- `release` -/
theorem resumes_of_release
    (hp : match p with
      | .reserve _ _ _ | .refused _ _ | .insertRelease _ _ _ | .payOut _ | .waitPayOut _ _
      | .giveBack _ _ | .saveFailed _ | .savePaid _ | .findBalance _ => True
      | _ => False)
    (h : resume cfg id p reply store = some (store', flow)) :
    Resumes cfg id store p reply store' flow := by
  cases p with
  | reserve sid dto amount =>
      cases reply with
      | done =>
          simp only [resume] at h
          split at h
          · rename_i reserved hreserve
            cases h
            rcases Store.reserve_eq_some hreserve with ⟨session, hfind, hok, rfl⟩
            exact .reserves hfind hok
          · rename_i hreserve
            cases h
            exact .waits (.refused hreserve)
      | _ => cases h
  | refused sid dto =>
      cases reply with
      | done =>
          simp only [resume] at h
          split at h
          · rename_i hfind
            cases h
            exact .ends (.nothingToRelease hfind)
          · rename_i session hfind
            cases h
            exact .ends (.refusal hfind)
      | _ => cases h
  | insertRelease sid dto amount =>
      cases reply with
      | inserted new =>
          simp only [resume] at h
          split at h
          · rename_i hnew
            cases h
            exact .insertsRelease hnew
          · cases h
      | _ => cases h
  | payOut release =>
      cases reply with
      | sent hash =>
          simp only [resume] at h
          split at h
          · rename_i hnew
            cases h
            exact .paysOut hnew
          · cases h
      | failed message =>
          cases h
          exact .waits .unsent
      | _ => cases h
  | waitPayOut release hash =>
      cases reply with
      | done =>
          simp only [resume] at h
          split at h
          · rename_i hmined
            cases h
            exact .waits (.mined hmined)
          · cases h
      | failed message =>
          cases h
          exact .waits .gaveUp
      | _ => cases h
  | giveBack release message =>
      cases reply with
      | done =>
          simp only [resume] at h
          cases hreserve : store.reserve release.escrowId (-release.amount.wei) with
          | none =>
              rw [hreserve] at h
              cases h
              exact .givesNothingBack hreserve
          | some reserved =>
              rw [hreserve] at h
              cases h
              rcases Store.reserve_eq_some hreserve with ⟨session, hfind, hok, rfl⟩
              exact .givesBack hfind hok
      | _ => cases h
  | saveFailed release =>
      cases reply with
      | done =>
          cases h
          exact .failed
      | _ => cases h
  | savePaid release =>
      cases reply with
      | done =>
          cases h
          exact .paid
      | _ => cases h
  | findBalance release =>
      cases reply with
      | done =>
          simp only [resume] at h
          split at h
          · rename_i hfind
            cases h
            exact .ends (.unknown hfind)
          · rename_i session hfind
            rcases toBalance_reports session with ⟨balance, hbalance, hreports⟩
            rw [hbalance] at h
            cases h
            exact .ends (.released hfind hreports)
      | _ => cases h
  | _ => exact hp.elim

theorem resumes_of_resume (h : resume cfg id p reply store = some (store', flow)) :
    Resumes cfg id store p reply store' flow := by
  cases p with
  | limitFor dto now => exact resumes_of_open trivial h
  | insertSession dto => exact resumes_of_open trivial h
  | begin dto now limit => exact resumes_of_open trivial h
  | advisoryLock dto now began limit => exact resumes_of_open trivial h
  | spentInWindow dto now began limit => exact resumes_of_open trivial h
  | insertLocked dto now began limit => exact resumes_of_open trivial h
  | commit session now limit => exact resumes_of_open trivial h
  | sendCall session call => exact resumes_of_hub trivial h
  | waitCall session hash => exact resumes_of_hub trivial h
  | findById op sid => exact resumes_of_closing trivial h
  | saveSession op loaded closedAt => exact resumes_of_closing trivial h
  | findRefunded sid reason => exact resumes_of_closing trivial h
  | findClaims session reason => exact resumes_of_closing trivial h
  | lastClaim escrowId usageDelta => exact resumes_of_closing trivial h
  | saveClaim claim => exact resumes_of_closing trivial h
  | _ => exact resumes_of_release trivial h

end Inversion

/-! ## How a call goes on after a write -/

section After

variable {A : Process → Prop}
  (h : ∀ session call, HubCall.payout? call = none → A (.sendCall session call))

include h

theorem afterOpen_awaits (cfg : Config) (session : EscrowSession) :
    (afterOpen cfg session).Awaits A := by
  by_cases hhub : cfg.hubConfigured = true
  · simpa [afterOpen, hhub, Flow.Awaits] using h session _ rfl
  · simp [afterOpen, hhub, Flow.Awaits]

theorem afterSave_awaits (cfg : Config) (op : Closing) (saved : EscrowSession) (date : Time) :
    (afterSave cfg op saved date).Awaits A := by
  cases op with
  | close =>
      by_cases hhub : cfg.hubConfigured = true
      · simpa [afterSave, hhub, Flow.Awaits] using h saved _ rfl
      · simp [afterSave, hhub, Flow.Awaits]
  | _ => trivial

end After

theorem afterInsert_of {A : Process → Prop} {release : EscrowRelease} (hpayOut : A (.payOut release))
    (hbalance : A (.findBalance release)) (cfg : Config) : A (afterInsert cfg release) := by
  by_cases hhub : cfg.hubConfigured = true
  · simpa [afterInsert, hhub] using hpayOut
  · simpa [afterInsert, hhub] using hbalance

/-- What only counts waiting calls other than those of the hub does not count `open`. -/
theorem afterOpen_weight {f : Process → Int} (h : ∀ session call, f (.sendCall session call) = 0)
    (cfg : Config) (session : EscrowSession) : (afterOpen cfg session).weight f = 0 := by
  by_cases hhub : cfg.hubConfigured = true
  · simp [afterOpen, hhub, Flow.weight, h]
  · simp [afterOpen, hhub, Flow.weight]

theorem afterSave_weight {f : Process → Int} (h : ∀ session call, f (.sendCall session call) = 0)
    (cfg : Config) (op : Closing) (saved : EscrowSession) (date : Time) :
    (afterSave cfg op saved date).weight f = 0 := by
  cases op with
  | close =>
      by_cases hhub : cfg.hubConfigured = true
      · simp [afterSave, hhub, Flow.weight, h]
      · simp [afterSave, hhub, Flow.weight]
  | _ => rfl

/-! ## Events -/

/-- What an event changes; the other parts of the store stay as they are. -/
inductive Happens (store : Store) : Event → Store → Prop
  | expireDue (now : Time) : Happens store (.expireDue now) (store.expireDue now)
  | markRefunded (sid : SessionId) (refundedAt : Time) :
      Happens store (.markRefunded sid refundedAt) (store.markRefunded sid refundedAt)
  | evolve {tx : Transaction} {fate : Fate}
      (hlookup : Table.lookup Transaction.hash store.transactions tx.hash = some tx)
      (hbecome : tx.fate.canBecome fate = true) :
      Happens store (.evolve tx.hash fate) (store.broadcast { tx with fate })
  | tick {now : Time} (hnow : store.now ≤ now) : Happens store (.tick now) { store with now }
  | pauseSettlement (reason : Option String) :
      Happens store (.pauseSettlement reason) { store with settlementPaused := reason }
  | pauseStreaming (reason : Option String) :
      Happens store (.pauseStreaming reason) { store with streamingPaused := reason }

theorem happens_of_external {store store' : Store} {e : Event}
    (h : external e store = some store') : Happens store e store' := by
  cases e with
  | expireDue now =>
      cases h
      exact .expireDue now
  | markRefunded sid refundedAt =>
      cases h
      exact .markRefunded sid refundedAt
  | evolve hash fate =>
      simp only [external] at h
      split at h
      · rename_i tx hlookup
        split at h
        · rename_i hbecome
          cases h
          obtain rfl : tx.hash = hash := Table.key_of_lookup hlookup
          exact .evolve hlookup hbecome
        · cases h
      · cases h
  | tick now =>
      simp only [external] at h
      split at h
      · rename_i hnow
        cases h
        exact .tick hnow
      · cases h
  | pauseSettlement reason =>
      cases h
      exact .pauseSettlement reason
  | pauseStreaming reason =>
      cases h
      exact .pauseStreaming reason

/-! ## What becomes of a stored session -/

section Evolves

variable {cfg : Config} {id : CallId} {store store' : Store} {p : Process} {reply : Reply}
  {flow : Flow Process Answer} {R : EscrowSession → EscrowSession → Prop}

theorem evolves_of_reserved {sid : SessionId} {session : EscrowSession} {delta : Int}
    (hR : ∀ session, R session session) (hfind : store.find sid = some session)
    (h : R session { session with releasedAmount := ⟨session.releasedAmount.wei + delta⟩ }) :
    Table.Evolves EscrowSession.id R store.sessions (store.save
      { session with releasedAmount := ⟨session.releasedAmount.wei + delta⟩ }).sessions := by
  refine .put hR ?_
  intro old hold
  have hstored : store.find session.id = some old := hold
  rw [Store.id_of_find hfind, hfind] at hstored
  cases hstored
  exact h

/-- A call saves the session it has loaded, or moves `releasedAmount`; a session it inserts takes the
place of no other one. -/
theorem Resumes.evolves (hR : ∀ session, R session session)
    (h : Resumes cfg id store p reply store' flow)
    (hsaves : ∀ op loaded closedAt, p = .saveSession op loaded closedAt →
      ∀ session, store.find loaded.id = some session → R session (op.written loaded closedAt))
    (hreserves : ∀ session delta, session.reservable delta = true →
      R session { session with releasedAmount := ⟨session.releasedAmount.wei + delta⟩ }) :
    Table.Evolves EscrowSession.id R store.sessions store'.sessions := by
  cases h with
  | inserts hnew => exact .put_new hR hnew
  | commits hnew => exact .put_new hR hnew
  | @saves op loaded closedAt => exact .put hR (hsaves op loaded closedAt rfl)
  | reserves hfind hok => exact evolves_of_reserved hR hfind (hreserves _ _ hok)
  | givesBack hfind hok => exact evolves_of_reserved hR hfind (hreserves _ _ hok)
  | _ => exact .of_eq hR rfl

theorem Happens.evolves {e : Event} (hR : ∀ session, R session session) (h : Happens store e store')
    (hexpires : ∀ now session, R session (session.expire now))
    (hmarks : ∀ sid refundedAt session, R session (Store.refundedRow sid refundedAt session)) :
    Table.Evolves EscrowSession.id R store.sessions store'.sessions := by
  cases h with
  | expireDue now => exact .map (Store.id_expire now) (hexpires now)
  | markRefunded sid refundedAt => exact .map (Store.id_refundedRow refundedAt) (hmarks sid refundedAt)
  | _ => exact .of_eq hR rfl

end Evolves

/-- A call starts without writing anything. -/
theorem start_store (r : Request) (store : Store) : (start r store).1 = store := by
  cases r with
  | release sid dto =>
      simp only [start]
      split
      · rfl
      · split
        · rfl
        · split
          · rfl
          · rfl
  | claim escrowId usageDelta =>
      simp only [start]
      split
      · rfl
      · rfl
  | _ => rfl

/-- What a call first waits for. -/
inductive Starts (store : Store) : Request → Process → Prop
  | «open» (dto : OpenEscrowDto) : Starts store (.open dto) (.limitFor dto store.date)
  | close (sid : SessionId) : Starts store (.close sid) (.findById .close sid)
  | emergencyClose (sid : SessionId) :
      Starts store (.emergencyClose sid) (.findById .emergencyClose sid)
  | cancel (sid : SessionId) : Starts store (.cancel sid) (.findById .cancel sid)
  | release {sid : SessionId} {dto : ReleaseEscrowDto} {amount : Amount}
      (hpaused : store.settlementPaused = none) (hamount : amountFrom dto.amount = .ok amount)
      (hpos : 0 < amount.wei) :
      Starts store (.release sid dto) (.reserve sid dto amount)
  | claim (escrowId : SessionId) (usageDelta : Amount) :
      Starts store (.claim escrowId usageDelta) (.lastClaim escrowId usageDelta)
  | refundUnused (escrowId : SessionId) (reason : Option String) :
      Starts store (.refundUnused escrowId reason) (.findRefunded escrowId reason)

theorem starts_of_start {store : Store} {r : Request} {p : Process}
    (h : (start r store).2 = .await p) : Starts store r p := by
  cases r with
  | release sid dto =>
      simp only [start] at h
      split at h
      · cases h
      · rename_i hpaused
        split at h
        · cases h
        · rename_i amount hamount
          split at h
          · cases h
          · rename_i hpos
            cases h
            exact .release hpaused hamount (not_le.1 hpos)
  | claim escrowId usageDelta =>
      simp only [start] at h
      split at h
      · cases h
      · cases h
        exact .claim escrowId usageDelta
  | «open» dto =>
      cases h
      exact .open dto
  | close sid =>
      cases h
      exact .close sid
  | emergencyClose sid =>
      cases h
      exact .emergencyClose sid
  | cancel sid =>
      cases h
      exact .cancel sid
  | refundUnused escrowId reason =>
      cases h
      exact .refundUnused escrowId reason

/-! ## Outlines of the service -/

/-- An outline of the service, from what its relations preserve. -/
theorem outline_of {cfg : Config} {G : Process → Reply → Store → Prop}
    [∀ p i s, Decidable (G p i s)] {I : Store → Prop} {A : Store → CallId → Process → Prop}
    {D : Process → Process → Prop} (hsymm : ∀ p q, D p q → D q p)
    (hstart : ∀ id r s p, I s → Starts s r p → A s id p ∧ ∀ k q, A s k q → D q p)
    (hresume : ∀ id p i s s' flow, G p i s → I s → A s id p → Resumes cfg id s p i s' flow →
      I s' ∧ flow.Awaits (A s' id) ∧
        ∀ k q, k ≠ id → A s k q → D q p → A s' k q ∧ flow.Awaits (D q))
    (hexternal : ∀ e s s', I s → Happens s e s' → I s' ∧ ∀ k q, A s k q → A s' k q) :
    Outline ((service cfg).restrict G) I A D where
  symm := hsymm
  start := by
    intro id r s hI
    have hstore : (((service cfg).restrict G).start r s).1 = s := start_store r s
    rw [hstore]
    refine ⟨hI, ?_, ?_⟩
    · cases hflow : (((service cfg).restrict G).start r s).2 with
      | answer a => trivial
      | await p => exact (hstart id r s p hI (starts_of_start hflow)).1
    · intro k q hq
      refine ⟨hq, ?_⟩
      cases hflow : (((service cfg).restrict G).start r s).2 with
      | answer a => trivial
      | await p => exact (hstart id r s p hI (starts_of_start hflow)).2 k q hq
  resume := by
    intro id p i s s' flow hI hA h
    rcases Service.restrict_resume.1 h with ⟨hG, h⟩
    exact hresume id p i s s' flow hG hI hA (resumes_of_resume h)
  external := fun e s s' hI h => hexternal e s s' hI (happens_of_external h)

end Escrow
end PaymentRail
