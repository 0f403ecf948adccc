import PaymentRail.Escrow.Transitions

/-!
# ReleaseBounds — releases never overdraw a session

Two kinds of writers move `releasedAmount`: the conditional UPDATE, which checks its bounds, and the
save of an entity that was loaded earlier, which checks nothing and may write an outdated total.  The
total stays within its bounds all the same, because an entity carries its total *together with* the
deposit and the budget it was loaded with, and was within its bounds then.

A release that is answered with a conflict has written nothing at all.
-/

namespace PaymentRail
namespace Escrow

open Machine Strings Money Collections

/-! ## The bounds -/

/-- The released total is within what the session holds. -/
structure EscrowSession.Bounded (session : EscrowSession) : Prop where
  nonneg : 0 ≤ session.releasedAmount.wei
  le_least : session.releasedAmount.wei ≤ session.least

theorem newSession_bounded (id : SessionId) (createdAt : Time) (dto : OpenEscrowDto) :
    (newSession id createdAt dto).Bounded where
  nonneg := le_refl 0
  le_least := by
    have hscale : (0 : Int) ≤ scale := Int.natCast_nonneg scale
    exact le_min (le_trans hscale dto.depositAmount_min) (le_trans hscale dto.budgetLimit_min)

/-- An accepted reservation has checked the bounds of what it writes. -/
theorem reserved_bounded {session : EscrowSession} {delta : Int}
    (h : session.reservable delta = true) :
    EscrowSession.Bounded { session with
      releasedAmount := ⟨session.releasedAmount.wei + delta⟩ } := by
  have hcheck : session.status = .open ∧ 0 ≤ session.releasedAmount.wei + delta ∧
      session.releasedAmount.wei + delta ≤ session.least := of_decide_eq_true h
  exact ⟨hcheck.2.1, hcheck.2.2⟩

theorem EscrowSession.Bounded.written {session : EscrowSession} (h : session.Bounded) (op : Closing)
    (closedAt : Time) : (op.written session closedAt).Bounded :=
  ⟨h.nonneg, h.le_least⟩

theorem EscrowSession.Bounded.expire {session : EscrowSession} (h : session.Bounded) (now : Time) :
    (session.expire now).Bounded := by
  rcases Store.expire_cases now session with hsame | ⟨_, hexpired⟩
  · rw [hsame]
    exact h
  · rw [hexpired]
    exact ⟨h.nonneg, h.le_least⟩

theorem EscrowSession.Bounded.refundedRow {session : EscrowSession} (h : session.Bounded)
    (id : SessionId) (refundedAt : Time) : (Store.refundedRow id refundedAt session).Bounded := by
  rcases Store.refundedRow_cases id refundedAt session with ⟨_, hsame⟩ | ⟨_, hmarked⟩
  · rw [hsame]
    exact h
  · rw [hmarked]
    exact ⟨h.nonneg, h.le_least⟩

/-! ## The invariant -/

/-- Every stored session is within its bounds. -/
def SessionsBounded (store : Store) : Prop := ∀ session ∈ store.sessions, session.Bounded

/-- Every entity that a call holds, and may save later, is within its bounds. -/
def Process.HoldsBounded : Process → Prop
  | .commit session _ _ => session.Bounded
  | .saveSession _ loaded _ => loaded.Bounded
  | _ => True

theorem SessionsBounded.save {store : Store} {entity : EscrowSession} (h : SessionsBounded store)
    (hentity : entity.Bounded) : SessionsBounded (store.save entity) := by
  intro session hsession
  rcases Table.mem_put hsession with rfl | ⟨hmem, _⟩
  · exact hentity
  · exact h session hmem

/-- A call that reads a session reads one that is within its bounds. -/
theorem Waits.holdsBounded {cfg : Config} {store : Store} {p q : Process} {reply : Reply}
    (h : Waits cfg store p reply q) (hstore : SessionsBounded store) : q.HoldsBounded := by
  cases h with
  | uncommitted => exact newSession_bounded _ _ _
  | loaded hfind hcancel => exact hstore _ (Store.mem_of_find hfind)
  | _ => trivial

theorem Resumes.bounded {cfg : Config} {id : CallId} {store store' : Store} {p : Process}
    {reply : Reply} {flow : Flow Process Answer} (h : Resumes cfg id store p reply store' flow)
    (hstore : SessionsBounded store) (hp : p.HoldsBounded) :
    SessionsBounded store' ∧ flow.Awaits Process.HoldsBounded := by
  cases h with
  | waits h => exact ⟨hstore, h.holdsBounded hstore⟩
  | ends h => exact ⟨hstore, trivial⟩
  | inserts hnew =>
      exact ⟨hstore.save (newSession_bounded _ _ _), afterOpen_awaits (fun _ _ _ => trivial) _ _⟩
  | locks hfree => exact ⟨hstore, trivial⟩
  | exceeds => exact ⟨hstore, trivial⟩
  | commits hnew => exact ⟨hstore.save hp, afterOpen_awaits (fun _ _ _ => trivial) _ _⟩
  | sendsCall hnew => exact ⟨hstore, trivial⟩
  -- the outdated total of a save is within the bounds it was loaded with
  | saves => exact ⟨hstore.save (hp.written _ _), afterSave_awaits (fun _ _ _ => trivial) _ _ _ _⟩
  | reserves hfind hok => exact ⟨hstore.save (reserved_bounded hok), trivial⟩
  | insertsRelease hnew => exact ⟨hstore, afterInsert_of (A := Process.HoldsBounded) trivial trivial _⟩
  | paysOut hnew => exact ⟨hstore, trivial⟩
  | givesBack hfind hok => exact ⟨hstore.save (reserved_bounded hok), trivial⟩
  | givesNothingBack hrefused => exact ⟨hstore, trivial⟩
  | failed => exact ⟨hstore, trivial⟩
  | paid => exact ⟨hstore, trivial⟩
  | claims => exact ⟨hstore, trivial⟩

theorem Happens.bounded {store store' : Store} {e : Event} (h : Happens store e store')
    (hstore : SessionsBounded store) : SessionsBounded store' := by
  cases h with
  | expireDue now =>
      intro session hsession
      rcases List.mem_map.1 hsession with ⟨earlier, hearlier, rfl⟩
      exact (hstore earlier hearlier).expire now
  | markRefunded sid refundedAt =>
      intro session hsession
      rcases List.mem_map.1 hsession with ⟨earlier, hearlier, rfl⟩
      exact (hstore earlier hearlier).refundedRow sid refundedAt
  | _ => exact hstore

theorem bounds_outline (cfg : Config) :
    Outline (service cfg) SessionsBounded (fun _ _ p => p.HoldsBounded) (fun _ _ => True) := by
  rw [← Service.restrict_true (service cfg)]
  refine outline_of (fun _ _ _ => trivial) ?_ ?_ ?_
  · intro id r s p hI hp
    refine ⟨?_, fun _ _ _ => trivial⟩
    cases hp with
    | _ => trivial
  · intro id p i s s' flow _ hI hA h
    rcases h.bounded hI hA with ⟨hstore, hflow⟩
    exact ⟨hstore, hflow, fun k q _ hq _ => ⟨hq, flow.awaits_of_forall fun _ => trivial⟩⟩
  · exact fun e s s' hI h => ⟨h.bounded hI, fun k q hq => hq⟩

/-! ## Refused releases -/

/-- The answer is a 409. -/
def Answer.isConflict : Answer → Bool
  | .error 409 _ => true
  | _ => false

/-- The release has asked for its reservation, or was refused it. -/
def Process.asking : Process → Bool
  | .reserve _ _ _ | .refused _ _ => true
  | _ => false

/-- The release has its reservation. -/
def Process.paying : Process → Bool
  | .insertRelease _ _ _ | .payOut _ | .waitPayOut _ _ | .giveBack _ _ | .saveFailed _ | .savePaid _
  | .findBalance _ => true
  | _ => false

theorem Resumes.asking {cfg : Config} {id : CallId} {store store' : Store} {p : Process}
    {reply : Reply} {flow : Flow Process Answer} (h : Resumes cfg id store p reply store' flow)
    (hp : p.asking = true) :
    (store' = store ∧ flow.Awaits fun q => q.asking = true) ∨
      ∃ q, flow = .await q ∧ q.paying = true := by
  cases h with
  | waits h =>
      cases h with
      | refused hreserve => exact Or.inl ⟨rfl, rfl⟩
      | _ => cases hp
  | ends h => exact Or.inl ⟨rfl, trivial⟩
  | reserves hfind hok => exact Or.inr ⟨_, rfl, rfl⟩
  | _ => cases hp

/-- A release that has its reservation is never answered with a conflict. -/
theorem Resumes.paying {cfg : Config} {id : CallId} {store store' : Store} {p : Process}
    {reply : Reply} {flow : Flow Process Answer} (h : Resumes cfg id store p reply store' flow)
    (hp : p.paying = true) :
    (∃ q, flow = .await q ∧ q.paying = true) ∨ ∃ a, flow = .answer a ∧ a.isConflict = false := by
  cases h with
  | waits h =>
      cases h with
      | unsent => exact Or.inl ⟨_, rfl, rfl⟩
      | mined hmined => exact Or.inl ⟨_, rfl, rfl⟩
      | gaveUp => exact Or.inl ⟨_, rfl, rfl⟩
      | _ => cases hp
  | ends h =>
      cases h with
      | unknown hfind => exact Or.inr ⟨_, rfl, rfl⟩
      | released hfind hbalance => exact Or.inr ⟨_, rfl, rfl⟩
      | _ => cases hp
  | insertsRelease hnew =>
      exact Or.inl ⟨_, rfl, afterInsert_of (A := fun q => q.paying = true) rfl rfl cfg⟩
  | paysOut hnew => exact Or.inl ⟨_, rfl, rfl⟩
  | givesBack hfind hok => exact Or.inl ⟨_, rfl, rfl⟩
  | givesNothingBack hrefused => exact Or.inl ⟨_, rfl, rfl⟩
  | failed => exact Or.inr ⟨_, rfl, rfl⟩
  | paid => exact Or.inl ⟨_, rfl, rfl⟩
  | _ => cases hp

/-- A release that ends in a conflict has not had its reservation, and has written nothing. -/
theorem releases_refuse (cfg : Config) :
    (service cfg).Refuses (fun p => p.asking = true) (fun p => p.paying = true)
      (fun store store' => store' = store) (fun a => a.isConflict = true) where
  waits := by
    intro id p i s s' flow hasking hresume
    rcases (resumes_of_resume hresume).asking hasking with ⟨rfl, hflow⟩ | ⟨q, rfl, hq⟩
    · exact Or.inl ⟨rfl, hflow⟩
    · exact Or.inr ⟨hq, trivial⟩
  committed := by
    intro id p i s s' flow hpaying hresume
    rcases (resumes_of_resume hresume).paying hpaying with ⟨q, rfl, hq⟩ | ⟨a, rfl, ha⟩
    · exact ⟨hq, trivial⟩
    · exact ⟨trivial, by simp [Flow.Answers, ha]⟩

/-! ## The theorem -/

/-- After any interleaving of calls, every session's released total is within `[0, min(deposit,
budget)]` and its balance reports exactly the rest; and a release that is answered with a 409, in
whatever comes next, has itself changed nothing. -/
theorem releases_never_overdraw {cfg : Config} {moves : List (Move Request Reply Event)}
    {c : Calls Store Process Answer}
    (h : run (service cfg).step moves (.start .empty) = some c) :
    (∀ session ∈ c.store.sessions,
      0 ≤ session.releasedAmount.wei ∧
        session.releasedAmount.wei ≤ min session.depositAmount.wei session.budgetLimit.wei ∧
        ∃ balance, toBalance session = .ok balance ∧
          amountFrom balance.remainingBalance =
            .ok ⟨min session.depositAmount.wei session.budgetLimit.wei -
              session.releasedAmount.wei⟩) ∧
      ∀ id sid dto later c' message,
        run (service cfg).step (.call id (.release sid dto) :: later) c = some c' →
          c'.answered id = some (.error 409 message) →
            (service cfg).Along (fun m c c' => m.callId = some id → c'.store = c.store)
              (.call id (.release sid dto) :: later) c := by
  have hempty : SessionsBounded Store.empty := by
    intro session hsession
    cases hsession
  have hc := (bounds_outline cfg).run (Calls.Annotated.start hempty) h
  constructor
  · intro session hsession
    have hbounded := hc.store session hsession
    rcases toBalance_reports session with ⟨balance, hbalance, hreports⟩
    refine ⟨hbounded.nonneg, hbounded.le_least, balance, hbalance, ?_⟩
    -- within the bounds nothing is cut off at zero
    have hrest : max (session.least - session.releasedAmount.wei) 0 =
        session.least - session.releasedAmount.wei :=
      max_eq_left (Int.sub_nonneg_of_le hbounded.le_least)
    rw [hreports.remainingBalance, hrest]
    rfl
  · intro id sid dto later c' message hrun hanswer
    refine (releases_refuse cfg).along_call (start_store _ _) ?_ hrun hanswer rfl
    cases hflow : ((service cfg).start (.release sid dto) c.store).2 with
    | await p =>
        cases starts_of_start hflow with
        | release _ _ _ => exact rfl
    | answer a => trivial

/-- A hub is configured and one payer has a limit of 10 in 24 hours. -/
def sampleConfig : Config where
  hubConfigured := true
  overrides := [("0xa1".toList, ⟨10 * scale⟩)]
  defaultLimit := none
  windowHours := "24"
  window := 24 * 3600000000
  hashtext := List.length

/-- A session of 2 with a budget of 1, for an hour. -/
def sampleDto : OpenEscrowDto where
  agentA := "0xA2".toList
  agentB := "0xB1".toList
  depositAmount := ⟨2 * scale⟩
  budgetLimit := ⟨1 * scale⟩
  verificationRequired := false
  ttl := 3600
  depositAmount_min := by decide
  budgetLimit_min := by decide

/-- Session 1 is opened, by a payer without a limit; the hub is not reached. -/
def opened : List (Move Request Reply Event) :=
  [.call 0 (.open sampleDto), .resume 0 .done, .resume 0 (.inserted 1), .resume 0 (.failed "timeout")]

def releaseOf (amount : String) : ReleaseEscrowDto := { amount := amount.toList, note := none }

/-- A payout of 0.75 is on its way while a release of 0.5 is asked for, which exceeds the budget. -/
def overdrawn : List (Move Request Reply Event) :=
  [.call 1 (.release 1 (releaseOf "0.75")), .resume 1 .done, .resume 1 (.inserted 1),
    .resume 1 (.sent 100)]

def overdrawing : List (Move Request Reply Event) :=
  [.resume 2 .done, .resume 1 (.failed "timeout"), .resume 2 .done]

theorem releases_never_overdraw_overdrawn :
    ∃ c c' message, run (service sampleConfig).step (opened ++ overdrawn) (.start .empty) = some c ∧
      run (service sampleConfig).step (.call 2 (.release 1 (releaseOf "0.5")) :: overdrawing) c =
        some c' ∧
      c'.answered 2 = some (.error 409 message) ∧
      (∀ session ∈ c.store.sessions, 0 ≤ session.releasedAmount.wei) ∧
      (service sampleConfig).Along (fun m c c' => m.callId = some 2 → c'.store = c.store)
        (.call 2 (.release 1 (releaseOf "0.5")) :: overdrawing) c := by
  have hreached : ((run (service sampleConfig).step (opened ++ overdrawn) (.start .empty)).any
      fun c => (run (service sampleConfig).step
        (.call 2 (.release 1 (releaseOf "0.5")) :: overdrawing) c).any
          fun c' => c'.answered 2 =
            some (.error 409 "Release of 0.5 exceeds the remaining balance 0.25")) = true := by
    decide +kernel
  rcases (Option.any_eq_true _ _).1 hreached with ⟨c, hc, hany⟩
  rcases (Option.any_eq_true _ _).1 hany with ⟨c', hc', hanswer⟩
  have htheorem := releases_never_overdraw hc
  exact ⟨c, c', _, hc, hc', of_decide_eq_true hanswer, fun s hs => (htheorem.1 s hs).1,
    htheorem.2 2 1 _ _ _ _ hc' (of_decide_eq_true hanswer)⟩

end Escrow
end PaymentRail
