import PaymentRail.Escrow.ReleaseBounds

/-!
# SessionStatus — leaving OPEN is final

Five operations write the status of a session.  `expireDue` and the reservations of a release check
it in the same statement, and `cancel` checks what it has loaded; `close`, `emergencyClose` and, up
to a check for CLOSED, `refundUnused` write CLOSED over whatever they find.  So a session that has
left OPEN keeps its status in the runs in which these are not applied to an expired or cancelled
session, and in which a session still has the status it was loaded with when it is saved
(`statusKept`).  The second part holds by itself as long as the calls on a session do not overlap.
-/

namespace PaymentRail
namespace Escrow

open Machine Strings Money Collections Collections.Arrange

/-! ## The condition -/

def statusKept : Process → Reply → Store → Bool
  | .findById op sid, _, store =>
      op = .cancel ||
        (store.find sid).all fun session => session.status = .open || session.status = .closed
  | .saveSession _ loaded _, _, store =>
      (store.find loaded.id).any fun stored => stored.status = loaded.status
  | _, _, _ => true

/-! ## One step -/

/-- A session that is about to be saved was open, or is closed once more. -/
def Process.WritesFinal : Process → Prop
  | .saveSession op loaded _ =>
      loaded.status = .open ∨ (loaded.status = .closed ∧ op.status = .closed)
  | _ => True

/-- The session has kept its status, and still waits for its refund if it did before. -/
structure EscrowSession.Keeps (earlier later : EscrowSession) : Prop where
  status : later.status = earlier.status
  awaitingRefund : earlier.awaitingRefund = true → later.awaitingRefund = true

theorem EscrowSession.Keeps.refl (session : EscrowSession) : session.Keeps session :=
  ⟨rfl, fun h => h⟩

section Steps

variable {cfg : Config} {id : CallId} {store store' : Store} {p q : Process} {reply : Reply}
  {flow : Flow Process Answer} {sid : SessionId} {session : EscrowSession}

theorem Waits.writesFinal (h : Waits cfg store p reply q) (hG : statusKept p reply store = true) :
    q.WritesFinal := by
  cases h with
  | @loaded op sid session hfind hcancel =>
      by_cases hop : op = .cancel
      · exact Or.inl (hcancel hop)
      · have hwritten : op.status = .closed := by
          cases op with
          | cancel => exact absurd rfl hop
          | _ => rfl
        have hloaded : session.status = .open ∨ session.status = .closed := by
          simpa [statusKept, hop, hfind] using hG
        exact hloaded.imp_right fun hclosed => ⟨hclosed, hwritten⟩
  | _ => trivial

theorem Resumes.writesFinal (h : Resumes cfg id store p reply store' flow)
    (hG : statusKept p reply store = true) : flow.Awaits Process.WritesFinal := by
  cases h with
  | waits h => exact h.writesFinal hG
  | inserts hnew => exact afterOpen_awaits (fun _ _ _ => trivial) _ _
  | commits hnew => exact afterOpen_awaits (fun _ _ _ => trivial) _ _
  | saves => exact afterSave_awaits (fun _ _ _ => trivial) _ _ _ _
  | insertsRelease hnew => exact afterInsert_of (A := Process.WritesFinal) trivial trivial cfg
  | _ => trivial

theorem Resumes.keeps (h : Resumes cfg id store p reply store' flow)
    (hG : statusKept p reply store = true) (hp : p.WritesFinal)
    (hfind : store.find sid = some session) (hopen : session.status ≠ .open) :
    ∃ session', store'.find sid = some session' ∧ session.Keeps session' := by
  have hevolves : Table.Evolves EscrowSession.id (fun earlier later => earlier.status ≠ .open →
      earlier.Keeps later) store.sessions store'.sessions := by
    refine h.evolves (fun session _ => .refl session) ?_ ?_
    · -- the stored session is not open, so the one loaded was closed and is closed again
      rintro op loaded closedAt rfl stored hstored hopen
      rcases (Option.any_eq_true _ _).1 hG with ⟨stored', hstored', hsame⟩
      have hEq : stored = stored' := Option.some.inj (hstored.symm.trans hstored')
      have hstatus : stored.status = loaded.status := by
        rw [hEq]
        exact of_decide_eq_true hsame
      rcases hp with hp | ⟨hclosed, hop⟩
      · exact absurd (hstatus.trans hp) hopen
      · refine ⟨?_, ?_⟩
        · rw [hstatus, hclosed]
          exact hop
        · intro hawaiting
          simp [EscrowSession.awaitingRefund, hstatus, hclosed] at hawaiting
    · -- the reservations of a release find open sessions only
      intro reserved delta hok hopen
      have hcheck : reserved.status = .open ∧ 0 ≤ reserved.releasedAmount.wei + delta ∧
          reserved.releasedAmount.wei + delta ≤ reserved.least := of_decide_eq_true hok
      exact absurd hcheck.1 hopen
  rcases hevolves sid session hfind with ⟨session', hfind', hkeeps⟩
  exact ⟨session', hfind', hkeeps hopen⟩

/-- The other events leave a session that is not open as it is; `markRefunded` ends its waiting. -/
theorem Happens.keeps {e : Event} (h : Happens store e store')
    (hfind : store.find sid = some session) (hopen : session.status ≠ .open) :
    ∃ session', store'.find sid = some session' ∧ session'.status = session.status ∧
      ((∀ refundedAt, e ≠ .markRefunded sid refundedAt) → session' = session) := by
  cases h with
  | expireDue now =>
      refine ⟨session, ?_, rfl, fun _ => rfl⟩
      rcases Store.expire_cases now session with hsame | ⟨hwasOpen, _⟩
      · rw [Store.find_expireDue, hfind, Option.map_some, hsame]
      · exact absurd hwasOpen hopen
  | markRefunded k refundedAt =>
      refine ⟨Store.refundedRow k refundedAt session, ?_, ?_⟩
      · rw [Store.find_markRefunded, hfind]
        rfl
      · rcases Store.refundedRow_cases k refundedAt session with ⟨_, hsame⟩ | ⟨hid, hmarked⟩
        · rw [hsame]
          exact ⟨rfl, fun _ => rfl⟩
        · rw [hmarked]
          refine ⟨rfl, ?_⟩
          intro hother
          have hsid : k = sid := hid.symm.trans (Store.id_of_find hfind)
          rw [hsid] at hother
          exact absurd rfl (hother refundedAt)
  | _ => exact ⟨session, hfind, rfl, fun _ => rfl⟩

end Steps

/-! ## Runs -/

/-- The service in runs that meet the condition. -/
def finalService (cfg : Config) : Service Store Request Process Reply Answer Event :=
  (service cfg).restrict fun p reply store => statusKept p reply store = true

theorem status_outline (cfg : Config) :
    Outline (finalService cfg) (fun _ => True) (fun _ _ p => p.WritesFinal) (fun _ _ => True) := by
  refine outline_of (fun _ _ _ => trivial) ?_ ?_ ?_
  · intro id r s p _ hp
    refine ⟨?_, fun _ _ _ => trivial⟩
    cases hp with
    | _ => trivial
  · intro id p i s s' flow hG _ _ h
    exact ⟨trivial, h.writesFinal hG,
      fun k q _ hq _ => ⟨hq, flow.awaits_of_forall fun _ => trivial⟩⟩
  · exact fun _ _ _ _ _ => ⟨trivial, fun _ _ hq => hq⟩

section Runs

variable {cfg : Config} {c c' : Calls Store Process Answer} {sid : SessionId}
  {session : EscrowSession}

/-- The session is marked as refunded in this step. -/
def marksRefunded (sid : SessionId) : Move Request Reply Event → Bool
  | .external (.markRefunded id _) => id = sid
  | _ => false

theorem step_keeps {m : Move Request Reply Event}
    (hc : c.Annotated (fun _ => True) (fun _ _ p => p.WritesFinal) (fun _ _ => True))
    (h : (finalService cfg).step m c = some c') (hfind : c.store.find sid = some session)
    (hopen : session.status ≠ .open) :
    ∃ session', c'.store.find sid = some session' ∧ session'.status = session.status ∧
      (marksRefunded sid m = false → session.awaitingRefund = true →
        session'.awaitingRefund = true) := by
  cases Service.steps_of_step h with
  | call id r hnew hunanswered =>
      refine ⟨session, ?_, rfl, fun _ hawaiting => hawaiting⟩
      rw [Calls.store_go, show ((finalService cfg).start r c.store).1 = c.store from start_store _ _]
      exact hfind
  | resume id p i store flow hp hresume =>
      rcases Service.restrict_resume.1 hresume with ⟨hG, hresume⟩
      rcases (resumes_of_resume hresume).keeps hG (hc.process id p hp) hfind hopen with
        ⟨session', hfind', hkeeps⟩
      rw [Calls.store_go]
      exact ⟨session', hfind', hkeeps.status, fun _ => hkeeps.awaitingRefund⟩
  | external e store hexternal =>
      rcases (happens_of_external hexternal).keeps hfind hopen with
        ⟨session', hfind', hstatus, hsame⟩
      refine ⟨session', hfind', hstatus, ?_⟩
      intro hmark hawaiting
      have hother : ∀ refundedAt, e ≠ .markRefunded sid refundedAt := by
        rintro refundedAt rfl
        simp [marksRefunded] at hmark
      rw [hsame hother]
      exact hawaiting

theorem run_keeps {later : List (Move Request Reply Event)}
    (hc : c.Annotated (fun _ => True) (fun _ _ p => p.WritesFinal) (fun _ _ => True))
    (hlater : run (finalService cfg).step later c = some c')
    (hfind : c.store.find sid = some session) (hopen : session.status ≠ .open) :
    ∃ session', c'.store.find sid = some session' ∧ session'.status = session.status ∧
      ((∀ m ∈ later, marksRefunded sid m = false) → session.awaitingRefund = true →
        session'.awaitingRefund = true) := by
  induction later generalizing c session with
  | nil =>
      have hEq : c = c' := by simpa using hlater
      rw [← hEq]
      exact ⟨session, hfind, rfl, fun _ hawaiting => hawaiting⟩
  | cons m later ih =>
      rcases run_cons_eq_some.1 hlater with ⟨d, hd, hrest⟩
      rcases step_keeps hc hd hfind hopen with ⟨middle, hmiddle, hstatus, hawaiting⟩
      rcases ih ((status_outline cfg).step m c d hc hd) hrest hmiddle (by rw [hstatus]; exact hopen)
        with ⟨session', hfind', hstatus', hawaiting'⟩
      refine ⟨session', hfind', hstatus'.trans hstatus, ?_⟩
      intro hmarks hrefund
      exact hawaiting' (fun x hx => hmarks x (List.mem_cons_of_mem m hx))
        (hawaiting (hmarks m List.mem_cons_self) hrefund)

end Runs

/-- A query without an effective limit returns every session that waits for its refund. -/
theorem mem_findAwaitingRefund {store : Store} {sid : SessionId} {session : EscrowSession}
    {limit : Nat} (hfind : store.find sid = some session) (hawaiting : session.awaitingRefund = true)
    (hlimit : store.sessions.length ≤ limit) : session ∈ store.findAwaitingRefund limit := by
  have hlength : (orderBy (fun session : EscrowSession => session.closedAt.getD 0)
      (store.sessions.filter EscrowSession.awaitingRefund)).length ≤ limit := by
    rw [(perm_orderBy _).length_eq]
    exact le_trans (List.length_filter_le _ _) hlimit
  rw [Store.findAwaitingRefund, List.take_of_length_le hlength, mem_orderBy]
  exact List.mem_filter.2 ⟨Store.mem_of_find hfind, hawaiting⟩

/-- In every run that keeps to `statusKept`, a session that is not open keeps its status, and one that
waits for its refund stays in the set `findAwaitingRefund` returns until it is marked as refunded. -/
theorem leaving_open_is_final {cfg : Config} {moves later : List (Move Request Reply Event)}
    {c c' : Calls Store Process Answer} {sid : SessionId} {session : EscrowSession}
    (h : run (finalService cfg).step moves (.start .empty) = some c)
    (hlater : run (finalService cfg).step later c = some c')
    (hfind : c.store.find sid = some session) (hopen : session.status ≠ .open) :
    ∃ session', c'.store.find sid = some session' ∧ session'.status = session.status ∧
      ((∀ m ∈ later, marksRefunded sid m = false) → session.awaitingRefund = true →
        ∀ limit, c'.store.sessions.length ≤ limit →
          session' ∈ c'.store.findAwaitingRefund limit) := by
  have hc := (status_outline cfg).run (Calls.Annotated.start trivial) h
  rcases run_keeps hc hlater hfind hopen with ⟨session', hfind', hstatus, hawaiting⟩
  refine ⟨session', hfind', hstatus, ?_⟩
  intro hmarks hrefund limit hlimit
  exact mem_findAwaitingRefund hfind' (hawaiting hmarks hrefund) hlimit

def cancelled : List (Move Request Reply Event) :=
  [.call 1 (.cancel 1), .resume 1 .done, .resume 1 .done]

/-- The session is cancelled; a second cancel and a release are refused, and expiry passes it by. -/
def afterCancel : List (Move Request Reply Event) :=
  [.call 2 (.cancel 1), .resume 2 .done, .call 3 (.release 1 (releaseOf "0.5")), .resume 3 .done,
    .resume 3 .done, .external (.expireDue 7200000000)]

theorem leaving_open_is_final_afterCancel :
    ∃ c c' session session', run (finalService sampleConfig).step (opened ++ cancelled)
        (.start .empty) = some c ∧
      run (finalService sampleConfig).step afterCancel c = some c' ∧
      c.store.find 1 = some session ∧ session.status = .cancelled ∧
      c'.store.find 1 = some session' ∧ session'.status = .cancelled := by
  have hreached : ((run (finalService sampleConfig).step (opened ++ cancelled) (.start .empty)).any
      fun c => (c.store.find 1).any (fun session => session.status = .cancelled) &&
        (run (finalService sampleConfig).step afterCancel c).isSome) = true := by
    decide +kernel
  rcases (Option.any_eq_true _ _).1 hreached with ⟨c, hc, hstate⟩
  rcases Bool.and_eq_true_iff.1 hstate with ⟨hsession, hsome⟩
  rcases (Option.any_eq_true _ _).1 hsession with ⟨session, hfind, hcancelled⟩
  rcases Option.isSome_iff_exists.1 hsome with ⟨c', hc'⟩
  have hstatus : session.status = .cancelled := of_decide_eq_true hcancelled
  rcases leaving_open_is_final hc hc' hfind (by rw [hstatus]; decide) with
    ⟨session', hfind', hsame, _⟩
  exact ⟨c, c', session, session', hc, hc', hfind, hstatus, hfind', hsame.trans hstatus⟩

def closed : List (Move Request Reply Event) :=
  [.call 2 (.close 1), .resume 2 .done, .resume 2 .done, .resume 2 (.failed "timeout")]

/-- Without the condition a cancelled session is closed, and is not refunded any more. -/
theorem cancelled_session_closed :
    ¬ ∀ (cfg : Config) (moves later : List (Move Request Reply Event))
      (c c' : Calls Store Process Answer),
      run (service cfg).step moves (.start .empty) = some c →
        run (service cfg).step later c = some c' →
          ∀ sid session, c.store.find sid = some session → session.status ≠ .open →
            ∀ session', c'.store.find sid = some session' → session'.status = session.status := by
  intro hclaim
  have hreached : ((run (service sampleConfig).step (opened ++ cancelled) (.start .empty)).any
      fun c => (run (service sampleConfig).step closed c).any fun c' =>
        (c.store.find 1).any (fun session => session.status = .cancelled) &&
          (c'.store.find 1).any (fun session => session.status = .closed)) = true := by
    decide +kernel
  rcases (Option.any_eq_true _ _).1 hreached with ⟨c, hc, hany⟩
  rcases (Option.any_eq_true _ _).1 hany with ⟨c', hc', hstate⟩
  rcases Bool.and_eq_true_iff.1 hstate with ⟨hbefore, hafter⟩
  rcases (Option.any_eq_true _ _).1 hbefore with ⟨session, hfind, hstatus⟩
  rcases (Option.any_eq_true _ _).1 hafter with ⟨session', hfind', hstatus'⟩
  have hcancelled : session.status = .cancelled := of_decide_eq_true hstatus
  have hsame := hclaim _ _ _ c c' hc hc' 1 session hfind (by rw [hcancelled]; decide) session' hfind'
  rw [hcancelled, of_decide_eq_true hstatus'] at hsame
  cases hsame

end Escrow
end PaymentRail
