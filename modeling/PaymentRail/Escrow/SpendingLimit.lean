import PaymentRail.Collections.Sums
import PaymentRail.Escrow.ReleaseBounds

/-!
# SpendingLimit — the rolling limit holds at all times

Check and insert of `withinLimit` share a transaction and the advisory lock of the payer.  The check
sums the sessions created after `now - window`, where `now` was read before the lock was waited for,
and so before the transaction that dates the new session.  Whatever window the new session falls
into, the other sessions in that window have therefore been summed by its own check; and between the
check and the commit nobody else can add a session of the payer.

The argument needs that a session never comes back into the sum.  Only a cancelled one is outside of
it, and `close` and `emergencyClose` write CLOSED over CANCELLED as over anything else; `cancelKept`
excludes this.
-/

namespace PaymentRail
namespace Escrow

open Machine Strings Money Collections

/-! ## Sums of deposits -/

/-- The deposit of a session that a selection by payer and date counts. -/
def EscrowSession.counts (select : Text → Time → Bool) (session : EscrowSession) : Int :=
  if select session.agentA session.createdAt = true ∧ session.status ≠ .cancelled then
    session.depositAmount.wei
  else
    0

def Store.counting (store : Store) (select : Text → Time → Bool) : Int :=
  (store.sessions.map (EscrowSession.counts select)).sum

/-- Created in `(t - window, t]`, by the payer in any letter case. -/
def Config.within (cfg : Config) (address : Text) (t : Time) (agentA : Text) (createdAt : Time) :
    Bool :=
  toLowerCase agentA = address ∧ (t : Int) - cfg.window < createdAt ∧ createdAt ≤ t

/-- Created after the start of the window that `now` closes. -/
def Config.since (cfg : Config) (address : Text) (now : Time) (agentA : Text) (createdAt : Time) :
    Bool :=
  toLowerCase agentA = address ∧ cfg.windowStart now < createdAt

/-- The payer's sessions created in `(t - window, t]` that are not cancelled. -/
def Config.sessionsWithin (cfg : Config) (store : Store) (address : Text) (t : Time) :
    List EscrowSession :=
  store.sessions.filter fun session =>
    toLowerCase session.agentA = address ∧ (t : Int) - cfg.window < session.createdAt ∧
      session.createdAt ≤ t ∧ session.status ≠ .cancelled

theorem counting_since (cfg : Config) (store : Store) (address : Text) (now : Time) :
    store.counting (cfg.since address now) = cfg.spentInWindow store address now := by
  refine sum_map_filter ?_ ?_
  · intro session _ hcounted
    have h : toLowerCase session.agentA = address ∧ cfg.windowStart now < session.createdAt ∧
        session.status ≠ .cancelled := of_decide_eq_true hcounted
    rw [EscrowSession.counts, if_pos ⟨decide_eq_true ⟨h.1, h.2.1⟩, h.2.2⟩]
  · intro session _ hskipped
    have h : ¬ (toLowerCase session.agentA = address ∧ cfg.windowStart now < session.createdAt ∧
        session.status ≠ .cancelled) := of_decide_eq_false hskipped
    rw [EscrowSession.counts, if_neg]
    rintro ⟨hselect, hstatus⟩
    have hselect' : toLowerCase session.agentA = address ∧
        cfg.windowStart now < session.createdAt := of_decide_eq_true hselect
    exact h ⟨hselect'.1, hselect'.2, hstatus⟩

theorem counting_within (cfg : Config) (store : Store) (address : Text) (t : Time) :
    store.counting (cfg.within address t) =
      ((cfg.sessionsWithin store address t).map (·.depositAmount.wei)).sum := by
  refine sum_map_filter ?_ ?_
  · intro session _ hcounted
    have h : toLowerCase session.agentA = address ∧ (t : Int) - cfg.window < session.createdAt ∧
        session.createdAt ≤ t ∧ session.status ≠ .cancelled := of_decide_eq_true hcounted
    rw [EscrowSession.counts, if_pos ⟨decide_eq_true ⟨h.1, h.2.1, h.2.2.1⟩, h.2.2.2⟩]
  · intro session _ hskipped
    have h : ¬ (toLowerCase session.agentA = address ∧ (t : Int) - cfg.window < session.createdAt ∧
        session.createdAt ≤ t ∧ session.status ≠ .cancelled) := of_decide_eq_false hskipped
    rw [EscrowSession.counts, if_neg]
    rintro ⟨hselect, hstatus⟩
    have hselect' : toLowerCase session.agentA = address ∧
        (t : Int) - cfg.window < session.createdAt ∧ session.createdAt ≤ t :=
      of_decide_eq_true hselect
    exact h ⟨hselect'.1, hselect'.2.1, hselect'.2.2, hstatus⟩

/-- No deposit is negative. -/
def DepositsNonneg (store : Store) : Prop :=
  ∀ session ∈ store.sessions, 0 ≤ session.depositAmount.wei

/-- A wider selection counts at least as much. -/
theorem counting_mono {store : Store} {select select' : Text → Time → Bool}
    (hnonneg : DepositsNonneg store)
    (hwider : ∀ agentA createdAt, select agentA createdAt = true → select' agentA createdAt = true) :
    store.counting select ≤ store.counting select' := by
  refine List.sum_le_sum ?_
  intro session hsession
  have h0 := hnonneg session hsession
  rw [EscrowSession.counts, EscrowSession.counts]
  by_cases hselect : select session.agentA session.createdAt = true ∧ session.status ≠ .cancelled
  · rw [if_pos hselect, if_pos ⟨hwider _ _ hselect.1, hselect.2⟩]
  · rw [if_neg hselect]
    by_cases hselect' : select' session.agentA session.createdAt = true ∧ session.status ≠ .cancelled
    · rw [if_pos hselect']
      exact h0
    · rw [if_neg hselect']

/-! ## The window of a new session -/

/-- Every window that the new session falls into starts no earlier than its check did. -/
theorem since_of_within {cfg : Config} {address : Text} {now created t : Time} (hnow : now ≤ created)
    (hcreated : created ≤ t) (agentA : Text) (createdAt : Time)
    (h : cfg.within address t agentA createdAt = true) :
    cfg.since address now agentA createdAt = true := by
  have hwithin : toLowerCase agentA = address ∧ (t : Int) - cfg.window < createdAt ∧
      createdAt ≤ t := of_decide_eq_true h
  refine decide_eq_true ⟨hwithin.1, ?_⟩
  rw [Config.windowStart]
  have hfloor := Int.ediv_mul_le ((now : Int) - cfg.window) (b := 1000) (by decide)
  have hlater : (now : Int) ≤ t := Int.ofNat_le.2 (le_trans hnow hcreated)
  omega

/-! ## The condition -/

/-- No session that is stored as cancelled is closed. -/
def cancelKept : Process → Reply → Store → Bool
  | .saveSession op loaded _, _, store =>
      op = .cancel || (store.find loaded.id).any fun stored => stored.status ≠ .cancelled
  | _, _, _ => true

/-! ## Terms of a session -/

/-- The columns that are written once. -/
structure EscrowSession.SameTerms (s t : EscrowSession) : Prop where
  agentA : s.agentA = t.agentA
  depositAmount : s.depositAmount = t.depositAmount
  createdAt : s.createdAt = t.createdAt

theorem EscrowSession.SameTerms.refl (s : EscrowSession) : s.SameTerms s := ⟨rfl, rfl, rfl⟩

theorem EscrowSession.SameTerms.trans {s t u : EscrowSession} (h : s.SameTerms t)
    (h' : t.SameTerms u) : s.SameTerms u :=
  ⟨h.agentA.trans h'.agentA, h.depositAmount.trans h'.depositAmount,
    h.createdAt.trans h'.createdAt⟩

theorem EscrowSession.SameTerms.symm {s t : EscrowSession} (h : s.SameTerms t) : t.SameTerms s :=
  ⟨h.agentA.symm, h.depositAmount.symm, h.createdAt.symm⟩

/-- With the same terms, and counted only if it was before, a session counts at most as much. -/
theorem EscrowSession.SameTerms.counts_le {s t : EscrowSession} (h : s.SameTerms t)
    (hnonneg : 0 ≤ s.depositAmount.wei)
    (hstatus : t.status ≠ .cancelled → s.status ≠ .cancelled) (select : Text → Time → Bool) :
    t.counts select ≤ s.counts select := by
  rw [EscrowSession.counts, EscrowSession.counts, h.agentA, h.createdAt, h.depositAmount]
  rw [h.depositAmount] at hnonneg
  by_cases ht : select t.agentA t.createdAt = true ∧ t.status ≠ .cancelled
  · rw [if_pos ht, if_pos ⟨ht.1, hstatus ht.2⟩]
  · rw [if_neg ht]
    by_cases hs : select t.agentA t.createdAt = true ∧ s.status ≠ .cancelled
    · rw [if_pos hs]
      exact hnonneg
    · rw [if_neg hs]

/-- Each session of `store` is there in `store'`, with the same terms. -/
def KeepsTerms (store store' : Store) : Prop :=
  ∀ sid session, store.find sid = some session →
    ∃ session', store'.find sid = some session' ∧ session.SameTerms session'

/-- No selection counts more in `store'` than it did in `store`. -/
def Shrinks (store store' : Store) : Prop :=
  ∀ select, store'.counting select ≤ store.counting select

/-- What every write of a session keeps, but for a new one. -/
structure Rewrites (store store' : Store) : Prop where
  keyed : Table.Keyed EscrowSession.id store'.sessions
  nonneg : DepositsNonneg store'
  terms : KeepsTerms store store'
  shrinks : Shrinks store store'

section Writes

variable {store store' : Store}

theorem rewrites_of_eq (hkeyed : Table.Keyed EscrowSession.id store.sessions)
    (hnonneg : DepositsNonneg store) (hEq : store'.sessions = store.sessions) :
    Rewrites store store' where
  keyed := by rw [hEq]; exact hkeyed
  nonneg := by
    intro session hsession
    rw [hEq] at hsession
    exact hnonneg session hsession
  terms := Table.Evolves.of_eq .refl hEq
  shrinks := by
    intro select
    rw [Store.counting, hEq]
    exact le_refl _

theorem rewrites_of_save {stored entity : EscrowSession}
    (hkeyed : Table.Keyed EscrowSession.id store.sessions) (hnonneg : DepositsNonneg store)
    (hfind : store.find entity.id = some stored) (hterms : stored.SameTerms entity)
    (hstatus : entity.status ≠ .cancelled → stored.status ≠ .cancelled) :
    Rewrites store (store.save entity) where
  keyed := Table.Keyed.put hkeyed
  nonneg := by
    intro session hsession
    rcases Table.mem_put hsession with rfl | ⟨hmem, _⟩
    · rw [← hterms.depositAmount]
      exact hnonneg stored (Store.mem_of_find hfind)
    · exact hnonneg session hmem
  terms := by
    refine Table.Evolves.put .refl ?_
    intro old hold
    have hEq : stored = old := Option.some.inj (hfind.symm.trans hold)
    rw [← hEq]
    exact hterms
  shrinks := by
    intro select
    have hsum : (store.save entity).counting select +
        (store.find entity.id).elim 0 (EscrowSession.counts select) =
          store.counting select + entity.counts select :=
      Table.sum_put_add (EscrowSession.counts select) hkeyed entity
    rw [hfind, Option.elim_some] at hsum
    have hle := hterms.counts_le (hnonneg stored (Store.mem_of_find hfind)) hstatus select
    omega

theorem rewrites_of_reserved {sid : SessionId} {session : EscrowSession}
    (hkeyed : Table.Keyed EscrowSession.id store.sessions) (hnonneg : DepositsNonneg store)
    (hfind : store.find sid = some session) (released : Amount) :
    Rewrites store (store.save { session with releasedAmount := released }) := by
  have hid := Store.id_of_find hfind
  subst hid
  exact rewrites_of_save hkeyed hnonneg hfind ⟨rfl, rfl, rfl⟩ (fun hstatus => hstatus)

/-- An update in place that keeps the terms and cancels nothing back. -/
theorem rewrites_of_map {g : EscrowSession → EscrowSession}
    (hkeyed : Table.Keyed EscrowSession.id store.sessions) (hnonneg : DepositsNonneg store)
    (hid : ∀ session, (g session).id = session.id)
    (hterms : ∀ session : EscrowSession, session.SameTerms (g session))
    (hstatus : ∀ session, (g session).status ≠ .cancelled → session.status ≠ .cancelled)
    (hEq : store'.sessions = store.sessions.map g) : Rewrites store store' where
  keyed := by
    rw [hEq]
    exact hkeyed.map hid
  nonneg := by
    intro session hsession
    rw [hEq] at hsession
    rcases List.mem_map.1 hsession with ⟨earlier, hearlier, rfl⟩
    rw [← (hterms earlier).depositAmount]
    exact hnonneg earlier hearlier
  terms := by
    have hmap : Table.Evolves EscrowSession.id EscrowSession.SameTerms store.sessions
        (store.sessions.map g) := .map hid hterms
    rw [← hEq] at hmap
    exact hmap
  shrinks := by
    intro select
    rw [Store.counting, hEq, List.map_map]
    refine List.sum_le_sum ?_
    intro session hsession
    exact (hterms session).counts_le (hnonneg session hsession) (hstatus session) select

theorem counting_insert {session : EscrowSession}
    (hkeyed : Table.Keyed EscrowSession.id store.sessions) (hnew : store.find session.id = none)
    (select : Text → Time → Bool) :
    (store.save session).counting select = store.counting select + session.counts select := by
  have hsum : (store.save session).counting select +
      (store.find session.id).elim 0 (EscrowSession.counts select) =
        store.counting select + session.counts select :=
    Table.sum_put_add (EscrowSession.counts select) hkeyed session
  rw [hnew, Option.elim_none, add_zero] at hsum
  exact hsum

theorem keepsTerms_insert {session : EscrowSession} (hnew : store.find session.id = none) :
    KeepsTerms store (store.save session) :=
  Table.Evolves.put_new .refl hnew

end Writes

/-! ## The invariant -/

section Limit

variable (cfg : Config) (address : Text) (L : Int)

/-- The limit holds in every window. -/
structure LimitKept (store : Store) : Prop where
  keyed : Table.Keyed EscrowSession.id store.sessions
  nonneg : DepositsNonneg store
  limit : ∀ t, store.counting (cfg.within address t) ≤ L

/-- The call holds the advisory lock of the payer. -/
def Holds (store : Store) (id : CallId) (agentA : Text) : Prop :=
  Table.lookup Prod.fst store.locks (cfg.hashtext (toLowerCase agentA)) =
    some (cfg.hashtext (toLowerCase agentA), id)

/-- The deposit still fits, on top of what the check of this call has summed. -/
def Fits (store : Store) (agentA : Text) (now : Time) (deposit : Int) : Prop :=
  toLowerCase agentA = address → store.counting (cfg.since address now) + deposit ≤ L

/-- What a call has established on its way through `withinLimit`, or of the session it has loaded. -/
def Process.LimitOk (store : Store) (id : CallId) : Process → Prop
  | .limitFor _ now => now ≤ store.now
  | .insertSession dto => toLowerCase dto.agentA ≠ address
  | .begin dto now limit => now ≤ store.now ∧ (toLowerCase dto.agentA = address → limit = L)
  | .advisoryLock dto now began limit =>
      now ≤ began ∧ (toLowerCase dto.agentA = address → limit = L)
  | .spentInWindow dto now began limit =>
      now ≤ began ∧ (toLowerCase dto.agentA = address → limit = L) ∧ Holds cfg store id dto.agentA
  | .insertLocked dto now began _ =>
      now ≤ began ∧ Holds cfg store id dto.agentA ∧
        Fits cfg address L store dto.agentA now dto.depositAmount.wei
  | .commit session now _ =>
      now ≤ session.createdAt ∧ 0 ≤ session.depositAmount.wei ∧ Holds cfg store id session.agentA ∧
        Fits cfg address L store session.agentA now session.depositAmount.wei
  | .saveSession _ loaded _ => ∃ stored, store.find loaded.id = some stored ∧ stored.SameTerms loaded
  | _ => True

end Limit

section Frame

variable {cfg : Config} {address : Text} {L : Int} {store store' : Store} {id : CallId} {p : Process}

/-- What keeps an assertion about another call: the clock does not go back, its lock stays, the
loaded sessions keep their terms, and nothing is added for a payer whose lock it holds. -/
theorem Process.LimitOk.frame (h : p.LimitOk cfg address L store id) (hnow : store.now ≤ store'.now)
    (hlocks : ∀ agentA, Holds cfg store id agentA → Holds cfg store' id agentA)
    (hterms : KeepsTerms store store')
    (hcount : ∀ agentA now, Holds cfg store id agentA → toLowerCase agentA = address →
      store'.counting (cfg.since address now) ≤ store.counting (cfg.since address now)) :
    p.LimitOk cfg address L store' id := by
  have hfits : ∀ agentA now deposit, Holds cfg store id agentA →
      Fits cfg address L store agentA now deposit → Fits cfg address L store' agentA now deposit := by
    intro agentA now deposit hholds hfits hpayer
    have hle := hcount agentA now hholds hpayer
    have hold := hfits hpayer
    omega
  cases p with
  | limitFor dto now => exact le_trans h hnow
  | insertSession dto => exact h
  | begin dto now limit => exact ⟨le_trans h.1 hnow, h.2⟩
  | advisoryLock dto now began limit => exact h
  | spentInWindow dto now began limit => exact ⟨h.1, h.2.1, hlocks _ h.2.2⟩
  | insertLocked dto now began limit =>
      exact ⟨h.1, hlocks _ h.2.1, hfits _ _ _ h.2.1 h.2.2⟩
  | commit session now limit =>
      exact ⟨h.1, h.2.1, hlocks _ h.2.2.1, hfits _ _ _ h.2.2.1 h.2.2.2⟩
  | saveSession op loaded closedAt =>
      rcases h with ⟨stored, hstored, hsame⟩
      rcases hterms _ stored hstored with ⟨stored', hstored', hsame'⟩
      exact ⟨stored', hstored', hsame'.symm.trans hsame⟩
  | _ => trivial

/-- A step that touches no lock and adds no session. -/
theorem Process.LimitOk.rewrites (h : p.LimitOk cfg address L store id)
    (hrewrites : Rewrites store store') (hnow : store.now ≤ store'.now)
    (hlocks : store'.locks = store.locks) : p.LimitOk cfg address L store' id := by
  refine h.frame hnow ?_ hrewrites.terms (fun _ _ _ _ => hrewrites.shrinks _)
  intro agentA hholds
  rw [Holds, hlocks]
  exact hholds

theorem LimitKept.rewrites (h : LimitKept cfg address L store) (hrewrites : Rewrites store store') :
    LimitKept cfg address L store' where
  keyed := hrewrites.keyed
  nonneg := hrewrites.nonneg
  limit := fun t => le_trans (hrewrites.shrinks _) (h.limit t)

theorem LimitKept.rewrites_of_eq (h : LimitKept cfg address L store)
    (hEq : store'.sessions = store.sessions) : Rewrites store store' :=
  Escrow.rewrites_of_eq h.keyed h.nonneg hEq

/-- A session of another payer is not counted. -/
theorem counts_eq_zero {session : EscrowSession} (hother : toLowerCase session.agentA ≠ address) :
    (∀ now, session.counts (cfg.since address now) = 0) ∧
      ∀ t, session.counts (cfg.within address t) = 0 := by
  constructor
  · intro now
    rw [EscrowSession.counts, if_neg]
    rintro ⟨hselect, _⟩
    exact hother (of_decide_eq_true hselect).1
  · intro t
    rw [EscrowSession.counts, if_neg]
    rintro ⟨hselect, _⟩
    exact hother (of_decide_eq_true hselect).1

/-- The new session keeps the limit: in a window it falls into, its own check has summed the rest. -/
theorem LimitKept.insert {session : EscrowSession} {now : Time} (h : LimitKept cfg address L store)
    (hnew : store.find session.id = none) (hnow : now ≤ session.createdAt)
    (hnonneg : 0 ≤ session.depositAmount.wei)
    (hfits : Fits cfg address L store session.agentA now session.depositAmount.wei) :
    LimitKept cfg address L (store.save session) where
  keyed := Table.Keyed.put h.keyed
  nonneg := by
    intro other hother
    rcases Table.mem_put hother with rfl | ⟨hmem, _⟩
    · exact hnonneg
    · exact h.nonneg other hmem
  limit := by
    intro t
    rw [counting_insert h.keyed hnew]
    have hold := h.limit t
    by_cases hselect : cfg.within address t session.agentA session.createdAt = true
    · have hwithin : toLowerCase session.agentA = address ∧
          (t : Int) - cfg.window < session.createdAt ∧ session.createdAt ≤ t :=
        of_decide_eq_true hselect
      have hsince : ∀ agentA createdAt, cfg.within address t agentA createdAt = true →
          cfg.since address now agentA createdAt = true := since_of_within hnow hwithin.2.2
      have hsummed := counting_mono h.nonneg hsince
      have hfit := hfits hwithin.1
      have hcounts : session.counts (cfg.within address t) ≤ session.depositAmount.wei := by
        rw [EscrowSession.counts]
        split
        · exact le_refl _
        · exact hnonneg
      omega
    · have hzero : session.counts (cfg.within address t) = 0 := by
        rw [EscrowSession.counts, if_neg]
        exact fun hboth => hselect hboth.1
      omega

end Frame

/-! ## One step -/

section Steps

variable {cfg : Config} {address : Text} {L : Int} {store store' : Store} {id : CallId}
  {p q : Process} {reply : Reply} {flow : Flow Process Answer}

theorem Waits.limitOk (h : Waits cfg store p reply q) (hL : cfg.limitFor address = some L)
    (hp : p.LimitOk cfg address L store id) : q.LimitOk cfg address L store id := by
  cases h with
  | unlimited hlimit =>
      intro hpayer
      rw [hpayer, hL] at hlimit
      cases hlimit
  | limited hlimit =>
      refine ⟨hp, ?_⟩
      intro hpayer
      rw [hpayer, hL] at hlimit
      exact (Option.some.inj hlimit).symm
  | begun => exact hp
  | fits hfits =>
      refine ⟨hp.1, hp.2.2, ?_⟩
      intro hpayer
      rw [counting_since, ← hp.2.1 hpayer, ← hpayer]
      exact hfits
  | @uncommitted dto now began limit new =>
      have hscale : (0 : Int) ≤ scale := Int.natCast_nonneg scale
      exact ⟨hp.1, le_trans hscale dto.depositAmount_min, hp.2.1, hp.2.2⟩
  | loaded hfind hcancel =>
      refine ⟨_, ?_, .refl _⟩
      rw [Store.id_of_find hfind]
      exact hfind
  | _ => trivial

/-- What a step keeps of the limit. -/
structure KeepsLimit (cfg : Config) (address : Text) (L : Int) (id : CallId) (store store' : Store)
    (flow : Flow Process Answer) : Prop where
  limit : LimitKept cfg address L store'
  self : flow.Awaits (Process.LimitOk cfg address L store' id)
  others : ∀ k (q : Process), k ≠ id → q.LimitOk cfg address L store k →
    q.LimitOk cfg address L store' k

/-- A step that touches no lock and adds no session. -/
theorem keepsLimit_of_rewrites (hI : LimitKept cfg address L store)
    (hrewrites : Rewrites store store') (hnow : store'.now = store.now)
    (hlocks : store'.locks = store.locks)
    (hself : flow.Awaits (Process.LimitOk cfg address L store' id)) :
    KeepsLimit cfg address L id store store' flow where
  limit := hI.rewrites hrewrites
  self := hself
  others := fun _ _ _ hq => hq.rewrites hrewrites (le_of_eq hnow.symm) hlocks

theorem Holds.lock {key : Nat} {holder : CallId} {agentA : Text} (h : Holds cfg store id agentA)
    (hfree : Table.lookup Prod.fst store.locks key = none) :
    Holds cfg (store.lock key holder) id agentA := by
  have hne : key ≠ cfg.hashtext (toLowerCase agentA) := by
    intro hEq
    rw [hEq, h] at hfree
    cases hfree
  rw [Holds, Store.lock, Table.lookup_put_of_ne _ _ hne]
  exact h

/-- Another call releases its own lock, not this one. -/
theorem Holds.unlock {k : CallId} {agentA other : Text} (h : Holds cfg store k agentA)
    (hother : Holds cfg store id other) (hne : k ≠ id) :
    Holds cfg (store.unlock (cfg.hashtext (toLowerCase other))) k agentA := by
  have hkey : cfg.hashtext (toLowerCase other) ≠ cfg.hashtext (toLowerCase agentA) := by
    intro hEq
    rw [Holds, ← hEq, hother] at h
    exact hne (congrArg Prod.snd (Option.some.inj h)).symm
  rw [Holds, Store.unlock, Table.lookup_drop_of_ne hkey]
  exact h

/-- Two calls do not hold the lock of one payer. -/
theorem Holds.exclusive {k : CallId} {agentA other : Text} (h : Holds cfg store k agentA)
    (hother : Holds cfg store id other) (hsame : toLowerCase agentA = toLowerCase other) : k = id := by
  rw [Holds, hsame, hother] at h
  exact (congrArg Prod.snd (Option.some.inj h)).symm

theorem Resumes.keepsLimit (h : Resumes cfg id store p reply store' flow)
    (hL : cfg.limitFor address = some L) (hG : cancelKept p reply store = true)
    (hI : LimitKept cfg address L store) (hp : p.LimitOk cfg address L store id) :
    KeepsLimit cfg address L id store store' flow := by
  cases h with
  | waits h => exact keepsLimit_of_rewrites hI (hI.rewrites_of_eq rfl) rfl rfl (h.limitOk hL hp)
  | ends h => exact keepsLimit_of_rewrites hI (hI.rewrites_of_eq rfl) rfl rfl trivial
  | @inserts dto new hnew =>
      -- a payer without a limit is another payer
      have hscale : (0 : Int) ≤ scale := Int.natCast_nonneg scale
      have hother : toLowerCase (newSession new store.now dto).agentA ≠ address := hp
      refine ⟨hI.insert hnew (le_refl _) (le_trans hscale dto.depositAmount_min)
          (fun hpayer => absurd hpayer hother),
        afterOpen_awaits (fun _ _ _ => trivial) _ _, ?_⟩
      intro k q _ hq
      refine hq.frame (le_refl _) (fun _ hholds => hholds) (keepsTerms_insert hnew) ?_
      intro agentA now _ _
      rw [counting_insert hI.keyed hnew, (counts_eq_zero hother).1, add_zero]
  | @locks dto now began limit hfree =>
      refine ⟨hI.rewrites (hI.rewrites_of_eq rfl), ⟨hp.1, hp.2, ?_⟩, ?_⟩
      · exact Table.lookup_put_self store.locks
          (cfg.hashtext (toLowerCase dto.agentA), id)
      · intro k q _ hq
        exact hq.frame (le_refl _) (fun _ hholds => hholds.lock hfree)
          (hI.rewrites_of_eq rfl).terms (fun _ _ _ _ => le_refl _)
  | exceeds =>
      refine ⟨hI.rewrites (hI.rewrites_of_eq rfl), trivial, ?_⟩
      intro k q hne hq
      exact hq.frame (le_refl _) (fun _ hholds => hholds.unlock hp.2.2 hne)
        (hI.rewrites_of_eq rfl).terms (fun _ _ _ _ => le_refl _)
  | @commits session now limit hnew =>
      have hinsert := hI.insert hnew hp.1 hp.2.1 hp.2.2.2
      refine ⟨⟨hinsert.keyed, hinsert.nonneg, hinsert.limit⟩,
        afterOpen_awaits (fun _ _ _ => trivial) _ _, ?_⟩
      intro k q hne hq
      refine hq.frame (le_refl _) (fun _ hholds => hholds.unlock hp.2.2.1 hne)
        (keepsTerms_insert hnew) ?_
      intro agentA since hholds hpayer
      -- whoever holds the lock of the payer is the call that commits
      have hother : toLowerCase session.agentA ≠ address := by
        intro hsame
        exact hne (hholds.exclusive hp.2.2.1 (hpayer.trans hsame.symm))
      have hcount := counting_insert hI.keyed hnew (cfg.since address since)
      rw [(counts_eq_zero hother).1, add_zero] at hcount
      exact le_of_eq hcount
  | sendsCall hnew => exact keepsLimit_of_rewrites hI (hI.rewrites_of_eq rfl) rfl rfl trivial
  | @saves op loaded closedAt =>
      rcases hp with ⟨stored, hstored, hsame⟩
      have hrewrites : Rewrites store (store.save (op.written loaded closedAt)) := by
        refine rewrites_of_save hI.keyed hI.nonneg hstored
          ⟨hsame.agentA, hsame.depositAmount, hsame.createdAt⟩ ?_
        intro hwritten
        by_cases hop : op = .cancel
        · exact absurd (by rw [hop]; rfl) hwritten
        · simpa [cancelKept, hop, hstored] using hG
      exact keepsLimit_of_rewrites hI hrewrites rfl rfl
        (afterSave_awaits (fun _ _ _ => trivial) _ _ _ _)
  | reserves hfind hok =>
      exact keepsLimit_of_rewrites hI (rewrites_of_reserved hI.keyed hI.nonneg hfind _) rfl rfl trivial
  | insertsRelease hnew =>
      exact keepsLimit_of_rewrites hI (hI.rewrites_of_eq rfl) rfl rfl
        (afterInsert_of (A := Process.LimitOk cfg address L _ id) trivial trivial cfg)
  | paysOut hnew => exact keepsLimit_of_rewrites hI (hI.rewrites_of_eq rfl) rfl rfl trivial
  | givesBack hfind hok =>
      exact keepsLimit_of_rewrites hI (rewrites_of_reserved hI.keyed hI.nonneg hfind _) rfl rfl trivial
  | givesNothingBack hrefused =>
      exact keepsLimit_of_rewrites hI (hI.rewrites_of_eq rfl) rfl rfl trivial
  | failed => exact keepsLimit_of_rewrites hI (hI.rewrites_of_eq rfl) rfl rfl trivial
  | paid => exact keepsLimit_of_rewrites hI (hI.rewrites_of_eq rfl) rfl rfl trivial
  | claims => exact keepsLimit_of_rewrites hI (hI.rewrites_of_eq rfl) rfl rfl trivial

theorem Happens.rewrites {e : Event} (h : Happens store e store')
    (hkeyed : Table.Keyed EscrowSession.id store.sessions) (hnonneg : DepositsNonneg store) :
    Rewrites store store' ∧ store.now ≤ store'.now ∧ store'.locks = store.locks := by
  cases h with
  | expireDue now =>
      refine ⟨rewrites_of_map hkeyed hnonneg (Store.id_expire now) ?_ ?_ rfl, le_refl _, rfl⟩
      · intro session
        rcases Store.expire_cases now session with hsame | ⟨_, hexpired⟩
        · rw [hsame]
          exact .refl session
        · rw [hexpired]
          exact ⟨rfl, rfl, rfl⟩
      · intro session hstatus
        rcases Store.expire_cases now session with hsame | ⟨hopen, _⟩
        · rw [hsame] at hstatus
          exact hstatus
        · rw [hopen]
          decide
  | markRefunded sid refundedAt =>
      refine ⟨rewrites_of_map hkeyed hnonneg (Store.id_refundedRow refundedAt) ?_ ?_ rfl,
        le_refl _, rfl⟩
      · intro session
        rcases Store.refundedRow_cases sid refundedAt session with ⟨_, hsame⟩ | ⟨_, hmarked⟩
        · rw [hsame]
          exact .refl session
        · rw [hmarked]
          exact ⟨rfl, rfl, rfl⟩
      · intro session hstatus
        rcases Store.refundedRow_cases sid refundedAt session with ⟨_, hsame⟩ | ⟨_, hmarked⟩
        · rw [hsame] at hstatus
          exact hstatus
        · rw [hmarked] at hstatus
          exact hstatus
  | tick hnow => exact ⟨rewrites_of_eq hkeyed hnonneg rfl, hnow, rfl⟩
  | _ => exact ⟨rewrites_of_eq hkeyed hnonneg rfl, le_refl _, rfl⟩

theorem Starts.limitOk {r : Request} (h : Starts store r p) :
    p.LimitOk cfg address L store id := by
  cases h with
  | «open» dto => exact Nat.div_mul_le_self store.now 1000
  | _ => trivial

end Steps

/-! ## Runs -/

/-- The service in runs that close no cancelled session. -/
def limitedService (cfg : Config) : Service Store Request Process Reply Answer Event :=
  (service cfg).restrict fun p reply store => cancelKept p reply store = true

theorem limit_outline {cfg : Config} {address : Text} {L : Int}
    (hL : cfg.limitFor address = some L) :
    Outline (limitedService cfg) (LimitKept cfg address L)
      (fun s id p => p.LimitOk cfg address L s id) (fun _ _ => True) := by
  refine outline_of (fun _ _ _ => trivial) ?_ ?_ ?_
  · exact fun id r s p _ hp => ⟨hp.limitOk, fun _ _ _ => trivial⟩
  · intro id p i s s' flow hG hI hA h
    have hkeeps := h.keepsLimit hL hG hI hA
    exact ⟨hkeeps.limit, hkeeps.self,
      fun k q hk hq _ => ⟨hkeeps.others k q hk hq, flow.awaits_of_forall fun _ => trivial⟩⟩
  · intro e s s' hI h
    rcases h.rewrites hI.keyed hI.nonneg with ⟨hrewrites, hnow, hlocks⟩
    exact ⟨hI.rewrites hrewrites, fun k q hq => hq.rewrites hrewrites hnow hlocks⟩

/-- In every run that closes no cancelled session, a payer with a limit `L` never has more than `L`
in the sessions created in a window that are not cancelled, whatever the window. -/
theorem spending_limit_holds {cfg : Config} {address : Text} {L : Int}
    {moves : List (Move Request Reply Event)} {c : Calls Store Process Answer}
    (hL : cfg.limitFor address = some L) (hpos : 0 < L)
    (h : run (limitedService cfg).step moves (.start .empty) = some c) (t : Time) :
    ((cfg.sessionsWithin c.store address t).map (·.depositAmount.wei)).sum ≤ L := by
  have hempty : LimitKept cfg address L .empty := by
    refine ⟨List.nodup_nil, ?_, fun _ => le_of_lt hpos⟩
    intro session hsession
    cases hsession
  have hc := (limit_outline hL).run (Calls.Annotated.start hempty) h
  rw [← counting_within]
  exact hc.store.limit t

/-- A deposit of 6 by the payer whose limit is 10, in two letter cases. -/
def limitedDto (agentA : String) : OpenEscrowDto where
  agentA := agentA.toList
  agentB := "0xB1".toList
  depositAmount := ⟨6 * scale⟩
  budgetLimit := ⟨6 * scale⟩
  verificationRequired := false
  ttl := 3600
  depositAmount_min := by decide
  budgetLimit_min := by decide

def openedBy (id : CallId) (agentA : String) (sid : SessionId) : List (Move Request Reply Event) :=
  [.call id (.open (limitedDto agentA)), .resume id .done, .resume id .done, .resume id .done,
    .resume id .done, .resume id (.inserted sid), .resume id .done, .resume id (.failed "timeout")]

/-- One session of 6 is opened while another call for 6 waits for the lock, and is then refused. -/
def openedTogether : List (Move Request Reply Event) :=
  [.external (.tick 100000), .call 0 (.open (limitedDto "0xA1")), .call 1 (.open (limitedDto "0xa1")),
    .resume 0 .done, .resume 1 .done, .resume 0 .done, .resume 1 .done, .resume 0 .done,
    .resume 0 .done, .resume 0 (.inserted 1), .resume 0 .done, .resume 1 .done, .resume 1 .done]

theorem spending_limit_holds_openedTogether :
    ∃ c, run (limitedService sampleConfig).step openedTogether (.start .empty) = some c ∧
      (c.answered 1).isSome = true ∧
      ((sampleConfig.sessionsWithin c.store "0xa1".toList 100000).map (·.depositAmount.wei)).sum ≤
        10 * scale := by
  have hreached : ((run (limitedService sampleConfig).step openedTogether (.start .empty)).any
      fun c => (c.answered 1).isSome) = true := by
    decide +kernel
  rcases (Option.any_eq_true _ _).1 hreached with ⟨c, hc, hanswered⟩
  exact ⟨c, hc, hanswered, spending_limit_holds (by decide) (by decide) hc 100000⟩

/-- A session of 6 is opened and cancelled, another one of 6 is opened, and the cancelled one is
closed. -/
def closedAfterCancel : List (Move Request Reply Event) :=
  openedBy 0 "0xA1" 1 ++ [.call 1 (.cancel 1), .resume 1 .done, .resume 1 .done] ++
    openedBy 2 "0xA1" 2 ++
    [.call 3 (.close 1), .resume 3 .done, .resume 3 .done, .resume 3 (.failed "timeout")]

/-- Without the condition the payer has 12 in open or closed sessions of one window, with a limit of
10. -/
theorem spending_limit_exceeded :
    ¬ ∀ (cfg : Config) (address : Text) (L : Int) (moves : List (Move Request Reply Event))
      (c : Calls Store Process Answer), cfg.limitFor address = some L → 0 < L →
        run (service cfg).step moves (.start .empty) = some c →
          ∀ t, ((cfg.sessionsWithin c.store address t).map (·.depositAmount.wei)).sum ≤ L := by
  intro hclaim
  have hreached : ((run (service sampleConfig).step closedAfterCancel (.start .empty)).any
      fun c => ((sampleConfig.sessionsWithin c.store "0xa1".toList 0).map
        (·.depositAmount.wei)).sum = 12 * scale) = true := by
    decide +kernel
  rcases (Option.any_eq_true _ _).1 hreached with ⟨c, hc, hsum⟩
  have hle := hclaim sampleConfig "0xa1".toList (10 * scale) closedAfterCancel c (by decide)
    (by decide) hc 0
  rw [of_decide_eq_true hsum] at hle
  exact absurd hle (by decide)

end Escrow
end PaymentRail
