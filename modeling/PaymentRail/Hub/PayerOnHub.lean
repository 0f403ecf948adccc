import PaymentRail.Escrow.Transitions
import PaymentRail.Hub.Wallet

/-!
# PayerOnHub — who is refunded on the hub

The hub takes the sender of `openEscrow` for the payer of an escrow, and every refund of it goes
there.  The sender is the wallet of the rail, so the payer of a session is refunded exactly if he
*is* the rail.

* On the side of the rail: an `openEscrow` is sent for a session that is stored, with its terms,
  and the terms never change (`opened_for_session`).
* On the side of the hub: what a transaction has opened stays as it was opened, in every later
  state, and refunds go to the account recorded then (`opened_by_sender`).
-/

namespace PaymentRail
namespace Hub

open Machine Strings Money Collections Escrow
open Contracts (Address Bytes32 Msg Call World Entry replay refunds)

/-! ## Sessions -/

/-- The call that opens a session on the hub. -/
def openCall (session : EscrowSession) : HubCall :=
  .openEscrow session.id session.agentB session.budgetLimit.wei session.verificationRequired
    session.ttl session.depositAmount.wei

/-- The session a call opens. -/
def opens? : HubCall → Option SessionId
  | .openEscrow escrowId _ _ _ _ _ => some escrowId
  | _ => none

/-- A session with this payer and this call is stored. -/
def Has (store : Store) (sid : SessionId) (agentA : Text) (call : HubCall) : Prop :=
  ∃ session, store.find sid = some session ∧ session.agentA = agentA ∧ openCall session = call

/-- Payer and call of the stored sessions stay. -/
def KeepsTerms (store store' : Store) : Prop :=
  ∀ sid agentA call, Has store sid agentA call → Has store' sid agentA call

/-- An entity that was loaded earlier has the terms of the row. -/
def Loaded (store : Store) (session : EscrowSession) : Prop :=
  Has store session.id session.agentA (openCall session)

/-- Every `openEscrow` was sent for a stored session. -/
def OpensStored (store : Store) : Prop :=
  ∀ tx ∈ store.transactions, ∀ sid, opens? tx.call = some sid → ∃ agentA, Has store sid agentA tx.call

def HoldsTerms (store : Store) : Process → Prop
  | .saveSession _ loaded _ => Loaded store loaded
  | .sendCall session call =>
      ∀ sid, opens? call = some sid → sid = session.id ∧ call = openCall session ∧ Loaded store session
  | _ => True

section Terms

variable {cfg : Config} {id : CallId} {store store' : Store} {p : Process} {reply : Reply}
  {flow : Flow Process Answer}

/-- Payer and call of a session stay. -/
theorem keepsTerms_of_evolves
    (h : Table.Evolves EscrowSession.id (fun session session' => session'.agentA = session.agentA ∧
      openCall session' = openCall session) store.sessions store'.sessions) :
    KeepsTerms store store' := by
  rintro sid agentA call ⟨session, hfind, rfl, rfl⟩
  rcases h sid session hfind with ⟨session', hfind', hagentA, hcall⟩
  exact ⟨session', hfind', hagentA, hcall⟩

theorem Resumes.keepsTerms (h : Resumes cfg id store p reply store' flow) (hp : HoldsTerms store p) :
    KeepsTerms store store' := by
  refine keepsTerms_of_evolves (h.evolves (fun _ => ⟨rfl, rfl⟩) ?_ fun _ _ _ => ⟨rfl, rfl⟩)
  rintro op loaded closedAt rfl session hfind
  rcases hp with ⟨stored, hstored, hagentA, hcall⟩
  have hEq : session = stored := Option.some.inj (hfind.symm.trans hstored)
  rw [hEq]
  exact ⟨hagentA.symm, hcall.symm⟩

theorem Happens.keepsTerms {e : Escrow.Event} (h : Happens store e store') :
    KeepsTerms store store' := by
  refine keepsTerms_of_evolves (h.evolves (fun _ => ⟨rfl, rfl⟩) ?_ ?_)
  · intro now session
    rcases Store.expire_cases now session with hsame | ⟨_, hexpired⟩
    · rw [hsame]
      exact ⟨rfl, rfl⟩
    · rw [hexpired]
      exact ⟨rfl, rfl⟩
  · intro sid refundedAt session
    rcases Store.refundedRow_cases sid refundedAt session with ⟨_, hsame⟩ | ⟨_, hmarked⟩
    · rw [hsame]
      exact ⟨rfl, rfl⟩
    · rw [hmarked]
      exact ⟨rfl, rfl⟩

theorem HoldsTerms.keeps (hp : HoldsTerms store p) (h : KeepsTerms store store') :
    HoldsTerms store' p := by
  cases p with
  | saveSession op loaded closedAt => exact h _ _ _ hp
  | sendCall session call =>
      intro sid hopens
      rcases hp sid hopens with ⟨hsid, hcall, hloaded⟩
      exact ⟨hsid, hcall, h _ _ _ hloaded⟩
  | _ => trivial

/-- What was sent before was sent for a session that is still there. -/
theorem OpensStored.keeps (hstore : OpensStored store) (h : KeepsTerms store store')
    (htransactions : store'.transactions = store.transactions) : OpensStored store' := by
  intro tx htx sid hopens
  rw [htransactions] at htx
  rcases hstore tx htx sid hopens with ⟨agentA, hhas⟩
  exact ⟨agentA, h sid agentA tx.call hhas⟩

theorem OpensStored.broadcast {tx : Transaction} (hstore : OpensStored store)
    (htx : ∀ sid, opens? tx.call = some sid → ∃ agentA, Has store sid agentA tx.call) :
    OpensStored (store.broadcast tx) := by
  intro tx' htx' sid hopens
  rcases Table.mem_put htx' with rfl | ⟨hmem, _⟩
  · exact htx sid hopens
  · exact hstore tx' hmem sid hopens

theorem afterOpen_holds {session : EscrowSession} (h : Loaded store session) :
    (afterOpen cfg session).Awaits (HoldsTerms store) := by
  simp only [afterOpen]
  split
  · intro sid hopens
    exact ⟨(Option.some.inj hopens).symm, rfl, h⟩
  · trivial

theorem Resumes.holdsTerms (h : Resumes cfg id store p reply store' flow) (hp : HoldsTerms store p)
    (hstore : OpensStored store) : OpensStored store' ∧ flow.Awaits (HoldsTerms store') := by
  have hkeeps := Resumes.keepsTerms h hp
  cases h with
  | waits h =>
      refine ⟨hstore, ?_⟩
      cases h with
      | @loaded op sid session hfind hcancel =>
          exact ⟨session, by rw [Store.id_of_find hfind]; exact hfind, rfl, rfl⟩
      | _ => trivial
  | inserts hnew =>
      exact ⟨hstore.keeps hkeeps rfl, afterOpen_holds ⟨_, Store.find_save_self, rfl, rfl⟩⟩
  | @commits session now limit hnew =>
      exact ⟨hstore.keeps hkeeps rfl, afterOpen_holds ⟨session, Store.find_save_self, rfl, rfl⟩⟩
  | @sendsCall session call hash hnew =>
      refine ⟨hstore.broadcast ?_, trivial⟩
      -- a transaction that opens carries the session that was loaded for it
      intro sid hopens
      rcases hp sid hopens with ⟨rfl, hcall, hloaded⟩
      exact ⟨session.agentA, by rw [hcall]; exact hloaded⟩
  | @saves op loaded closedAt =>
      refine ⟨hstore.keeps hkeeps rfl, ?_⟩
      cases op with
      | close =>
          simp only [afterSave]
          split
          · intro sid hopens
            cases hopens
          · trivial
      | _ => trivial
  | insertsRelease hnew =>
      exact ⟨hstore.keeps hkeeps rfl, afterInsert_of (A := HoldsTerms _) trivial trivial cfg⟩
  | paysOut hnew =>
      refine ⟨hstore.broadcast ?_, trivial⟩
      intro sid hopens
      cases hopens
  | _ => exact ⟨hstore.keeps hkeeps rfl, trivial⟩

theorem Happens.opensStored {e : Escrow.Event} (h : Happens store e store')
    (hstore : OpensStored store) : OpensStored store' := by
  have hkeeps := Happens.keepsTerms h
  cases h with
  | @evolve tx fate hlookup hbecome =>
      exact hstore.broadcast fun sid hopens => hstore tx (Table.mem_of_lookup hlookup) sid hopens
  | _ => exact hstore.keeps hkeeps rfl

end Terms

theorem terms_outline (cfg : Config) :
    Outline (service cfg) OpensStored (fun store _ p => HoldsTerms store p) (fun _ _ => True) := by
  rw [← Service.restrict_true (service cfg)]
  refine outline_of (fun _ _ _ => trivial) ?_ ?_ ?_
  · intro id r s p hI hp
    refine ⟨?_, fun _ _ _ => trivial⟩
    cases hp with
    | _ => trivial
  · intro id p i s s' flow _ hI hA h
    have hnext := Resumes.holdsTerms h hA hI
    refine ⟨hnext.1, hnext.2, ?_⟩
    exact fun k q _ hq _ => ⟨hq.keeps (Resumes.keepsTerms h hA), flow.awaits_of_forall fun _ => trivial⟩
  · intro e s s' hI h
    exact ⟨Happens.opensStored h hI, fun k q hq => hq.keeps (Happens.keepsTerms h)⟩

/-- An `openEscrow` of the rail is the one of a stored session. -/
theorem opened_for_session {cfg : Config} {moves : List (Move Request Reply Escrow.Event)}
    {c : Calls Store Process Answer} {tx : Transaction} {sid : SessionId}
    (h : run (service cfg).step moves (.start .empty) = some c) (htx : tx ∈ c.store.transactions)
    (hopens : opens? tx.call = some sid) :
    ∃ session, c.store.find sid = some session ∧ tx.call = openCall session := by
  have hempty : OpensStored .empty := by
    intro tx htx
    cases htx
  rcases ((terms_outline cfg).run (.start hempty) h).store tx htx sid hopens with
    ⟨_, session, hfind, _, hcall⟩
  exact ⟨session, hfind, hcall.symm⟩

/-! ## The hub -/

/-- What a transaction has opened: the sender is recorded as payer for good, and is refunded. -/
theorem opened_by_sender {self owner : Address} {funded parent delay : Nat}
    {s opened s' : Contracts.State} {msg : Msg} {key : Bytes32} {agentB : Address}
    {budgetLimit ttl : Nat} {verificationRequired : Bool} {w : World}
    (hs : Contracts.Reachable self owner funded parent delay s) (htop : s.journal.stack = [])
    (hexec : Contracts.exec s.now msg (.openEscrow key agentB budgetLimit verificationRequired ttl)
      s.world = .ok (.done w))
    (hstep : Contracts.step self
      (.call msg (.openEscrow key agentB budgetLimit verificationRequired ttl)) s = some opened)
    (hlater : Reaches (Contracts.step self) opened s') :
    (s'.world.escrows key).agentA = msg.sender ∧
      ∀ r ∈ refunds key s'.world.ledger, r.1 = msg.sender := by
  have hworld : opened.world = w ∧ opened.journal.stack = [] := by
    simp only [Contracts.step, hexec] at hstep
    split at hstep
    · cases hstep
    · cases hstep
      exact ⟨rfl, htop⟩
  have hok := Contracts.step_ok _ _ _ hs.ok hstep
  have hfaithful : Contracts.Faithful opened.world := hok.worlds.1
  have hfaithful' : Contracts.Faithful s'.world := (hlater.invariant Contracts.step_ok hok).worlds.1
  rcases Contracts.exec_books hexec with ⟨entry, hbooks, hledger⟩
  have hsession : (opened.world.escrows key).agentA = msg.sender ∧
      (opened.world.escrows key).createdAt ≠ 0 := by
    -- the storage is the replay of the ledger, of which the opening is the last entry
    have hreplay : opened.world.escrows key = replay (entry :: s.world.ledger) key := by
      rw [hfaithful.sessions]
      exact congrArg (fun es => replay es key) ((congrArg World.ledger hworld.1).trans hledger)
    rw [hreplay, hbooks.2]
    refine ⟨by simp [replay, Entry.apply], ?_⟩
    have hnow := hs.ok.now
    simp only [replay, Entry.apply, Function.update_self]
    omega
  -- from here on the terms of the escrow are kept, and every refund goes to its payer
  have hconserved := hfaithful.conserved hfaithful'
    (Contracts.history_survives hok hworld.2 hlater) key
  have hagentA : (s'.world.escrows key).agentA = msg.sender :=
    (hconserved.terms hsession.2).agentA.trans hsession.1
  refine ⟨hagentA, ?_⟩
  intro r hr
  rw [hconserved.refundRest r hr]
  exact hagentA

/-- The rail opens sessions and its transaction is executed on the hub.  In every later state the
payer of the session is the account recorded on the hub, and the one every refund has gone to, if and
only if the payer is the wallet of the rail. -/
theorem refunds_go_to_agentA_iff {cfg : Config} {net : Network}
    {moves : List (Move Request Reply Escrow.Event)} {c : Calls Store Process Answer}
    {tx : Transaction} {sid : SessionId} {msg : Msg} {call : Call} {owner : Address}
    {funded parent delay : Nat} {s opened s' : Contracts.State} {w : World}
    (hrail : run (service cfg).step moves (.start .empty) = some c)
    (htx : tx ∈ c.store.transactions) (hopens : opens? tx.call = some sid)
    (hencode : net.encode tx.call = some (msg, call))
    (hs : Contracts.Reachable net.hub owner funded parent delay s) (htop : s.journal.stack = [])
    (hexec : Contracts.exec s.now msg call s.world = .ok (.done w))
    (hstep : Contracts.step net.hub (.call msg call) s = some opened)
    (hlater : Reaches (Contracts.step net.hub) opened s') :
    ∃ session, c.store.find sid = some session ∧
      ((net.address session.agentA = some (s'.world.escrows (net.escrowIdHash sid)).agentA ∧
          ∀ r ∈ refunds (net.escrowIdHash sid) s'.world.ledger,
            net.address session.agentA = some r.1) ↔
        net.address session.agentA = some net.wallet) := by
  rcases opened_for_session hrail htx hopens with ⟨session, hfind, hcall⟩
  have hid : session.id = sid := Store.id_of_find hfind
  rw [hcall] at hencode
  rcases encode_openEscrow hencode with ⟨payee, budget, ttl, hsender, _, rfl⟩
  rw [hid] at hexec hstep
  have hpayer := opened_by_sender hs htop hexec hstep hlater
  rw [hsender] at hpayer
  refine ⟨session, hfind, ?_⟩
  rw [hpayer.1]
  constructor
  · exact fun h => h.1
  · intro haddress
    refine ⟨haddress, ?_⟩
    intro r hr
    rw [hpayer.2 r hr]
    exact haddress

def sampleConfig : Config where
  hubConfigured := true
  overrides := []
  defaultLimit := none
  windowHours := "24"
  window := 86400000000
  hashtext := List.length

theorem scale_le_two_scale : (scale : Int) ≤ 2 * scale := by decide

theorem scale_le_scale : (scale : Int) ≤ scale := le_refl _

/-- A session of 2 with a budget of 1, for an hour. -/
def dtoOf (agentA : String) : OpenEscrowDto where
  agentA := agentA.toList
  agentB := "0x00000000000000000000000000000000000000b2".toList
  depositAmount := ⟨2 * scale⟩
  budgetLimit := ⟨scale⟩
  verificationRequired := false
  ttl := 3600
  depositAmount_min := scale_le_two_scale
  budgetLimit_min := scale_le_scale

/-- Session 1 is opened, up to the transaction 100. -/
def openSent (agentA : String) : List (Move Request Reply Escrow.Event) :=
  [.call 0 (.open (dtoOf agentA)), .resume 0 .done, .resume 0 (.inserted 1), .resume 0 (.sent 100)]

/-- The message and the call of the transaction. -/
def sampleOpen : Msg × Call :=
  ({ sender := sampleNetwork.wallet, value := 2 * scale }, .openEscrow 1 0xb2 scale false 3600)

/-- The owner closes the escrow and the refund is accepted. -/
def closedByOwner : List Contracts.Action :=
  [.call { sender := sampleNetwork.wallet, value := 0 } (.emergencyClose 1), .ret]

def hubDeployed : Contracts.State := Contracts.initial sampleNetwork.wallet 0 0 0

theorem closedByOwner_refunds :
    ∃ opened s', Contracts.step sampleNetwork.hub (.call sampleOpen.1 sampleOpen.2) hubDeployed =
        some opened ∧ run (Contracts.step sampleNetwork.hub) closedByOwner opened = some s' ∧
      refunds 1 s'.world.ledger = [(sampleNetwork.wallet, 2 * scale)] := by
  have hhub : ((Contracts.step sampleNetwork.hub (.call sampleOpen.1 sampleOpen.2) hubDeployed).any
      fun opened => (run (Contracts.step sampleNetwork.hub) closedByOwner opened).any fun s' =>
        refunds 1 s'.world.ledger = [(sampleNetwork.wallet, 2 * scale)]) = true := by
    decide +kernel
  rcases (Option.any_eq_true _ _).1 hhub with ⟨opened, hopened, hafter⟩
  rcases (Option.any_eq_true _ _).1 hafter with ⟨s', hs', hrefunds⟩
  exact ⟨opened, s', hopened, hs', of_decide_eq_true hrefunds⟩

theorem refunds_go_to_agentA_of_wallet :
    ∃ c session opened s', run (service sampleConfig).step
        (openSent "0x0000000000000000000000000000000000000a11") (.start .empty) = some c ∧
      Contracts.step sampleNetwork.hub (.call sampleOpen.1 sampleOpen.2) hubDeployed = some opened ∧
      run (Contracts.step sampleNetwork.hub) closedByOwner opened = some s' ∧
      c.store.find 1 = some session ∧
      refunds 1 s'.world.ledger = [(sampleNetwork.wallet, 2 * scale)] ∧
      sampleNetwork.address session.agentA = some (s'.world.escrows 1).agentA := by
  have hrail : ((run (service sampleConfig).step
      (openSent "0x0000000000000000000000000000000000000a11") (.start .empty)).any fun c =>
        (c.store.transactions.any fun tx => opens? tx.call = some 1 &&
          sampleNetwork.encode tx.call = some sampleOpen) &&
        (c.store.find 1).any fun session =>
          sampleNetwork.address session.agentA = some sampleNetwork.wallet) = true := by
    decide +kernel
  rcases (Option.any_eq_true _ _).1 hrail with ⟨c, hc, hstate⟩
  rcases Bool.and_eq_true_iff.1 hstate with ⟨hany, hsession⟩
  rcases List.any_eq_true.1 hany with ⟨tx, htx, hok⟩
  rcases Bool.and_eq_true_iff.1 hok with ⟨hopens, hencode⟩
  rcases (Option.any_eq_true _ _).1 hsession with ⟨session, hfind, haddress⟩
  rcases closedByOwner_refunds with ⟨opened, s', hopened, hs', hrefunds⟩
  rcases refunds_go_to_agentA_iff hc htx (of_decide_eq_true hopens) (of_decide_eq_true hencode)
    ⟨[], rfl⟩ rfl rfl hopened ⟨closedByOwner, hs'⟩ with ⟨session', hfind', hiff⟩
  have hEq : session = session' := Option.some.inj (hfind.symm.trans hfind')
  rw [← hEq] at hiff
  exact ⟨c, session, opened, s', hc, hopened, hs', hfind, hrefunds,
    (hiff.2 (of_decide_eq_true haddress)).1⟩

/-- The session of another payer: its refund goes to the rail. -/
theorem refunds_go_to_wallet :
    ¬ ∀ (cfg : Config) (net : Network) (moves : List (Move Request Reply Escrow.Event))
      (c : Calls Store Process Answer) (tx : Transaction) (sid : SessionId) (msg : Msg) (call : Call)
      (owner : Address) (funded parent delay : Nat) (s opened s' : Contracts.State) (w : World)
      (session : EscrowSession),
      run (service cfg).step moves (.start .empty) = some c → tx ∈ c.store.transactions →
        opens? tx.call = some sid → net.encode tx.call = some (msg, call) →
        Contracts.Reachable net.hub owner funded parent delay s → s.journal.stack = [] →
        Contracts.exec s.now msg call s.world = .ok (.done w) →
        Contracts.step net.hub (.call msg call) s = some opened →
        Reaches (Contracts.step net.hub) opened s' → c.store.find sid = some session →
          net.address session.agentA = some (s'.world.escrows (net.escrowIdHash sid)).agentA ∧
            ∀ r ∈ refunds (net.escrowIdHash sid) s'.world.ledger,
              net.address session.agentA = some r.1 := by
  intro hclaim
  have hrail : ((run (service sampleConfig).step
      (openSent "0x00000000000000000000000000000000000000a1") (.start .empty)).any fun c =>
        (c.store.transactions.any fun tx => opens? tx.call = some 1 &&
          sampleNetwork.encode tx.call = some sampleOpen) &&
        (c.store.find 1).any fun session => sampleNetwork.address session.agentA = some 0xa1) =
          true := by
    decide +kernel
  rcases (Option.any_eq_true _ _).1 hrail with ⟨c, hc, hstate⟩
  rcases Bool.and_eq_true_iff.1 hstate with ⟨hany, hsession⟩
  rcases List.any_eq_true.1 hany with ⟨tx, htx, hok⟩
  rcases Bool.and_eq_true_iff.1 hok with ⟨hopens, hencode⟩
  rcases (Option.any_eq_true _ _).1 hsession with ⟨session, hfind, haddress⟩
  rcases closedByOwner_refunds with ⟨opened, s', hopened, hs', hrefunds⟩
  have hrefund := (hclaim sampleConfig sampleNetwork _ c tx 1 sampleOpen.1 sampleOpen.2
    sampleNetwork.wallet 0 0 0 hubDeployed opened s' _ session hc htx (of_decide_eq_true hopens)
    (of_decide_eq_true hencode) ⟨[], rfl⟩ rfl rfl hopened ⟨closedByOwner, hs'⟩ hfind).2
    (sampleNetwork.wallet, 2 * scale)
  have hmem : (sampleNetwork.wallet, 2 * scale) ∈ refunds (sampleNetwork.escrowIdHash 1)
      s'.world.ledger := by
    have hkey : sampleNetwork.escrowIdHash 1 = 1 := rfl
    rw [hkey, hrefunds]
    exact List.mem_cons_self
  have hpaid := hrefund hmem
  rw [of_decide_eq_true haddress] at hpaid
  exact absurd hpaid (by decide)

end Hub
end PaymentRail
