import PaymentRail.Contracts.EscrowTransactions
import PaymentRail.Escrow.EscrowSession

/-!
# Wallet — the calls of the rail as transactions on the hub

`BlockchainService.getContract` binds the contract to the rail's own wallet, so the wallet is the
sender of every call to the hub, whoever the call is made for.  The arguments are encoded by
`ethers`: an address is read from its text, and a number that is no `uint256` is refused before
anything is sent.
-/

namespace PaymentRail
namespace Hub

open Escrow (SessionId ReleaseId HubCall)
open Strings (Text)
open Contracts (Address Bytes32 Msg Call World)

/-- The hub, the wallet of the rail, and what `ethers` makes of the values it is given. -/
structure Network where
  /-- `ESCROW_HUB_ADDRESS` -/
  hub : Address
  wallet : Address
  /-- The hub has no key, and signs nothing. -/
  wallet_ne_hub : wallet ≠ hub
  /-- The account a text names. -/
  address : Text → Option Address
  /-- `keccak256(toUtf8Bytes(id))`, for sessions and for releases. -/
  escrowIdHash : SessionId → Bytes32
  releaseIdHash : ReleaseId → Bytes32

def uint256 (n : Int) : Option Nat := if 0 ≤ n ∧ n < 2 ^ 256 then some n.toNat else none

/-- The message and the call that are signed and sent. -/
def Network.encode (net : Network) : HubCall → Option (Msg × Call)
  | .openEscrow escrowId agentB budgetWei verificationRequired ttl depositWei => do
      let payee ← net.address agentB
      let budget ← uint256 budgetWei
      let ttl ← uint256 ttl
      let value ← uint256 depositWei
      return ({ sender := net.wallet, value },
        .openEscrow (net.escrowIdHash escrowId) payee budget verificationRequired ttl)
  | .closeEscrow escrowId =>
      some ({ sender := net.wallet, value := 0 }, .closeEscrow (net.escrowIdHash escrowId))
  | .settleBatch escrowId releaseId amountWei => do
      let amount ← uint256 amountWei
      return ({ sender := net.wallet, value := 0 },
        .settleBatch (net.escrowIdHash escrowId) (net.releaseIdHash releaseId) amount)

theorem uint256_eq_some {n : Int} {m : Nat} (h : uint256 n = some m) : (m : Int) = n := by
  simp only [uint256] at h
  split at h
  · rename_i hrange
    cases h
    exact Int.toNat_of_nonneg hrange.1
  · cases h

section Encode

variable {net : Network} {msg : Msg} {c : Call}

theorem encode_openEscrow {escrowId : SessionId} {agentB : Text} {budgetWei depositWei : Int}
    {verificationRequired : Bool} {ttl : Nat}
    (h : net.encode (.openEscrow escrowId agentB budgetWei verificationRequired ttl depositWei) =
      some (msg, c)) :
    ∃ payee budget ttl', msg.sender = net.wallet ∧ (msg.value : Int) = depositWei ∧
      c = .openEscrow (net.escrowIdHash escrowId) payee budget verificationRequired ttl' := by
  simp only [Network.encode, bind, Option.bind_eq_some_iff, pure, Option.some.injEq,
    Prod.mk.injEq] at h
  obtain ⟨payee, _, budget, _, ttl', _, value, hvalue, rfl, rfl⟩ := h
  exact ⟨payee, budget, ttl', rfl, uint256_eq_some hvalue, rfl⟩

theorem encode_settleBatch {escrowId : SessionId} {releaseId : ReleaseId} {amountWei : Int}
    (h : net.encode (.settleBatch escrowId releaseId amountWei) = some (msg, c)) :
    ∃ amount : Nat, (amount : Int) = amountWei ∧
      c = .settleBatch (net.escrowIdHash escrowId) (net.releaseIdHash releaseId) amount := by
  simp only [Network.encode, bind, Option.bind_eq_some_iff, pure, Option.some.injEq,
    Prod.mk.injEq] at h
  obtain ⟨amount, hamount, rfl, rfl⟩ := h
  exact ⟨amount, uint256_eq_some hamount, rfl⟩

end Encode

/-! ## A network to try things on -/

/-- An address in lower case; one in mixed case also has to have the right checksum. -/
def parseAddress (text : Text) : Option Address :=
  if Strings.hexPattern 40 text = true ∧ Strings.toLowerCase text = text then
    some (Fin.ofNat _ (Strings.value 16 (text.drop 2)))
  else
    none

def sampleNetwork : Network where
  hub := 0x11b
  wallet := 0xa11
  wallet_ne_hub := by decide
  address := parseAddress
  escrowIdHash := Fin.ofNat _
  releaseIdHash := Fin.ofNat _

end Hub
end PaymentRail
