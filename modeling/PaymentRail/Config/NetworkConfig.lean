import PaymentRail.Strings.Json
import PaymentRail.Strings.Number

/-!
# NetworkConfig — what the service derives from its environment

This module embeds `config/network.config.ts`, the settings that `BlockchainService.onModuleInit` takes
from the network profile with `assertGasWithinCap`, and `shouldSynchronize` of
`config/database.config.ts`.

`name in NETWORK_PROFILES` is also true of what the object inherits.  Such an entry has none of the
fields of a profile, so the numbers of the environment are all that is left.

`toLowerCase` is the one for ASCII: of all other characters only the Kelvin sign has a lower case in
ASCII, and no text that is compared here has a `k`.
-/

namespace PaymentRail
namespace Config

open Strings

/-! ## The environment -/

inductive Variable where
  | networkProfile
  | nodeEnv
  | chainId
  | blockchainRpcUrl
  | blockchainPrivateKey
  | escrowHubAddress
  | txConfirmations
  | txConfirmationTimeoutMs
  | maxFeePerGasGwei
  | maxPriorityFeePerGasGwei
  | jwtSecret
  | csrfSecret
  | databasePassword
  | databaseSynchronize
  | mainnetAllowSchemaSync
  | corsOrigins
  | hstsEnabled
  | webhookAllowHttp
  deriving DecidableEq

def Variable.name : Variable → String
  | .networkProfile => "NETWORK_PROFILE"
  | .nodeEnv => "NODE_ENV"
  | .chainId => "CHAIN_ID"
  | .blockchainRpcUrl => "BLOCKCHAIN_RPC_URL"
  | .blockchainPrivateKey => "BLOCKCHAIN_PRIVATE_KEY"
  | .escrowHubAddress => "ESCROW_HUB_ADDRESS"
  | .txConfirmations => "TX_CONFIRMATIONS"
  | .txConfirmationTimeoutMs => "TX_CONFIRMATION_TIMEOUT_MS"
  | .maxFeePerGasGwei => "MAX_FEE_PER_GAS_GWEI"
  | .maxPriorityFeePerGasGwei => "MAX_PRIORITY_FEE_PER_GAS_GWEI"
  | .jwtSecret => "JWT_SECRET"
  | .csrfSecret => "CSRF_SECRET"
  | .databasePassword => "DATABASE_PASSWORD"
  | .databaseSynchronize => "DATABASE_SYNCHRONIZE"
  | .mainnetAllowSchemaSync => "MAINNET_ALLOW_SCHEMA_SYNC"
  | .corsOrigins => "CORS_ORIGINS"
  | .hstsEnabled => "HSTS_ENABLED"
  | .webhookAllowHttp => "WEBHOOK_ALLOW_HTTP"

/-- The variables that are set. -/
abbrev Env := Variable → Option Text

/-! ## Network profiles -/

inductive NetworkProfileName where
  | «local»
  | testnet
  | mainnet
  deriving DecidableEq

def NetworkProfileName.text : NetworkProfileName → Text
  | .«local» => "local".toList
  | .testnet => "testnet".toList
  | .mainnet => "mainnet".toList

structure NetworkProfile where
  name : NetworkProfileName
  chainName : String
  confirmations : Double
  confirmationTimeoutMs : Double
  maxFeePerGasGwei : Double
  maxPriorityFeePerGasGwei : Double

def networkProfiles : NetworkProfileName → NetworkProfile
  | .«local» => ⟨.«local», "local", .finite 1, .finite 0, .finite 0, .finite 0⟩
  | .testnet => ⟨.testnet, "prom-testnet", .finite 1, .finite 120000, .finite 5, .finite 1⟩
  | .mainnet => ⟨.mainnet, "prom-mainnet", .finite 12, .finite 600000, .finite 50, .finite 2⟩

def profileNames : List NetworkProfileName := [.«local», .testnet, .mainnet]

/-- The properties of `Object.prototype`. -/
def prototypeNames : List Text :=
  ["constructor".toList, "__defineGetter__".toList, "__defineSetter__".toList,
    "hasOwnProperty".toList, "__lookupGetter__".toList, "__lookupSetter__".toList,
    "isPrototypeOf".toList, "propertyIsEnumerable".toList, "toString".toList, "valueOf".toList,
    "__proto__".toList, "toLocaleString".toList]

/-- What `NETWORK_PROFILES[name]` is when `name in NETWORK_PROFILES`. -/
inductive Entry where
  | profile (profile : NetworkProfile)
  | inherited

def entryOf (name : Text) : Option Entry :=
  match profileNames.find? fun profile => profile.text = name with
  | some profile => some (.profile (networkProfiles profile))
  | none => if prototypeNames.contains name then some .inherited else none

/-- A field of an entry, `undefined` where it has no such field. -/
def Entry.get {α : Type} (field : NetworkProfile → α) : Entry → Option α
  | .profile base => some (field base)
  | .inherited => none

/-- A profile with the numbers of the environment put in. -/
structure ResolvedProfile where
  name : Option NetworkProfileName
  chainName : Option String
  confirmations : Double
  confirmationTimeoutMs : Double
  maxFeePerGasGwei : Option Double
  maxPriorityFeePerGasGwei : Option Double

def numberFromEnv (raw : Option Text) (fallback : Option Double) : Option Double :=
  match raw with
  | none => fallback
  | some raw =>
      if trim raw = [] then fallback
      else
        let parsed := stringToNumber raw
        if parsed.isFinite && parsed.ge 0 then some parsed else fallback

/-- `Math.floor(x)`, where `x` may be `undefined`. -/
def floorOf (x : Option Double) : Double := (x.getD .nan).floor

/-- `(env.NETWORK_PROFILE ?? 'local').trim().toLowerCase()` -/
def profileName (env : Env) : Text :=
  toLowerCase (trim ((env .networkProfile).getD "local".toList))

def unknownProfile (env : Env) : String :=
  "NETWORK_PROFILE \"" ++ String.ofList ((env .networkProfile).getD "undefined".toList) ++
    "\" is not one of: local, testnet, mainnet"

def resolveNetworkProfile (env : Env) : Except String ResolvedProfile :=
  match entryOf (profileName env) with
  -- an unknown profile must not quietly become `local` with one confirmation
  | none => .error (unknownProfile env)
  | some base => .ok
      { name := base.get NetworkProfile.name
        chainName := base.get NetworkProfile.chainName
        confirmations := floorOf
          (numberFromEnv (env .txConfirmations) (base.get NetworkProfile.confirmations))
        confirmationTimeoutMs := floorOf
          (numberFromEnv (env .txConfirmationTimeoutMs) (base.get NetworkProfile.confirmationTimeoutMs))
        maxFeePerGasGwei :=
          numberFromEnv (env .maxFeePerGasGwei) (base.get NetworkProfile.maxFeePerGasGwei)
        maxPriorityFeePerGasGwei :=
          numberFromEnv (env .maxPriorityFeePerGasGwei)
            (base.get NetworkProfile.maxPriorityFeePerGasGwei) }

/-! ## BlockchainService -/

structure BlockchainService where
  requiredConfirmations : Double
  confirmationTimeoutMs : Double
  maxFeePerGasWei : Int

/-- The limits that `onModuleInit` takes from the profile. -/
def onModuleInit (network : ResolvedProfile) : Except String BlockchainService := do
  let maxFeeGwei := network.maxFeePerGasGwei.getD (.finite 0)
  let maxFeePerGasWei ← bigInt (.number maxFeeGwei.timesBillion.round)
  return {
    requiredConfirmations := network.confirmations.maxOne
    confirmationTimeoutMs := network.confirmationTimeoutMs
    maxFeePerGasWei }

/-- The service as it is set up in an environment. -/
def startService (env : Env) : Except String BlockchainService := do
  onModuleInit (← resolveNetworkProfile env)

/-- `provider.getFeeData()` -/
structure FeeData where
  maxFeePerGas : Option Int
  gasPrice : Option Int

structure GasError where
  message : Text
  code : String

def gwei : Int := 10 ^ 9

def assertGasWithinCap (service : BlockchainService) (fees : FeeData) : Except GasError Unit :=
  if service.maxFeePerGasWei = 0 then .ok ()
  else
    match fees.maxFeePerGas <|> fees.gasPrice with
    | none => .ok ()
    | some current =>
        if service.maxFeePerGasWei < current then
          .error
            { message := "Network fee ".toList ++ Json.intText (current.tdiv gwei) ++
                " gwei is above the cap of ".toList ++
                Json.intText (service.maxFeePerGasWei.tdiv gwei) ++ " gwei".toList
              code := "GAS_PRICE_ABOVE_CAP" }
        else .ok ()

/-! ## The database -/

def shouldSynchronize (env : Env) : Bool :=
  let byProfile := toLowerCase ((env .networkProfile).getD "local".toList) ≠ "mainnet".toList
  match env .databaseSynchronize with
  | some explicit => if trim explicit ≠ [] then trim explicit = "true".toList else byProfile
  | none => byProfile

end Config
end PaymentRail
