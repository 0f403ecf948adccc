import Mathlib.Tactic.Linarith
import Mathlib.Tactic.NormNum
import PaymentRail.Config.NetworkConfig
import PaymentRail.Strings.CodeUnits

/-!
# ConfigValidation — startup validation of the environment

This module embeds `config/config-validation.ts`.  The host name of an URL and the private keys of the
development mnemonic come from outside: `hostOf` and `knownDevKeys`.

Numbers are the exact values of their texts, and so is the fee cap in wei.  In the source both are
rounded to a `number`: a cap may be off by a wei, and one of 10^300 gwei overflows, which stops the
start with an error.

- `RunsSafely` : what an accepted environment is meant to guarantee of the settings derived from it
- `runs_safely_iff` : when it does
-/

namespace PaymentRail
namespace Config

open Strings

/-! ## Validation -/

structure ConfigViolation where
  name : Variable
  message : Text

def minMainnetConfirmations : Rat := 6

def minSecretLength : Nat := 32

def defaultSecrets : List Text :=
  ["dev-secret-change-me".toList, "change-me-in-production".toList,
    "dev-csrf-secret-change-me".toList, "ci-secret-not-used-outside-ci".toList,
    "ci-csrf-not-used-outside-ci".toList]

def defaultDatabasePasswords : List Text :=
  ["postgres".toList, "password".toList, "admin".toList, "root".toList]

/-- anvil/hardhat, ganache, prom-testnet -/
def nonMainnetChainIds : List Int := [31337, 1337, 71234]

def text (env : Env) (name : Variable) : Text :=
  match env name with
  | none => []
  | some value => trim value

/-- `127\.\d+\.\d+\.\d+` -/
def isLoopback (host : Text) : Bool :=
  match host.splitOn '.' with
  | [a, b, c, d] =>
      a = "127".toList && [b, c, d].all fun part => part ≠ [] && part.all isDecDigit
  | _ => false

/-- `LOCAL_HOST.test(host)` -/
def localHost (host : Text) : Bool :=
  let host := toLowerCase host
  ["localhost".toList, "0.0.0.0".toList, "::1".toList, "[::1".toList, "::1]".toList,
    "[::1]".toList, "anvil".toList, "host.docker.internal".toList].contains host || isLoopback host

section Violations

variable (hostOf : Text → Option Text) (knownDevKeys : List Text) (env : Env)

/-- `refuse(variable, message)` under a condition. -/
def refuseIf (condition : Bool) (name : Variable) (message : Text) : List ConfigViolation :=
  if condition = true then [⟨name, message⟩] else []

def chainViolations : List ConfigViolation :=
  let chainId := stringToNumber (text env .chainId)
  if text env .chainId = [] || !chainId.isInteger || !chainId.gt 0 then
    [⟨.chainId, "must be set to the mainnet chain id".toList⟩]
  else
    match nonMainnetChainIds.find? fun id : Int => chainId = .finite (id : Rat) with
    | some id => [⟨.chainId, Json.intText id ++ " is a development or testnet chain id".toList⟩]
    | none => []

def rpcUrlViolations : List ConfigViolation :=
  let rpcUrl := text env .blockchainRpcUrl
  match hostOf rpcUrl with
  | none => [⟨.blockchainRpcUrl, "must be set to the mainnet RPC endpoint".toList⟩]
  | some rpcHost =>
      if rpcUrl = [] then [⟨.blockchainRpcUrl, "must be set to the mainnet RPC endpoint".toList⟩]
      else if !("https://".toList.isPrefixOf (toLowerCase rpcUrl) ||
          "wss://".toList.isPrefixOf (toLowerCase rpcUrl)) then
        [⟨.blockchainRpcUrl,
          "must use https or wss: transactions and balances are read over this link".toList⟩]
      else
        refuseIf (localHost rpcHost) .blockchainRpcUrl
          ('"' :: rpcHost ++ "\" is a local node, not mainnet".toList)

def privateKeyViolations : List ConfigViolation :=
  let privateKey := toLowerCase (text env .blockchainPrivateKey)
  if !hexPattern 64 privateKey then
    [⟨.blockchainPrivateKey,
      "must be set to a 32-byte hex key (without it the anvil development key is used)".toList⟩]
  else
    refuseIf (knownDevKeys.contains privateKey) .blockchainPrivateKey
      "is a published anvil/hardhat development key".toList

def hubViolations : List ConfigViolation :=
  let hub := text env .escrowHubAddress
  if !hexPattern 40 hub then
    [⟨.escrowHubAddress, "must be set to the deployed EscrowHub address".toList⟩]
  else
    refuseIf (hub = '0' :: 'x' :: List.replicate 40 '0') .escrowHubAddress
      "is the zero address".toList

def confirmationsViolations : List ConfigViolation :=
  let confirmations := text env .txConfirmations
  refuseIf (confirmations ≠ [] && !(stringToNumber confirmations).ge minMainnetConfirmations)
    .txConfirmations "must be at least 6 on mainnet (profile default: 12)".toList

def feeCapViolations : List ConfigViolation :=
  let feeCap := text env .maxFeePerGasGwei
  refuseIf (feeCap ≠ [] && !(stringToNumber feeCap).gt 0)
    .maxFeePerGasGwei "must be above 0: the fee cap cannot be switched off on mainnet".toList

def secretViolations (name : Variable) : List ConfigViolation :=
  let secret := text env name
  if secret = [] then [⟨name, "must be set (the built-in default is public)".toList⟩]
  else if defaultSecrets.contains secret then
    [⟨name, "is a default value from the repository".toList⟩]
  else
    refuseIf (codeUnits secret < minSecretLength) name "must be at least 32 characters".toList

def databaseViolations : List ConfigViolation :=
  let dbPassword := text env .databasePassword
  refuseIf (dbPassword = [] || defaultDatabasePasswords.contains (toLowerCase dbPassword))
    .databasePassword "must be set to a non-default password".toList

def schemaSyncViolations : List ConfigViolation :=
  refuseIf (text env .databaseSynchronize = "true".toList &&
      text env .mainnetAllowSchemaSync ≠ "true".toList)
    .databaseSynchronize
    ("schema sync rewrites tables on boot; on mainnet it also needs ".toList ++
      "MAINNET_ALLOW_SCHEMA_SYNC=true, for the one deploy that changes the schema".toList)

def originViolations (origin : Text) : List ConfigViolation :=
  match hostOf origin with
  | none => [⟨.corsOrigins, '"' :: origin ++ "\" is not an explicit origin".toList⟩]
  | some host =>
      if origin = ['*'] then
        [⟨.corsOrigins, '"' :: origin ++ "\" is not an explicit origin".toList⟩]
      else if !"https://".toList.isPrefixOf (toLowerCase origin) then
        [⟨.corsOrigins, '"' :: origin ++ "\" must use https".toList⟩]
      else refuseIf (localHost host) .corsOrigins ('"' :: origin ++ "\" is a local origin".toList)

def corsViolations : List ConfigViolation :=
  let origins := (((text env .corsOrigins).splitOn ',').map trim).filter (· ≠ [])
  refuseIf (origins.length = 0) .corsOrigins
      "must list the allowed origins (the default is http://localhost:3000)".toList ++
    origins.flatMap (originViolations hostOf)

/-- Everything that makes this environment unsafe for mainnet; empty when it is fine. -/
def findUnsafeMainnetSettings : List ConfigViolation :=
  refuseIf (text env .nodeEnv ≠ "production".toList) .nodeEnv
      "must be \"production\" on mainnet".toList ++
    -- the chain
    chainViolations env ++ rpcUrlViolations hostOf env ++ privateKeyViolations knownDevKeys env ++
    hubViolations env ++ confirmationsViolations env ++ feeCapViolations env ++
    -- secrets
    secretViolations env .jwtSecret ++ secretViolations env .csrfSecret ++
    refuseIf (text env .jwtSecret ≠ [] && text env .jwtSecret = text env .csrfSecret) .csrfSecret
      "must differ from JWT_SECRET".toList ++
    -- the database
    databaseViolations env ++ schemaSyncViolations env ++
    -- what is served
    corsViolations hostOf env ++
    refuseIf (text env .hstsEnabled = "false".toList) .hstsEnabled
      "must not be disabled on mainnet".toList ++
    refuseIf (text env .webhookAllowHttp = "true".toList) .webhookAllowHttp
      "payment events must not be delivered over plain http".toList

def violationLine (violation : ConfigViolation) : String :=
  "  - " ++ violation.name.name ++ ": " ++ String.ofList violation.message

def validateConfig : Except String Env := do
  let profile ← resolveNetworkProfile env
  if profile.name ≠ some .mainnet then return env
  let violations := findUnsafeMainnetSettings hostOf knownDevKeys env
  if 0 < violations.length then
    throw ("Refusing to start with NETWORK_PROFILE=mainnet: " ++
      String.ofList (Json.intText violations.length) ++ " unsafe setting(s)\n" ++
      "\n".intercalate (violations.map violationLine))
  return env

end Violations

/-! ## Profiles -/

theorem entryOf_text (name : NetworkProfileName) :
    entryOf name.text = some (.profile (networkProfiles name)) := by
  cases name <;> rfl

theorem text_not_inherited (name : NetworkProfileName) : name.text ∉ prototypeNames := by
  cases name <;> decide

/-- An entry is a profile or inherited. -/
theorem entryOf_some {name : Text} {entry : Entry} (h : entryOf name = some entry) :
    (∃ profile : NetworkProfileName, name = profile.text) ∨ name ∈ prototypeNames := by
  unfold entryOf at h
  split at h
  · rename_i profile hfound
    have htext := List.find?_some hfound
    exact Or.inl ⟨profile, (of_decide_eq_true htext).symm⟩
  · split at h
    · rename_i hinherited
      exact Or.inr (List.contains_iff_mem.1 hinherited)
    · cases h

/-- The profile of an environment for mainnet. -/
theorem resolve_mainnet {env : Env} (h : profileName env = NetworkProfileName.mainnet.text) :
    ∃ profile, resolveNetworkProfile env = .ok profile ∧ profile.name = some .mainnet ∧
      profile.confirmations = floorOf (numberFromEnv (env .txConfirmations) (some (.finite 12))) ∧
      profile.maxFeePerGasGwei = numberFromEnv (env .maxFeePerGasGwei) (some (.finite 50)) := by
  unfold resolveNetworkProfile
  rw [h, entryOf_text]
  exact ⟨_, rfl, rfl, rfl, rfl⟩

/-! ## What the validator checks -/

theorem refuseIf_eq_nil {condition : Bool} {name : Variable} {message : Text} :
    refuseIf condition name message = [] ↔ condition = false := by
  unfold refuseIf
  cases condition <;> simp

section Accepted

variable {hostOf : Text → Option Text} {knownDevKeys : List Text} {env accepted : Env}

theorem entry_of_accepted (h : validateConfig hostOf knownDevKeys env = .ok accepted) :
    ∃ entry, entryOf (profileName env) = some entry := by
  cases hentry : entryOf (profileName env) with
  | none => simp [validateConfig, resolveNetworkProfile, hentry, bind, Except.bind] at h
  | some entry => exact ⟨entry, rfl⟩

theorem no_violations (h : validateConfig hostOf knownDevKeys env = .ok accepted)
    (hmainnet : profileName env = NetworkProfileName.mainnet.text) :
    findUnsafeMainnetSettings hostOf knownDevKeys env = [] := by
  rcases resolve_mainnet hmainnet with ⟨profile, hresolve, hname, _⟩
  cases hlist : findUnsafeMainnetSettings hostOf knownDevKeys env with
  | nil => rfl
  | cons violation rest =>
      simp [validateConfig, hresolve, hname, hlist, bind, Except.bind, throw, throwThe,
        MonadExceptOf.throw] at h

/-- The three checks that the derived settings depend on. -/
theorem checked_of_accepted (h : validateConfig hostOf knownDevKeys env = .ok accepted)
    (hmainnet : profileName env = NetworkProfileName.mainnet.text) :
    (text env .txConfirmations ≠ [] → (stringToNumber (text env .txConfirmations)).ge 6 = true) ∧
      (text env .maxFeePerGasGwei ≠ [] →
        (stringToNumber (text env .maxFeePerGasGwei)).gt 0 = true) ∧
      (text env .databaseSynchronize = "true".toList →
        text env .mainnetAllowSchemaSync = "true".toList) := by
  have hnil := no_violations h hmainnet
  simp only [findUnsafeMainnetSettings, List.append_eq_nil_iff] at hnil
  simp only [and_assoc] at hnil
  -- no check has refused anything; these three are needed
  rcases hnil with ⟨_, _, _, _, _, hconfirmations, hcap, _, _, _, _, hsync, _⟩
  refine ⟨?_, ?_, ?_⟩
  · simpa [minMainnetConfirmations] using refuseIf_eq_nil.1 hconfirmations
  · simpa using refuseIf_eq_nil.1 hcap
  · simpa using refuseIf_eq_nil.1 hsync

end Accepted

/-! ## What the service derives -/

section Derived

variable {env : Env}

/-- The validator and the profile read the same number of a variable. -/
theorem numberFromEnv_eq (env : Env) (name : Variable) (fallback : Option Double) :
    numberFromEnv (env name) fallback =
      if text env name = [] then fallback
      else if (stringToNumber (text env name)).isFinite && (stringToNumber (text env name)).ge 0 then
        some (stringToNumber (text env name))
      else fallback := by
  unfold numberFromEnv text
  cases env name with
  | none => rfl
  | some raw => simp only [stringToNumber_trim]

theorem confirmations_of_checked
    (h : text env .txConfirmations ≠ [] →
      (stringToNumber (text env .txConfirmations)).ge 6 = true) :
    (floorOf (numberFromEnv (env .txConfirmations) (some (.finite 12)))).maxOne.ge 6 = true := by
  have hdefault : (floorOf (some (.finite 12))).maxOne.ge 6 = true := by decide +kernel
  rw [numberFromEnv_eq]
  split
  · exact hdefault
  · rename_i htext
    have hchecked := h htext
    split
    · rename_i hparsed
      -- rounding down stays above a whole bound
      cases hnumber : stringToNumber (text env .txConfirmations) with
      | finite q =>
          rw [hnumber] at hchecked
          have hsix : (6 : Rat) ≤ q := of_decide_eq_true hchecked
          have hfloor : (6 : Rat) ≤ (q.floor : Rat) := by
            exact_mod_cast Rat.le_floor_iff.2 (by exact_mod_cast hsix)
          exact decide_eq_true (le_max_of_le_left hfloor)
      | infinity negative => rw [hnumber] at hparsed; cases hparsed
      | nan => rw [hnumber] at hparsed; cases hparsed
    · exact hdefault

/-- The configured fee cap, when there is one, is not under half a wei. -/
def FeeCapKept (env : Env) : Prop :=
  ∀ q, stringToNumber (text env .maxFeePerGasGwei) = .finite q → 0 < q → 1 / (2 * 10 ^ 9) ≤ q

theorem feeCap_of_checked
    (h : text env .maxFeePerGasGwei ≠ [] →
      (stringToNumber (text env .maxFeePerGasGwei)).gt 0 = true) :
    ∃ q, numberFromEnv (env .maxFeePerGasGwei) (some (.finite 50)) = some (.finite q) ∧
      (1 / (2 * 10 ^ 9) ≤ q ↔ FeeCapKept env) := by
  have hdefault : (1 : Rat) / (2 * 10 ^ 9) ≤ 50 := by norm_num
  rw [numberFromEnv_eq]
  split
  · rename_i htext
    -- nothing is set, so the default holds
    refine ⟨50, rfl, iff_of_true hdefault ?_⟩
    intro q hq hpos
    rw [htext] at hq
    cases hq
    exact absurd hpos (lt_irrefl 0)
  · rename_i htext
    have hchecked := h htext
    cases hnumber : stringToNumber (text env .maxFeePerGasGwei) with
    | finite q =>
        rw [hnumber] at hchecked
        have hpos : 0 < q := of_decide_eq_true hchecked
        refine ⟨q, ?_, ?_⟩
        · simp [Double.isFinite, Double.ge, le_of_lt hpos]
        · constructor
          · intro hkept q' hq' _
            rw [hnumber] at hq'
            cases hq'
            exact hkept
          · exact fun hkept => hkept q hnumber hpos
    | infinity negative =>
        refine ⟨50, rfl, iff_of_true hdefault ?_⟩
        intro q hq
        rw [hnumber] at hq
        cases hq
    | nan =>
        rw [hnumber] at hchecked
        cases hchecked

theorem bigInt_round (q : Rat) :
    bigInt (.number ((Double.finite q).timesBillion.round)) =
      .ok (q * 10 ^ 9 + 1 / 2).floor := by
  simp [Double.timesBillion, Double.round, Double.onFinite, bigInt]

theorem wei_pos {q : Rat} : 0 < (q * 10 ^ 9 + 1 / 2).floor ↔ 1 / (2 * 10 ^ 9) ≤ q := by
  rw [← Int.add_one_le_iff, Rat.le_floor_iff]
  norm_num
  constructor
  · intro h
    linarith
  · intro h
    linarith

/-! White space around the name of the profile. -/

theorem toLowerCase_eq_mainnet_iff {raw : Text}
    (h : toLowerCase (trim raw) = NetworkProfileName.mainnet.text) :
    toLowerCase raw = NetworkProfileName.mainnet.text ↔ trim raw = raw := by
  constructor
  · intro hraw
    refine trim_eq_self ?_
    intro c hc
    by_contra hspace
    rw [Bool.not_eq_false] at hspace
    -- white space would be a letter of `mainnet`
    have hmem : c.toLower ∈ NetworkProfileName.mainnet.text := by
      rw [← hraw]
      exact List.mem_map_of_mem hc
    rw [toLower_of_isWhiteSpace hspace] at hmem
    have hplain : NetworkProfileName.mainnet.text.all (fun c => !isWhiteSpace c) = true := by decide
    have hc := List.all_eq_true.1 hplain c hmem
    rw [hspace] at hc
    exact Bool.noConfusion hc
  · intro htrim
    rwa [htrim] at h

/-- Schema sync follows the validator's rule, unless it is decided by a padded profile name. -/
theorem synchronize_iff (hmainnet : profileName env = NetworkProfileName.mainnet.text)
    (hchecked : text env .databaseSynchronize = "true".toList →
      text env .mainnetAllowSchemaSync = "true".toList) :
    (shouldSynchronize env = true → text env .databaseSynchronize = "true".toList ∧
        text env .mainnetAllowSchemaSync = "true".toList) ↔
      (text env .databaseSynchronize ≠ [] ∨ ∀ raw ∈ env .networkProfile, trim raw = raw) := by
  by_cases hset : text env .databaseSynchronize = []
  · -- the profile decides
    have hdecides : shouldSynchronize env = true ↔
        toLowerCase ((env .networkProfile).getD "local".toList) ≠ NetworkProfileName.mainnet.text := by
      unfold shouldSynchronize
      unfold text at hset
      cases hsync : env .databaseSynchronize with
      | none => exact decide_eq_true_iff
      | some explicit =>
          rw [hsync] at hset
          simp only [hset, ne_eq, not_true_eq_false, if_false]
          exact decide_eq_true_iff
    cases hprofile : env .networkProfile with
    | none =>
        rw [profileName, hprofile] at hmainnet
        exact absurd hmainnet (by decide)
    | some raw =>
        have hpadding : toLowerCase raw = NetworkProfileName.mainnet.text ↔ trim raw = raw :=
          toLowerCase_eq_mainnet_iff (by simpa [profileName, hprofile] using hmainnet)
        rw [hdecides, hset, hprofile]
        simpa using hpadding
  · -- it is asked for or not
    refine iff_of_true ?_ (Or.inl hset)
    intro hsync
    have htrue : text env .databaseSynchronize = "true".toList := by
      unfold shouldSynchronize at hsync
      unfold text at hset ⊢
      cases hvalue : env .databaseSynchronize with
      | none =>
          rw [hvalue] at hset
          exact absurd rfl hset
      | some explicit =>
          rw [hvalue] at hset hsync
          simpa [hset] using hsync
    exact ⟨htrue, hchecked htrue⟩

end Derived

/-! ## Validation means what runs -/

/-- The settings of a service that moves real funds. -/
structure SafeSettings (env : Env) (service : BlockchainService) : Prop where
  confirmed : service.requiredConfirmations.ge 6 = true
  capped : 0 < service.maxFeePerGasWei
  enforced : ∀ fees current, (fees.maxFeePerGas <|> fees.gasPrice) = some current →
    service.maxFeePerGasWei < current → ∃ error, assertGasWithinCap service fees = .error error
  synchronized : shouldSynchronize env = true → text env .databaseSynchronize = "true".toList ∧
    text env .mainnetAllowSchemaSync = "true".toList

/-- The profile is one of the three, and on mainnet the service starts with safe settings. -/
structure RunsSafely (env : Env) : Prop where
  known : ∃ profile : NetworkProfileName, profileName env = profile.text
  safe : profileName env = NetworkProfileName.mainnet.text →
    ∃ service, startService env = .ok service ∧ SafeSettings env service

/-- The validator and what it validates for read the environment alike. -/
structure ReadAlike (env : Env) : Prop where
  own : profileName env ∉ prototypeNames
  feeCap : profileName env = NetworkProfileName.mainnet.text → FeeCapKept env
  padding : profileName env = NetworkProfileName.mainnet.text →
    text env .databaseSynchronize ≠ [] ∨ ∀ raw ∈ env .networkProfile, trim raw = raw

theorem assertGasWithinCap_above {service : BlockchainService} {fees : FeeData} {current : Int}
    (hcap : service.maxFeePerGasWei ≠ 0) (hcurrent : (fees.maxFeePerGas <|> fees.gasPrice) = some current)
    (habove : service.maxFeePerGasWei < current) :
    ∃ error, assertGasWithinCap service fees = .error error := by
  unfold assertGasWithinCap
  rw [if_neg hcap, hcurrent]
  simp only [if_pos habove]
  exact ⟨_, rfl⟩

/-- An accepted environment guarantees what it should exactly when its profile is not an inherited
name and, on mainnet, the fee cap is not positive but under half a wei and the name of the profile is
not padded while it decides about schema sync. -/
theorem runs_safely_iff {hostOf : Text → Option Text} {knownDevKeys : List Text} {env accepted : Env}
    (h : validateConfig hostOf knownDevKeys env = .ok accepted) : RunsSafely env ↔ ReadAlike env := by
  rcases entry_of_accepted h with ⟨entry, hentry⟩
  have hname : (∃ profile : NetworkProfileName, profileName env = profile.text) ↔
      profileName env ∉ prototypeNames := by
    constructor
    · rintro ⟨profile, hprofile⟩
      rw [hprofile]
      exact text_not_inherited profile
    · exact fun hown => (entryOf_some hentry).resolve_right hown
  have hmain : ∀ hmainnet : profileName env = NetworkProfileName.mainnet.text,
      (∃ service, startService env = .ok service ∧ SafeSettings env service) ↔
        (FeeCapKept env ∧
          (text env .databaseSynchronize ≠ [] ∨ ∀ raw ∈ env .networkProfile, trim raw = raw)) := by
    intro hmainnet
    rcases checked_of_accepted h hmainnet with ⟨hconfirmations, hcap, hsync⟩
    rcases resolve_mainnet hmainnet with ⟨profile, hresolve, _, hnumber, hfee⟩
    rcases feeCap_of_checked hcap with ⟨q, hq, hkept⟩
    have hstart : startService env = .ok
        ⟨profile.confirmations.maxOne, profile.confirmationTimeoutMs,
          (q * 10 ^ 9 + 1 / 2).floor⟩ := by
      simp only [startService, hresolve, onModuleInit, hfee, hq, Option.getD_some, bigInt_round,
        bind, Except.bind, pure, Except.pure]
    -- the cap is above 0 wei, and the schema is synchronised by the rule of the validator
    rw [← hkept, ← synchronize_iff hmainnet hsync, ← wei_pos]
    constructor
    · rintro ⟨service, hservice, hsafe⟩
      cases hstart.symm.trans hservice
      exact ⟨hsafe.capped, hsafe.synchronized⟩
    · rintro ⟨hpositive, hsynchronized⟩
      refine ⟨_, hstart, ?_, hpositive, ?_, hsynchronized⟩
      · rw [hnumber]
        exact confirmations_of_checked hconfirmations
      · exact fun fees current hcurrent habove =>
          assertGasWithinCap_above (ne_of_gt hpositive) hcurrent habove
  constructor
  · intro hruns
    exact ⟨hname.1 hruns.known, fun hmainnet => ((hmain hmainnet).1 (hruns.safe hmainnet)).1,
      fun hmainnet => ((hmain hmainnet).1 (hruns.safe hmainnet)).2⟩
  · intro hread
    exact ⟨hname.2 hread.own, fun hmainnet =>
      (hmain hmainnet).2 ⟨hread.feeCap hmainnet, hread.padding hmainnet⟩⟩

/-! A mainnet environment with nothing wrong with it, and what goes unnoticed. -/

def sampleHostOf (url : Text) : Option Text :=
  match url.dropWhile (· ≠ ':') with
  | ':' :: '/' :: '/' :: rest => some (rest.takeWhile (· ≠ '/'))
  | _ => none

def sampleDevKeys : List Text :=
  ["0xac0974bec39a17e36ba4a6b4d238ff944bacb478cbed5efcae784d7bf4f2ff80".toList]

def safeMainnetEnv : Env
  | .nodeEnv => some "production".toList
  | .networkProfile => some "mainnet".toList
  | .chainId => some "8800".toList
  | .blockchainRpcUrl => some "https://rpc.mainnet.example/v1/key".toList
  | .blockchainPrivateKey => some ('0' :: 'x' :: (List.replicate 32 ['4', 'f']).flatten)
  | .escrowHubAddress => some ('0' :: 'x' :: (List.replicate 20 ['a', '1']).flatten)
  | .jwtSecret => some (List.replicate 48 'j')
  | .csrfSecret => some (List.replicate 48 'c')
  | .databasePassword => some "S3cure-and-long-database-password".toList
  | .corsOrigins => some "https://console.example,https://ops.example".toList
  | _ => none

/-- One variable set to something else. -/
def setVariable (env : Env) (name : Variable) (value : Text) : Env :=
  Function.update env name (some value)

theorem validateConfig_of_nil {hostOf : Text → Option Text} {knownDevKeys : List Text} {env : Env}
    (hmainnet : profileName env = NetworkProfileName.mainnet.text)
    (hnil : (findUnsafeMainnetSettings hostOf knownDevKeys env).isEmpty = true) :
    validateConfig hostOf knownDevKeys env = .ok env := by
  rcases resolve_mainnet hmainnet with ⟨profile, hresolve, hname, _⟩
  simp [validateConfig, hresolve, hname, List.isEmpty_iff.1 hnil, bind, Except.bind, pure, Except.pure]

theorem safeMainnetEnv_accepted :
    validateConfig sampleHostOf sampleDevKeys safeMainnetEnv = .ok safeMainnetEnv :=
  validateConfig_of_nil (by decide) (by decide +kernel)

theorem runs_safely_iff_safeMainnetEnv :
    validateConfig sampleHostOf sampleDevKeys safeMainnetEnv = .ok safeMainnetEnv ∧
      (RunsSafely safeMainnetEnv ↔ ReadAlike safeMainnetEnv) :=
  ⟨safeMainnetEnv_accepted, runs_safely_iff safeMainnetEnv_accepted⟩

/-- The profile is named after something every object has. -/
def inheritedEnv : Env := setVariable safeMainnetEnv .networkProfile "constructor".toList

/-- The fee cap is 0.4 wei. -/
def tinyCapEnv : Env := setVariable safeMainnetEnv .maxFeePerGasGwei "0.0000000004".toList

/-- The profile is written with a space behind it. -/
def paddedEnv : Env := setVariable safeMainnetEnv .networkProfile "mainnet ".toList

theorem unsafe_environments_accepted :
    (validateConfig sampleHostOf sampleDevKeys inheritedEnv = .ok inheritedEnv ∧
        ¬ RunsSafely inheritedEnv) ∧
      (validateConfig sampleHostOf sampleDevKeys tinyCapEnv = .ok tinyCapEnv ∧
        ¬ RunsSafely tinyCapEnv) ∧
      (validateConfig sampleHostOf sampleDevKeys paddedEnv = .ok paddedEnv ∧
        ¬ RunsSafely paddedEnv) := by
  refine ⟨⟨rfl, ?_⟩, ⟨validateConfig_of_nil (by decide) (by decide +kernel), ?_⟩,
    ⟨validateConfig_of_nil (by decide) (by decide +kernel), ?_⟩⟩
  · intro hruns
    rcases hruns.known with ⟨profile, hprofile⟩
    have hname : profileName inheritedEnv ∈ prototypeNames := by decide
    exact text_not_inherited profile (hprofile ▸ hname)
  · intro hruns
    rcases hruns.safe (by decide) with ⟨service, hservice, hsafe⟩
    have hcap : (startService tinyCapEnv).toOption.map BlockchainService.maxFeePerGasWei = some 0 := by
      decide +kernel
    rw [hservice] at hcap
    have hzero : service.maxFeePerGasWei = 0 := Option.some.inj hcap
    exact absurd hsafe.capped (by omega)
  · intro hruns
    rcases hruns.safe (by decide) with ⟨service, _, hsafe⟩
    exact absurd (hsafe.synchronized (by decide)).1 (by decide)

end Config
end PaymentRail
