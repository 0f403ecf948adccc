import PaymentRail.Machine.Run
import PaymentRail.Strings.Json

/-!
# RefreshTokenService — token pairs, rotation and revocation

This module embeds `common/auth/refresh-token.service.ts`.  `JwtService` comes from a library:

* `Jwt.sign` makes the token of some claims, and other claims make another token;
* `verify` accepts the unexpired tokens that were signed, so the state keeps the claims of these;
* `timespan` is how long a configured lifetime is, if it is one.

Both tokens of a pair are signed alike, and `rotate` does not look at the `jti` that only the second
one has.  Runs of the service are thus as intended as long as no live access token is rotated
(`rotate_single_use_iff`).

Beside the set of the source a `World` carries what happened so far: the pairs handed out, the tokens
that `rotate` accepted and those that were revoked.
-/

namespace PaymentRail
namespace Auth

open Strings

/-! ## Tokens -/

structure JwtPayload where
  sub : Text
  address : Text
  role : Text
  deriving DecidableEq

/-- What a token says.  Times are in seconds. -/
structure Claims where
  payload : JwtPayload
  jti : Option Text
  iat : Nat
  exp : Nat
  deriving DecidableEq

structure Jwt where
  sign : Claims → Text
  timespan : Text → Option Nat
  sign_injective : Function.Injective sign

structure Config where
  jwtExpiresIn : Text
  jwtRefreshExpiresIn : Text

structure TokenPair where
  accessToken : Text
  refreshToken : Text
  expiresIn : Nat
  deriving DecidableEq

structure World where
  revoked : List Text
  signed : List Claims
  pairs : List TokenPair
  accepted : List Text
  withdrawn : List Text

def World.start : World := ⟨[], [], [], [], []⟩

/-! ## The functions of the source -/

/-- `/^(\d+)([smhd])$/` -/
def parseExpiresIn (value : Text) : Nat :=
  let digits := value.takeWhile isDecDigit
  if digits = [] then 3600
  else
    match value.dropWhile isDecDigit with
    | ['s'] => Strings.value 10 digits * 1
    | ['m'] => Strings.value 10 digits * 60
    | ['h'] => Strings.value 10 digits * 3600
    | ['d'] => Strings.value 10 digits * 86400
    | _ => 3600

section Service

variable (jwt : Jwt) (sha256 : Text → Text) (config : Config)

/-- `jwtService.sign(payload, { expiresIn })` -/
def signToken (w : World) (payload : JwtPayload) (jti : Option Text) (expiresIn : Text) (now : Nat) :
    Except String Text × World :=
  match jwt.timespan expiresIn with
  | none => (.error "\"expiresIn\" should be a number of seconds or string representing a timespan", w)
  | some seconds =>
      let claims : Claims := ⟨payload, jti, now / 1000, now / 1000 + seconds⟩
      (.ok (jwt.sign claims), { w with signed := claims :: w.signed })

/-- `jwtService.verify(token)` -/
def verify (w : World) (token : Text) (now : Nat) : Option Claims :=
  w.signed.find? fun claims => jwt.sign claims = token ∧ now / 1000 < claims.exp

def hashToken (token : Text) : Text := sha256 token

/-- `jti` is what `randomBytes` comes up with. -/
def issueTokenPair (w : World) (payload : JwtPayload) (jti : Text) (now : Nat) :
    Except String TokenPair × World :=
  match signToken jwt w payload none config.jwtExpiresIn now with
  | (.error reason, w) => (.error reason, w)
  | (.ok accessToken, w) =>
      match signToken jwt w payload (some jti) config.jwtRefreshExpiresIn now with
      | (.error reason, w) => (.error reason, w)
      | (.ok refreshToken, w) =>
          let pair : TokenPair := ⟨accessToken, refreshToken, parseExpiresIn config.jwtExpiresIn⟩
          (.ok pair, { w with pairs := pair :: w.pairs })

def revoke (w : World) (token : Text) : World :=
  { w with revoked := hashToken sha256 token :: w.revoked, withdrawn := token :: w.withdrawn }

def rotate (w : World) (token : Text) (jti : Text) (now : Nat) : Except String TokenPair × World :=
  if w.revoked.contains (hashToken sha256 token) then (.error "Refresh token has been revoked", w)
  else
    match verify jwt w token now with
    | none => (.error "Invalid refresh token", w)
    | some claims =>
        match issueTokenPair jwt config (revoke sha256 w token) claims.payload jti now with
        | (.error _, w) => (.error "Invalid refresh token", w)
        | (.ok pair, w) => (.ok pair, { w with accepted := token :: w.accepted })

/-! ## Runs -/

/-- A call of the service, with the time and the random text that it meets. -/
inductive Request where
  | issue (payload : JwtPayload) (jti : Text) (now : Nat)
  | rotate (token : Text) (jti : Text) (now : Nat)
  | revoke (token : Text)

def step (request : Request) (w : World) : Option World :=
  match request with
  | .issue payload jti now => some (issueTokenPair jwt config w payload jti now).2
  | .rotate token jti now => some (rotate jwt sha256 config w token jti now).2
  | .revoke token => some (revoke sha256 w token)

/-- The token has not run out yet. -/
def Unexpired (token : Text) (now : Nat) : Prop :=
  ∃ claims, jwt.sign claims = token ∧ now / 1000 < claims.exp

/-- A token that `rotate` accepts was handed out to be rotated, has been neither rotated nor revoked
before, and has not run out. -/
def SingleUse (request : Request) (w _ : World) : Prop :=
  match request with
  | .rotate token jti now =>
      ∀ pair, (rotate jwt sha256 config w token jti now).1 = .ok pair →
        token ∈ w.pairs.map TokenPair.refreshToken ∧ token ∉ w.accepted ∧ token ∉ w.withdrawn ∧
          Unexpired jwt token now
  | _ => True

/-- A token was handed out to get access with, and still does. -/
def LiveAccess (w : World) (token : Text) (now : Nat) : Prop :=
  token ∈ w.pairs.map TokenPair.accessToken ∧ hashToken sha256 token ∉ w.revoked ∧
    Unexpired jwt token now

def NoLiveAccess (request : Request) (w _ : World) : Prop :=
  match request with
  | .rotate token _ now => ¬ LiveAccess jwt sha256 w token now
  | _ => True

end Service

/-! ## What a call does -/

section Calls

variable {jwt : Jwt} {sha256 : Text → Text} {config : Config} {w w' : World} {payload : JwtPayload}
  {token jti : Text} {now : Nat} {pair : TokenPair}

/-- The claims of the two tokens of a pair. -/
def accessClaims (payload : JwtPayload) (now seconds : Nat) : Claims :=
  ⟨payload, none, now / 1000, now / 1000 + seconds⟩

def refreshClaims (payload : JwtPayload) (jti : Text) (now seconds : Nat) : Claims :=
  ⟨payload, some jti, now / 1000, now / 1000 + seconds⟩

/-- What has been signed after `issueTokenPair`: nothing more, an access token that is not handed out
because the other lifetime is none, or both tokens of a new pair. -/
inductive Issued (jwt : Jwt) (config : Config) (w : World) : Except String TokenPair × World → Prop
  | refused (reason : String) : Issued jwt config w (.error reason, w)
  | halfway (reason : String) (payload : JwtPayload) (now seconds : Nat)
      (hrefresh : jwt.timespan config.jwtRefreshExpiresIn = none) :
      Issued jwt config w
        (.error reason, { w with signed := accessClaims payload now seconds :: w.signed })
  | issued (payload : JwtPayload) (jti : Text) (now access refresh : Nat) (pair : TokenPair)
      (hvalid : jwt.timespan config.jwtExpiresIn = some access ∧
        jwt.timespan config.jwtRefreshExpiresIn = some refresh)
      (haccess : pair.accessToken = jwt.sign (accessClaims payload now access))
      (hrefresh : pair.refreshToken = jwt.sign (refreshClaims payload jti now refresh)) :
      Issued jwt config w
        (.ok pair,
          { w with
            signed := refreshClaims payload jti now refresh :: accessClaims payload now access :: w.signed
            pairs := pair :: w.pairs })

theorem issued_issueTokenPair (jwt : Jwt) (config : Config) (w : World) (payload : JwtPayload)
    (jti : Text) (now : Nat) : Issued jwt config w (issueTokenPair jwt config w payload jti now) := by
  unfold issueTokenPair signToken
  cases haccess : jwt.timespan config.jwtExpiresIn with
  | none => exact .refused _
  | some access =>
      cases hrefresh : jwt.timespan config.jwtRefreshExpiresIn with
      | none => exact .halfway _ payload now access hrefresh
      | some refresh => exact .issued payload jti now access refresh _ ⟨haccess, hrefresh⟩ rfl rfl

/-- With two lifetimes a pair is always issued. -/
theorem issueTokenPair_ok (w : World) (payload : JwtPayload) (jti : Text) (now : Nat)
    {access refresh : Nat} (haccess : jwt.timespan config.jwtExpiresIn = some access)
    (hrefresh : jwt.timespan config.jwtRefreshExpiresIn = some refresh) :
    ∃ pair, (issueTokenPair jwt config w payload jti now).1 = .ok pair := by
  unfold issueTokenPair signToken
  rw [haccess, hrefresh]
  exact ⟨_, rfl⟩

theorem verify_eq_some {claims : Claims} (h : verify jwt w token now = some claims) :
    claims ∈ w.signed ∧ jwt.sign claims = token ∧ now / 1000 < claims.exp := by
  have hfound := List.find?_some h
  exact ⟨List.mem_of_find?_eq_some h, of_decide_eq_true hfound⟩

/-- `rotate` leaves the world alone, or revokes the token and then issues a pair or fails. -/
inductive Rotated (jwt : Jwt) (sha256 : Text → Text) (config : Config) (w : World) (token : Text)
    (now : Nat) : Except String TokenPair × World → Prop
  | refused (reason : String) : Rotated jwt sha256 config w token now (.error reason, w)
  | failed (reason cause : String) (w' : World)
      (h : Issued jwt config (revoke sha256 w token) (.error cause, w')) :
      Rotated jwt sha256 config w token now (.error reason, w')
  | accepted (claims : Claims) (pair : TokenPair) (w' : World)
      (hunused : hashToken sha256 token ∉ w.revoked) (hverify : verify jwt w token now = some claims)
      (h : Issued jwt config (revoke sha256 w token) (.ok pair, w')) :
      Rotated jwt sha256 config w token now (.ok pair, { w' with accepted := token :: w'.accepted })

theorem rotated_rotate (jwt : Jwt) (sha256 : Text → Text) (config : Config) (w : World)
    (token jti : Text) (now : Nat) :
    Rotated jwt sha256 config w token now (rotate jwt sha256 config w token jti now) := by
  unfold rotate
  split
  · exact .refused _
  · rename_i hunused
    have hnot : hashToken sha256 token ∉ w.revoked := fun hmem =>
      hunused (List.contains_iff_mem.2 hmem)
    cases hverify : verify jwt w token now with
    | none => exact .refused _
    | some claims =>
        have hissued := issued_issueTokenPair jwt config (revoke sha256 w token) claims.payload jti now
        simp only
        rcases hresult : issueTokenPair jwt config (revoke sha256 w token) claims.payload jti now with
          ⟨answer, w'⟩
        rw [hresult] at hissued
        cases answer with
        | error cause => exact .failed _ cause w' hissued
        | ok pair => exact .accepted claims pair w' hnot hverify hissued

end Calls

/-! ## The invariant -/

section Invariant

variable {jwt : Jwt} {sha256 : Text → Text} {config : Config} {w w' : World} {token jti : Text}
  {now : Nat}

/-- The tokens handed out are the tokens signed, each kind by its `jti`, and what was used up is in the
set of the source. -/
structure Sound (jwt : Jwt) (sha256 : Text → Text) (config : Config) (w : World) : Prop where
  signed : ∀ claims ∈ w.signed,
    (claims.jti = none ∧ (jwt.timespan config.jwtRefreshExpiresIn = none ∨
      jwt.sign claims ∈ w.pairs.map TokenPair.accessToken)) ∨
    (claims.jti ≠ none ∧ jwt.sign claims ∈ w.pairs.map TokenPair.refreshToken)
  access : ∀ token ∈ w.pairs.map TokenPair.accessToken,
    ∃ claims ∈ w.signed, claims.jti = none ∧ jwt.sign claims = token
  refresh : ∀ token ∈ w.pairs.map TokenPair.refreshToken,
    ∃ claims ∈ w.signed, claims.jti ≠ none ∧ jwt.sign claims = token
  valid : w.pairs ≠ [] → ∃ access refresh, jwt.timespan config.jwtExpiresIn = some access ∧
    jwt.timespan config.jwtRefreshExpiresIn = some refresh
  accepted : ∀ token ∈ w.accepted, hashToken sha256 token ∈ w.revoked
  withdrawn : ∀ token ∈ w.withdrawn, hashToken sha256 token ∈ w.revoked

theorem Sound.start : Sound jwt sha256 config World.start where
  signed := fun _ h => absurd h List.not_mem_nil
  access := fun _ h => absurd h List.not_mem_nil
  refresh := fun _ h => absurd h List.not_mem_nil
  valid := fun h => absurd rfl h
  accepted := fun _ h => absurd h List.not_mem_nil
  withdrawn := fun _ h => absurd h List.not_mem_nil

theorem Sound.revoke (h : Sound jwt sha256 config w) (token : Text) :
    Sound jwt sha256 config (revoke sha256 w token) where
  signed := h.signed
  access := h.access
  refresh := h.refresh
  valid := h.valid
  accepted := fun t ht => List.mem_cons_of_mem _ (h.accepted t ht)
  withdrawn := List.forall_mem_cons.2
    ⟨List.mem_cons_self, fun t ht => List.mem_cons_of_mem _ (h.withdrawn t ht)⟩

/-- What was signed for some tokens is still there when more is signed. -/
theorem signed_mono {P : Text → Claims → Prop} {tokens : List Text} {signed signed' : List Claims}
    (hsub : signed ⊆ signed') (h : ∀ token ∈ tokens, ∃ claims ∈ signed, P token claims) :
    ∀ token ∈ tokens, ∃ claims ∈ signed', P token claims := by
  intro token htoken
  rcases h token htoken with ⟨claims, hclaims, hfor⟩
  exact ⟨claims, hsub hclaims, hfor⟩

theorem Sound.issue {answer : Except String TokenPair} (h : Sound jwt sha256 config w)
    (hissued : Issued jwt config w (answer, w')) : Sound jwt sha256 config w' := by
  cases hissued with
  | refused reason => exact h
  | halfway reason payload now seconds hrefresh =>
      have hsub : w.signed ⊆ accessClaims payload now seconds :: w.signed := List.subset_cons_self _ _
      refine ⟨?_, signed_mono hsub h.access, signed_mono hsub h.refresh, h.valid, h.accepted,
        h.withdrawn⟩
      -- a single token is signed only when no pair can be issued at all
      exact List.forall_mem_cons.2 ⟨Or.inl ⟨rfl, Or.inl hrefresh⟩, h.signed⟩
  | issued payload jti now access refresh pair hvalid haccess hrefresh =>
      have hsub : w.signed ⊆
          refreshClaims payload jti now refresh :: accessClaims payload now access :: w.signed :=
        List.subset_cons_of_subset _ (List.subset_cons_self _ _)
      refine ⟨?_, ?_, ?_, fun _ => ⟨access, refresh, hvalid⟩, h.accepted, h.withdrawn⟩
      · refine List.forall_mem_cons.2 ⟨Or.inr ⟨Option.some_ne_none _, ?_⟩,
          List.forall_mem_cons.2 ⟨Or.inl ⟨rfl, Or.inr ?_⟩, ?_⟩⟩
        · rw [List.map_cons, hrefresh]
          exact List.mem_cons_self
        · rw [List.map_cons, haccess]
          exact List.mem_cons_self
        · intro claims hclaims
          rcases h.signed claims hclaims with ⟨hjti, hone | hmem⟩ | ⟨hjti, hmem⟩
          · exact Or.inl ⟨hjti, Or.inl hone⟩
          · exact Or.inl ⟨hjti, Or.inr (List.mem_cons_of_mem _ hmem)⟩
          · exact Or.inr ⟨hjti, List.mem_cons_of_mem _ hmem⟩
      · refine List.forall_mem_cons.2 ⟨⟨_, List.mem_cons_of_mem _ List.mem_cons_self, rfl, haccess.symm⟩,
          ?_⟩
        exact signed_mono hsub h.access
      · refine List.forall_mem_cons.2 ⟨⟨_, List.mem_cons_self, Option.some_ne_none _, hrefresh.symm⟩, ?_⟩
        exact signed_mono hsub h.refresh

/-- Issuing a pair takes nothing out of the set. -/
theorem Issued.revoked {answer : Except String TokenPair} (h : Issued jwt config w (answer, w')) :
    w'.revoked = w.revoked := by
  cases h <;> rfl

theorem Sound.rotate {answer : Except String TokenPair} (h : Sound jwt sha256 config w)
    (hrotated : Rotated jwt sha256 config w token now (answer, w')) : Sound jwt sha256 config w' := by
  cases hrotated with
  | refused reason => exact h
  | failed reason cause _ hissued => exact (h.revoke token).issue hissued
  | accepted claims pair w' hunused hverify hissued =>
      have hw' := (h.revoke token).issue hissued
      refine ⟨hw'.signed, hw'.access, hw'.refresh, hw'.valid, ?_, hw'.withdrawn⟩
      refine List.forall_mem_cons.2 ⟨?_, hw'.accepted⟩
      -- it was revoked before the new pair was issued
      show hashToken sha256 token ∈ w'.revoked
      rw [hissued.revoked]
      exact List.mem_cons_self

theorem Sound.step {request : Request} (h : Sound jwt sha256 config w)
    (hstep : Auth.step jwt sha256 config request w = some w') : Sound jwt sha256 config w' := by
  cases request with
  | issue payload jti now =>
      rw [← Option.some.inj hstep]
      exact h.issue (issued_issueTokenPair jwt config w payload jti now)
  | rotate token jti now =>
      rw [← Option.some.inj hstep]
      exact h.rotate (rotated_rotate jwt sha256 config w token jti now)
  | revoke token =>
      rw [← Option.some.inj hstep]
      exact h.revoke token

/-! ## Single use -/

/-- Without a live access token to rotate, what is rotated is a refresh token that was not used. -/
theorem singleUse_of_noLiveAccess (h : Sound jwt sha256 config w) {pair : TokenPair}
    (hlive : ¬ LiveAccess jwt sha256 w token now)
    (haccepted : (rotate jwt sha256 config w token jti now).1 = .ok pair) :
    token ∈ w.pairs.map TokenPair.refreshToken ∧ token ∉ w.accepted ∧ token ∉ w.withdrawn ∧
      Unexpired jwt token now := by
  have hrotated := rotated_rotate jwt sha256 config w token jti now
  generalize rotate jwt sha256 config w token jti now = result at hrotated haccepted
  cases hrotated with
  | refused reason => cases haccepted
  | failed reason cause w' hissued => cases haccepted
  | accepted claims pair w' hunused hverify hissued =>
      rcases verify_eq_some hverify with ⟨hclaims, hsign, hfresh⟩
      have hunexpired : Unexpired jwt token now := ⟨claims, hsign, hfresh⟩
      refine ⟨?_, fun hmem => hunused (h.accepted token hmem),
        fun hmem => hunused (h.withdrawn token hmem), hunexpired⟩
      -- the claims were signed as a lone token, as an access token or as a refresh token
      rcases h.signed claims hclaims with ⟨_, hnone | hmem⟩ | ⟨_, hmem⟩
      · -- no pair can be issued without a second lifetime
        cases hissued with
        | issued _ _ _ _ _ _ hvalid _ _ => exact absurd (hvalid.2.symm.trans hnone) (Option.some_ne_none _)
      · rw [hsign] at hmem
        exact absurd ⟨hmem, hunused, hunexpired⟩ hlive
      · rwa [hsign] at hmem

/-- A live access token is accepted, and was not handed out to be rotated. -/
theorem liveAccess_accepted (h : Sound jwt sha256 config w) (hlive : LiveAccess jwt sha256 w token now)
    (jti : Text) :
    (∃ pair, (rotate jwt sha256 config w token jti now).1 = .ok pair) ∧
      token ∉ w.pairs.map TokenPair.refreshToken := by
  rcases hlive with ⟨hpairs, hunused, claims, hsign, hfresh⟩
  rcases h.access token hpairs with ⟨signed, hsigned, hjti, hsame⟩
  -- the live token is the one that was signed without a `jti`
  have hclaims : signed = claims := jwt.sign_injective (hsame.trans hsign.symm)
  subst hclaims
  have hne : w.pairs ≠ [] := by
    intro hnil
    rw [hnil] at hpairs
    exact List.not_mem_nil hpairs
  rcases h.valid hne with ⟨access, refresh, haccess, hrefresh⟩
  constructor
  · have hverify : (verify jwt w token now).isSome = true :=
      List.find?_isSome.2 ⟨signed, hsigned, decide_eq_true ⟨hsign, hfresh⟩⟩
    rcases Option.isSome_iff_exists.1 hverify with ⟨found, hfound⟩
    rcases issueTokenPair_ok (Auth.revoke sha256 w token) found.payload jti now haccess hrefresh with
      ⟨pair, hpair⟩
    refine ⟨pair, ?_⟩
    unfold rotate
    rw [if_neg (fun hcontains => hunused (List.contains_iff_mem.1 hcontains)), hfound]
    simp only
    rcases hresult : issueTokenPair jwt config (Auth.revoke sha256 w token) found.payload jti now with
      ⟨answer, w'⟩
    rw [hresult] at hpair
    simp only at hpair
    rw [hpair]
  · intro hrefreshed
    rcases h.refresh token hrefreshed with ⟨other, _, hother, hsame'⟩
    -- a refresh token has a `jti`
    rw [jwt.sign_injective (hsame'.trans hsign.symm)] at hother
    exact hother hjti

end Invariant

/-- Every token that `rotate` accepts in a run was handed out as a refresh token, is used for the first
time and has not run out, exactly when the run never rotates a live access token. -/
theorem rotate_single_use_iff (jwt : Jwt) (sha256 : Text → Text) (config : Config)
    (requests : List Request) :
    Machine.Along (step jwt sha256 config) (SingleUse jwt sha256 config) requests World.start ↔
      Machine.Along (step jwt sha256 config) (NoLiveAccess jwt sha256) requests World.start := by
  refine Machine.along_iff (I := Sound jwt sha256 config) ?_ ?_ Sound.start
  · intro request w w' hw hstep hlive
    refine ⟨hw.step hstep, ?_⟩
    cases request with
    | issue payload jti now => trivial
    | rotate token jti now => exact fun pair hpair => singleUse_of_noLiveAccess hw hlive hpair
    | revoke token => trivial
  · intro request w w' hw _ hsingle
    cases request with
    | issue payload jti now => trivial
    | rotate token jti now =>
        -- the first live access token that is rotated breaks single use
        intro hlive
        rcases liveAccess_accepted hw hlive jti with ⟨⟨pair, hpair⟩, hnot⟩
        exact hnot (hsingle pair hpair).1
    | revoke token => trivial

/-! An access token of the pair that was just issued is rotated. -/

def jtiText : Option Text → Text
  | none => []
  | some jti => '.' :: jti

theorem jtiText_injective {a b : Option Text} (h : jtiText a = jtiText b) : a = b := by
  cases a with
  | none =>
      cases b with
      | none => rfl
      | some _ => cases h
  | some _ =>
      cases b with
      | none => cases h
      | some _ => rw [(List.cons.inj h).2]

/-- The claims one after the other, each in quotes. -/
def sampleSign (claims : Claims) : Text :=
  Json.quote claims.payload.sub ++ (Json.quote claims.payload.address ++
    (Json.quote claims.payload.role ++ (Json.quote (jtiText claims.jti) ++
      (Json.quote (Json.intText claims.iat) ++ (Json.quote (Json.intText claims.exp) ++ [])))))

theorem sampleSign_injective : Function.Injective sampleSign := by
  intro a b h
  rcases Json.quote_append_inj h with ⟨hsub, h⟩
  rcases Json.quote_append_inj h with ⟨haddress, h⟩
  rcases Json.quote_append_inj h with ⟨hrole, h⟩
  rcases Json.quote_append_inj h with ⟨hjti, h⟩
  rcases Json.quote_append_inj h with ⟨hiat, h⟩
  rcases Json.quote_append_inj h with ⟨hexp, _⟩
  rcases a with ⟨⟨_, _, _⟩, _, iat, exp⟩
  rcases b with ⟨⟨_, _, _⟩, _, iat', exp'⟩
  have hi : iat = iat' := by exact_mod_cast Json.intText_injective hiat
  have he : exp = exp' := by exact_mod_cast Json.intText_injective hexp
  simp only at hsub haddress hrole hjti
  rw [hsub, haddress, hrole, jtiText_injective hjti, hi, he]

def sampleTimespan (text : Text) : Option Nat :=
  if text = "1h".toList then some 3600 else if text = "7d".toList then some 604800 else none

def sampleJwt : Jwt := ⟨sampleSign, sampleTimespan, sampleSign_injective⟩

def sampleConfig : Config := ⟨"1h".toList, "7d".toList⟩

def samplePayload : JwtPayload := ⟨"agent".toList, "0xa".toList, "agent".toList⟩

def sampleAccess : Text := sampleSign ⟨samplePayload, none, 0, 3600⟩

theorem access_token_rotates :
    ¬ Machine.Along (step sampleJwt id sampleConfig) (SingleUse sampleJwt id sampleConfig)
      [.issue samplePayload ['7'] 0, .rotate sampleAccess ['8'] 1000] World.start := by
  intro h
  rcases h _ rfl with ⟨_, h⟩
  rcases h _ rfl with ⟨hsingle, _⟩
  have hmem := (hsingle _ rfl).1
  exact absurd hmem (by decide)

end Auth
end PaymentRail
