import PaymentRail.Auth.RefreshTokenService

/-!
# Guards — who reaches an operator's endpoint

This module embeds `common/auth/jwt-auth.guard.ts`, `common/auth/roles.guard.ts`, the strategy they
use and the decorators they read, over the tokens of `RefreshTokenService`.  The strategy verifies with
the secret that `JwtService` signs with; how a token is taken out of an `Authorization` header is left
to the library (`bearer`).

Neither guard asks the service which tokens were revoked.  In every run the holder of a token that was
handed out, of either kind, reaches a guarded endpoint until the token runs out, and with no other role
than the one a pair was issued for (`guarded_routes`).
-/

namespace PaymentRail
namespace Auth

open Machine Strings

/-! ## Routes -/

inductive Role where
  | admin
  | agent
  | validator
  | service
  deriving DecidableEq, Repr

def Role.text : Role → Text
  | .admin => "admin".toList
  | .agent => "agent".toList
  | .validator => "validator".toList
  | .service => "service".toList

/-- What `@Public()` and `@Roles(...)` leave on a handler or on a class. -/
structure Metadata where
  isPublic : Option Bool
  roles : Option (List Role)
  deriving DecidableEq

def Metadata.none : Metadata := ⟨Option.none, Option.none⟩

/-- `@Roles(...roles)` -/
def Roles (roles : List Role) : Metadata := ⟨Option.none, some roles⟩

/-- `@Public()` -/
def Public : Metadata := ⟨some true, Option.none⟩

structure Route where
  handler : Metadata
  controller : Metadata
  deriving DecidableEq

/-- `reflector.getAllAndOverride(key, [context.getHandler(), context.getClass()])` -/
def getAllAndOverride {α : Type} (handler controller : Option α) : Option α := handler.or controller

def Route.isPublic (route : Route) : Option Bool :=
  getAllAndOverride route.handler.isPublic route.controller.isPublic

def Route.requiredRoles (route : Route) : Option (List Role) :=
  getAllAndOverride route.handler.roles route.controller.roles

/-- Every handler behind `@UseGuards(JwtAuthGuard, RolesGuard)`, controller by controller. -/
def guardedRoutes : List (String × Route) :=
  [("GET admin/pause", ⟨.none, Roles [.admin]⟩),
    ("POST admin/pause", ⟨.none, Roles [.admin]⟩),
    ("POST admin/resume", ⟨.none, Roles [.admin]⟩),
    ("POST fees/withdrawals", ⟨Roles [.admin], .none⟩),
    ("GET settlements/export", ⟨Roles [.admin, .service], .none⟩),
    ("POST settlements/:id/replay", ⟨Roles [.admin], .none⟩),
    ("POST reconciliation/run", ⟨Roles [.admin], .none⟩),
    ("PUT spending-limits/:payer", ⟨Roles [.admin], .none⟩),
    ("DELETE spending-limits/:payer", ⟨Roles [.admin], .none⟩),
    ("POST webhooks", ⟨.none, Roles [.admin, .service]⟩),
    ("GET webhooks", ⟨.none, Roles [.admin, .service]⟩),
    ("DELETE webhooks/:id", ⟨.none, Roles [.admin, .service]⟩),
    ("POST webhooks/:id/rotate-secret", ⟨.none, Roles [.admin, .service]⟩),
    ("GET webhooks/:id/deliveries", ⟨.none, Roles [.admin, .service]⟩)]

/-! ## The guards -/

/-- `request.user` -/
structure User where
  userId : Text
  address : Text
  role : Text
  deriving DecidableEq

structure HttpException where
  status : Nat
  message : Text
  deriving DecidableEq

def validate (payload : JwtPayload) : User where
  userId := payload.sub
  address := payload.address
  role := payload.role

def unauthorized : HttpException := ⟨401, "Unauthorized".toList⟩

section Guards

variable (jwt : Jwt) (bearer : Text → Option Text)

/-- `JwtAuthGuard.canActivate`, with what it leaves in `request.user`. -/
def jwtAuthGuard (w : World) (route : Route) (authorization : Option Text) (now : Nat) :
    Except HttpException (Option User) :=
  if route.isPublic = some true then .ok none
  else
    match authorization.bind bearer with
    | none => .error unauthorized
    | some token =>
        match verify jwt w token now with
        | none => .error unauthorized
        | some claims => .ok (some (validate claims.payload))

/-- `RolesGuard.canActivate` -/
def rolesGuard (route : Route) (user : Option User) : Except HttpException Unit :=
  match route.requiredRoles with
  | none => .ok ()
  | some [] => .ok ()
  | some requiredRoles =>
      match user with
      | none => .error ⟨403, "Role is required to access this resource".toList⟩
      | some user =>
          -- an empty role is as good as none
          if user.role = [] then .error ⟨403, "Role is required to access this resource".toList⟩
          else if requiredRoles.any fun role => user.role = role.text then .ok ()
          else
            .error ⟨403, "Requires one of roles: ".toList ++
              ", ".toList.intercalate (requiredRoles.map Role.text)⟩

/-- Both guards in turn: the user that the handler is called for. -/
def guards (w : World) (route : Route) (authorization : Option Text) (now : Nat) :
    Except HttpException (Option User) :=
  match jwtAuthGuard jwt bearer w route authorization now with
  | .error refusal => .error refusal
  | .ok user =>
      match rolesGuard route user with
      | .error refusal => .error refusal
      | .ok () => .ok user

end Guards

/-! ## What the guards let through -/

section Admits

variable {jwt : Jwt} {bearer : Text → Option Text} {w w' : World} {route : Route}
  {authorization : Option Text} {now : Nat}

/-- Different claims are different tokens, so a token is verified as what it was signed for. -/
theorem verify_iff {token : Text} {claims : Claims} :
    verify jwt w token now = some claims ↔
      claims ∈ w.signed ∧ jwt.sign claims = token ∧ now / 1000 < claims.exp := by
  constructor
  · exact verify_eq_some
  · rintro ⟨hmem, hsign, hfresh⟩
    have hsome : (verify jwt w token now).isSome = true :=
      List.find?_isSome.2 ⟨claims, hmem, decide_eq_true ⟨hsign, hfresh⟩⟩
    rcases Option.isSome_iff_exists.1 hsome with ⟨found, hfound⟩
    have hsame : found = claims :=
      jwt.sign_injective ((verify_eq_some hfound).2.1.trans hsign.symm)
    rw [hfound, hsame]

theorem Role.text_ne_nil (role : Role) : role.text ≠ [] := by
  cases role with
  | _ => decide

/-- A route that is not public and asks for a role. -/
structure Guarded (route : Route) (roles : List Role) : Prop where
  closed : route.isPublic ≠ some true
  required : route.requiredRoles = some roles
  some : roles ≠ []

theorem guarded_of_mem {entry : String × Route} (h : entry ∈ guardedRoutes) :
    ∃ roles, Guarded entry.2 roles ∧ ∀ role ∈ roles, role = .admin ∨ role = .service := by
  have hall : ∀ entry ∈ guardedRoutes, entry.2.isPublic ≠ some true ∧
      ∃ roles, entry.2.requiredRoles = some roles ∧ roles ≠ [] ∧
        ∀ role ∈ roles, role = .admin ∨ role = .service := by
    simp [guardedRoutes, Route.isPublic, Route.requiredRoles, getAllAndOverride, Metadata.none, Roles]
  rcases hall entry h with ⟨hclosed, roles, hrequired, hsome, hroles⟩
  exact ⟨roles, ⟨hclosed, hrequired, hsome⟩, hroles⟩

theorem rolesGuard_ok {roles : List Role} (hroute : Guarded route roles) {user : Option User} :
    rolesGuard route user = .ok () ↔ ∃ u role, user = some u ∧ role ∈ roles ∧ u.role = role.text := by
  rw [rolesGuard, hroute.required]
  cases roles with
  | nil => exact absurd rfl hroute.some
  | cons first roles =>
      cases user with
      | none => simp
      | some u =>
          by_cases hempty : u.role = []
          · simp only [hempty, if_true]
            constructor
            · exact nofun
            · rintro ⟨_, role, hu, _, hrole⟩
              cases hu
              rw [hempty] at hrole
              exact absurd hrole.symm role.text_ne_nil
          · have hany : ((first :: roles).any fun role => decide (u.role = role.text)) = true ↔
                ∃ role ∈ first :: roles, u.role = role.text := by
              rw [List.any_eq_true]
              simp only [decide_eq_true_eq]
            simp only [if_neg hempty]
            split
            · rename_i hsome
              rcases hany.1 hsome with ⟨role, hmem, hrole⟩
              exact ⟨fun _ => ⟨u, role, rfl, hmem, hrole⟩, fun _ => rfl⟩
            · rename_i hnone
              constructor
              · exact nofun
              · rintro ⟨_, role, hu, hmem, hrole⟩
                cases hu
                exact absurd (hany.2 ⟨role, hmem, hrole⟩) hnone

/-- The guards let through exactly whoever shows a signed token that has not run out, with one of the
roles. -/
theorem guards_ok {roles : List Role} (hroute : Guarded route roles) {user : Option User} :
    guards jwt bearer w route authorization now = .ok user ↔
      ∃ token claims role, authorization.bind bearer = some token ∧ claims ∈ w.signed ∧
        jwt.sign claims = token ∧ now / 1000 < claims.exp ∧ user = some (validate claims.payload) ∧
        role ∈ roles ∧ claims.payload.role = role.text := by
  rw [guards, jwtAuthGuard, if_neg hroute.closed]
  constructor
  · intro h
    cases htoken : authorization.bind bearer with
    | none => simp [htoken] at h
    | some token =>
        cases hverify : verify jwt w token now with
        | none => simp [htoken, hverify] at h
        | some claims =>
            rw [htoken] at h
            simp only [hverify] at h
            split at h
            · cases h
            · rename_i hroles
              cases h
              rcases (rolesGuard_ok hroute).1 hroles with ⟨u, role, hu, hmem, hrole⟩
              cases hu
              rcases verify_iff.1 hverify with ⟨hsigned, hsign, hfresh⟩
              exact ⟨token, claims, role, rfl, hsigned, hsign, hfresh, rfl, hmem, hrole⟩
  · rintro ⟨token, claims, role, htoken, hsigned, hsign, hfresh, rfl, hmem, hrole⟩
    have hverify : verify jwt w token now = some claims := verify_iff.2 ⟨hsigned, hsign, hfresh⟩
    have hroles : rolesGuard route (some (validate claims.payload)) = .ok () :=
      (rolesGuard_ok hroute).2 ⟨_, role, rfl, hmem, hrole⟩
    simp [htoken, hverify, hroles]

end Admits

/-! ## Whose tokens there are -/

section Payloads

variable {jwt : Jwt} {sha256 : Text → Text} {config : Config}

def Request.payload : Request → Option JwtPayload
  | .issue payload _ _ => some payload
  | _ => none

/-- The service signs for the payload it is given. -/
theorem payload_issueTokenPair (jwt : Jwt) (config : Config) (w : World) (payload : JwtPayload)
    (jti : Text) (now : Nat) :
    ∀ claims ∈ (issueTokenPair jwt config w payload jti now).2.signed,
      claims ∈ w.signed ∨ claims.payload = payload := by
  unfold issueTokenPair signToken
  cases jwt.timespan config.jwtExpiresIn with
  | none => exact fun _ h => Or.inl h
  | some access =>
      cases jwt.timespan config.jwtRefreshExpiresIn with
      | none =>
          intro claims h
          rcases List.mem_cons.1 h with rfl | h
          · exact Or.inr rfl
          · exact Or.inl h
      | some refresh =>
          intro claims h
          rcases List.mem_cons.1 h with rfl | h
          · exact Or.inr rfl
          · rcases List.mem_cons.1 h with rfl | h
            · exact Or.inr rfl
            · exact Or.inl h

/-- A rotation signs for nobody new. -/
theorem payload_rotate (w : World) (token jti : Text) (now : Nat) :
    ∀ claims ∈ (rotate jwt sha256 config w token jti now).2.signed,
      ∃ old ∈ w.signed, claims.payload = old.payload := by
  unfold rotate
  split
  · exact fun claims h => ⟨claims, h, rfl⟩
  · split
    · exact fun claims h => ⟨claims, h, rfl⟩
    · rename_i old hverify
      have hissued := payload_issueTokenPair jwt config (revoke sha256 w token) old.payload
        jti now
      have hsigned : ∀ claims ∈ (issueTokenPair jwt config (revoke sha256 w token) old.payload jti
          now).2.signed, ∃ old ∈ w.signed, claims.payload = old.payload := by
        intro claims h
        rcases hissued claims h with hold | hpayload
        · exact ⟨claims, hold, rfl⟩
        · exact ⟨old, (verify_eq_some hverify).1, hpayload⟩
      split
      · rename_i hresult
        rwa [hresult] at hsigned
      · rename_i hresult
        rwa [hresult] at hsigned

theorem payload_step {request : Request} {w w' : World}
    (hstep : step jwt sha256 config request w = some w') :
    ∀ claims ∈ w'.signed, request.payload = some claims.payload ∨
      ∃ old ∈ w.signed, claims.payload = old.payload := by
  intro claims hclaims
  cases request with
  | issue payload jti now =>
      rw [← Option.some.inj hstep] at hclaims
      rcases payload_issueTokenPair jwt config w payload jti now claims hclaims with hold | hpayload
      · exact Or.inr ⟨claims, hold, rfl⟩
      · exact Or.inl (by rw [hpayload]; rfl)
  | rotate token jti now =>
      rw [← Option.some.inj hstep] at hclaims
      exact Or.inr (payload_rotate w token jti now claims hclaims)
  | revoke token =>
      rw [← Option.some.inj hstep] at hclaims
      exact Or.inr ⟨claims, hclaims, rfl⟩

/-- Over a run: a token says what a pair was issued for, however often it was rotated since. -/
theorem payload_run {requests : List Request} {w w' : World}
    (hrun : run (step jwt sha256 config) requests w = some w') :
    ∀ claims ∈ w'.signed, (∃ request ∈ requests, request.payload = some claims.payload) ∨
      ∃ old ∈ w.signed, claims.payload = old.payload := by
  induction requests generalizing w with
  | nil =>
      cases hrun
      exact fun claims h => Or.inr ⟨claims, h, rfl⟩
  | cons request requests ih =>
      rcases run_cons_eq_some.1 hrun with ⟨t, ht, hrest⟩
      intro claims hclaims
      rcases ih hrest claims hclaims with ⟨later, hmem, hpayload⟩ | ⟨old, hold, hsame⟩
      · exact Or.inl ⟨later, List.mem_cons_of_mem _ hmem, hpayload⟩
      · rw [hsame]
        rcases payload_step ht old hold with hissued | ⟨older, holder, hsame'⟩
        · exact Or.inl ⟨request, List.mem_cons_self, hissued⟩
        · exact Or.inr ⟨older, holder, hsame'⟩

/-- Nothing that was signed is ever unsigned. -/
theorem signed_step {request : Request} {w w' : World}
    (hstep : step jwt sha256 config request w = some w') : w.signed ⊆ w'.signed := by
  have hissued : ∀ w answer w', Issued jwt config w (answer, w') → w.signed ⊆ w'.signed := by
    intro w answer w' h
    cases h with
    | refused reason => exact List.Subset.refl _
    | halfway reason payload now seconds hrefresh => exact List.subset_cons_self _ _
    | issued => exact List.subset_cons_of_subset _ (List.subset_cons_self _ _)
  cases request with
  | issue payload jti now =>
      rw [← Option.some.inj hstep]
      exact hissued w _ _ (issued_issueTokenPair jwt config w payload jti now)
  | rotate token jti now =>
      rw [← Option.some.inj hstep]
      have hrotated := rotated_rotate jwt sha256 config w token jti now
      generalize rotate jwt sha256 config w token jti now = result at hrotated
      cases hrotated with
      | refused reason => exact List.Subset.refl _
      | failed reason cause w' h => exact hissued (revoke sha256 w token) _ w' h
      | accepted claims pair w' _ _ h => exact hissued (revoke sha256 w token) _ w' h
  | revoke token =>
      rw [← Option.some.inj hstep]
      exact List.Subset.refl _

theorem signed_run {requests : List Request} {w w' : World}
    (hrun : run (step jwt sha256 config) requests w = some w') : w.signed ⊆ w'.signed :=
  run_invariant (P := fun t => w.signed ⊆ t.signed)
    (fun _ _ _ ht hstep _ hmem => signed_step hstep (ht hmem)) (List.Subset.refl _) hrun

end Payloads

/-! ## Runs -/

/-- The token was handed out, as an access token or as a refresh token. -/
def HandedOut (w : World) (token : Text) : Prop :=
  token ∈ w.pairs.map TokenPair.accessToken ∨ token ∈ w.pairs.map TokenPair.refreshToken

/-- With a lifetime for both kinds, what was signed is what was handed out. -/
theorem handedOut_iff {jwt : Jwt} {sha256 : Text → Text} {config : Config} {w : World}
    (hsound : Sound jwt sha256 config w) (hrefresh : jwt.timespan config.jwtRefreshExpiresIn ≠ none)
    (claims : Claims) : HandedOut w (jwt.sign claims) ↔ claims ∈ w.signed := by
  constructor
  · intro h
    rcases h with h | h
    · rcases hsound.access _ h with ⟨signed, hmem, _, hsign⟩
      rwa [← jwt.sign_injective hsign]
    · rcases hsound.refresh _ h with ⟨signed, hmem, _, hsign⟩
      rwa [← jwt.sign_injective hsign]
  · intro h
    rcases hsound.signed claims h with ⟨_, hnone | hmem⟩ | ⟨_, hmem⟩
    · exact absurd hnone hrefresh
    · exact Or.inl hmem
    · exact Or.inr hmem

/-- After any run of the token service, the guarded endpoints are reached by exactly those who show a
token of a pair, of either kind, that has not run out and names one of the roles the endpoint asks for.
Who reaches one is the user a pair was issued for, with the role it was issued for.  And whatever is
rotated or revoked later, the same request is let through as before until its token runs out. -/
theorem guarded_routes {jwt : Jwt} {sha256 : Text → Text} {config : Config}
    (bearer : Text → Option Text) (hrefresh : jwt.timespan config.jwtRefreshExpiresIn ≠ none)
    {requests : List Request} {w : World}
    (hrun : run (step jwt sha256 config) requests World.start = some w) {entry : String × Route}
    (hroute : entry ∈ guardedRoutes) (authorization : Option Text) (now : Nat) (user : Option User) :
    (guards jwt bearer w entry.2 authorization now = .ok user ↔
      ∃ token claims role roles, authorization.bind bearer = some token ∧ HandedOut w token ∧
        jwt.sign claims = token ∧ now / 1000 < claims.exp ∧ user = some (validate claims.payload) ∧
        entry.2.requiredRoles = some roles ∧ role ∈ roles ∧ claims.payload.role = role.text) ∧
    (guards jwt bearer w entry.2 authorization now = .ok user →
      (∃ payload jti t, Request.issue payload jti t ∈ requests ∧ user = some (validate payload) ∧
        (payload.role = Role.text .admin ∨ payload.role = Role.text .service)) ∧
      ∀ later w', run (step jwt sha256 config) later w = some w' →
        guards jwt bearer w' entry.2 authorization now = .ok user) := by
  have hsound : Sound jwt sha256 config w :=
    run_invariant (fun _ _ _ ht hstep => ht.step hstep) Sound.start hrun
  rcases guarded_of_mem hroute with ⟨roles, hguarded, hroles⟩
  refine ⟨⟨?_, ?_⟩, ?_⟩
  · intro h
    rcases (guards_ok hguarded).1 h with ⟨token, claims, role, htoken, hsigned, hsign, hrest⟩
    have hhanded : HandedOut w token := by
      rw [← hsign]
      exact (handedOut_iff hsound hrefresh claims).2 hsigned
    exact ⟨token, claims, role, roles, htoken, hhanded, hsign, hrest.1, hrest.2.1, hguarded.required,
      hrest.2.2⟩
  · rintro ⟨token, claims, role, roles', htoken, hhanded, hsign, hfresh, huser, hrequired, hrole⟩
    have hsame : roles' = roles := Option.some.inj (hrequired.symm.trans hguarded.required)
    have hsigned : claims ∈ w.signed := by
      rw [← hsign] at hhanded
      exact (handedOut_iff hsound hrefresh claims).1 hhanded
    rw [hsame] at hrole
    exact (guards_ok hguarded).2 ⟨token, claims, role, htoken, hsigned, hsign, hfresh, huser, hrole⟩
  · intro h
    rcases (guards_ok hguarded).1 h with ⟨token, claims, role, htoken, hsigned, hrest⟩
    constructor
    · rcases payload_run hrun claims hsigned with ⟨request, hmem, hpayload⟩ | ⟨old, hold, _⟩
      · cases request with
        | issue payload jti t =>
            cases hpayload
            refine ⟨claims.payload, jti, t, hmem, hrest.2.2.1, ?_⟩
            rcases hroles role hrest.2.2.2.1 with rfl | rfl
            · exact Or.inl hrest.2.2.2.2
            · exact Or.inr hrest.2.2.2.2
        | rotate token jti now => cases hpayload
        | revoke token => cases hpayload
      · cases hold
    · intro later w' hlater
      exact (guards_ok hguarded).2 ⟨token, claims, role, htoken, signed_run hlater hsigned, hrest⟩

def adminPayload : JwtPayload := ⟨"ops".toList, "0xa".toList, "admin".toList⟩

def adminRefresh : Text := sampleSign ⟨adminPayload, some ['7'], 0, 604800⟩

/-- A refresh token that was rotated and revoked still replays settlements. -/
theorem guarded_routes_revoked :
    ∃ w w', run (step sampleJwt id sampleConfig) [.issue adminPayload ['7'] 0] World.start = some w ∧
      run (step sampleJwt id sampleConfig) [.rotate adminRefresh ['8'] 1000, .revoke adminRefresh] w =
        some w' ∧
      guards sampleJwt some w' ⟨Roles [.admin], .none⟩ (some adminRefresh) 2000 =
        .ok (some (validate adminPayload)) := by
  refine ⟨_, _, rfl, rfl, ?_⟩
  have hrun : run (step sampleJwt id sampleConfig) [.issue adminPayload ['7'] 0] World.start = some _ :=
    rfl
  have hroute : (("POST settlements/:id/replay", ⟨Roles [.admin], .none⟩) : String × Route) ∈
      guardedRoutes := by decide
  have hadmitted := guarded_routes some (by decide) hrun hroute (some adminRefresh) 2000
    (some (validate adminPayload))
  exact (hadmitted.2 (by decide)).2 [.rotate adminRefresh ['8'] 1000, .revoke adminRefresh] _ rfl

end Auth
end PaymentRail
