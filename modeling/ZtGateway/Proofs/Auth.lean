import ZtGateway.Lib.Trace
import ZtGateway.Spec.Auth

/-! Which tokens `AuthService` takes, and which keys it ever verifies one with: for any behaviour
of `jose` and over any sequence of requests. -/

namespace ZTG.AuthService

open Act

variable (cfg : AuthConfig)

/-- the one key that goes with an algorithm, if any does -/
def keyFor : Option String → Option VerificationKey
  | some alg =>
    if alg = "HS256" then some (.secret cfg.jwtSecret)
    else if alg = "RS256" ∨ alg = "ES256" then
      match truthy cfg.jwtPublicKey with
      | some pem => some (.spki pem alg)
      | none => (truthy cfg.jwksUri).map .jwks
    else none
  | none => none

/-- a JWKS function that was made -/
def isCreation (e : Event JoseCall JoseReply) : Bool :=
  match e with
  | ⟨.createRemoteJWKSet _, .ok _⟩ => true
  | _ => false

/-- whether the service holds a JWKS function -/
def made {cfg : AuthConfig} (s : AuthService cfg) : ℕ := s.jwksFunction.isSome.toNat

/-- a call that only prepares a key -/
def prepares : JoseCall → Bool
  | .importSPKI .. => true
  | .createRemoteJWKSet _ => true
  | _ => false

/-- How the verification of a token with the algorithm `alg` can go, from the service `s`: the calls
it makes, its result and the service it leaves. -/
structure Verification (token : String) (alg : Option String) (s : AuthService cfg)
    (new : Trace JoseCall JoseReply) (r : Except AuthError JWTPayload) (s' : AuthService cfg) :
    Prop where
  counted : new.countP isCreation + made s = made s'
  /-- it prepares a key and fails, or prepares the key of the algorithm and verifies with it -/
  ends : (∃ e, r = .error e ∧ ∀ e ∈ new, prepares e.op = true) ∨
    ∃ prep key ans, keyFor cfg alg = some key ∧ (∀ e ∈ prep, prepares e.op = true) ∧
      new = prep ++ [⟨.jwtVerify token key (verifyOptions cfg), ans⟩] ∧ r = fromJose ans ∧
      ∀ uri, key = .jwks uri → made s' = 1

variable {cfg} {env : Env JoseCall JoseReply} {s : AuthService cfg} {tr : Trace JoseCall JoseReply}
  {token : String}

/-- `m` verifies a token as `Verification` says, wherever it starts. -/
def Verifies (token : String) (alg : Option String) (m : M cfg JWTPayload) : Prop :=
  ∀ env s tr, ∃ new, (exec env m s tr).2 = tr ++ new ∧
    Verification cfg token alg s new (exec env m s tr).1.1 (exec env m s tr).1.2

theorem verifies_throw (alg : Option String) (e : AuthError) :
    Verifies token alg (throw e : M cfg JWTPayload) := by
  intro env s tr
  exact ⟨[], by simp, by simp, .inl ⟨e, rfl, by simp⟩⟩

/-- the last call, with nothing to prepare -/
theorem verifies_jwtVerify {alg : Option String} {key : VerificationKey}
    (hkey : keyFor cfg alg = some key) (hjwks : ∀ uri, key ≠ .jwks uri) :
    Verifies token alg
      (call (.jwtVerify token key (verifyOptions cfg)) fromJose : M cfg JWTPayload) := by
  intro env s tr
  refine ⟨[⟨.jwtVerify token key (verifyOptions cfg), env tr _⟩], rfl, ?_, .inr ?_⟩
  · simp [isCreation]
  · exact ⟨[], key, _, hkey, by simp, rfl, rfl, fun uri h => absurd h (hjwks uri)⟩

theorem verifyAsymmetric_verifies {alg : String} (halg : alg = "RS256" ∨ alg = "ES256") :
    Verifies token (some alg) (verifyAsymmetric cfg token alg) := by
  have hne : alg ≠ "HS256" := by
    rintro rfl
    revert halg
    decide
  intro env s tr
  unfold verifyAsymmetric
  rcases hpem : truthy cfg.jwtPublicKey with _ | pem
  · dsimp only
    split
    · rename_i uri huri
      have hkey : keyFor cfg (some alg) = some (.jwks uri) := by
        simp [keyFor, hne, halg, hpem, huri]
      rcases hs : s.jwksFunction with _ | known
      · simp only [exec_bind, exec_get, hs, exec_call]
        rcases hans : env tr (.createRemoteJWKSet uri) with e | u
        · refine ⟨[⟨.createRemoteJWKSet uri, .error e⟩], rfl, ?_, .inl ⟨.jose e, rfl, ?_⟩⟩
          · simp [isCreation, fromJose, Except.mapError]
          · simp [prepares]
        · simp only [fromJose, Except.mapError, exec_modify]
          refine ⟨[⟨.createRemoteJWKSet uri, .ok u⟩, ⟨.jwtVerify token (.jwks uri) _, _⟩],
            by rw [List.append_assoc]; rfl, ?_, .inr ?_⟩
          · show 1 + s.made = 1
            simp [made, hs]
          · refine ⟨[⟨.createRemoteJWKSet uri, .ok u⟩], _, _, hkey, ?_, rfl, rfl, fun _ _ => rfl⟩
            simp [prepares]
      · obtain rfl : uri = known.1 :=
          Option.some.inj ((eq_of_truthy huri).symm.trans known.2)
        simp only [exec_bind, exec_get, hs, exec_call]
        refine ⟨_, rfl, ?_, .inr ⟨[], _, _, hkey, by simp, rfl, rfl, ?_⟩⟩
        · simp [isCreation]
        · simp [made, hs]
    · exact verifies_throw _ _ env s tr
  · have hkey : keyFor cfg (some alg) = some (.spki pem alg) := by
      simp [keyFor, hne, halg, hpem]
    simp only [exec_bind, exec_call]
    rcases hans : env tr (.importSPKI pem alg) with e | u
    · refine ⟨[⟨.importSPKI pem alg, .error e⟩], rfl, ?_, .inl ⟨.jose e, rfl, ?_⟩⟩
      · simp [isCreation, fromJose, Except.mapError]
      · simp [prepares]
    · simp only [fromJose, Except.mapError]
      refine ⟨[⟨.importSPKI pem alg, .ok u⟩, ⟨.jwtVerify token (.spki pem alg) _, _⟩],
        by rw [List.append_assoc]; rfl, ?_, .inr ?_⟩
      · simp [isCreation]
      · refine ⟨[⟨.importSPKI pem alg, .ok u⟩], _, _, hkey, ?_, rfl, rfl, by simp⟩
        simp [prepares]

theorem verifyToken_verifies (token : String) (header : ProtectedHeader) :
    Verifies token header.alg (verifyToken cfg token header) := by
  unfold verifyToken
  rcases header with ⟨_ | alg⟩
  · exact verifies_throw _ _
  · dsimp only
    split_ifs with hhs hasym
    · exact verifies_jwtVerify (by simp [keyFor, hhs]) (by simp)
    · exact verifyAsymmetric_verifies hasym
    · exact verifies_throw _ _

/-- what becomes of a token whose header could be read -/
def verdict : Except AuthError JWTPayload → AuthAnswer
  | .error e => .invalid .token (some (mapJoseError e))
  | .ok payload =>
    if isMfaToken payload then
      .invalid .token (some "MFA token cannot be used as access token")
    else
      match extractClaims payload with
      | .ok claims => .ok claims
      | .error e => .invalid .token (some (mapJoseError e))

theorem extractClaims_error {payload : JWTPayload} {e : AuthError}
    (h : extractClaims payload = .error e) : ∃ message, e = .unauthorized message := by
  unfold extractClaims at h
  split at h
  · split_ifs at h
    exact ⟨_, (Except.error.inj h).symm⟩
  · exact ⟨_, (Except.error.inj h).symm⟩

/-- One call of `authenticate`, whole: it never throws. -/
inductive Authentication (cfg : AuthConfig) (s : AuthService cfg) :
    Option HeaderValue → Trace JoseCall JoseReply → AuthAnswer → AuthService cfg → Prop
  | unread {authorization reason} (h : bearer authorization = .error reason) :
    Authentication cfg s authorization [] (.invalid reason none) s
  | malformed {authorization token} (h : bearer authorization = .ok token) (e : JoseError) :
    Authentication cfg s authorization [⟨.decodeProtectedHeader token, .error e⟩]
      (.invalid .token (some (mapJoseError (.jose e)))) s
  | verified {authorization token} (h : bearer authorization = .ok token)
    (header : ProtectedHeader) {new r s'} (hv : Verification cfg token header.alg s new r s') :
    Authentication cfg s authorization (⟨.decodeProtectedHeader token, .ok header⟩ :: new)
      (verdict r) s'

theorem authenticate_cases (env : Env JoseCall JoseReply) (s : AuthService cfg)
    (tr : Trace JoseCall JoseReply) (authorization : Option HeaderValue) :
    ∃ new answer s', exec env (authenticate cfg authorization) s tr =
        ((.ok answer, s'), tr ++ new) ∧ Authentication cfg s authorization new answer s' := by
  rcases hb : bearer authorization with reason | token
  · exact ⟨[], _, s, by simp [authenticate, hb], .unread hb⟩
  · simp only [authenticate, validateToken, hb, exec_tryCatch, exec_bind, exec_call]
    rcases hans : env tr (.decodeProtectedHeader token) with e | header
    · refine ⟨_, _, s, ?_, .malformed hb e⟩
      simp [fromJose, Except.mapError]
    · obtain ⟨new, htr, hv⟩ := verifyToken_verifies token header env s
        (tr ++ [⟨.decodeProtectedHeader token, .ok header⟩])
      simp only [fromJose, Except.mapError]
      rcases hm : exec env (verifyToken cfg token header) s
        (tr ++ [⟨.decodeProtectedHeader token, .ok header⟩]) with ⟨⟨e | payload, s'⟩, tr'⟩
      · rw [hm] at htr hv
        obtain rfl : tr' = _ := htr
        refine ⟨_, _, s', ?_, .verified hb header hv⟩
        simp [hm, verdict]
      · rw [hm] at htr hv
        obtain rfl : tr' = _ := htr
        refine ⟨_, _, s', ?_, .verified hb header hv⟩
        cases hmfa : isMfaToken payload with
        | true => simp [hm, verdict, hmfa]
        | false =>
          rcases hclaims : extractClaims payload with e | claims
          · obtain ⟨message, rfl⟩ := extractClaims_error hclaims
            simp [hm, verdict, hmfa, hclaims, mapJoseError]
          · simp [hm, verdict, hmfa, hclaims]

/-- The header is a bearer token whose algorithm has a key, the last call of the run verified the
token with that key under the configured options, and the payload is no MFA token and has usable
claims. -/
def Accepts (cfg : AuthConfig) (authorization : Option HeaderValue)
    (new : Trace JoseCall JoseReply) (claims : ExtractedClaims) : Prop :=
  ∃ token header key payload, bearer authorization = .ok token ∧
    new.head? = some ⟨.decodeProtectedHeader token, .ok header⟩ ∧
    keyFor cfg header.alg = some key ∧
    new.getLast? = some ⟨.jwtVerify token key (verifyOptions cfg), .ok payload⟩ ∧
    isMfaToken payload = false ∧ extractClaims payload = .ok claims

theorem verdict_ok {r : Except AuthError JWTPayload} {claims : ExtractedClaims} :
    verdict r = .ok claims ↔
      ∃ payload, r = .ok payload ∧ isMfaToken payload = false ∧ extractClaims payload = .ok claims := by
  rcases r with e | payload
  · simp [verdict]
  · cases hmfa : isMfaToken payload with
    | true => simp [verdict, hmfa]
    | false => cases hclaims : extractClaims payload <;> simp [verdict, hmfa, hclaims]

theorem fromJose_ok {α : Type} {r : Except JoseError α} {a : α} :
    fromJose r = .ok a ↔ r = .ok a := by
  cases r <;> simp [fromJose, Except.mapError]

/-- For any behaviour of `jose` and any state of the service, `authenticate` answers and never
throws, and it takes a token exactly when it is acceptable. -/
theorem authenticate_exact (cfg : AuthConfig) (env : Env JoseCall JoseReply) (s : AuthService cfg)
    (tr : Trace JoseCall JoseReply) (authorization : Option HeaderValue) :
    let r := exec env (authenticate cfg authorization) s tr
    ∃ new answer, r.2 = tr ++ new ∧ r.1.1 = .ok answer ∧
      ∀ claims, answer = .ok claims ↔ Accepts cfg authorization new claims := by
  obtain ⟨new, answer, s', hexec, h⟩ := authenticate_cases env s tr authorization
  dsimp only
  refine ⟨new, answer, by rw [hexec], by rw [hexec], fun claims => ?_⟩
  cases h with
  | unread h => simp [Accepts, h]
  | malformed h e =>
    simp only [Accepts, reduceCtorEq, List.head?_cons, Option.some.injEq, false_iff]
    rintro ⟨token', header, key, payload, -, hhead, -⟩
    cases hhead
  | verified h header hv =>
    rw [verdict_ok]
    rcases hv.ends with ⟨e, rfl, hprep⟩ | ⟨prep, key, ans, hkey, -, rfl, rfl, -⟩
    · -- a run that failed before the last call has no `jwtVerify` at its end
      simp only [reduceCtorEq, false_and, exists_false, false_iff]
      rintro ⟨token', header', key, payload, -, -, -, hlast, -⟩
      have hmem := List.mem_of_getLast? hlast
      rcases List.mem_cons.mp hmem with heq | hnew
      · cases heq
      · simpa [prepares] using hprep _ hnew
    · constructor
      · rintro ⟨payload, hans, hmfa, hclaims⟩
        rw [fromJose_ok] at hans
        subst hans
        refine ⟨_, header, key, payload, h, rfl, hkey, ?_, hmfa, hclaims⟩
        rw [← List.cons_append, List.getLast?_concat]
      · rintro ⟨token', header', key', payload, -, -, -, hlast, hmfa, hclaims⟩
        refine ⟨payload, ?_, hmfa, hclaims⟩
        rw [← List.cons_append, List.getLast?_concat] at hlast
        cases hlast
        rfl

/-- What is known of a call by what came before it: a token is verified with the key of the
algorithm that its own header named, under the configured options, and with a JWKS only after one
was made. -/
def Routed (cfg : AuthConfig) (pre : Trace JoseCall JoseReply) (e : Event JoseCall JoseReply) :
    Prop :=
  ∀ token key options, e.op = .jwtVerify token key options →
    options = verifyOptions cfg ∧
    (∃ header, ⟨.decodeProtectedHeader token, .ok header⟩ ∈ pre ∧
      keyFor cfg header.alg = some key) ∧
    ∀ uri, key = .jwks uri → ∃ e ∈ pre, isCreation e = true

theorem not_jwtVerify_of_prepares {op : JoseCall} (h : prepares op = true) (t : String)
    (k : VerificationKey) (o : VerifyOptions) : op ≠ .jwtVerify t k o := by
  rintro rfl
  cases h

theorem each_of_quiet {new : Trace JoseCall JoseReply}
    (h : ∀ e ∈ new, ∀ t k o, e.op ≠ .jwtVerify t k o) :
    Trace.Each (fun pre e => Routed cfg (tr ++ pre) e) new := by
  rintro pre e post rfl t k o hop
  exact absurd hop (h e (by simp) t k o)

theorem made_le_one (s : AuthService cfg) : s.made ≤ 1 := Bool.toNat_le _

/-- the service counts the JWKS functions that were made, and every verification was routed -/
structure Served (cfg : AuthConfig) (w : AuthService cfg × Trace JoseCall JoseReply) : Prop where
  counted : w.2.countP isCreation = made w.1
  routed : w.2.Each (Routed cfg)

theorem Served.step {w : AuthService cfg × Trace JoseCall JoseReply} (h : Served cfg w)
    {authorization : Option HeaderValue} {new : Trace JoseCall JoseReply} {answer : AuthAnswer}
    {s' : AuthService cfg} (ha : Authentication cfg w.1 authorization new answer s') :
    Served cfg (s', w.2 ++ new) := by
  have hcount : (w.2 ++ new).countP isCreation = made s' := by
    rw [List.countP_append, h.counted, Nat.add_comm]
    cases ha with
    | unread => simp
    | malformed => simp [isCreation]
    | verified _ header hv =>
      rw [← hv.counted]
      simp [isCreation]
  refine ⟨hcount, h.routed.append ?_⟩
  cases ha with
  | unread => exact Trace.each_nil
  | malformed => exact each_of_quiet (by simp)
  | @verified token hb header vnew r _ hv =>
    rcases hv.ends with ⟨e, -, hprep⟩ | ⟨prep, key, ans, hkey, hprep, rfl, -, hjwks⟩
    · refine each_of_quiet ?_
      simpa using fun e he => not_jwtVerify_of_prepares (hprep e he)
    · have hquiet : ∀ e ∈ (⟨.decodeProtectedHeader token, .ok header⟩ :: prep :
          Trace JoseCall JoseReply), ∀ t k o, e.op ≠ .jwtVerify t k o := by
        simpa using fun e he => not_jwtVerify_of_prepares (hprep e he)
      rw [← List.cons_append] at hcount ⊢
      refine (each_of_quiet hquiet).snoc ?_
      rintro token' key' options hop
      obtain ⟨rfl, rfl, rfl⟩ := JoseCall.jwtVerify.inj hop
      refine ⟨rfl, ⟨header, by simp, hkey⟩, fun uri huri => ?_⟩
      rw [hjwks uri huri, ← List.append_assoc, List.countP_append] at hcount
      have hone : (w.2 ++ ⟨.decodeProtectedHeader token, .ok header⟩ :: prep).countP isCreation = 1 :=
        hcount
      obtain ⟨e, he, hcreation⟩ := List.countP_pos_iff.mp (by rw [hone]; exact Nat.one_pos)
      exact ⟨e, he, hcreation⟩

/-- Over any sequence of requests and for any behaviour of `jose`: every `jwtVerify` uses the key of
the algorithm in the token's own header, with the configured options, and the JWKS function is made
once at most. -/
theorem serve_routed (cfg : AuthConfig) (env : Env JoseCall JoseReply)
    (authorizations : List (Option HeaderValue)) :
    let w := serve cfg env authorizations ({}, [])
    w.2.Each (Routed cfg) ∧ w.2.countP isCreation ≤ 1 := by
  have hrun : ∀ w, Served cfg w → Served cfg (serve cfg env authorizations w) := by
    induction authorizations with
    | nil => exact fun w hw => hw
    | cons a as ih =>
      intro w hw
      obtain ⟨new, answer, s', hexec, ha⟩ := authenticate_cases env w.1 w.2 a
      have hnext := ih (s', w.2 ++ new) (hw.step ha)
      simpa [serve, hexec] using hnext
  have hserved := hrun ({}, []) ⟨rfl, Trace.each_nil⟩
  exact ⟨hserved.routed, hserved.counted ▸ made_le_one _⟩

end ZTG.AuthService
