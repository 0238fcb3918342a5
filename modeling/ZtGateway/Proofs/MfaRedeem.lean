import ZtGateway.Sanity.Mfa
import ZtGateway.Proofs.Forward

/-! When a minted token is redeemable, and when the step-up of a CHALLENGE request
completes. -/

namespace ZTG

open Act

variable {svc : MfaDeps} {st : MfaState}

/-- The call does not revoke `jti`. -/
def SparesToken (jti : String) (_ : MfaState) (op : MfaOp) : Prop :=
  ∀ now, op ≠ .revokeMfaToken now jti

theorem run_keeps_row {jti : String} {row : MfaTokenRow} (h : st.tokenRow jti = some row)
    {ops : List MfaOp} (hops : Along (mfaStep svc) (SparesToken jti) st ops) :
    (runSteps (mfaStep svc) st ops).tokenRow jti = some row := by
  have hstep : ∀ st op, MfaState.tokenRow st jti = some row → SparesToken jti st op →
      (mfaStep svc st op).tokenRow jti = some row :=
    fun st op hst hop => mfaCall_keeps_row hst op hop
  exact runSteps_invariant hstep h hops

/-- The row that answers for a freshly minted token: its own, or the one whose id it collided
with. -/
theorem minted_row {op : MfaOp} {d : MintDraws} {userId deviceId ip token : String} {expiresAt : ℕ}
    (hop : op.mints = some (d, userId, deviceId, ip))
    (htok : (mfaCall svc st op).1.token = some (token, expiresAt)) :
    token = svc.jose.sign (mintedClaims svc d userId deviceId ip) ∧
      expiresAt = d.now + svc.cfg.tokenTtlMs ∧
      (st.tokenRow d.jti = none ∧
          (mfaStep svc st op).tokenRow d.jti = some (mintedRow svc d userId deviceId ip d.jti) ∨
        ∃ row, st.tokenRow d.jti = some row ∧ (mfaStep svc st op).tokenRow d.jti = some row) := by
  have hch := @mfaCall_tokens svc st op
  have hkeep : ∀ row, st.tokenRow d.jti = some row →
      (mfaStep svc st op).tokenRow d.jti = some row := fun row hrow =>
    mfaCall_keeps_row hrow op fun now hnow => by simp [hnow, MfaOp.mints] at hop
  rw [htok] at hch
  unfold mfaStep at hkeep ⊢
  generalize htokens : (mfaCall svc st op).2.tokens = tokens at hch
  cases hch with
  | minted d' userId' deviceId' ip' id hop' hfresh hid =>
    rw [hop] at hop'
    simp only [Option.some.injEq, Prod.mk.injEq] at hop'
    obtain ⟨rfl, rfl, rfl, rfl⟩ := hop'
    refine ⟨rfl, rfl, ?_⟩
    rcases hrow : st.tokenRow d.jti with _ | row
    · have hid : id = d.jti := by
        rcases hid with hid | ⟨hsome, -⟩
        · exact hid
        · simp [hrow] at hsome
      subst hid
      refine .inl ⟨rfl, ?_⟩
      unfold MfaState.tokenRow at hrow ⊢
      rw [htokens, List.find?_append, hrow]
      simp [mintedRow]
    · exact .inr ⟨row, rfl, hkeep row hrow⟩

/-- jose's round trip on the claims of one minting call: accepted, unchanged, until they expire -/
def RoundTrips (svc : MfaDeps) (d : MintDraws) (userId deviceId ip : String) : Prop :=
  ∀ sec, svc.jose.verify (svc.jose.sign (mintedClaims svc d userId deviceId ip)) sec =
    if sec < (mintedClaims svc d userId deviceId ip).exp then
      some (mintedClaims svc d userId deviceId ip)
    else none

/-- Who can redeem a minted token before the second of its expiry: whoever has the fingerprint
of the row that answers for it. -/
theorem minted_accepted_iff {op : MfaOp} {d : MintDraws} {userId deviceId ip token : String}
    {expiresAt : ℕ} (hop : op.mints = some (d, userId, deviceId, ip))
    (htok : (mfaCall svc st op).1.token = some (token, expiresAt))
    (hround : RoundTrips svc d userId deviceId ip) {ops : List MfaOp}
    (hops : Along (mfaStep svc) (SparesToken d.jti) (mfaStep svc st op) ops) {v : ValidateDraws}
    (hverify : v.verifiedAt < expiresAt / 1000 * 1000) (hread : v.readAt < expiresAt / 1000 * 1000)
    (userId' deviceId' ip' : String) (ja4h : Option String) :
    (∃ claims, (validateMfaToken svc (runSteps (mfaStep svc) (mfaStep svc st op) ops) v token
      userId' deviceId' ip' ja4h).1 = .ok claims) ↔
      v.selectFault = none ∧
        (st.tokenRow d.jti = none ∧
            fingerprint svc.crypto userId deviceId ip =
              fingerprint svc.crypto userId' deviceId' ip' ∨
          ∃ row, st.tokenRow d.jti = some row ∧ row.revokedAt = none ∧ v.readAt < row.expiresAt ∧
            row.fingerprintHash = fingerprint svc.crypto userId' deviceId' ip') := by
  obtain ⟨rfl, rfl, hrow⟩ := minted_row hop htok
  have hsec : v.verifiedAt / 1000 < (mintedClaims svc d userId deviceId ip).exp := by
    show v.verifiedAt / 1000 < (d.now + svc.cfg.tokenTtlMs) / 1000
    omega
  have hlive : v.readAt < d.now + svc.cfg.tokenTtlMs := by omega
  simp only [validateMfaToken_ok_iff, hround _, if_pos hsec, Option.some.injEq]
  rcases hrow with ⟨hnone, hrow⟩ | ⟨row, hsome, hrow⟩
  · have hrow := run_keeps_row hrow hops
    constructor
    · rintro ⟨claims, rfl, -, hsel, row', hrow', -, -, hfp⟩
      obtain rfl := Option.some.inj (hrow.symm.trans hrow')
      exact ⟨hsel, .inl ⟨hnone, hfp⟩⟩
    · rintro ⟨hsel, ⟨-, hfp⟩ | ⟨row, hsome, -⟩⟩
      · exact ⟨_, rfl, rfl, hsel, _, hrow, rfl, hlive, hfp⟩
      · simp [hnone] at hsome
  · have hrow := run_keeps_row hrow hops
    constructor
    · rintro ⟨claims, rfl, -, hsel, row', hrow', hok⟩
      obtain rfl := Option.some.inj (hrow.symm.trans hrow')
      exact ⟨hsel, .inr ⟨row, hsome, hok⟩⟩
    · rintro ⟨hsel, ⟨hnone, -⟩ | ⟨row', hsome', hok⟩⟩
      · simp [hsome] at hnone
      · obtain rfl := Option.some.inj (hsome.symm.trans hsome')
        exact ⟨_, rfl, rfl, hsel, row, hrow, hok⟩

/-- A minted token is redeemed, at any time before the second of its expiry, exactly when the
select answers and its id was free at the mint or taken by a row that redeems it as well. -/
theorem minted_redeemable (svc : MfaDeps) (st : MfaState) (op : MfaOp) (d : MintDraws)
    (userId deviceId ip token : String) (expiresAt : ℕ)
    (hop : op.mints = some (d, userId, deviceId, ip))
    (htok : (mfaCall svc st op).1.token = some (token, expiresAt))
    (hround : RoundTrips svc d userId deviceId ip) (ops : List MfaOp)
    (hops : Along (mfaStep svc) (SparesToken d.jti) (mfaStep svc st op) ops) (v : ValidateDraws)
    (ja4h : Option String) (hverify : v.verifiedAt < expiresAt / 1000 * 1000)
    (hread : v.readAt < expiresAt / 1000 * 1000) :
    (∃ claims, (validateMfaToken svc (runSteps (mfaStep svc) (mfaStep svc st op) ops) v token
      userId deviceId ip ja4h).1 = .ok claims) ↔
      v.selectFault = none ∧ (st.tokenRow d.jti = none ∨ ∃ row, st.tokenRow d.jti = some row ∧
        row.revokedAt = none ∧ v.readAt < row.expiresAt ∧
        row.fingerprintHash = fingerprint svc.crypto userId deviceId ip) := by
  rw [minted_accepted_iff hop htok hround hops hverify hread]
  simp

/-- a key, the TOTP secret `JBSWY3DPEHPK3PXP` encrypted under it, and that secret's first code -/
def sampleKey : String := "AAECAwQFBgcICQoLDA0ODxAREhMUFRYXGBkaGxwdHh8="

def sampleCiphertext : String := "AAECAwQFBgcICQoLDUCFTJzWhkvICcfAgrkgPZcmnBjJQCIzDFgF1zasTeg="

def sampleBuffer : Buffer :=
  [0, 1, 2, 3, 4, 5, 6, 7, 8, 9, 10, 11, 13, 64, 133, 76, 156, 214, 134, 75, 200, 9, 199, 192, 130,
    185, 32, 61, 151,
    38, 156, 24, 201, 64, 34, 51, 12, 88, 5, 215, 54, 172, 77, 232]

def sampleSecret : Buffer := "JBSWY3DPEHPK3PXP".toList.map fun c => BitVec.ofNat 8 c.toNat

def sampleHashes : List (String × String) :=
  [("alice|d|10.0.0.7", "38d7f64b8e52a7fb2d789ad4a65c10a222952cfafb298356762957b7415327de"),
    ("alice||10.0.0.7", "e244a813c2b8b80e4b0cc98782de5d11ec110dcc043a2bfa4ee6092efb4e8131"),
    ("bob|d|10.0.0.7", "12b56ce12459492f73e95bdfa9437e5cd0190921b2f1bf9f53fab73663a757ad"),
    ("a|b|c|10.0.0.7", "94f4eae3bce3520fde174ba568fb1355a975bcb6125a92db3b71841ae0665cc2")]

/-- the primitives, on the inputs of the runs below -/
def sampleCrypto : Crypto where
  sha256Hex s := (sampleHashes.lookup s).getD ""
  hmacSha1 key msg :=
    if key = [72, 101, 108, 108, 111, 33, 222, 173, 190, 239] ∧ msg = List.replicate 8 0 then
      [44, 216, 233, 4, 227, 149, 167, 65, 72, 119, 170, 47, 130, 97, 225, 36, 53, 114, 196, 53]
    else List.replicate 20 0
  hmacSha1_length key msg := by split_ifs <;> rfl
  gcmOpen key iv ciphertext authTag :=
    if key = (List.range 32).map (BitVec.ofNat 8) ∧ iv ++ ciphertext ++ authTag = sampleBuffer then
      some sampleSecret
    else none
  base64Decode s :=
    if s = sampleKey then (List.range 32).map (BitVec.ofNat 8)
    else if s = sampleCiphertext then sampleBuffer else []
  utf8Decode b := String.ofList (b.map fun x => Char.ofNat x.toNat)
  toUpperCase s := String.ofList (s.toList.map Char.toUpper)

def sampleMint : MintDraws :=
  { jti := "7d0c2f2e-52a1-4f0e-9d3b-1f6c8e2a9b10",
    retryId := "0b9e6a34-6a7f-4b8e-8a51-3c5d2e7f1a90", now := 59000, signedAt := 59000,
    rowAt := 59000 }

/-- HS256 over the claims of a token for `alice`, `d` -/
def aliceJwt : String :=
  "eyJhbGciOiJIUzI1NiJ9.eyJzdWIiOiJhbGljZSIsImp0aSI6IjdkMGMyZjJlLTUyYTEtNGYwZS05ZDNiLTFmNmM4ZTJhOWI" ++
  "xMCIsImRldmljZUlkIjoiZCIsImZwSGFzaCI6IjM4ZDdmNjRiOGU1MmE3ZmIyZDc4OWFkNGE2NWMxMGEyMjI5NTJjZmFmYjI" ++
  "5ODM1Njc2Mjk1N2I3NDE1MzI3ZGUiLCJ0eXAiOiJtZmEiLCJpYXQiOjU5LCJleHAiOjY1OX0._ACslVuUJgSCz8OuWuahsto" ++
  "qeciHcgrjQXJ6mNlhlpU"

/-- the same for `alice` and no device -/
def noDeviceJwt : String :=
  "eyJhbGciOiJIUzI1NiJ9.eyJzdWIiOiJhbGljZSIsImp0aSI6IjdkMGMyZjJlLTUyYTEtNGYwZS05ZDNiLTFmNmM4ZTJhOWI" ++
  "xMCIsImRldmljZUlkIjoiIiwiZnBIYXNoIjoiZTI0NGE4MTNjMmI4YjgwZTRiMGNjOTg3ODJkZTVkMTFlYzExMGRjYzA0M2E" ++
  "yYmZhNGVlNjA5MmVmYjRlODEzMSIsInR5cCI6Im1mYSIsImlhdCI6NTksImV4cCI6NjU5fQ.Q4au5lss-e8HwoWJpOzK-3MJ" ++
  "pmQk65jV_pwhLVssvfY"

/-- the same for `a` and the device `b|c` -/
def pipeJwt : String :=
  "eyJhbGciOiJIUzI1NiJ9.eyJzdWIiOiJhIiwianRpIjoiN2QwYzJmMmUtNTJhMS00ZjBlLTlkM2ItMWY2YzhlMmE5YjEwIiw" ++
  "iZGV2aWNlSWQiOiJifGMiLCJmcEhhc2giOiI5NGY0ZWFlM2JjZTM1MjBmZGUxNzRiYTU2OGZiMTM1NWE5NzViY2I2MTI1YTk" ++
  "yZGIzYjcxODQxYWUwNjY1Y2MyIiwidHlwIjoibWZhIiwiaWF0Ijo1OSwiZXhwIjo2NTl9.eN1-wfU4AWxcW-K5o90jSP2PBd" ++
  "ZvbcaCmnCH9xOnX1k"

def sampleClaimsFor (sub deviceId fpHash : String) : MfaTokenClaims :=
  { sub := sub, jti := sampleMint.jti, deviceId := deviceId, fpHash := fpHash, typ := "mfa",
    iat := 59, exp := 659 }

def sampleTokens : List (MfaTokenClaims × String) :=
  [(sampleClaimsFor "alice" "d" "38d7f64b8e52a7fb2d789ad4a65c10a222952cfafb298356762957b7415327de",
      aliceJwt),
    (sampleClaimsFor "alice" "" "e244a813c2b8b80e4b0cc98782de5d11ec110dcc043a2bfa4ee6092efb4e8131",
      noDeviceJwt),
    (sampleClaimsFor "a" "b|c" "94f4eae3bce3520fde174ba568fb1355a975bcb6125a92db3b71841ae0665cc2",
      pipeJwt)]

def sampleJose : Jose where
  sign c := (sampleTokens.lookup c).getD ""
  verify token sec :=
    match sampleTokens.find? fun p => p.2 == token with
    | some (c, _) => if sec < c.exp then some c else none
    | none => none

def sampleMfa : MfaDeps where
  cfg := { totpEncryptionKey := sampleKey, challengeTtlMs := 300000, tokenTtlMs := 600000,
           rateLimitMax := 5, rateLimitWindowMs := 60000 }
  crypto := sampleCrypto
  jose := sampleJose

private theorem sampleJose_verify {token t : String} {c : MfaTokenClaims}
    (h : (sampleTokens.find? fun p => p.2 == token) = some (c, t)) (sec : ℕ) :
    sampleMfa.jose.verify token sec = if sec < c.exp then some c else none := by
  unfold sampleMfa sampleJose
  simp only [h]

theorem sample_roundTrips : RoundTrips sampleMfa sampleMint "alice" "d" "10.0.0.7" := by
  intro sec
  have hfind : (sampleTokens.find? fun p =>
      p.2 == sampleMfa.jose.sign (mintedClaims sampleMfa sampleMint "alice" "d" "10.0.0.7")) =
      some (mintedClaims sampleMfa sampleMint "alice" "d" "10.0.0.7", aliceJwt) := by decide +kernel
  exact sampleJose_verify hfind sec

def sampleDemoMint : MfaOp := .mintDemoMfaToken sampleMint "alice" "d" "10.0.0.7"

def sampleValidate : ValidateDraws := { verifiedAt := 658000, readAt := 658999, failedAt := 658999 }

theorem minted_redeemable_sample :
    ∃ claims, (validateMfaToken sampleMfa (mfaStep sampleMfa {} sampleDemoMint) sampleValidate
      aliceJwt "alice" "d" "10.0.0.7" none).1 = .ok claims :=
  (minted_redeemable sampleMfa {} sampleDemoMint sampleMint "alice" "d" "10.0.0.7" aliceJwt 659000
    rfl (by decide +kernel) sample_roundTrips [] trivial sampleValidate none (by decide)
    (by decide)).mpr ⟨rfl, .inl rfl⟩

/-- a table in which Bob's row has the id that is drawn next -/
def collidingState : MfaState :=
  { tokens := [{ jti := sampleMint.jti, userId := "bob",
                 fingerprintHash := "12b56ce12459492f73e95bdfa9437e5cd0190921b2f1bf9f53fab73663a757ad",
                 issuedAt := 0, expiresAt := 600000 }] }

/-- The retry stores Alice's row under a fresh id, but her token still names the old one. -/
theorem retried_mint_not_redeemable :
    (mfaCall sampleMfa collidingState sampleDemoMint).1.token = some (aliceJwt, 659000) ∧
    (validateMfaToken sampleMfa (mfaStep sampleMfa collidingState sampleDemoMint)
      { verifiedAt := 60000, readAt := 60000, failedAt := 60000 }
      aliceJwt "alice" "d" "10.0.0.7" none).1 = .fail .fingerprintMismatch := by
  decide +kernel

/-- SHA-256 does not collide on the two texts. -/
def HashSeparates (c : Crypto) (s s' : String) : Prop := c.sha256Hex s = c.sha256Hex s' → s = s'

private theorem fingerprintText_device_inj {userId deviceId deviceId' ip : String}
    (h : fingerprintText userId deviceId ip = fingerprintText userId deviceId' ip) :
    deviceId = deviceId' := by
  have h := congrArg String.toList h
  simp only [fingerprintText, String.toList_append, List.append_assoc, List.append_cancel_left_eq,
    List.append_cancel_right_eq] at h
  exact String.toList_inj.mp h

/-- A CHALLENGE request with a token is promoted exactly when the token validates. -/
theorem promoted_iff {cfg : GatewayConfig} {env : Env Call Reply} {ctx : StageContext}
    {tr : Trace Call Reply} {claims : UserClaims} {d : PolicyDecision} {token : String}
    {answer : MfaValidateResult} (hc : ctx.claims = some claims) (hd : ctx.policyDecision = some d)
    (hdec : d.decision = .challenge) (hhdr : ctx.req.header "x-mfa-token" = some token)
    (hne : token ≠ "")
    (henv : env tr (.validateMfaToken token claims.userId claims.deviceId (extractIp ctx.req)
      ctx.ja4h) = .ok answer) :
    (∃ tr', exec env (mfaPromotionStage cfg).run ctx tr = ((.ok .continue_, ctx), tr')) ↔
      ∃ c, answer = .ok c := by
  obtain rfl : (ctx.req.header "x-mfa-token").getD "" = token := by rw [hhdr]; rfl
  simp only [mfaPromotionStage]
  rw [exec_bind, exec_get]
  simp only [hc, hd, hdec, if_neg hne]
  rw [exec_bind, exec_call, henv]
  cases answer with
  | ok c => exact iff_of_true ⟨_, rfl⟩ ⟨c, rfl⟩
  | fail reason =>
    refine iff_of_false ?_ (by simp)
    rintro ⟨tr', h⟩
    exact absurd h (Returns.not_ok (rejectMfa_returns _ _))

theorem verify_ok {d : VerifyDraws} {user : UserClaims} {req : Request} {dto : VerifyMfaDto}
    {token : String} {expiresAt : ℕ} {st' : MfaState}
    (h : MfaController.verify svc st d user req dto =
      ((200, .obj [("token", .str token), ("expiresAt", .num (.num expiresAt))]), st')) :
    verifyTotp svc st d dto.challengeId dto.totpCode user.userId (extractIp req)
      ((extractDeviceId req).getD "") (extractJa4h req) = (.ok token expiresAt, st') := by
  unfold MfaController.verify at h
  split at h
  · next hv =>
    simp only [Prod.mk.injEq, Json.obj.injEq, List.cons.injEq, Json.str.injEq, Json.num.injEq,
      JsNum.num.injEq, Nat.cast_inj, true_and, and_true] at h
    obtain ⟨⟨rfl, rfl⟩, rfl⟩ := h
    exact hv
  · simp at h

theorem verify_of_totp {d : VerifyDraws} {user : UserClaims} {req : Request} {dto : VerifyMfaDto}
    {token : String} {expiresAt : ℕ}
    (h : (verifyTotp svc st d dto.challengeId dto.totpCode user.userId (extractIp req)
      ((extractDeviceId req).getD "") (extractJa4h req)).1 = .ok token expiresAt) :
    MfaController.verify svc st d user req dto =
      ((200, .obj [("token", .str token), ("expiresAt", .num (.num expiresAt))]),
        (MfaController.verify svc st d user req dto).2) := by
  unfold MfaController.verify
  generalize verifyTotp svc st d dto.challengeId dto.totpCode user.userId (extractIp req)
    ((extractDeviceId req).getD "") (extractJa4h req) = r at h
  obtain ⟨r, st'⟩ := r
  obtain rfl : r = .ok token expiresAt := h
  rfl

/-- A token from `/mfa/verify` promotes a later CHALLENGE request of the same user and address
exactly when the `x-device-id` header of the verification named the device of the claims (or
the id of the token was taken by a row that would let it through). -/
theorem stepUp_completes (svc : MfaDeps) (st : MfaState) (d : VerifyDraws) (user : UserClaims)
    (req : Request) (dto : VerifyMfaDto) (token : String) (expiresAt : ℕ) (st' : MfaState)
    (hok : MfaController.verify svc st d user req dto =
      ((200, .obj [("token", .str token), ("expiresAt", .num (.num expiresAt))]), st'))
    (hround : RoundTrips svc d.mint user.userId ((extractDeviceId req).getD "") (extractIp req))
    (hsha : HashSeparates svc.crypto
      (fingerprintText user.userId ((extractDeviceId req).getD "") (extractIp req))
      (fingerprintText user.userId user.deviceId (extractIp req)))
    (hne : token ≠ "") (ops : List MfaOp)
    (hops : Along (mfaStep svc) (SparesToken d.mint.jti) st' ops)
    (v : ValidateDraws) (hverify : v.verifiedAt < expiresAt / 1000 * 1000)
    (hread : v.readAt < expiresAt / 1000 * 1000) (cfg : GatewayConfig) (env : Env Call Reply)
    (ctx : StageContext) (tr : Trace Call Reply) (hclaims : ctx.claims = some user)
    (decision : PolicyDecision) (hdecision : ctx.policyDecision = some decision)
    (hchallenge : decision.decision = .challenge)
    (hheader : ctx.req.header "x-mfa-token" = some token) (hip : extractIp ctx.req = extractIp req)
    (henv : env tr (.validateMfaToken token user.userId user.deviceId (extractIp ctx.req)
      ctx.ja4h) = .ok (validateMfaToken svc (runSteps (mfaStep svc) st' ops) v token user.userId
        user.deviceId (extractIp ctx.req) ctx.ja4h).1) :
    (∃ tr', exec env (mfaPromotionStage cfg).run ctx tr = ((.ok .continue_, ctx), tr')) ↔
      v.selectFault = none ∧
        (st.tokenRow d.mint.jti = none ∧ (extractDeviceId req).getD "" = user.deviceId ∨
        ∃ row, st.tokenRow d.mint.jti = some row ∧ row.revokedAt = none ∧ v.readAt < row.expiresAt ∧
          row.fingerprintHash =
            fingerprint svc.crypto user.userId user.deviceId (extractIp req)) := by
  have hv := verify_ok hok
  set op : MfaOp := .verifyTotp d dto.challengeId dto.totpCode user.userId (extractIp req)
    ((extractDeviceId req).getD "") (extractJa4h req) with hop
  have hcall : mfaCall svc st op = (.verified (.ok token expiresAt), st') := by
    simp [hop, mfaCall, hv]
  have hst : mfaStep svc st op = st' := by rw [mfaStep, hcall]
  rw [promoted_iff hclaims hdecision hchallenge hheader hne henv, ← hst, hip]
  rw [minted_accepted_iff (by rfl) (by rw [hcall]; rfl) hround (by rwa [hst]) hverify hread]
  have hfp : fingerprint svc.crypto user.userId ((extractDeviceId req).getD "") (extractIp req) =
      fingerprint svc.crypto user.userId user.deviceId (extractIp req) ↔
      (extractDeviceId req).getD "" = user.deviceId := by
    constructor
    · exact fun h => fingerprintText_device_inj (hsha h)
    · intro h
      rw [h]
  rw [hfp]

def enrolledState : MfaState :=
  { challenges := [{ challengeId := "c1", userId := "alice", createdAt := 0, expiresAt := 300000 }],
    secrets := [("alice", sampleCiphertext)] }

def sampleVerify : VerifyDraws :=
  { checkedAt := 59000, totpAt := 59000, mint := sampleMint, failedAt := 59000 }

def sampleCode : VerifyMfaDto := { challengeId := "c1", totpCode := "282760" }

def verifyRequest (headers : List (String × HeaderValue)) : Request :=
  { method := "POST", originalUrl := some "/mfa/verify", headers := headers,
    remoteAddress := some "10.0.0.7" }

/-- a CHALLENGE request of Alice that carries `token` -/
def challengedContext (token : String) : StageContext :=
  { req := { method := "GET", originalUrl := some "/users/1",
             headers := [("x-mfa-token", .one token)], remoteAddress := some "10.0.0.7" },
    requestId := "r", startedAt := 0, reqPath := "/users/1", claims := some sampleClaims,
    policyDecision := some { decision := .challenge, reason := "risk_threshold", score := .num 0 } }

/-- a world whose MFA tables are `st` -/
def validatingEnv (st : MfaState) : Env Call Reply := fun tr op =>
  match op with
  | .validateMfaToken token userId deviceId ip ja4h =>
    .ok (validateMfaToken sampleMfa st sampleValidate token userId deviceId ip ja4h).1
  | op => sampleEnv tr op

/-- the tables after Alice's verification with these headers -/
def verifiedState (headers : List (String × HeaderValue)) : MfaState :=
  (MfaController.verify sampleMfa enrolledState sampleVerify sampleClaims
    (verifyRequest headers) sampleCode).2

private theorem validatingEnv_validate (st : MfaState) (tr : Trace Call Reply)
    (token userId deviceId ip : String) (ja4h : Option String) :
    validatingEnv st tr (.validateMfaToken token userId deviceId ip ja4h) =
      .ok (validateMfaToken sampleMfa st sampleValidate token userId deviceId ip ja4h).1 := rfl

theorem stepUp_completes_sample :
    ∃ tr', exec (validatingEnv (verifiedState [("x-device-id", .one "d")]))
      (mfaPromotionStage sampleConfig).run (challengedContext aliceJwt) [] =
        ((.ok .continue_, challengedContext aliceJwt), tr') := by
  have hdevice : (extractDeviceId (verifyRequest [("x-device-id", .one "d")])).getD "" = "d" := by
    decide +kernel
  have hip : extractIp (verifyRequest [("x-device-id", .one "d")]) = "10.0.0.7" := by decide +kernel
  have hround : RoundTrips sampleMfa sampleVerify.mint sampleClaims.userId
      ((extractDeviceId (verifyRequest [("x-device-id", .one "d")])).getD "")
      (extractIp (verifyRequest [("x-device-id", .one "d")])) := by
    rw [hdevice, hip]
    exact sample_roundTrips
  refine (stepUp_completes sampleMfa enrolledState sampleVerify sampleClaims
    (verifyRequest [("x-device-id", .one "d")]) sampleCode aliceJwt 659000 _
    (verify_of_totp (by decide +kernel)) hround (fun _ => by rw [hdevice]; rfl) (by decide +kernel)
    [] trivial sampleValidate (by decide) (by decide) sampleConfig _ (challengedContext aliceJwt) []
    rfl _ rfl rfl (by decide +kernel)
      (by decide +kernel)
    (validatingEnv_validate ..)).mpr ⟨rfl, .inl ⟨by decide +kernel, hdevice⟩⟩

/-- Alice verifies without the header and gets a token; her next request is not promoted. -/
theorem stepUp_without_header :
    MfaController.verify sampleMfa enrolledState sampleVerify sampleClaims (verifyRequest [])
      sampleCode =
      ((200, .obj [("token", .str noDeviceJwt), ("expiresAt", .num (.num (659000 : ℕ)))]),
        verifiedState []) ∧
    ¬ ∃ tr', exec (validatingEnv (verifiedState [])) (mfaPromotionStage sampleConfig).run
      (challengedContext noDeviceJwt) [] =
        ((.ok .continue_, challengedContext noDeviceJwt), tr') := by
  refine ⟨verify_of_totp (by decide +kernel), ?_⟩
  have hfail : (validateMfaToken sampleMfa (verifiedState []) sampleValidate noDeviceJwt
      "alice" "d" "10.0.0.7" none).1 = .fail .fingerprintMismatch := by decide +kernel
  have hip : extractIp (challengedContext noDeviceJwt).req = "10.0.0.7" := by decide +kernel
  rw [promoted_iff rfl rfl rfl (by decide +kernel) (by decide +kernel)
    ((validatingEnv_validate ..).trans (congrArg Except.ok (hip ▸ hfail)))]
  simp

end ZTG
