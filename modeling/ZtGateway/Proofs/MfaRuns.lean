import ZtGateway.Proofs.MfaRedeem

/-! Whole runs of `MfaChallenger`: whose challenge a verification uses, and for whom
a token that validates was minted. -/

namespace ZTG

open Act

variable {svc : MfaDeps} {st : MfaState}

/-- The challenge a verification names is the caller's, is over, or comes with a code the caller's
secret does not accept. -/
def OwnChallenge (svc : MfaDeps) (w : MfaWorld) : MfaOp → Prop
  | .verifyTotp d challengeId totpCode userId _ _ _ =>
    ∀ row, w.state.getChallenge challengeId = some row →
      row.userId = userId ∨ row.expiresAt < d.checkedAt ∨
        ¬ AcceptsCode svc w.state userId totpCode d.totpAt
  | _ => True

/-- Every challenge row was created by a call in the log, for the user it names. -/
def ChallengesLogged (w : MfaWorld) : Prop :=
  ∀ row ∈ w.state.challenges, ∃ d ip ja4h, (MfaOp.createChallenge d row.userId ip ja4h,
    MfaReply.created (.ok row.challengeId (.num row.expiresAt))) ∈ w.log

theorem step_challengesLogged (w : MfaWorld) (op : MfaOp) (h : ChallengesLogged w) :
    ChallengesLogged (MfaWorld.step svc w op) := by
  have hold : ∀ row ∈ w.state.challenges, ∃ d ip ja4h, (MfaOp.createChallenge d row.userId ip ja4h,
      MfaReply.created (.ok row.challengeId (.num row.expiresAt))) ∈
        (MfaWorld.step svc w op).log := by
    intro row hrow
    obtain ⟨d, ip, ja4h, hmem⟩ := h row hrow
    exact ⟨d, ip, ja4h, List.mem_append_left _ hmem⟩
  intro row hrow
  rcases @mfaCall_challenges svc w.state op with hsame | ⟨d, userId, ip, ja4h, rfl, hreply, hnew⟩
  · exact hold row (hsame ▸ hrow)
  · rw [show (MfaWorld.step svc w (.createChallenge d userId ip ja4h)).state.challenges = _
      from hnew] at hrow
    rcases List.mem_append.mp hrow with hrow | hrow
    · exact hold row hrow
    · obtain rfl := List.mem_singleton.mp hrow
      refine ⟨d, ip, ja4h, List.mem_append_right _ (List.mem_singleton.mpr ?_)⟩
      simp [hreply]

/-- In a run whose verifications all meet `OwnChallenge`, a verification that succeeds used a
challenge that was created for the same user and was not over. -/
theorem challenge_of_its_user (svc : MfaDeps) (secrets : List (String × String)) (ops : List MfaOp)
    (hops : Along (MfaWorld.step svc) (OwnChallenge svc) { state := { secrets := secrets } } ops)
    (pre post : List (MfaOp × MfaReply)) (d : VerifyDraws)
    (challengeId totpCode userId ip deviceId token : String) (ja4h : Option String) (expiresAt : ℕ)
    (hlog : (runSteps (MfaWorld.step svc) { state := { secrets := secrets } } ops).log =
      pre ++ (.verifyTotp d challengeId totpCode userId ip deviceId ja4h,
        .verified (.ok token expiresAt)) :: post) :
    ∃ dc ip' ja4h' until_, (MfaOp.createChallenge dc userId ip' ja4h',
      MfaReply.created (.ok challengeId (.num (until_ : ℕ)))) ∈ pre ∧ d.checkedAt ≤ until_ := by
  obtain ⟨ops₁, ops₂, rfl, rfl, hreply⟩ := mfaLog_split rfl hlog
  obtain ⟨hearlier, hown⟩ := hops.at
  set w := runSteps (MfaWorld.step svc) { state := { secrets := secrets } } ops₁
  have hinv : ChallengesLogged w := by
    refine runSteps_invariant (fun w op hw _ => step_challengesLogged w op hw) ?_ hearlier
    intro row hrow
    simp at hrow
  rcases verifyTotp_cases svc w.state d challengeId totpCode userId ip deviceId ja4h with
    ⟨reason, st', h, -⟩ | ⟨⟨row, hrow, hlive⟩, hcode, -⟩
  · simp [mfaCall, h] at hreply
  · have huser : row.userId = userId := by
      rcases hown row hrow with h | h | h
      · exact h
      · omega
      · exact absurd hcode h
    have hid : row.challengeId = challengeId := by simpa using List.find?_some hrow
    obtain ⟨dc, ip', ja4h', hmem⟩ := hinv row (List.mem_of_find?_eq_some hrow)
    exact ⟨dc, ip', ja4h', row.expiresAt, huser ▸ hid ▸ hmem, hlive⟩

/-- a deployment in which Alice is enrolled -/
def aliceEnrolled : List (String × String) := [("alice", sampleCiphertext)]

def sampleChallenge (userId : String) : MfaOp :=
  .createChallenge { challengeId := "c1", now := 0, rowAt := 0, failedAt := 0 }
    userId "10.0.0.7" none

def sampleVerification : MfaOp := .verifyTotp sampleVerify "c1" "282760" "alice" "10.0.0.7" "d" none

theorem challenge_of_its_user_sample :
    ∃ dc ip' ja4h' until_, (MfaOp.createChallenge dc "alice" ip' ja4h',
        MfaReply.created (.ok "c1" (.num (until_ : ℕ)))) ∈
      [(sampleChallenge "alice", MfaReply.created (.ok "c1" (.num 300000)))] ∧ 59000 ≤ until_ := by
  have hrow : (runSteps (MfaWorld.step sampleMfa) { state := { secrets := aliceEnrolled } }
      [sampleChallenge "alice"]).state.getChallenge "c1" =
      some { challengeId := "c1", userId := "alice", createdAt := 0,
             expiresAt := 300000 } := by decide +kernel
  refine challenge_of_its_user sampleMfa aliceEnrolled
    [sampleChallenge "alice", sampleVerification] ?_ _ []
    sampleVerify "c1" "282760" "alice" "10.0.0.7" "d" aliceJwt none 659000 (by decide +kernel)
  refine ⟨trivial, fun row h => .inl ?_, trivial⟩
  obtain rfl := Option.some.inj (hrow.symm.trans h)
  rfl

/-- Bob's challenge serves Alice's verification; no challenge was ever created for her. -/
theorem foreign_challenge_accepted :
    (runSteps (MfaWorld.step sampleMfa) { state := { secrets := aliceEnrolled } }
      [sampleChallenge "bob", sampleVerification]).log =
      [(sampleChallenge "bob", .created (.ok "c1" (.num 300000))),
        (sampleVerification, .verified (.ok aliceJwt 659000))] ∧
    ∀ dc ip ja4h, sampleChallenge "bob" ≠ .createChallenge dc "alice" ip ja4h := by
  refine ⟨by decide +kernel, fun dc ip ja4h h => ?_⟩
  simp [sampleChallenge] at h

/-- the values of `randomUUID()` a call draws, used or not -/
def MfaOp.drawn : MfaOp → List String
  | .createChallenge d _ _ _ => [d.challengeId]
  | .verifyTotp d _ _ _ _ _ _ => [d.mint.jti, d.mint.retryId]
  | .mintDemoMfaToken d _ _ _ => [d.jti, d.retryId]
  | _ => []

/-- the text a call hashes -/
def MfaOp.hashed : MfaOp → Option String
  | .verifyTotp _ _ _ userId ip deviceId _ => some (fingerprintText userId deviceId ip)
  | .mintDemoMfaToken _ userId deviceId ip => some (fingerprintText userId deviceId ip)
  | .validateMfaToken _ _ userId deviceId ip _ => some (fingerprintText userId deviceId ip)
  | _ => none

/-- A minting call does not bind a text that holds the separator. -/
def MfaOp.NoSeparator (op : MfaOp) : Prop :=
  ∀ d userId deviceId ip, op.mints = some (d, userId, deviceId, ip) →
  '|' ∉ userId.toList ∧ '|' ∉ deviceId.toList ∧ '|' ∉ ip.toList

/-- A token whose signature verifies was returned by an earlier call. -/
def Unforged (svc : MfaDeps) (w : MfaWorld) : MfaOp → Prop
  | .validateMfaToken d token _ _ _ _ => (svc.jose.verify token (d.verifiedAt / 1000)).isSome →
      ∃ e ∈ w.log, ∃ expiresAt, e.2.token = some (token, expiresAt)
  | _ => True

/-- A minting call draws an id that is not in the table. -/
def FreshId (w : MfaWorld) (op : MfaOp) : Prop :=
  ∀ d userId deviceId ip, op.mints = some (d, userId, deviceId, ip) → w.state.tokenRow d.jti = none

private theorem mints_drawn {op : MfaOp} {d : MintDraws} {userId deviceId ip : String}
    (h : op.mints = some (d, userId, deviceId, ip)) : d.jti ∈ op.drawn ∧ d.retryId ∈ op.drawn := by
  cases op <;> simp_all [MfaOp.mints, MfaOp.drawn]

private theorem mints_hashed {op : MfaOp} {d : MintDraws} {userId deviceId ip : String}
    (h : op.mints = some (d, userId, deviceId, ip)) :
    op.hashed = some (fingerprintText userId deviceId ip) := by
  cases op <;> simp_all [MfaOp.mints, MfaOp.hashed]

/-- Every id in the table was drawn by a call in the log. -/
private theorem ids_drawn (ops : List MfaOp) (secrets : List (String × String)) :
    ∀ row ∈ (runSteps (MfaWorld.step svc) { state := { secrets := secrets } } ops).state.tokens,
      ∃ op ∈ ops, row.jti ∈ op.drawn := by
  induction ops using List.reverseRecOn with
  | nil => simp
  | append_singleton ops op ih =>
    rw [runSteps_append]
    generalize runSteps (MfaWorld.step svc) { state := { secrets := secrets } } ops = w at ih ⊢
    have hch := @mfaCall_tokens svc w.state op
    have hold : ∀ row ∈ w.state.tokens, ∃ op' ∈ ops ++ [op], row.jti ∈ op'.drawn := by
      intro row hrow
      obtain ⟨op', hmem, hjti⟩ := ih row hrow
      exact ⟨op', List.mem_append_left _ hmem, hjti⟩
    show ∀ row ∈ (mfaCall svc w.state op).2.tokens, _
    generalize (mfaCall svc w.state op).2.tokens = tokens at hch ⊢
    generalize (mfaCall svc w.state op).1.token = reply at hch
    cases hch with
    | same => exact hold
    | minted d userId deviceId ip id hop hfresh hid =>
      intro row hrow
      rcases List.mem_append.mp hrow with hrow | hrow
      · exact hold row hrow
      · obtain rfl := List.mem_singleton.mp hrow
        refine ⟨op, by simp, ?_⟩
        rcases hid with rfl | ⟨-, rfl⟩
        · exact (mints_drawn hop).1
        · exact (mints_drawn hop).2
    | revoked now jti hop =>
      intro row hrow
      obtain ⟨r, hr, rfl⟩ := List.mem_map.mp hrow
      split_ifs
      · exact hold r hr
      · exact hold r hr

private theorem along_freshId {ops : List MfaOp} {secrets : List (String × String)}
    (hids : (ops.flatMap MfaOp.drawn).Nodup) :
    Along (MfaWorld.step svc) FreshId { state := { secrets := secrets } } ops := by
  apply Along.of_split
  intro ops₁ op ops₂ hops d userId deviceId ip hop
  subst hops
  by_contra hsome
  obtain ⟨row, hrow⟩ := Option.ne_none_iff_exists'.mp hsome
  have hjti : row.jti = d.jti := by simpa using List.find?_some hrow
  obtain ⟨op', hmem, hdrawn⟩ := ids_drawn ops₁ secrets row (List.mem_of_find?_eq_some hrow)
  rw [List.flatMap_append, List.flatMap_cons] at hids
  exact (List.disjoint_of_nodup_append hids) (List.mem_flatMap.mpr ⟨op', hmem, hdrawn⟩)
    (List.mem_append_left _ (hjti ▸ (mints_drawn hop).1))

/-- Every token that was returned has its row, with the fingerprint of the identity it was minted
for. -/
def TokensBound (svc : MfaDeps) (w : MfaWorld) : Prop :=
  ∀ e ∈ w.log, ∀ token expiresAt, e.2.token = some (token, expiresAt) → ∃ d userId deviceId ip row,
    e.1.mints = some (d, userId, deviceId, ip) ∧
      token = svc.jose.sign (mintedClaims svc d userId deviceId ip) ∧
      w.state.tokenRow d.jti = some row ∧
      row.fingerprintHash = fingerprint svc.crypto userId deviceId ip

private theorem token_mints {op : MfaOp} {token : String} {expiresAt : ℕ}
    (h : (mfaCall svc st op).1.token = some (token, expiresAt)) :
    ∃ d userId deviceId ip, op.mints = some (d, userId, deviceId, ip) := by
  have hch := @mfaCall_tokens svc st op
  rw [h] at hch
  generalize (mfaCall svc st op).2.tokens = tokens at hch
  cases hch with
  | minted d userId deviceId ip id hop hfresh hid => exact ⟨d, userId, deviceId, ip, hop⟩

theorem step_tokensBound (w : MfaWorld) (op : MfaOp) (h : TokensBound svc w)
    (hfresh : FreshId w op) : TokensBound svc (MfaWorld.step svc w op) := by
  intro e he token expiresAt htok
  rcases List.mem_append.mp he with he | he
  · obtain ⟨d, userId, deviceId, ip, row, hop, rfl, hrow, hfp⟩ := h e he token expiresAt htok
    obtain ⟨row', hrow', hfp'⟩ := @mfaCall_keeps_fingerprint svc w.state _ _ hrow op
    exact ⟨d, userId, deviceId, ip, row', hop, rfl, hrow', hfp'.trans hfp⟩
  · obtain rfl := List.mem_singleton.mp he
    obtain ⟨d, userId, deviceId, ip, hop⟩ := token_mints htok
    obtain ⟨hsign, -, hrow⟩ := minted_row hop htok
    rcases hrow with ⟨-, hrow⟩ | ⟨row, hsome, -⟩
    · exact ⟨d, userId, deviceId, ip, _, hop, hsign, hrow, rfl⟩
    · simp [hfresh d userId deviceId ip hop] at hsome

private theorem fingerprintText_toList (userId deviceId ip : String) :
    (fingerprintText userId deviceId ip).toList =
      join3 '|' userId.toList deviceId.toList ip.toList := by
  simp [fingerprintText, join3]

/-- In a run whose minting calls bind no text with the separator in it, a token that validates
was minted earlier for exactly the identity that presents it. -/
theorem token_identity (svc : MfaDeps) (secrets : List (String × String)) (ops : List MfaOp)
    (hsep : ∀ op ∈ ops, op.NoSeparator) (hids : (ops.flatMap MfaOp.drawn).Nodup)
    (hsha : ∀ op ∈ ops, ∀ op' ∈ ops, ∀ s ∈ op.hashed, ∀ s' ∈ op'.hashed,
      HashSeparates svc.crypto s s')
    (hjose : ∀ op ∈ ops, ∀ d userId deviceId ip, op.mints = some (d, userId, deviceId, ip) →
      ∀ sec claims,
        svc.jose.verify (svc.jose.sign (mintedClaims svc d userId deviceId ip)) sec = some claims →
      claims = mintedClaims svc d userId deviceId ip)
    (hforge : Along (MfaWorld.step svc) (Unforged svc) { state := { secrets := secrets } } ops)
    (pre post : List (MfaOp × MfaReply)) (v : ValidateDraws) (token userId deviceId ip : String)
    (ja4h : Option String) (claims : MfaTokenClaims)
    (hlog : (runSteps (MfaWorld.step svc) { state := { secrets := secrets } } ops).log =
      pre ++ (.validateMfaToken v token userId deviceId ip ja4h, .validated (.ok claims)) :: post) :
    ∃ e ∈ pre, ∃ d expiresAt, e.2.token = some (token, expiresAt) ∧
      e.1.mints = some (d, userId, deviceId, ip) := by
  obtain ⟨ops₁, ops₂, rfl, rfl, hreply⟩ := mfaLog_split rfl hlog
  have hinv :
      TokensBound svc (runSteps (MfaWorld.step svc) { state := { secrets := secrets } } ops₁) :=
    runSteps_invariant step_tokensBound (fun e he => by simp at he) (along_freshId hids).at.1
  obtain ⟨hverify, -, -, row, hrow, -, -, hfp⟩ :=
    validateMfaToken_ok_iff.mp (MfaReply.validated.inj hreply)
  obtain ⟨e, he, expiresAt, htok⟩ := hforge.at.2 (by rw [hverify]; rfl)
  obtain ⟨d, userId', deviceId', ip', row', hop, rfl, hrow', hfp'⟩ := hinv e he token expiresAt htok
  have hmem : e.1 ∈ ops₁ := mfaLog_mem rfl he
  obtain rfl := hjose e.1 (by simp [hmem]) d userId' deviceId' ip' hop _ _ hverify
  obtain rfl := Option.some.inj (hrow.symm.trans hrow')
  have htext : fingerprintText userId deviceId ip = fingerprintText userId' deviceId' ip' :=
    hsha _ (List.mem_append_right ops₁ List.mem_cons_self) e.1 (by simp [hmem]) _ rfl _
      (mints_hashed hop)
      (hfp.symm.trans hfp')
  obtain ⟨hu, hd, hi⟩ := hsep e.1 (by simp [hmem]) d userId' deviceId' ip' hop
  have htext := congrArg String.toList htext
  rw [fingerprintText_toList, fingerprintText_toList] at htext
  obtain ⟨h₁, h₂, h₃⟩ := join3_inj hu hd hi htext
  obtain rfl := String.toList_inj.mp h₁
  obtain rfl := String.toList_inj.mp h₂
  obtain rfl := String.toList_inj.mp h₃
  exact ⟨e, he, d, expiresAt, htok, hop⟩

def sampleRedeem (token userId deviceId : String) : MfaOp :=
  .validateMfaToken sampleValidate token userId deviceId "10.0.0.7" none

private theorem sample_log :
    (runSteps (MfaWorld.step sampleMfa) { state := {} }
      [sampleDemoMint, sampleRedeem aliceJwt "alice" "d"]).log =
      [(sampleDemoMint, .minted (.ok (aliceJwt, 659000)))] ++
        (sampleRedeem aliceJwt "alice" "d", .validated (.ok
        (mintedClaims sampleMfa sampleMint "alice" "d" "10.0.0.7"))) :: [] := by
  decide +kernel

private theorem sample_first_log :
    (MfaWorld.step sampleMfa { state := {} } sampleDemoMint).log =
      [(sampleDemoMint, .minted (.ok (aliceJwt, 659000)))] := by
  decide +kernel

private theorem sample_hashed {op : MfaOp} {s : String}
    (hop : op ∈ [sampleDemoMint, sampleRedeem aliceJwt "alice" "d"]) (hs : s ∈ op.hashed) :
    s = fingerprintText "alice" "d" "10.0.0.7" := by
  obtain rfl | rfl : op = sampleDemoMint ∨ op = sampleRedeem aliceJwt "alice" "d" := by
    simpa using hop
  · exact (Option.some.inj hs).symm
  · exact (Option.some.inj hs).symm

theorem token_identity_sample :
    ∃ e ∈ [(sampleDemoMint, MfaReply.minted (.ok (aliceJwt, 659000)))], ∃ d expiresAt,
      e.2.token = some (aliceJwt, expiresAt) ∧ e.1.mints = some (d, "alice", "d", "10.0.0.7") := by
  refine token_identity sampleMfa [] [sampleDemoMint, sampleRedeem aliceJwt "alice" "d"]
    ?_ (by decide) ?_ ?_ ?_ _ _
    sampleValidate aliceJwt "alice" "d" "10.0.0.7" none _ sample_log
  · rintro op hop d userId deviceId ip hmints
    obtain rfl | rfl : op = sampleDemoMint ∨ op = sampleRedeem aliceJwt "alice" "d" := by
      simpa using hop
    · obtain ⟨-, rfl, rfl, rfl⟩ : sampleMint = d ∧ "alice" = userId ∧ "d" = deviceId ∧
        "10.0.0.7" = ip := by
        simpa [sampleDemoMint, MfaOp.mints] using hmints
      decide
    · cases hmints
  · intro op hop op' hop' s hs s' hs' _
    obtain rfl := sample_hashed hop hs
    obtain rfl := sample_hashed hop' hs'
    rfl
  · intro op hop d userId deviceId ip hmints sec claims hverify
    obtain rfl | rfl : op = sampleDemoMint ∨ op = sampleRedeem aliceJwt "alice" "d" := by
      simpa using hop
    · obtain ⟨rfl, rfl, rfl, rfl⟩ : sampleMint = d ∧ "alice" = userId ∧ "d" = deviceId ∧
        "10.0.0.7" = ip := by
        simpa [sampleDemoMint, MfaOp.mints] using hmints
      rw [sample_roundTrips sec] at hverify
      split_ifs at hverify
      exact (Option.some.inj hverify).symm
    · cases hmints
  · refine ⟨trivial,
      fun _ => ⟨(sampleDemoMint, .minted (.ok (aliceJwt, 659000))), ?_, 659000, rfl⟩, trivial⟩
    exact sample_first_log ▸ List.mem_cons_self

/-- A token minted for the user `a` and the device `b|c` is accepted from the user `a|b` and the
device `c`. -/
theorem foreign_identity_accepted :
    (runSteps (MfaWorld.step sampleMfa) { state := {} }
      [.mintDemoMfaToken sampleMint "a" "b|c" "10.0.0.7", sampleRedeem pipeJwt "a|b" "c"]).log =
      [(.mintDemoMfaToken sampleMint "a" "b|c" "10.0.0.7", .minted (.ok (pipeJwt, 659000))),
        (sampleRedeem pipeJwt "a|b" "c",
          .validated (.ok (mintedClaims sampleMfa sampleMint "a" "b|c" "10.0.0.7")))] ∧
    ∀ d, MfaOp.mints (.mintDemoMfaToken sampleMint "a" "b|c" "10.0.0.7") ≠
      some (d, "a|b", "c", "10.0.0.7") := by
  refine ⟨by decide +kernel, fun d h => ?_⟩
  simp [MfaOp.mints] at h

end ZTG
