import ZtGateway.Lib.UrlPath
import ZtGateway.Proofs.Base32
import ZtGateway.Proofs.EnrollmentSingle
import ZtGateway.Proofs.MfaRedeem

/-! The secret from `createEnrollment` to `verifyTotp`: it is drawn as bytes, shown in the URI as
base32, sealed by the confirmation and opened again by the other service. -/

namespace ZTG

section Totp

variable {c : Crypto} {key : Buffer}

theorem writeUInt32BE_ok {n : ℤ} : (∃ b, writeUInt32BE n = .ok b) ↔ 0 ≤ n ∧ n < 2 ^ 32 := by
  unfold writeUInt32BE
  split_ifs with h
  · simpa using h
  · simpa using h

/-- A counter fails only for its high word. -/
theorem hotp_ok_iff {counter : ℤ} :
    (∃ code, hotp c key counter = .ok code) ↔ 0 ≤ counter ∧ counter < 2 ^ 64 := by
  have hlow : ∃ b, writeUInt32BE (counter % 0x100000000) = .ok b := writeUInt32BE_ok.mpr (by omega)
  obtain ⟨lo, hlo⟩ := hlow
  have hhigh := @writeUInt32BE_ok (counter / 0x100000000)
  unfold hotp
  rw [hlo]
  cases hhi : writeUInt32BE (counter / 0x100000000) with
  | ok hi =>
    have hbounds := hhigh.mp ⟨hi, hhi⟩
    constructor
    · intro _
      omega
    · intro _
      exact ⟨_, rfl⟩
  | error e =>
    have hbounds : ¬ (0 ≤ counter / 0x100000000 ∧ counter / 0x100000000 < 2 ^ 32) := by
      intro h
      obtain ⟨b, hb⟩ := hhigh.mpr h
      rw [hhi] at hb
      cases hb
    constructor
    · rintro ⟨code, hcode⟩
      cases hcode
    · intro h
      exact absurd (by omega) hbounds

/-- The three comparisons, when none fails before one that does not. -/
theorem firstMatch_iff {x y z : Except Err String} {token : String}
    (hx : ∀ e, x = .error e → y ≠ .ok token ∧ z ≠ .ok token)
    (hy : ∀ e, y = .error e → z ≠ .ok token) :
    (do
      if (← x) = token then pure true
      else if (← y) = token then pure true
      else if (← z) = token then pure true
      else pure false : Except Err Bool) = .ok true ↔
      x = .ok token ∨ y = .ok token ∨ z = .ok token := by
  cases x with
  | error e => simp [hx e rfl, bind, Except.bind]
  | ok a =>
    by_cases ha : a = token
    · simp [ha, bind, Except.bind, pure, Except.pure]
    cases y with
    | error e => simp [ha, hy e rfl, bind, Except.bind]
    | ok b =>
      by_cases hb : b = token
      · simp [ha, hb, bind, Except.bind, pure, Except.pure]
      cases z with
      | error e => simp [ha, hb, bind, Except.bind]
      | ok d =>
        by_cases hd : d = token
        · simp [ha, hb, hd, bind, Except.bind, pure, Except.pure]
        · simp [ha, hb, hd, bind, Except.bind, pure, Except.pure]

/-- From the second step on, the codes that verify are those of the three steps: a counter that
fails is too large, and then so are the later ones. -/
theorem totpVerify_iff {now : ℕ} (hnow : 30000 ≤ now) {secret : String}
    (hsecret : base32Decode c secret = .ok key) (token : String) :
    totpVerify c now token secret = .ok true ↔
      ∃ δ ∈ [-1, 0, 1], hotp c key ((now / 30000 : ℕ) + δ) = .ok token := by
  have hcounter : currentCounter now = (now / 30000 : ℕ) := by
    rw [currentCounter, Nat.div_div_eq_div_mul]
  have hpos : 1 ≤ now / 30000 := (Nat.le_div_iff_mul_le (by omega)).mpr (by omega)
  generalize now / 30000 = t at hcounter hpos
  have hfails : ∀ {m n : ℤ} {e : Err}, 0 ≤ m → m ≤ n → hotp c key m = .error e →
      hotp c key n ≠ .ok token := by
    intro m n e hm hmn he hn
    obtain ⟨-, hlt⟩ := hotp_ok_iff.mp ⟨token, hn⟩
    obtain ⟨code, hcode⟩ := (@hotp_ok_iff c key m).mpr ⟨hm, by omega⟩
    rw [he] at hcode
    cases hcode
  have hmatch := @firstMatch_iff (hotp c key ((t : ℤ) - 1)) (hotp c key t)
    (hotp c key ((t : ℤ) + 1)) token
    (fun e he => ⟨hfails (by omega) (by omega) he, hfails (by omega) (by omega) he⟩)
    (fun e he => hfails (by omega) (by omega) he)
  unfold totpVerify
  rw [hsecret, hcounter]
  simp only [List.mem_cons, List.not_mem_nil, or_false, exists_eq_or_imp, exists_eq_left,
    ← sub_eq_add_neg, add_zero]
  exact hmatch

end Totp

/-- the value of a query parameter, as the reader of a URI finds it -/
def queryParam (name uri : String) : Option String :=
  (((uri.toList.dropWhile (· != '?')).drop 1).splitOn '&').findSome? fun pair =>
    (pair.dropPrefix? (name ++ "=").toList).map String.ofList

/-- what `encodeURIComponent` does not escape -/
def uriUnreserved (ch : Char) : Bool := ch.isAlphanum || "-_.!~*'()".toList.contains ch

/-- `encodeURIComponent` leaves unreserved characters and escapes. -/
def EscapesComponents (enc : String → String) : Prop :=
  ∀ s, ∀ ch ∈ (enc s).toList, uriUnreserved ch = true ∨ ch = '%'

section Uri

variable {svc : EnrollDeps} {label secret : String}

theorem escaped_ne (henc : EscapesComponents svc.encodeURIComponent) (s : String) :
    ∀ ch ∈ (svc.encodeURIComponent s).toList, (ch != '?') = true := by
  intro ch hch
  rcases henc s ch hch with h | rfl
  · by_contra hne
    obtain rfl : ch = '?' := by simpa using hne
    exact absurd h (by decide)
  · decide

/-- The reader of the URI finds the secret. -/
theorem queryParam_otpauthUri (henc : EscapesComponents svc.encodeURIComponent)
    (hsecret : '&' ∉ secret.toList) :
    queryParam "secret" (otpauthUri svc label secret) = some secret := by
  obtain ⟨head, tail, huri, hhead⟩ : ∃ head tail, (otpauthUri svc label secret).toList =
      head ++ '?' :: ("secret=".toList ++ secret.toList ++ '&' :: tail) ∧
      ∀ ch ∈ head, (ch != '?') = true := by
    refine ⟨"otpauth://totp/".toList ++ (svc.encodeURIComponent svc.cfg.issuerName).toList ++
      ":".toList ++ (svc.encodeURIComponent label).toList, "issuer=".toList ++
      (svc.encodeURIComponent svc.cfg.issuerName).toList ++
      "&algorithm=SHA1&digits=6&period=30".toList, ?_, ?_⟩
    · have hquery : "?secret=".toList = '?' :: "secret=".toList := by decide +kernel
      have hnext : "&issuer=".toList = '&' :: "issuer=".toList := by decide +kernel
      unfold otpauthUri
      simp only [String.toList_append, hquery, hnext, List.append_assoc, List.cons_append]
    have hscheme : ∀ ch ∈ "otpauth://totp/".toList, (ch != '?') = true :=
      List.all_eq_true.mp (by decide +kernel)
    have hcolon : ∀ ch ∈ ":".toList, (ch != '?') = true :=
      List.all_eq_true.mp (by decide +kernel)
    intro ch hch
    rw [List.mem_append, List.mem_append, List.mem_append] at hch
    rcases hch with ((hch | hch) | hch) | hch
    · exact hscheme ch hch
    · exact escaped_ne henc _ ch hch
    · exact hcolon ch hch
    · exact escaped_ne henc _ ch hch
  have hname : '&' ∉ "secret=".toList := by decide +kernel
  have hfirst : '&' ∉ "secret=".toList ++ secret.toList := by
    rw [List.mem_append]
    rintro (h | h)
    · exact hname h
    · exact hsecret h
  unfold queryParam
  rw [huri, List.dropWhile_append_of_pos hhead, List.dropWhile_cons_of_neg (by decide),
    List.drop_one, List.tail_cons, List.splitOn_append_cons_self_of_not_mem hfirst,
    List.findSome?_cons]
  have hparam : ("secret" ++ "=").toList = "secret=".toList := by decide +kernel
  rw [hparam, List.dropPrefix?_append_of_beq _ (beq_self_eq_true _), Option.map_some,
    String.ofList_toList]

end Uri

/-- the encryptions done under the key, as IV and plaintext -/
abbrev Made := Iv → String → Prop

/-- what the language and `node:crypto` promise: AES-256-GCM is ideal under the key, so decryption
inverts the encryptions that were done and fails on everything else -/
structure Primitives (m : MfaModule) (made : Made) : Prop where
  escapes : EscapesComponents m.encodeURIComponent
  upper : m.crypto.toCrypto.AsciiUpper
  base64 : ∀ b, m.crypto.base64Decode (m.crypto.base64Encode b) = b
  base64_empty : m.crypto.base64Decode "" = []
  utf8 : ∀ s, m.crypto.utf8Decode (m.crypto.utf8Encode s) = s
  tag_length : ∀ key iv plaintext ciphertext authTag,
    m.crypto.gcmSeal key iv plaintext = some (ciphertext, authTag) → authTag.length = AUTH_TAG_BYTES
  inverts : ∀ (iv : Iv) plaintext ciphertext authTag, made iv plaintext →
    m.crypto.gcmSeal (m.crypto.base64Decode m.cfg.totpEncryptionKey) iv.1
      (m.crypto.utf8Encode plaintext) = some (ciphertext, authTag) →
    m.crypto.gcmOpen (m.crypto.base64Decode m.cfg.totpEncryptionKey) iv.1 ciphertext authTag =
      some (m.crypto.utf8Encode plaintext)
  fails : ∀ (iv : Iv) ciphertext authTag, authTag.length = AUTH_TAG_BYTES →
    (∀ plaintext, made iv plaintext →
      m.crypto.gcmSeal (m.crypto.base64Decode m.cfg.totpEncryptionKey) iv.1
        (m.crypto.utf8Encode plaintext) ≠ some (ciphertext, authTag)) →
    m.crypto.gcmOpen (m.crypto.base64Decode m.cfg.totpEncryptionKey) iv.1 ciphertext authTag = none

section Stored

variable {m : MfaModule} {made : Made}

/-- `aesGcmEncrypt` was called for these bytes. -/
def Produced (m : MfaModule) (made : Made) (bytes : Buffer) : Prop :=
  ∃ iv plaintext, made iv plaintext ∧
    aesGcmEncrypt m.crypto plaintext m.cfg.totpEncryptionKey iv =
      some (m.crypto.base64Encode bytes)

theorem decrypt_made (hp : Primitives m made) {iv : Iv} {plaintext encrypted : String}
    (hmade : made iv plaintext)
    (h : aesGcmEncrypt m.crypto plaintext m.cfg.totpEncryptionKey iv = some encrypted) :
    aesGcmDecrypt m.crypto.toCrypto encrypted m.cfg.totpEncryptionKey = some plaintext := by
  obtain ⟨⟨ciphertext, authTag⟩, hseal, rfl⟩ := Option.map_eq_some_iff.mp h
  have hlen : authTag.length = AUTH_TAG_BYTES := hp.tag_length _ _ _ _ _ hseal
  rw [aesGcmDecrypt_frame hp.base64 _ iv.2 hlen, hp.inverts _ _ _ _ hmade hseal, Option.map_some,
    hp.utf8]

/-- A stored secret is not the empty text, which the reader would take for a missing row. -/
theorem encrypted_ne_empty (hp : Primitives m made) {iv : Iv} {plaintext encrypted : String}
    (h : aesGcmEncrypt m.crypto plaintext m.cfg.totpEncryptionKey iv = some encrypted) :
    encrypted ≠ "" := by
  obtain ⟨⟨ciphertext, authTag⟩, hseal, rfl⟩ := Option.map_eq_some_iff.mp h
  intro hempty
  have hbytes := hp.base64 (iv.1 ++ ciphertext ++ authTag)
  dsimp only at hempty
  rw [hempty, hp.base64_empty] at hbytes
  have hlen := congrArg List.length hbytes
  have hiv : iv.1.length = IV_BYTES := iv.2
  simp only [List.length_append, List.length_nil, hiv, IV_BYTES] at hlen
  omega

/-- Bytes that were not produced are too short, or they are the frame of a ciphertext that no
encryption gave. -/
theorem decrypt_foreign (hp : Primitives m made) {bytes : Buffer} (h : ¬ Produced m made bytes) :
    aesGcmDecrypt m.crypto.toCrypto (m.crypto.base64Encode bytes) m.cfg.totpEncryptionKey =
      none := by
  by_cases hshort : bytes.length < IV_BYTES + AUTH_TAG_BYTES
  · unfold aesGcmDecrypt
    simp only [hp.base64]
    rw [if_pos hshort]
  obtain ⟨iv, ciphertext, authTag, rfl, hiv, htag⟩ : ∃ iv ciphertext authTag : Buffer,
      bytes = iv ++ ciphertext ++ authTag ∧ iv.length = IV_BYTES ∧
        authTag.length = AUTH_TAG_BYTES := by
    refine ⟨bytes.take IV_BYTES, (bytes.drop IV_BYTES).take (bytes.length - AUTH_TAG_BYTES - IV_BYTES),
      (bytes.drop IV_BYTES).drop (bytes.length - AUTH_TAG_BYTES - IV_BYTES), ?_, ?_, ?_⟩
    · rw [List.append_assoc, List.take_append_drop, List.take_append_drop]
    · rw [List.length_take]
      omega
    · rw [List.length_drop, List.length_drop]
      omega
  rw [aesGcmDecrypt_frame hp.base64 _ hiv htag]
  have hfails := hp.fails ⟨iv, hiv⟩ ciphertext authTag htag fun plaintext hmade hseal =>
    h ⟨⟨iv, hiv⟩, plaintext, hmade, by rw [aesGcmEncrypt, hseal, Option.map_some]⟩
  rw [hfails, Option.map_none]

end Stored

section Verify

variable {svc : MfaDeps} {st : MfaState} {d : VerifyDraws} {challengeId userId encrypted : String}

/-- The challenge is live, and the database answers the two reads. -/
structure LiveRead (st : MfaState) (d : VerifyDraws) (challengeId : String) : Prop where
  live : ∃ row, st.getChallenge challengeId = some row ∧ d.checkedAt ≤ row.expiresAt
  challenge : d.challengeFault = none
  secret : d.secretFault = none

/-- The database takes the token row, whose id is new. -/
structure TakesToken (st : MfaState) (d : VerifyDraws) : Prop where
  insert : d.mint.insertFault = none
  fresh : st.tokenRow d.mint.jti = none

theorem verifyTotp_unreadable (h : LiveRead st d challengeId)
    (hrow : st.getEncryptedSecret userId = some encrypted)
    (hnone : aesGcmDecrypt svc.crypto encrypted svc.cfg.totpEncryptionKey = none)
    (totpCode ip deviceId : String) (ja4h : Option String) :
    let r := verifyTotp svc st d challengeId totpCode userId ip deviceId ja4h
    r.1 = .fail .unknownUser ∧ r.2.tokens = st.tokens := by
  obtain ⟨row, hchallenge, hlive⟩ := h.live
  unfold verifyTotp
  simp only [h.challenge, h.secret, hchallenge, hrow, hnone, Option.isSome_none,
    Bool.false_eq_true, if_false, not_lt.mpr hlive]
  split_ifs
  · exact ⟨rfl, rfl⟩
  · exact ⟨rfl, rfl⟩

theorem mintMfaToken_taken (h : TakesToken st d) (userId deviceId ip : String) :
    ∃ r, mintMfaToken svc st d.mint userId deviceId ip = .ok r := by
  unfold mintMfaToken insertMfaToken MfaState.tryInsert
  simp [h.insert, h.fresh]

theorem verifyTotp_ok_iff (h : LiveRead st d challengeId) (htoken : TakesToken st d)
    (hrow : st.getEncryptedSecret userId = some encrypted) (hne : encrypted ≠ "") {secret : String}
    (hplain : aesGcmDecrypt svc.crypto encrypted svc.cfg.totpEncryptionKey = some secret)
    (hsecret : secret ≠ "") (totpCode ip deviceId : String) (ja4h : Option String) :
    (∃ token expiresAt, (verifyTotp svc st d challengeId totpCode userId ip deviceId ja4h).1 =
      .ok token expiresAt) ↔ totpVerify svc.crypto d.totpAt totpCode secret = .ok true := by
  obtain ⟨row, hchallenge, hlive⟩ := h.live
  obtain ⟨⟨⟨token, expiresAt⟩, st'⟩, hmint⟩ := @mintMfaToken_taken svc st d htoken userId deviceId ip
  unfold verifyTotp
  simp only [h.challenge, h.secret, hchallenge, hrow, hplain, Option.isSome_none,
    Bool.false_eq_true, if_false, not_lt.mpr hlive, hne]
  cases htotp : totpVerify svc.crypto d.totpAt totpCode secret with
  | error e => simp
  | ok accepted =>
    cases accepted with
    | false => simp
    | true => simp [hmint]

end Verify

open EnrollState (Issued)

/-- the twenty random bytes of `generateSecret` -/
def EnrollStep.DrawsTwenty : EnrollStep → Prop
  | .resume _ _ bytes => bytes.length = 20
  | _ => True

instance EnrollStep.DrawsTwenty.decidable : ∀ k : EnrollStep, Decidable k.DrawsTwenty
  | .resume _ _ bytes => inferInstanceAs (Decidable (bytes.length = 20))
  | .begin_ _ _ | .query _ | .tick _ => .isTrue trivial

/-- the encryption of a confirmation that goes on to the table -/
def encryption : EnrollStep → EnrollPhase → EnrollPhase → Option (Iv × String)
  | .begin_ _ iv, .idle, .saving e _ => some (iv, e.secret)
  | _, _, _ => none

/-- what a step draws, and that what it encrypts is among the encryptions done -/
def Recorded {ι : Type} [DecidableEq ι] (svc : EnrollDeps) (calls : ι → EnrollCall) (made : Made)
    (p : EnrollPool ι) (m : ι × EnrollStep) : Prop :=
  DistinctIds p m ∧ m.2.DrawsTwenty ∧
    ∀ x ∈ encryption m.2 (p.locals m.1) ((enrollStep svc calls p m).locals m.1), made x.1 x.2

instance {ι : Type} [DecidableEq ι] (svc : EnrollDeps) (calls : ι → EnrollCall) (made : Made)
    [∀ iv plaintext, Decidable (made iv plaintext)] (p : EnrollPool ι) (m : ι × EnrollStep) :
    Decidable (Recorded svc calls made p m) := inferInstanceAs (Decidable (_ ∧ _ ∧ _))

section Run

variable {ι : Type} {svc : EnrollDeps} {calls : ι → EnrollCall} {made : Made} {i j : ι}
  {k : EnrollStep} {l l' : EnrollPhase} {st st' : EnrollState ι} {id userId : String}

theorem wrongCode_phase (ip ja4h : Option String) (t : Ticks) (c : Comparison) :
    (wrongCode i id userId ip ja4h t c st).1 = .returned .invalidTotp := by
  unfold wrongCode
  dsimp only
  split_ifs
  · rfl
  · rfl

theorem confirmBegin_not_enrolled (code : String) (ip ja4h : Option String) (t : Ticks) (iv : Iv)
    (id' uri : String) :
    (confirmBegin svc i id code userId ip ja4h t iv st).1 ≠ .returned (.enrolled id' uri) := by
  unfold confirmBegin
  dsimp only
  split
  · nofun
  · rename_i entry _ _
    split_ifs
    · nofun
    · cases totpVerify svc.crypto.toCrypto ((st.advance t.get).advance t.verify).now code
          entry.secret with
      | error e => nofun
      | ok accepted =>
        cases accepted with
        | false =>
          dsimp only
          rw [wrongCode_phase]
          nofun
        | true =>
          dsimp only
          cases aesGcmEncrypt svc.crypto entry.secret svc.cfg.encryptionKey iv with
          | none => nofun
          | some encrypted => nofun

/-- the secret that a URI shows, under the id it goes with -/
def Shows (svc : EnrollDeps) (st : EnrollState ι) (id uri : String) : Prop :=
  ∃ e label, (id, e) ∈ st.issued ∧ uri = otpauthUri svc label e.secret

/-- what a call knows of the secret -/
def Traced (svc : EnrollDeps) (made : Made) : EnrollPhase → EnrollState ι → Prop
  | .returned (.enrolled id uri), st => Shows svc st id uri
  | .saving e encrypted, _ => ∃ iv, made iv e.secret ∧
      aesGcmEncrypt svc.crypto e.secret svc.cfg.encryptionKey iv = some encrypted
  | _, _ => True

/-- every secret that was issued is the text of twenty bytes -/
def IssuedBytes (st : EnrollState ι) : Prop :=
  ∀ x ∈ st.issued, ∃ bytes : Buffer, bytes.length = 20 ∧ x.2.secret = base32Encode bytes

theorem enrollAct_enrolled {uri : String}
    (h : enrollAct svc calls i k l st = some (.returned (.enrolled id uri), st')) :
    l = .returned (.enrolled id uri) ∨ Shows svc st' id uri := by
  unfold enrollAct at h
  split at h
  · exact .inl (Prod.ext_iff.mp (Option.some.inj h)).1
  · have hphase := (Prod.ext_iff.mp (Option.some.inj h)).1
    unfold createBegin at hphase
    dsimp only at hphase
    split_ifs at hphase
    cases hphase
  · cases h
  · cases h
  · rename_i dt id' bytes existing userId userEmail hcall
    obtain ⟨hphase, rfl⟩ := Prod.ext_iff.mp (Option.some.inj h)
    unfold createResume at hphase ⊢
    split_ifs at hphase ⊢
    · cases hphase
    · dsimp only at hphase ⊢
      obtain ⟨rfl, rfl⟩ := EnrollResult.enrolled.inj (EnrollPhase.returned.inj hphase)
      exact .inr ⟨_, _, List.mem_append_right _ (List.mem_singleton_self _), rfl⟩
  · cases h
  · exact absurd (Prod.ext_iff.mp (Option.some.inj h)).1
      (confirmBegin_not_enrolled _ _ _ _ _ _ _)
  · have hphase := (Prod.ext_iff.mp (Option.some.inj h)).1
    dsimp only at hphase
    split_ifs at hphase
  · cases h
  · cases h
  · cases h
  · have hphase := (Prod.ext_iff.mp (Option.some.inj h)).1
    dsimp only at hphase
    split_ifs at hphase
  · cases h
  · cases h
  · cases h

theorem Shows.mono {id uri : String} (h : Shows svc st id uri) (hg : st.Grows st') :
    Shows svc st' id uri := by
  obtain ⟨e, label, he, huri⟩ := h
  exact ⟨e, label, hg.issued.subset he, huri⟩

theorem Traced.mono (h : Traced svc made l st) (hg : st.Grows st') : Traced svc made l st' := by
  unfold Traced at h ⊢
  split at h
  · exact h.mono hg
  · exact h
  · trivial

/-- A call that has just encrypted knows how; one that comes from enrolling shows its secret. -/
theorem traced_step (h : enrollAct svc calls i k l st = some (l', st')) (hl : Traced svc made l st)
    (henc : ∀ x ∈ encryption k l l', made x.1 x.2) : Traced svc made l' st' := by
  have hdoes := enrollAct_does h
  cases l' with
  | returned r =>
    cases r with
    | enrolled id uri =>
      rcases enrollAct_enrolled h with rfl | hshows
      · exact hl.mono hdoes.grows
      · exact hshows
    | alreadyEnrolled | confirmed | expiredEnrollment | userMismatch | invalidTotp | deleted
    | internal => trivial
  | saving e encrypted =>
    rcases hdoes.saving with rfl | ⟨rfl, -, ⟨t, iv, rfl, hencrypted⟩, -⟩
    · exact hl
    · exact ⟨iv, henc _ rfl, hencrypted⟩
  | idle | reading | read | readFailed | saved | saveFailed | deleting | deleted
  | deleteFailed => trivial

theorem issuedBytes_step (h : Does svc calls i k l st l' st') (hk : k.DrawsTwenty)
    (hi : IssuedBytes st) : IssuedBytes st' := by
  cases h with
  | swept | told | missed | spared | struck | verified | confirmed => exact hi
  | created dt id bytes existing _ r hr hcall hex =>
    intro x hx
    rcases List.mem_append.mp hx with hx | hx
    · exact hi x hx
    · rw [List.mem_singleton.mp hx]
      exact ⟨bytes, hk, rfl⟩
  | wrote outcome | removed outcome =>
    unfold QueryOutcome.apply
    split_ifs
    · exact hi
    · exact hi

variable [DecidableEq ι] {p : EnrollPool ι}

theorem recorded_step (p : EnrollPool ι) (m : ι × EnrollStep)
    (hp : p.Holds (fun st => EnrollInv svc calls st ∧ IssuedBytes st)
      (fun i l st => Knows svc i l st ∧ Traced svc made l st))
    (hm : Recorded svc calls made p m) :
    (enrollStep svc calls p m).Holds (fun st => EnrollInv svc calls st ∧ IssuedBytes st)
      (fun i l st => Knows svc i l st ∧ Traced svc made l st) := by
  obtain ⟨hids, hdraws, henc⟩ := hm
  refine hp.step (fun l st hact => ?_) fun l st hact j hj => ?_
  · have hdoes := enrollAct_does hact
    have hphase : (enrollStep svc calls p m).locals m.1 = l := by
      rw [enrollStep, Pool.step_of_some hact]
      exact Function.update_self _ _ _
    rw [hphase] at henc
    exact ⟨⟨hdoes.inv hids hp.1.1, issuedBytes_step hdoes hdraws hp.1.2⟩,
      hdoes.knows (hp.2 m.1).1, traced_step hact (hp.2 m.1).2 henc⟩
  · have hgrows := (enrollAct_does hact).grows
    exact ⟨(hp.2 j).1.mono hgrows, (hp.2 j).2.mono hgrows⟩

omit [DecidableEq ι] in
theorem recorded_start (now : ℕ) (secrets : List (String × String)) :
    (enrollStart now secrets : EnrollPool ι).Holds
      (fun st => EnrollInv svc calls st ∧ IssuedBytes st)
      (fun i l st => Knows svc i l st ∧ Traced svc made l st) := by
  obtain ⟨hinv, hknows⟩ := @enroll_holds_start ι svc calls now secrets
  exact ⟨⟨hinv, fun x hx => absurd hx List.not_mem_nil⟩, fun i => ⟨hknows i, trivial⟩⟩

/-- the step by which call `j` wrote the user's row -/
def WroteRow (svc : EnrollDeps) (calls : ι → EnrollCall) (start : EnrollPool ι)
    (ops : List (ι × EnrollStep)) (j : ι) (userId row : String) : Prop :=
  ∃ ops₁ k ops₂, ops = ops₁ ++ (j, k) :: ops₂ ∧
    (runSteps (enrollStep svc calls) start (ops₁ ++ [(j, k)])).shared.mfa =
      (runSteps (enrollStep svc calls) start ops₁).shared.mfa.saveSecret userId row

/-- A confirmation that returned ok has written a row, and the row is the encryption of the secret
in the URI that came with its id. -/
theorem wroteRow_of_confirmed (start : EnrollPool ι)
    (hstart : start.Holds (fun st => EnrollInv svc calls st ∧ IssuedBytes st)
      (fun i l st => Knows svc i l st ∧ Traced svc made l st))
    (hidle : start.locals j = .idle) {ops : List (ι × EnrollStep)}
    (hops : Along (enrollStep svc calls) (Recorded svc calls made) start ops)
    {code uri : String} {ip ja4h : Option String}
    (hcall : calls j = .confirm id code userId ip ja4h)
    (henrolled : (runSteps (enrollStep svc calls) start ops).locals i =
      .returned (.enrolled id uri))
    (hconfirmed : (runSteps (enrollStep svc calls) start ops).locals j = .returned .confirmed) :
    ∃ (bytes : Buffer) (label row : String) (iv : Iv), bytes.length = 20 ∧
      uri = otpauthUri svc label (base32Encode bytes) ∧ made iv (base32Encode bytes) ∧
      aesGcmEncrypt svc.crypto (base32Encode bytes) svc.cfg.encryptionKey iv = some row ∧
      WroteRow svc calls start ops j userId row := by
  have hfinal := runSteps_invariant recorded_step hstart hops
  obtain ⟨ops₁, ⟨j', k⟩, ops₂, rfl, hbefore, hafter⟩ :=
    @runSteps_turn _ _ (enrollStep svc calls) start (fun p => (p.locals j).Done)
      (by rw [hidle]; rintro (h | h) <;> cases h) _ (.inr hconfirmed)
  have hp := runSteps_invariant recorded_step hstart hops.append.1
  set p := runSteps (enrollStep svc calls) start ops₁ with hpre
  -- only a step of its own brings call `j` to the table
  obtain rfl : j' = j := by
    by_contra hne
    rw [enrollStep, Pool.step_locals_ne (Ne.symm hne)] at hafter
    exact hbefore hafter
  rcases enrollStep_cases svc calls p (j', k) with heq | ⟨l, st, hdoes, heq⟩
  · rw [heq] at hafter
    exact absurd hafter hbefore
  rw [heq] at hafter
  dsimp only at hafter
  rw [Function.update_self] at hafter
  rcases hdoes.done hafter with hdone | ⟨e, row, hsaving, hmfa⟩
  · exact absurd hdone hbefore
  dsimp only at hsaving hmfa
  obtain ⟨hknows, htraced⟩ := hp.2 j'
  rw [hsaving] at hknows htraced
  obtain ⟨a, ha, hown, ⟨time, hcompared⟩, -⟩ := hknows
  obtain ⟨iv, hmade, hrow⟩ := htraced
  obtain ⟨-, ⟨e₀, he₀, he⟩, code', userId', ip', ja4h', hcall', -⟩ :=
    (hp.1.1.genuine a ha).compared _ hcompared
  obtain ⟨rfl, -, rfl, -, -⟩ := EnrollCall.confirm.inj (hcall.symm.trans (hown ▸ hcall'))
  -- an id is issued once, so the entry confirmed is the one the URI was made for
  obtain ⟨e', label, he', huri⟩ : Shows svc _ a.enrollmentId uri := by
    have := (hfinal.2 i).2
    rwa [henrolled] at this
  have hkept : (a.enrollmentId, e₀) ∈
      (runSteps (enrollStep svc calls) start (ops₁ ++ (j', k) :: ops₂)).shared.issued := by
    rw [runSteps_append]
    exact runSteps_keeps (fun p m h => (enrollStep_grows svc calls p m).issued.subset h) he₀ _
  obtain rfl : e' = e₀ :=
    (Prod.ext_iff.mp (List.inj_on_of_nodup_map hfinal.1.1.ids he' hkept rfl)).2
  obtain ⟨bytes, hbytes, hsecret⟩ := hfinal.1.2 _ he'
  have hsame : e.secret = base32Encode bytes :=
    (congrArg PendingEnrollment.secret he).trans hsecret
  refine ⟨bytes, label, row, iv, hbytes, ?_, hsame ▸ hmade, hsame ▸ hrow, ops₁, k, ops₂, rfl, ?_⟩
  · rw [huri, hsecret]
  · rw [runSteps_snoc, ← hpre, heq]
    dsimp only
    rw [hmfa, hcall]
    rfl

end Run

theorem base32Encode_ne_empty {bytes : Buffer} (h : bytes.length = 20) :
    base32Encode bytes ≠ "" := by
  intro hempty
  have hlen := Base32.length_base32Encode bytes
  rw [hempty, h] at hlen
  exact absurd hlen (by decide)

/-- The secret of the URI is the secret of the row: in every run of enrollments, the row that a
confirmed call wrote verifies exactly the three codes around the time under the key that the URI
shows. A row of bytes that were not produced under the key verifies none. -/
theorem enrolled_secret_verifies {ι : Type} [DecidableEq ι] (sys : MfaModule) (made : Made)
    (hp : Primitives sys made) (calls : ι → EnrollCall) (now : ℕ)
    (secrets : List (String × String)) (ops : List (ι × EnrollStep))
    (hops : Along (enrollStep sys.enroller calls) (Recorded sys.enroller calls made)
      (enrollStart now secrets) ops) :
    (∀ i j id uri code userId ip ja4h, calls j = .confirm id code userId ip ja4h →
      (runSteps (enrollStep sys.enroller calls) (enrollStart now secrets) ops).locals i =
        .returned (.enrolled id uri) →
      (runSteps (enrollStep sys.enroller calls) (enrollStart now secrets) ops).locals j =
        .returned .confirmed →
      ∃ secret key row, queryParam "secret" uri = some secret ∧
        base32Decode sys.crypto.toCrypto secret = .ok key ∧
        WroteRow sys.enroller calls (enrollStart now secrets) ops j userId row ∧
        ∀ st d challengeId totpCode ip deviceId ja4h,
          st.getEncryptedSecret userId = some row → LiveRead st d challengeId →
          TakesToken st d → 30000 ≤ d.totpAt →
          ((∃ token expiresAt, (verifyTotp sys.challenger st d challengeId totpCode userId ip
              deviceId ja4h).1 = .ok token expiresAt) ↔
            ∃ δ ∈ [-1, 0, 1], hotp sys.crypto.toCrypto key ((d.totpAt / 30000 : ℕ) + δ) =
              .ok totpCode)) ∧
    ∀ bytes, ¬ Produced sys made bytes → ∀ st d challengeId totpCode userId ip deviceId ja4h,
      st.getEncryptedSecret userId = some (sys.crypto.base64Encode bytes) →
      LiveRead st d challengeId →
      let r := verifyTotp sys.challenger st d challengeId totpCode userId ip deviceId ja4h
      r.1 = .fail .unknownUser ∧ r.2.tokens = st.tokens := by
  constructor
  · intro i j id uri code userId ip ja4h hcall henrolled hconfirmed
    obtain ⟨bytes, label, row, iv, hbytes, rfl, hmade, hrow, hwrote⟩ :=
      wroteRow_of_confirmed (enrollStart now secrets) (recorded_start now secrets) rfl hops hcall
        henrolled hconfirmed
    have hchars : '&' ∉ (base32Encode bytes).toList := fun h =>
      absurd (Base32.base32Encode_chars bytes '&' h) (by decide)
    have hkey := Base32.base32Decode_encode hp.upper bytes
    refine ⟨base32Encode bytes, bytes, row, queryParam_otpauthUri hp.escapes hchars, hkey, hwrote, ?_⟩
    intro st d challengeId totpCode ip deviceId ja4h hstored hread htoken htime
    rw [verifyTotp_ok_iff hread htoken hstored (encrypted_ne_empty hp hrow)
      (decrypt_made hp hmade hrow) (base32Encode_ne_empty hbytes)]
    exact totpVerify_iff htime hkey totpCode
  · intro bytes hforeign st d challengeId totpCode userId ip deviceId ja4h hstored hread
    exact verifyTotp_unreadable hread hstored (decrypt_foreign hp hforeign) totpCode ip deviceId ja4h

/-- the function of the language -/
def encodeComponent (s : String) : String :=
  String.ofList (percentEncode (fun ch => !uriUnreserved ch) s.toList)

theorem encodeComponent_escapes : EscapesComponents encodeComponent := by
  intro s ch hch
  rw [encodeComponent, String.toList_ofList] at hch
  rcases mem_percentEncode hch with ⟨-, hset⟩ | rfl | ⟨n, rfl⟩
  · exact .inl (by simpa using hset)
  · exact .inr rfl
  · exact .inl (hexDigit_of_all (by decide +kernel) n)

def sampleModule : MfaModule where
  cfg := sampleMfa.cfg
  issuerName := "ZT-Gateway"
  enrollPendingTtlMs := 600000
  crypto := { sampleCipher with sha256Hex := sampleCrypto.sha256Hex }
  jose := sampleJose
  encodeURIComponent := encodeComponent
  key_length := by decide +kernel

/-- the two secrets that were encrypted under the key -/
def sampleSecrets : List String :=
  ["AAAQEAYEAUDAOCAJBIFQYDIOB4IBCEQT", "MRSWMZ3INFVGW3DNNZXXA4LSON2HK5TX"]

def sampleMade : Made := fun iv plaintext => iv = sampleIv ∧ plaintext ∈ sampleSecrets

instance (iv : Iv) (plaintext : String) : Decidable (sampleMade iv plaintext) :=
  inferInstanceAs (Decidable (_ ∧ _))

/-- What the sample cipher opens it has sealed. -/
theorem sampleCipher_fails {key iv ciphertext authTag : Buffer}
    (h : iv = sampleIv.1 → ∀ s ∈ sampleSecrets,
      sampleCipher.gcmSeal key iv (Utf8.encode s.toList) ≠ some (ciphertext, authTag)) :
    sampleCipher.gcmOpen key iv ciphertext authTag = none := by
  have hsealed : ∀ x ∈ sampleSealed, ∃ s ∈ sampleSecrets, x.1 = Utf8.encode s.toList ∧
      sampleSealed.find? (fun y => y.1 = x.1) = some x := by decide +kernel
  change (if _ then _ else _) = _
  split_ifs with hkey
  · cases hfind : sampleSealed.find? fun x => x.2 = (ciphertext, authTag) with
    | none => rfl
    | some x =>
      obtain ⟨s, hs, hx, hback⟩ := hsealed x (List.mem_of_find?_eq_some hfind)
      refine absurd ?_ (h hkey.2 s hs)
      change (if _ then _ else _) = _
      have hframe : x.2 = (ciphertext, authTag) := by simpa using List.find?_some hfind
      rw [if_pos hkey, ← hx, hback, Option.map_some, hframe]
  · rfl

theorem sampleModule_primitives : Primitives sampleModule sampleMade where
  escapes := encodeComponent_escapes
  upper _ _ := rfl
  base64 := sampleCipher_laws.base64
  base64_empty := by decide +kernel
  utf8 := sampleCipher_laws.utf8
  tag_length := sampleCipher_laws.tag_length
  inverts _ _ _ _ _ h := sampleCipher_laws.opens _ _ _ _ _ h
  fails _ _ _ _ h := sampleCipher_fails fun hiv s hs => h s ⟨Subtype.ext hiv, hs⟩

def secretCalls : Fin 2 → EnrollCall
  | 0 => .create "alice" none
  | 1 => .confirm "e1" "858575" "alice" none none

def secretRun : List (Fin 2 × EnrollStep) :=
  [(0, .begin_ {} sampleIv), (0, .query .done), (0, .resume 0 "e1" (sampleBytes 0)),
    (1, .begin_ {} sampleIv), (1, .query .done), (1, .resume 0 "" (sampleBytes 0))]

/-- alice's challenge, with `row` for her secret -/
def stateWith (row : String) : MfaState :=
  { challenges := [{ challengeId := "c1", userId := "alice", createdAt := 0, expiresAt := 300000 }],
    secrets := [("alice", row)] }

/-- alice's row, and the same with one bit of the tag changed -/
def sampleFrame (last : BitVec 8) : Buffer :=
  sampleIv.1 ++ [6, 67, 151, 74, 128, 164, 155, 94, 204, 20, 211, 202, 254, 170, 57, 39, 193, 159,
    193, 101, 169, 63, 22, 51, 122, 83, 172, 199, 94, 44, 81, 230] ++
    [147, 59, 198, 236, 80, 218, 82, 78, 32, 201, 117, 111, 120, 24, 96, last]

theorem sampleFrame_foreign : ¬ Produced sampleModule sampleMade (sampleFrame 172) := by
  rintro ⟨iv, plaintext, ⟨rfl, hplaintext⟩, hrow⟩
  have hother : ∀ s ∈ sampleSecrets, aesGcmEncrypt sampleModule.crypto s
      sampleModule.cfg.totpEncryptionKey sampleIv ≠
        some (sampleModule.crypto.base64Encode (sampleFrame 172)) := by decide +kernel
  exact hother plaintext hplaintext hrow

/-- The run of alice's enrollment, and every row that the table holds for her in it. -/
theorem secretRun_result :
    let run := fun n => runSteps (enrollStep sampleModule.enroller secretCalls)
      (enrollStart 59000 []) (secretRun.take n)
    Along (enrollStep sampleModule.enroller secretCalls)
      (Recorded sampleModule.enroller secretCalls sampleMade) (enrollStart 59000 []) secretRun ∧
    (run 6).locals 0 = .returned (.enrolled "e1" (otpauthUri sampleModule.enroller "alice"
      "AAAQEAYEAUDAOCAJBIFQYDIOB4IBCEQT")) ∧
    (run 6).locals 1 = .returned .confirmed ∧
    ∀ n < 7, (run n).shared.mfa.getEncryptedSecret "alice" ∈
      [none, some (sampleModule.crypto.base64Encode (sampleFrame 173))] := by
  decide +kernel

/-- Alice enrolls and confirms; her code verifies, and nothing does once a bit of her row is
flipped. -/
theorem enrolled_secret_verifies_alice :
    (∃ token expiresAt, (verifyTotp sampleModule.challenger
      (stateWith (sampleModule.crypto.base64Encode (sampleFrame 173))) sampleVerify "c1" "858575"
      "alice" "10.0.0.7" "d" none).1 = .ok token expiresAt) ∧
    (verifyTotp sampleModule.challenger
      (stateWith (sampleModule.crypto.base64Encode (sampleFrame 172))) sampleVerify "c1" "858575"
      "alice" "10.0.0.7" "d" none).1 = .fail .unknownUser := by
  obtain ⟨hrecorded, henrolled, hconfirmed, hrows⟩ := secretRun_result
  have hread : ∀ row, LiveRead (stateWith row) sampleVerify "c1" :=
    fun row => ⟨⟨_, rfl, by decide⟩, rfl, rfl⟩
  obtain ⟨hgood, hbad⟩ := enrolled_secret_verifies sampleModule sampleMade sampleModule_primitives
    secretCalls 59000 [] secretRun hrecorded
  refine ⟨?_, (hbad _ sampleFrame_foreign _ _ _ _ _ _ _ _ rfl (hread _)).1⟩
  obtain ⟨secret, key, row, huri, hkey, ⟨ops₁, k, ops₂, hops, hmfa⟩, hverify⟩ :=
    hgood 0 1 "e1" _ _ _ _ _ rfl henrolled hconfirmed
  have hsecret : queryParam "secret" (otpauthUri sampleModule.enroller "alice"
      "AAAQEAYEAUDAOCAJBIFQYDIOB4IBCEQT") = some "AAAQEAYEAUDAOCAJBIFQYDIOB4IBCEQT" :=
    queryParam_otpauthUri encodeComponent_escapes (by decide)
  obtain rfl := Option.some.inj (hsecret.symm.trans huri)
  have hbytes : base32Decode sampleModule.crypto.toCrypto "AAAQEAYEAUDAOCAJBIFQYDIOB4IBCEQT" =
      .ok (sampleBytes 0) := by decide +kernel
  obtain rfl := Except.ok.inj (hbytes.symm.trans hkey)
  have hlen : ops₁.length + 1 ≤ 6 := by
    have := congrArg List.length hops
    simp [secretRun] at this
    omega
  have hrow := hrows (ops₁.length + 1) (by omega)
  have htake : secretRun.take (ops₁.length + 1) = ops₁ ++ [(1, k)] := by
    rw [hops, List.take_length_add_append]
    rfl
  dsimp only at hrow
  rw [htake, hmfa, getEncryptedSecret_saveSecret, if_pos rfl] at hrow
  obtain rfl : row = sampleModule.crypto.base64Encode (sampleFrame 173) := by simpa using hrow
  refine (hverify _ _ _ _ _ _ _ rfl (hread _) ⟨rfl, rfl⟩ (by decide)).mpr ?_
  decide +kernel

end ZTG
