import ZtGateway.Proofs.HashcashReplay

/-! Challenges are told apart by the identity, the difficulty and the second they carry. When
no two challenges of a run agree in all four, each is new when it is issued, and is accepted
when it is presented in time with enough zeros. -/

namespace ZTG

variable {svc : HashcashDeps} {st st' : HashcashState} {t : VerifyTicks}
  {nonce solution userId deviceId : String} {score liveScore : JsNum} {now : ℕ}

/-- what the service relies on: double precision, the text of its numbers, a histogram that
takes finite values, and bounds of the configuration that are safe integers or doubles -/
structure HashcashDeps.Lawful (svc : HashcashDeps) : Prop where
  integer : ∀ n : ℕ, n ≤ 2 ^ 53 → svc.fl n = n
  round : ∀ q, svc.fl ⌊svc.fl q + 1 / 2⌋ = ⌊svc.fl q + 1 / 2⌋
  text : ∀ q, svc.fl q = q → JsonText.isNumber (svc.numbers.text q) = true ∧
    svc.numbers.value (svc.numbers.text q) = .num q
  observe : ∀ q, svc.observe (.num q) = none
  bounds : svc.fl svc.cfg.difficultyMin = svc.cfg.difficultyMin ∧
    svc.fl svc.cfg.difficultyMax = svc.cfg.difficultyMax
  ttl : svc.ttlSec * 1000 ≤ 2 ^ 53

/-- `difficultyForScore` with the bounds of the configuration -/
def HashcashDeps.difficulty (svc : HashcashDeps) (score : JsNum) : JsNum :=
  difficultyForScore svc.fl score svc.cfg.difficultyMin svc.cfg.difficultyMax

/-- The difficulty is a finite double, unless the score gives NaN. -/
theorem difficulty_finite (hsvc : svc.Lawful) (h : svc.difficulty score ≠ .nan) :
    ∃ q, svc.difficulty score = .num q ∧ svc.fl q = q := by
  have hmin : ∃ q, JsNum.num svc.cfg.difficultyMin = .num q ∧ svc.fl q = q :=
    ⟨_, rfl, hsvc.bounds.1⟩
  have hmax : ∃ q, JsNum.num svc.cfg.difficultyMax = .num q ∧ svc.fl q = q :=
    ⟨_, rfl, hsvc.bounds.2⟩
  unfold HashcashDeps.difficulty difficultyForScore at h ⊢
  dsimp only at h ⊢
  split_ifs at h ⊢ with hlow hhigh
  · exact hmin
  · exact hmax
  · generalize hspan : svc.fl (svc.cfg.difficultyMax - svc.cfg.difficultyMin) = span at *
    cases score with
    | nan => exact absurd rfl h
    | num q => exact ⟨_, rfl, hsvc.round _⟩
    | posInf =>
      unfold rawDifficulty at *
      split_ifs at * with hzero hpos
      · exact absurd rfl h
      · exact absurd rfl hhigh
      · exact absurd rfl hlow
    | negInf =>
      unfold rawDifficulty at *
      split_ifs at * with hzero hpos
      · exact absurd rfl h
      · exact absurd rfl hlow
      · exact absurd rfl hhigh

/-- what reading an issued payload gives back -/
def Issue.noncePayload (svc : HashcashDeps) (r : Issue) : NoncePayload :=
  { exp := .num ((r.iat + svc.ttlSec : ℕ) : ℚ), diff := r.difficulty, iat := .num (r.iat : ℚ),
    sub := JsonText.units r.userId.toList, dev := JsonText.units r.deviceId.toList }

theorem readPayload_payloadText (hsvc : svc.Lawful) {exp iat : ℕ} {q : ℚ} (hq : svc.fl q = q)
    (hexp : exp ≤ 2 ^ 53) (hiat : iat ≤ 2 ^ 53) (sub dev : String) :
    readPayload svc (Utf8.encode (payloadText svc exp iat (.num q) sub dev)) =
      some { exp := .num exp, diff := .num q, iat := .num iat, sub := JsonText.units sub.toList,
             dev := JsonText.units dev.toList } := by
  have hone := hsvc.text 1 (by simpa using hsvc.integer 1 (by norm_num))
  have hexp' := hsvc.text exp (hsvc.integer exp hexp)
  have hiat' := hsvc.text iat (hsvc.integer iat hiat)
  have hq' := hsvc.text q hq
  unfold readPayload payloadText
  rw [Utf8.decode_encode, JsonText.parse_stringify (by simp)]
  · simp only [List.map_cons, List.map_nil, JsonText.Prim.value, hexp'.2, hiat'.2, hq'.2]
    rfl
  · intro x hx
    simp only [List.mem_cons, List.not_mem_nil, or_false] at hx
    rcases hx with rfl | rfl | rfl | rfl | rfl | rfl
    · exact hone.1
    · exact hexp'.1
    · exact hq'.1
    · trivial
    · trivial
    · exact hiat'.1

theorem payload_ne_nil (svc : HashcashDeps) (now : ℕ) (userId deviceId : String) (score : JsNum) :
    (newIssue svc now userId deviceId score).payload ≠ [] := by
  intro h
  have htext := congrArg Utf8.decode h
  simp only [newIssue, Utf8.decode_encode, payloadText, JsonText.stringify] at htext
  cases htext

theorem openNonce_newIssue (svc : HashcashDeps) (now : ℕ) (userId deviceId : String)
    (score : JsNum) : openNonce svc (newIssue svc now userId deviceId score).nonce =
      .ok (newIssue svc now userId deviceId score).payload :=
  openNonce_nonceText svc (payload_ne_nil svc now userId deviceId score)

theorem readPayload_newIssue (hsvc : svc.Lawful) (hnow : now ≤ 8640000000000000)
    (hfinite : svc.difficulty score ≠ .nan) :
    readPayload svc (newIssue svc now userId deviceId score).payload =
      some ((newIssue svc now userId deviceId score).noncePayload svc) := by
  obtain ⟨q, hdiff, hq⟩ := difficulty_finite hsvc hfinite
  have hdiff' : (newIssue svc now userId deviceId score).difficulty = .num q := hdiff
  have httl := hsvc.ttl
  have hexp : unixSeconds now + svc.ttlSec ≤ 2 ^ 53 := by
    unfold unixSeconds
    omega
  have hiat : unixSeconds now ≤ 2 ^ 53 := by omega
  have hread := readPayload_payloadText hsvc hq hexp hiat userId deviceId
  rw [← hdiff'] at hread
  exact hread

/-- no earlier challenge has this identity, difficulty and second, and the score has a difficulty -/
def FreshIssue (svc : HashcashDeps) (st : HashcashState) : HashcashOp → Prop
  | .issue dt userId deviceId score =>
    svc.difficulty score ≠ .nan ∧ ∀ r ∈ st.issued, ¬ (r.userId = userId ∧ r.deviceId = deviceId ∧
      r.difficulty = svc.difficulty score ∧ r.iat = unixSeconds (st.now + dt))
  | .verify _ _ _ _ _ _ => True

/-- an HMAC that checks was made by the service -/
def NonceUnforged (svc : HashcashDeps) (st : HashcashState) : HashcashOp → Prop
  | .verify _ nonce _ _ _ _ =>
    ∀ payload, openNonce svc nonce = .ok payload → ∃ r ∈ st.issued, r.payload = payload
  | .issue _ _ _ _ => True

/-- `Date.now()` is at most the largest time value of the language -/
def ClockInRange (st : HashcashState) : HashcashOp → Prop
  | .issue dt _ _ _ => st.now + dt ≤ 8640000000000000
  | .verify _ _ _ _ _ _ => True

structure FreshInv (svc : HashcashDeps) (st : HashcashState) : Prop where
  reads : ∀ r ∈ st.issued, readPayload svc r.payload = some (r.noncePayload svc)
  opens : ∀ r ∈ st.issued, openNonce svc r.nonce = .ok r.payload
  accepted : ∀ n ∈ st.accepted, ∃ r ∈ st.issued, openNonce svc n = .ok r.payload
  stored : ∀ n exp, st.store.get n = some exp → n ∈ st.accepted

theorem fresh_start (now : ℕ) : FreshInv svc { now := now } :=
  ⟨by simp, by simp, by simp, fun _ _ h => by simp at h⟩

/-- The new payload is none of the earlier ones. -/
theorem FreshInv.payload_ne (hsvc : svc.Lawful) (hi : FreshInv svc st) {dt : ℕ}
    (hclock : ClockInRange st (.issue dt userId deviceId score))
    (hfresh : FreshIssue svc st (.issue dt userId deviceId score)) {r : Issue}
    (hr : r ∈ st.issued) :
    r.payload ≠ (newIssue svc (st.now + dt) userId deviceId score).payload := by
  intro heq
  have hread := hi.reads r hr
  rw [heq, readPayload_newIssue hsvc hclock hfresh.1] at hread
  obtain ⟨-, hdiff, hiat, hsub, hdev⟩ := NoncePayload.mk.inj (Option.some.inj hread)
  refine hfresh.2 r hr ⟨?_, ?_, hdiff.symm, ?_⟩
  · exact String.toList_inj.mp (JsonText.units_inj hsub.symm)
  · exact String.toList_inj.mp (JsonText.units_inj hdev.symm)
  · exact_mod_cast (JsNum.num.inj hiat).symm

theorem FreshInv.visited {r : Except Err VerifyResult} (hi : FreshInv svc st)
    (hforge : ∀ payload, openNonce svc nonce = .ok payload → ∃ r ∈ st.issued, r.payload = payload)
    (h : Visits svc st t nonce r st') : FreshInv svc st' := by
  have hissued := h.issued
  refine ⟨hissued ▸ hi.reads, hissued ▸ hi.opens, hissued ▸ ?_, ?_⟩
  · intro n hn
    cases h with
    | stayed _ _ hstore haccepted => exact hi.accepted n (haccepted ▸ hn)
    | dropped _ _ _ _ hpayload hlive hget hexp hstore haccepted =>
      exact hi.accepted n (haccepted ▸ hn)
    | marked _ _ payload store hpayload hlive hhas hstore haccepted =>
      rw [haccepted] at hn
      rcases List.mem_append.mp hn with hn | hn
      · exact hi.accepted n hn
      · rw [List.mem_singleton.mp hn]
        unfold payloadOf at hpayload
        split at hpayload
        · cases hpayload
        · rename_i bytes hopen
          obtain ⟨r, hr, rfl⟩ := hforge bytes hopen
          exact ⟨r, hr, hopen⟩
  · intro n exp hn
    cases h with
    | stayed _ _ hstore haccepted => exact haccepted ▸ hi.stored n exp (hstore ▸ hn)
    | dropped _ _ _ _ hpayload hlive hget hexp hstore haccepted =>
      rw [hstore, JsMap.get_delete] at hn
      split_ifs at hn
      exact haccepted ▸ hi.stored n exp hn
    | marked _ _ payload store hpayload hlive hhas hstore haccepted =>
      rw [haccepted]
      rw [hstore] at hn
      rcases UsedNonceStore.get_of_add hn with rfl | hn
      · simp
      · exact List.mem_append_left _ (hi.stored n exp (UsedNonceStore.get_of_has hhas hn))

theorem fresh_step (hsvc : svc.Lawful) (st : HashcashState) (op : HashcashOp)
    (hi : FreshInv svc st)
    (hop : (ClockInRange st op ∧ NonceUnforged svc st op) ∧ FreshIssue svc st op) :
    FreshInv svc (hashcashStep svc st op) := by
  obtain ⟨⟨hclock, hforge⟩, hfresh⟩ := hop
  cases op with
  | issue dt userId deviceId score =>
    have hissued : (hashcashStep svc st (.issue dt userId deviceId score)).issued =
        st.issued ++ [newIssue svc (st.now + dt) userId deviceId score] := rfl
    refine ⟨?_, ?_, ?_, hi.stored⟩
    · intro r hr
      rw [hissued] at hr
      rcases List.mem_append.mp hr with hr | hr
      · exact hi.reads r hr
      · rw [List.mem_singleton.mp hr]
        exact readPayload_newIssue hsvc hclock hfresh.1
    · intro r hr
      rw [hissued] at hr
      rcases List.mem_append.mp hr with hr | hr
      · exact hi.opens r hr
      · rw [List.mem_singleton.mp hr]
        exact openNonce_newIssue svc _ _ _ _
    · intro n hn
      obtain ⟨r, hr, hopen⟩ := hi.accepted n hn
      exact ⟨r, hissued ▸ List.mem_append_left _ hr, hopen⟩
  | verify t nonce solution liveScore userId deviceId =>
    exact hi.visited hforge
      (verifySolution_visits svc st t nonce solution liveScore userId deviceId)

/-- A challenge that was issued and not yet redeemed is accepted: in time, with enough zeros, from
its user and device, at a score of the same difficulty. -/
theorem FreshInv.redeemable (hsvc : svc.Lawful) (hi : FreshInv svc st) {r : Issue}
    (hr : r ∈ st.issued) (hfinite : r.difficulty ≠ .nan) (hunused : r.nonce ∉ st.accepted)
    (hlen : 1 ≤ (JsonText.units solution.toList).length ∧
      (JsonText.units solution.toList).length ≤ 256)
    (hdiff : svc.difficulty liveScore = r.difficulty)
    (hzeros : r.difficulty.le
      (.num (countLeadingZeroBits (hashSolution svc r.nonce solution) : ℕ)) = true)
    (hlive : expirySecond st t < r.iat + svc.ttlSec) :
    (verifySolution svc st t r.nonce solution liveScore r.userId r.deviceId).1 =
      .ok (.ok (.num r.iat)) := by
  have hpayload : payloadOf svc r.nonce = .ok (r.noncePayload svc) :=
    payloadOf_of_open (hi.opens r hr) (hi.reads r hr)
  have habsent : st.store.get r.nonce = none := by
    cases hget : st.store.get r.nonce with
    | none => rfl
    | some exp => exact absurd (hi.stored _ exp hget) hunused
  obtain ⟨q, hq, -⟩ := difficulty_finite hsvc (hdiff ▸ hfinite)
  have hdiff' : r.difficulty = .num q := hdiff ▸ hq
  refine (verifySolution_ok hlen hpayload ⟨rfl, rfl⟩ ?_ ?_
    (UsedNonceStore.has_of_absent habsent) ?_ (hsvc.observe _)).1
  · have hsec : ((expirySecond st t : ℕ) : ℚ) < ((r.iat + svc.ttlSec : ℕ) : ℚ) := by
      exact_mod_cast hlive
    exact JsNum.le_num_eq_false hsec
  · show r.difficulty.strictEq (svc.difficulty liveScore) = true
    rw [hdiff, JsNum.strictEq]
    simpa using hfinite
  · show (JsNum.num _).lt r.difficulty = false
    rw [hdiff'] at hzeros ⊢
    exact JsNum.lt_num_eq_false (of_decide_eq_true hzeros)

theorem issued_grows (svc : HashcashDeps) (st : HashcashState) (op : HashcashOp) {r : Issue}
    (hr : r ∈ st.issued) : r ∈ (hashcashStep svc st op).issued := by
  cases op with
  | issue dt userId deviceId score => exact List.mem_append_left _ hr
  | verify t nonce solution liveScore userId deviceId =>
    have hvisits := verifySolution_visits svc st t nonce solution liveScore userId deviceId
    exact hvisits.issued ▸ hr

/-- In every run in which no challenge is issued twice for one identity, difficulty and second, and
every score has a difficulty: no text of a challenge was redeemed before it is issued, no earlier
challenge is the same, and while it is not redeemed it is accepted from its user and device. -/
theorem challenge_fresh_of_run (svc : HashcashDeps) (hsvc : svc.Lawful) (now : ℕ)
    (ops₁ ops₂ : List HashcashOp) (dt : ℕ) (userId deviceId : String) (score : JsNum)
    (hclock : Along (hashcashStep svc) ClockInRange { now := now }
      (ops₁ ++ .issue dt userId deviceId score :: ops₂))
    (hforge : Along (hashcashStep svc) (NonceUnforged svc) { now := now }
      (ops₁ ++ .issue dt userId deviceId score :: ops₂))
    (hfresh : Along (hashcashStep svc) (FreshIssue svc) { now := now }
      (ops₁ ++ .issue dt userId deviceId score :: ops₂)) :
    let before := runSteps (hashcashStep svc) { now := now } ops₁
    let challenge := (issueChallenge svc before dt userId deviceId score).1
    let st := runSteps (hashcashStep svc) { now := now }
      (ops₁ ++ .issue dt userId deviceId score :: ops₂)
    (∀ n ∈ before.accepted, openNonce svc n ≠ openNonce svc challenge.nonce) ∧
      (∀ r ∈ before.issued, r.nonce ≠ challenge.nonce) ∧
      (challenge.nonce ∉ st.accepted → ∀ (t : VerifyTicks) (solution : String) (liveScore : JsNum),
        1 ≤ (JsonText.units solution.toList).length ∧
          (JsonText.units solution.toList).length ≤ 256 →
        difficultyForScore svc.fl liveScore svc.cfg.difficultyMin svc.cfg.difficultyMax =
          challenge.difficulty →
        challenge.difficulty.le
          (.num (countLeadingZeroBits (hashSolution svc challenge.nonce solution) : ℕ)) = true →
        (JsNum.num (expirySecond st t)).lt challenge.expiresAt = true →
        ∃ iat, (verifySolution svc st t challenge.nonce solution liveScore userId deviceId).1 =
          .ok (.ok iat)) := by
  intro before challenge st
  have hops := (hclock.and hforge).and hfresh
  have hinv : FreshInv svc st := runSteps_invariant (fresh_step hsvc) (fresh_start now) hops
  obtain ⟨hbefore, ⟨hclock', -⟩, hfresh'⟩ := hops.at
  have hinv₁ : FreshInv svc before := runSteps_invariant (fresh_step hsvc) (fresh_start now) hbefore
  have hopen : openNonce svc challenge.nonce =
      .ok (newIssue svc (before.now + dt) userId deviceId score).payload :=
    openNonce_newIssue svc _ _ _ _
  have hnew : ∀ n, ∀ r ∈ before.issued, openNonce svc n = .ok r.payload →
      openNonce svc n ≠ openNonce svc challenge.nonce := by
    intro n r hr hn heq
    rw [hn, hopen] at heq
    exact hinv₁.payload_ne hsvc hclock' hfresh' hr (Except.ok.inj heq)
  refine ⟨?_, ?_, ?_⟩
  · intro n hn
    obtain ⟨r, hr, hr'⟩ := hinv₁.accepted n hn
    exact hnew n r hr hr'
  · intro r hr heq
    exact hnew r.nonce r hr (hinv₁.opens r hr) (heq ▸ rfl)
  · intro hunused t solution liveScore hlen hdiff hzeros hlive
    have hmem : newIssue svc (before.now + dt) userId deviceId score ∈ st.issued := by
      show _ ∈ (runSteps (hashcashStep svc) { now := now }
        (ops₁ ++ .issue dt userId deviceId score :: ops₂)).issued
      rw [runSteps_append, runSteps_cons]
      refine runSteps_keeps (fun s op hr => issued_grows svc s op hr) ?_ ops₂
      exact List.mem_append_right _ (List.mem_singleton.mpr rfl)
    have hlive' : expirySecond st t < unixSeconds (before.now + dt) + svc.ttlSec := by
      exact_mod_cast of_decide_eq_true hlive
    exact ⟨_, hinv.redeemable hsvc hmem hfresh'.1 hunused hlen hdiff hzeros hlive'⟩

theorem toDigits_head {n : ℕ} (hn : 0 < n) :
    ∃ d rest, Nat.toDigits 10 n = d :: rest ∧ d ≠ '0' := by
  induction n using Nat.strongRecOn with
  | ind n ih =>
    by_cases hlt : n < 10
    · refine ⟨_, [], Nat.toDigits_of_lt_base hlt, ?_⟩
      interval_cases n <;> decide
    · obtain ⟨d, rest, hdigits, hd⟩ := ih (n / 10) (by omega) (by omega)
      refine ⟨d, rest ++ [Nat.digitChar (n % 10)], ?_, hd⟩
      rw [Nat.toDigits_of_base_le (by norm_num) (not_lt.mp hlt), hdigits]
      rfl

theorem digit_of_mem_toDigits {n : ℕ} {c : Char} (h : c ∈ Nat.toDigits 10 n) :
    JsonText.digit c = true := by
  have hdigit := Nat.isDigit_of_mem_toDigits (by norm_num) (by norm_num) h
  simp only [Char.isDigit, Bool.and_eq_true, decide_eq_true_eq, ge_iff_le,
    UInt32.le_iff_toNat_le] at hdigit
  simp only [JsonText.digit, Bool.and_eq_true, decide_eq_true_eq]
  exact hdigit

/-- a fraction that the digits before it do not run into -/
structure Tail (f : List Char) : Prop where
  chars : ∀ c ∈ f, JsonText.numberChar c = true
  stops : f.takeWhile JsonText.digit = []
  fraction : JsonText.fraction f = true

theorem digitChar_digit {k : ℕ} (hk : k < 10) : JsonText.digit (Nat.digitChar k) = true := by
  interval_cases k <;> rfl

theorem tenthText_tail {k : ℕ} (hk : k < 10) : Tail (tenthText k) := by
  have hdigit := digitChar_digit hk
  unfold tenthText
  split_ifs
  · exact ⟨by simp, rfl, rfl⟩
  · refine ⟨?_, rfl, ?_⟩
    · simp [JsonText.numberChar, hdigit]
    · simp [JsonText.fraction, JsonText.exponent, hdigit]

theorem tenthValue_text {k : ℕ} (hk : k < 10) : tenthValue (tenthText k) = k := by
  interval_cases k <;> rfl

theorem takeWhile_digits {n : ℕ} {f : List Char} (hf : Tail f) :
    (Nat.toDigits 10 n ++ f).takeWhile JsonText.digit = Nat.toDigits 10 n ∧
      (Nat.toDigits 10 n ++ f).dropWhile JsonText.digit = f := by
  have hall : ∀ c ∈ Nat.toDigits 10 n, JsonText.digit c = true :=
    fun c hc => digit_of_mem_toDigits hc
  have hdrop : f.dropWhile JsonText.digit = f := by
    have := List.takeWhile_append_dropWhile (p := JsonText.digit) (l := f)
    rwa [hf.stops, List.nil_append] at this
  rw [List.takeWhile_append_of_pos hall, List.dropWhile_append_of_pos hall, hf.stops, hdrop]
  simp

theorem isNumber_digits (n : ℕ) {f : List Char} (hf : Tail f) :
    JsonText.isNumber (Nat.toDigits 10 n ++ f) = true := by
  have hchars : (Nat.toDigits 10 n ++ f).all JsonText.numberChar = true := by
    rw [List.all_eq_true]
    intro c hc
    rcases List.mem_append.mp hc with hc | hc
    · simp [JsonText.numberChar, digit_of_mem_toDigits hc]
    · exact hf.chars c hc
  have hinteger : JsonText.integer (Nat.toDigits 10 n ++ f) = true := by
    rcases Nat.eq_zero_or_pos n with rfl | hn
    · rw [Nat.toDigits_zero]
      exact hf.fraction
    · obtain ⟨d, rest, hdigits, hd⟩ := toDigits_head hn
      have hdrop := (@takeWhile_digits n f hf).2
      have hdigit : JsonText.digit d = true := digit_of_mem_toDigits (hdigits ▸ List.mem_cons_self)
      rw [hdigits, List.cons_append, List.dropWhile_cons_of_pos hdigit] at hdrop
      rw [hdigits, List.cons_append, JsonText.integer, hdrop, hdigit, hf.fraction]
      · rfl
      · exact hd
  unfold JsonText.isNumber
  rw [hchars, Bool.true_and]
  split
  · rename_i rest hminus
    obtain ⟨d, ds, hdigits⟩ := List.exists_cons_of_ne_nil (@Nat.toDigits_ne_nil n 10)
    have hdigit : JsonText.digit d = true := digit_of_mem_toDigits (hdigits ▸ List.mem_cons_self)
    rw [hdigits, List.cons_append] at hminus
    rw [(List.cons.inj hminus).1] at hdigit
    cases hdigit
  · exact hinteger

theorem sample_ttlSec (capacity : ℚ) : (sampleHashcash capacity).ttlSec = 120 := by
  have hms : (120000 : ℚ) / 1000 = (120 : ℕ) := by norm_num
  show ⌊(sampleHashcash capacity).fl (120000 / 1000)⌋.toNat = 120
  rw [hms, sample_fl_nat, Int.floor_natCast]
  rfl

theorem sample_lawful (capacity : ℚ) : (sampleHashcash capacity).Lawful where
  integer n _ := sample_fl_nat n
  round q := by
    have hnat : ⌊(sampleHashcash capacity).fl q + 1 / 2⌋ =
        ((⌊((tenths q : ℕ) : ℚ) / 10 + 1 / 2⌋.toNat : ℕ) : ℤ) := by
      refine (Int.toNat_of_nonneg (Int.floor_nonneg.mpr ?_)).symm
      show (0 : ℚ) ≤ (tenths q : ℚ) / 10 + 1 / 2
      positivity
    rw [hnat]
    exact sample_fl_nat _
  text q hq := by
    have hq' : ((tenths q : ℕ) : ℚ) / 10 = q := hq
    have hlt : tenths q % 10 < 10 := Nat.mod_lt _ (by norm_num)
    have htail := tenthText_tail hlt
    refine ⟨isNumber_digits _ htail, ?_⟩
    obtain ⟨htake, hdrop⟩ := @takeWhile_digits (tenths q / 10) _ htail
    have hwhole : tenths q / 10 * 10 + tenths q % 10 = tenths q := by omega
    simp only [sampleHashcash, sampleNumbers]
    rw [htake, hdrop, Nat.ofDigitChars_ten_toDigits, tenthValue_text hlt, hwhole, hq']
  observe _ := rfl
  bounds := ⟨sample_fl_nat 4, sample_fl_nat 4⟩
  ttl := by
    rw [sample_ttlSec]
    norm_num

theorem hashcashStep_issue_now (svc : HashcashDeps) (st : HashcashState) (dt : ℕ)
    (userId deviceId : String) (score : JsNum) :
    (hashcashStep svc st (.issue dt userId deviceId score)).now = st.now + dt := rfl

theorem hashcashStep_issue_store (svc : HashcashDeps) (st : HashcashState) (dt : ℕ)
    (userId deviceId : String) (score : JsNum) :
    (hashcashStep svc st (.issue dt userId deviceId score)).store = st.store := rfl

/-- What is issued at second 0 to `u` can be solved with "5" until second 120. -/
theorem sample_challenge {capacity : ℚ} {before st : HashcashState} {challenge : IssuedChallenge}
    (hchallenge : challenge =
      (issueChallenge (sampleHashcash capacity) before 0 "u" "d" (.num (17 / 20))).1)
    (hbefore : before.now = 0) (hst : st.now = 0) :
    challenge.nonce = nonceU ∧ challenge.difficulty = .num 4 ∧
      challenge.difficulty.le (.num (countLeadingZeroBits
        (hashSolution (sampleHashcash capacity) challenge.nonce "5") : ℕ)) = true ∧
      (JsNum.num (expirySecond st {})).lt challenge.expiresAt = true := by
  have hissue : newIssue (sampleHashcash capacity) (before.advance 0).now "u" "d" (.num (17 / 20)) =
      newIssue (sampleHashcash capacity) 0 "u" "d" (.num (17 / 20)) := by
    rw [HashcashState.advance, hbefore]
  have hnonce : challenge.nonce = nonceU := by
    rw [hchallenge, ← @sample_issued capacity, ← hissue]
    rfl
  have hdifficulty : challenge.difficulty = .num 4 := by
    rw [hchallenge]
    exact sample_difficulty _
  have hexpires : challenge.expiresAt = .num ((120 : ℕ) : ℚ) := by
    have hiat : (newIssue (sampleHashcash capacity) (before.advance 0).now "u" "d"
        (.num (17 / 20))).iat = 0 := by
      rw [hissue]
      rfl
    rw [hchallenge, issueChallenge]
    dsimp only
    rw [hiat, sample_ttlSec]
  refine ⟨hnonce, hdifficulty, ?_, ?_⟩
  · have hbits : (4 : ℚ) ≤
        (countLeadingZeroBits (hashSolution (sampleHashcash capacity) nonceU "5") : ℕ) := by
      exact_mod_cast zeros_five
    rw [hnonce, hdifficulty]
    exact JsNum.le_num_eq_true hbits
  · have hsecond : expirySecond st {} = 0 := by
      rw [expirySecond, hst]
      rfl
    rw [hexpires, hsecond]
    decide

/-- A first challenge, redeemed at once. -/
theorem challenge_fresh_of_run_first :
    let svc := sampleHashcash 10000
    let challenge := (issueChallenge svc { now := 0 } 0 "u" "d" (.num (17 / 20))).1
    let st := hashcashStep svc { now := 0 } (.issue 0 "u" "d" (.num (17 / 20)))
    ∃ iat, (verifySolution svc st {} challenge.nonce "5" (.num (17 / 20)) "u" "d").1 =
      .ok (.ok iat) := by
  intro svc challenge st
  have hdiff : svc.difficulty (.num (17 / 20)) = .num 4 := sample_difficulty _
  have hfresh : FreshIssue svc { now := 0 } (.issue 0 "u" "d" (.num (17 / 20))) :=
    ⟨by rw [hdiff]; decide, by simp⟩
  have hrun := (challenge_fresh_of_run svc (sample_lawful 10000) 0 [] [] 0 "u" "d" (.num (17 / 20))
    ⟨by simp [ClockInRange], trivial⟩ ⟨trivial, trivial⟩ ⟨hfresh, trivial⟩).2.2
  rw [List.nil_append, runSteps_cons, runSteps_nil, runSteps_nil] at hrun
  obtain ⟨-, hdifficulty, hzeros, hlive⟩ :=
    @sample_challenge 10000 { now := 0 } st challenge rfl rfl rfl
  exact hrun List.not_mem_nil {} "5" (.num (17 / 20)) (by decide) (hdiff.trans hdifficulty.symm)
    hzeros hlive

/-- A text of the challenge that the store has is refused. -/
theorem sample_refused {capacity : ℚ} (hnow : st.now = 0)
    (hopen : openNonce (sampleHashcash capacity) nonce = .ok samplePayload)
    (hlen : 1 ≤ (JsonText.units solution.toList).length ∧
      (JsonText.units solution.toList).length ≤ 256)
    (hget : st.store.get nonce = some (.num 120)) :
    (verifySolution (sampleHashcash capacity) st {} nonce solution (.num (17 / 20)) "u" "d").1 =
      .ok (.fail .replay) := by
  have hlive : (JsNum.num 120).le (.num (unixSeconds (st.now + 0 + 0) : ℕ)) = false := by
    rw [hnow]
    exact JsNum.le_num_eq_false (by norm_num [unixSeconds])
  have hpayload : payloadOf (sampleHashcash capacity) nonce = .ok sampleNoncePayload :=
    payloadOf_of_open hopen sample_read
  refine verifySolution_replay hlen hpayload ⟨rfl, rfl⟩ hlive ?_
    (UsedNonceStore.has_of_live hget hlive)
  rw [sample_difficulty]
  decide

/-- The challenge is issued again after it was redeemed, in the same second. -/
theorem sample_reissued {issued redeemed st : HashcashState} {challenge : IssuedChallenge}
    (hredeemed : redeemed = hashcashStep (sampleHashcash 10000) issued (redeem nonceU "5"))
    (hchallenge : challenge =
      (issueChallenge (sampleHashcash 10000) redeemed 0 "u" "d" (.num (17 / 20))).1)
    (hst : st = hashcashStep (sampleHashcash 10000) redeemed (.issue 0 "u" "d" (.num (17 / 20))))
    (hnow : issued.now = 0) (hstore : issued.store = .empty) :
    challenge.nonce = nonceU ∧ nonceU ∈ redeemed.accepted ∧ redeemed.issued = issued.issued ∧
      challenge.difficulty.le (.num (countLeadingZeroBits
        (hashSolution (sampleHashcash 10000) challenge.nonce "5") : ℕ)) = true ∧
      (JsNum.num (expirySecond st {})).lt challenge.expiresAt = true ∧
      (verifySolution (sampleHashcash 10000) st {} challenge.nonce "5" (.num (17 / 20)) "u"
        "d").1 = .ok (.fail .replay) := by
  obtain ⟨⟨hok, hzero, hadded⟩, -⟩ := @sample_redeemed_both 10000 issued _ _ rfl rfl hnow hstore
  have hvisits := verifySolution_visits (sampleHashcash 10000) issued {} nonceU "5"
    (.num (17 / 20)) "u" "d"
  have haccepted := (redeems_redeem hok).accepted
  rw [← hredeemed] at haccepted
  rw [hashcashStep_redeem] at hredeemed
  rw [← hredeemed] at hzero hadded hvisits
  have hlater : st.now = 0 := by
    rw [hst, hashcashStep_issue_now, hzero]
  have hget : st.store.get nonceU = some (.num 120) := by
    rw [hst, hashcashStep_issue_store, hadded, JsMap.get_eq_some, UsedNonceStore.add_entries rfl]
    simp
  obtain ⟨hnonce, -, hzeros, hlive⟩ := sample_challenge hchallenge hzero hlater
  refine ⟨hnonce, ?_, hvisits.issued, hzeros, hlive, ?_⟩
  · rw [haccepted]
    simp
  · rw [hnonce]
    exact sample_refused hlater sample_open (by decide) hget

/-- A user asks twice within a second and gets one challenge: once the first is redeemed, the
second is refused. -/
theorem same_second_replayed :
    let svc := sampleHashcash 10000
    let issue : HashcashOp := .issue 0 "u" "d" (.num (17 / 20))
    let before := runSteps (hashcashStep svc) { now := 0 } [issue, redeem nonceU "5"]
    let challenge := (issueChallenge svc before 0 "u" "d" (.num (17 / 20))).1
    let st := hashcashStep svc before issue
    challenge.nonce ∈ before.accepted ∧ (∃ r ∈ before.issued, r.nonce = challenge.nonce) ∧
      challenge.difficulty.le
        (.num (countLeadingZeroBits (hashSolution svc challenge.nonce "5") : ℕ)) = true ∧
      (JsNum.num (expirySecond st {})).lt challenge.expiresAt = true ∧
      (verifySolution svc st {} challenge.nonce "5" (.num (17 / 20)) "u" "d").1 =
        .ok (.fail .replay) := by
  intro svc issue before challenge st
  have hbefore : before =
      hashcashStep svc (hashcashStep svc { now := 0 } issue) (redeem nonceU "5") := by
    show runSteps (hashcashStep svc) { now := 0 } [issue, redeem nonceU "5"] = _
    rw [runSteps_cons, runSteps_cons, runSteps_nil]
  obtain ⟨hnonce, haccepted, hissued, hzeros, hlive, hrefused⟩ := @sample_reissued
    (hashcashStep svc { now := 0 } issue) before st challenge hbefore rfl rfl rfl rfl
  refine ⟨hnonce ▸ haccepted, ?_, hzeros, hlive, hrefused⟩
  refine ⟨newIssue svc 0 "u" "d" (.num (17 / 20)), ?_, sample_issued.trans hnonce.symm⟩
  rw [hissued]
  exact List.mem_singleton.mpr rfl

end ZTG
