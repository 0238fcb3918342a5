import ZtGateway.Spec.Hashcash

/-! What one call of the hashcash service can do to the store and to the record, and which
texts pass the structural parse. -/

namespace ZTG

theorem JsNum.le_num_mono {c : JsNum} {a b : ℕ} (h : c.le (.num a) = true) (hab : a ≤ b) :
    c.le (.num b) = true := by
  have hq : (a : ℚ) ≤ b := by exact_mod_cast hab
  cases c with
  | nan => simp [JsNum.le] at h
  | negInf => rfl
  | posInf => simp [JsNum.le] at h
  | num q =>
    simp only [JsNum.le, decide_eq_true_eq] at h ⊢
    exact h.trans hq

theorem JsNum.le_num_eq_true {a b : ℚ} (h : a ≤ b) : (JsNum.num a).le (.num b) = true :=
  decide_eq_true h

theorem JsNum.le_num_eq_false {a b : ℚ} (h : b < a) : (JsNum.num a).le (.num b) = false :=
  decide_eq_false (not_le.mpr h)

theorem JsNum.lt_num_eq_false {a b : ℚ} (h : b ≤ a) : (JsNum.num a).lt (.num b) = false :=
  decide_eq_false (not_lt.mpr h)

theorem splitNonce_eq {payloadB64 macB64 : List Char} (hpayload : payloadB64 ≠ [])
    (hmac : macB64 ≠ []) (hdot : '.' ∉ macB64) :
    splitNonce (payloadB64 ++ '.' :: macB64) = some (payloadB64, macB64) := by
  have hrev : (payloadB64 ++ '.' :: macB64).reverse =
      macB64.reverse ++ '.' :: payloadB64.reverse := by simp
  have hall : ∀ c ∈ macB64.reverse, decide (c ≠ '.') = true := by
    intro c hc
    have : c ≠ '.' := by
      rintro rfl
      exact hdot (List.mem_reverse.mp hc)
    simpa using this
  unfold splitNonce
  rw [hrev, List.takeWhile_append_of_pos hall, List.dropWhile_append_of_pos hall]
  simp [hpayload, hmac]

/-- A text that decodes to the payload, a dot, and a text that decodes to its HMAC. -/
theorem openNonce_of_decode (svc : HashcashDeps) {payloadB64 macB64 : List Char} {payload : Buffer}
    (hpayload : Base64.decode svc.base64Ends payloadB64 = payload)
    (hmac : Base64.decode svc.base64Ends macB64 = svc.mac payload)
    (hne : payloadB64 ≠ []) (hne' : macB64 ≠ []) (hdot : '.' ∉ macB64) :
    openNonce svc (String.ofList (payloadB64 ++ '.' :: macB64)) = .ok payload := by
  unfold openNonce
  rw [String.toList_ofList, splitNonce_eq hne hne' hdot]
  simp only [hpayload, hmac, if_true]

theorem sextet_dot : Base64.sextet '.' = none :=
  Base64.sextet_of_not_mem (Base64.not_letter (by decide)) (by decide)

theorem mac_ne_nil (svc : HashcashDeps) (payload : Buffer) : svc.mac payload ≠ [] := by
  have hlen : (svc.mac payload).length = 32 := svc.hmacSha256_length _ _
  intro h
  simp [h] at hlen

theorem dot_notMem_encode (bytes : Buffer) : '.' ∉ Base64.encode Base64.url bytes := by
  intro h
  have := Base64.sextet_of_encode Base64.reads_url h
  rw [sextet_dot] at this
  cases this

theorem decode_url (ends : Char → Bool) (bytes : Buffer) :
    Base64.decode ends (Base64.encode Base64.url bytes) = bytes := by
  have := Base64.decode_encode_append Base64.reads_url ends bytes (t := []) (by simp)
  rwa [List.append_nil] at this

/-- What `issueChallenge` makes of a payload passes. -/
theorem openNonce_nonceText (svc : HashcashDeps) {payload : Buffer} (h : payload ≠ []) :
    openNonce svc (String.ofList (nonceText payload (svc.mac payload))) = .ok payload :=
  openNonce_of_decode svc (decode_url _ _) (decode_url _ _) (Base64.encode_ne_nil h)
    (Base64.encode_ne_nil (mac_ne_nil svc payload)) (dot_notMem_encode _)

namespace UsedNonceStore

variable {store : Store} {now : ℕ} {nonce n : String} {capacity exp exp' : JsNum}

theorem has_of_absent (h : store.get nonce = none) : has store now nonce = (false, store) := by
  rw [has, h]

theorem has_of_live (h : store.get nonce = some exp)
    (hlive : exp.le (.num (unixSeconds now)) = false) : has store now nonce = (true, store) := by
  simp [has, h, hlive]

/-- The eviction takes the front of the queue. -/
theorem makeRoom_entries : (makeRoom store capacity).entries =
    if capacity.le (.num store.size) then store.entries.tail else store.entries := by
  unfold makeRoom
  split_ifs with hfull
  · obtain ⟨es, hnodup⟩ := store
    cases es with
    | nil => rfl
    | cons x es =>
      simp only [List.map_cons, List.nodup_cons] at hnodup
      show (x :: es).filter (fun e => decide (e.1 ≠ x.1)) = es
      rw [List.filter_cons_of_neg (by simp), List.filter_eq_self]
      intro y hy
      have : y.1 ≠ x.1 := fun heq => hnodup.1 (heq ▸ List.mem_map_of_mem hy)
      simpa using this
  · rfl

theorem get_of_add (h : (add store capacity nonce exp).get n = some exp') :
    n = nonce ∨ store.get n = some exp' := by
  rw [add, JsMap.get_set] at h
  split_ifs at h with heq
  · exact .inl heq
  · right
    rw [JsMap.get_eq_some, makeRoom_entries] at h
    rw [JsMap.get_eq_some]
    split_ifs at h
    · exact List.mem_of_mem_tail h
    · exact h

/-- A lookup only ever removes. -/
theorem get_of_has {found : Bool} {store' : Store} (h : has store now nonce = (found, store'))
    (hget : store'.get n = some exp') : store.get n = some exp' := by
  unfold has at h
  split at h
  · cases h
    exact hget
  · split_ifs at h
    · cases h
      rw [JsMap.get_delete] at hget
      split_ifs at hget
      exact hget
    · cases h
      exact hget

/-- A nonce that is not there goes to the back of what the eviction left. -/
theorem add_entries (h : store.get nonce = none) : (add store capacity nonce exp).entries =
    (if capacity.le (.num store.size) then store.entries.tail else store.entries) ++
      [(nonce, exp)] := by
  have habsent : (makeRoom store capacity).get nonce = none := by
    rw [JsMap.get_eq_none] at h ⊢
    rw [makeRoom_entries]
    split_ifs
    · exact fun hmem => h ((List.map_subset _ (List.tail_subset _)) hmem)
    · exact h
  rw [add, JsMap.set_of_absent habsent, makeRoom_entries]

end UsedNonceStore

variable {svc : HashcashDeps} {st st' : HashcashState} {t : VerifyTicks}
  {nonce solution userId deviceId : String} {liveScore : JsNum}

/-- the Unix second of the expiry check -/
def expirySecond (st : HashcashState) (t : VerifyTicks) : ℕ := unixSeconds (st.now + t.expiry)

/-- the Unix second of the store's reading -/
def storeSecond (st : HashcashState) (t : VerifyTicks) : ℕ :=
  unixSeconds (st.now + t.expiry + t.store)

/-- everything `verifySolution` can answer and do to the store and the record -/
inductive Visits (svc : HashcashDeps) (st : HashcashState) (t : VerifyTicks) (nonce : String) :
    Except Err VerifyResult → HashcashState → Prop
  | stayed (reason : HashcashFailure) (st' : HashcashState) (hstore : st'.store = st.store)
      (haccepted : st'.accepted = st.accepted) (hissued : st'.issued = st.issued) :
      Visits svc st t nonce (.ok (.fail reason)) st'
  /-- the entry had expired by the store's reading, though not by the expiry check -/
  | dropped (reason : HashcashFailure) (st' : HashcashState) (payload : NoncePayload)
      (exp : JsNum) (hpayload : payloadOf svc nonce = .ok payload)
      (hlive : payload.exp.le (.num (expirySecond st t)) = false)
      (hget : st.store.get nonce = some exp)
      (hexp : exp.le (.num (storeSecond st t)) = true)
      (hstore : st'.store = st.store.delete nonce) (haccepted : st'.accepted = st.accepted)
      (hissued : st'.issued = st.issued) : Visits svc st t nonce (.ok (.fail reason)) st'
  | marked (r : Except Err VerifyResult) (st' : HashcashState) (payload : NoncePayload)
      (store : UsedNonceStore.Store)
      (hpayload : payloadOf svc nonce = .ok payload)
      (hlive : payload.exp.le (.num (expirySecond st t)) = false)
      (hhas : UsedNonceStore.has st.store (st.now + t.expiry + t.store) nonce = (false, store))
      (hstore : st'.store =
        UsedNonceStore.add store svc.cfg.usedNonceCapacity nonce payload.exp)
      (haccepted : st'.accepted = st.accepted ++ [nonce]) (hissued : st'.issued = st.issued) :
      Visits svc st t nonce r st'

theorem markUsed_record (svc : HashcashDeps) (st : HashcashState) (nonce : String)
    (payload : NoncePayload) (nowSec : ℕ) :
    let st' := (markUsed svc st nonce payload nowSec).2
    st'.store = UsedNonceStore.add st.store svc.cfg.usedNonceCapacity nonce payload.exp ∧
      st'.accepted = st.accepted ++ [nonce] ∧ st'.issued = st.issued := by
  unfold markUsed
  dsimp only
  split
  · exact ⟨rfl, rfl, rfl⟩
  · exact ⟨rfl, rfl, rfl⟩

theorem payloadOf_of_open {payload : Buffer} {read : NoncePayload}
    (hopen : openNonce svc nonce = .ok payload) (hread : readPayload svc payload = some read) :
    payloadOf svc nonce = .ok read := by
  simp only [payloadOf, hopen, hread]

/-- The call once its payload has passed the identity, expiry and difficulty checks. -/
theorem visits_of_payload {payload : NoncePayload} (hpayload : payloadOf svc nonce = .ok payload) :
    Visits svc st t nonce
      (verifyPayload svc st t nonce solution liveScore userId deviceId payload).1
      (verifyPayload svc st t nonce solution liveScore userId deviceId payload).2 := by
  unfold verifyPayload
  dsimp only
  split
  · exact .stayed _ _ rfl rfl rfl
  split
  · exact .stayed _ _ rfl rfl rfl
  rename_i hexp
  have hlive : payload.exp.le (.num (expirySecond st t)) = false := Bool.eq_false_of_not_eq_true hexp
  split
  · exact .stayed _ _ rfl rfl rfl
  rcases hhas : UsedNonceStore.has st.store (st.now + t.expiry + t.store) nonce with ⟨found, store⟩
  have hhas' : UsedNonceStore.has ((st.advance t.expiry).advance t.store).store
      ((st.advance t.expiry).advance t.store).now nonce = (found, store) := hhas
  rw [hhas']
  -- what `has` leaves: the store as it was, or without the nonce
  have hleft : store = st.store ∨ ∃ exp, st.store.get nonce = some exp ∧
      exp.le (.num (storeSecond st t)) = true ∧ store = st.store.delete nonce ∧ found = false := by
    rw [UsedNonceStore.has] at hhas
    split at hhas
    · cases hhas
      exact .inl rfl
    · rename_i exp hget
      split_ifs at hhas with hgone
      · cases hhas
        exact .inr ⟨exp, hget, hgone, rfl, rfl⟩
      · cases hhas
        exact .inl rfl
  cases found with
  | true =>
    rcases hleft with rfl | ⟨_, _, _, _, hfound⟩
    · exact .stayed _ _ rfl rfl rfl
    · cases hfound
  | false =>
    dsimp only
    split
    · rcases hleft with rfl | ⟨exp, hget, hgone, rfl, -⟩
      · exact .stayed _ _ rfl rfl rfl
      · exact .dropped _ _ payload exp hpayload hlive hget hgone rfl rfl rfl
    · obtain ⟨hstore, haccepted, hissued⟩ := markUsed_record svc
        { (st.advance t.expiry).advance t.store with store := store } nonce payload
        (unixSeconds (st.advance t.expiry).now)
      exact .marked _ _ payload store hpayload hlive hhas hstore haccepted hissued

theorem verifySolution_visits (svc : HashcashDeps) (st : HashcashState) (t : VerifyTicks)
    (nonce solution : String) (liveScore : JsNum) (userId deviceId : String) :
    Visits svc st t nonce (verifySolution svc st t nonce solution liveScore userId deviceId).1
      (verifySolution svc st t nonce solution liveScore userId deviceId).2 := by
  unfold verifySolution
  dsimp only
  split
  · exact .stayed _ _ rfl rfl rfl
  split
  · exact .stayed _ _ rfl rfl rfl
  · exact visits_of_payload ‹_›

/-- A call that returns ok has marked its nonce. -/
theorem Visits.accepted_of_ok {iat : JsNum} (h : Visits svc st t nonce (.ok (.ok iat)) st') :
    st'.accepted = st.accepted ++ [nonce] := by
  cases h with
  | marked _ _ payload store hpayload hlive hhas hstore haccepted hissued => exact haccepted

theorem Visits.accepted_kept {r : Except Err VerifyResult} (h : Visits svc st t nonce r st') :
    st.accepted <+: st'.accepted := by
  cases h with
  | stayed _ _ hstore haccepted hissued => rw [haccepted]
  | dropped _ _ _ _ hpayload hlive hget hexp hstore haccepted => rw [haccepted]
  | marked _ _ _ _ hpayload hlive hhas hstore haccepted =>
    rw [haccepted]
    exact List.prefix_append _ _

theorem Visits.issued {r : Except Err VerifyResult} (h : Visits svc st t nonce r st') :
    st'.issued = st.issued := by
  cases h with
  | stayed _ _ hstore haccepted hissued => exact hissued
  | dropped _ _ _ _ hpayload hlive hget hexp hstore haccepted hissued => exact hissued
  | marked _ _ _ _ hpayload hlive hhas hstore haccepted hissued => exact hissued

/-- the second the solve time is measured at is that of the expiry check -/
def solvedAfter (svc : HashcashDeps) (st : HashcashState) (t : VerifyTicks)
    (payload : NoncePayload) : JsNum := solveTime svc.fl (expirySecond st t) payload.iat

/-- All checks pass: the call returns ok, and the nonce goes to the store. -/
theorem verifySolution_ok {payload : NoncePayload} {store : UsedNonceStore.Store}
    (hlen : 1 ≤ (JsonText.units solution.toList).length ∧
      (JsonText.units solution.toList).length ≤ 256)
    (hpayload : payloadOf svc nonce = .ok payload)
    (hid : payload.sub = JsonText.units userId.toList ∧
      payload.dev = JsonText.units deviceId.toList)
    (hlive : payload.exp.le (.num (expirySecond st t)) = false)
    (hdiff : payload.diff.strictEq (difficultyForScore svc.fl liveScore svc.cfg.difficultyMin
      svc.cfg.difficultyMax) = true)
    (hhas : UsedNonceStore.has st.store (st.now + t.expiry + t.store) nonce = (false, store))
    (hzeros : (JsNum.num (countLeadingZeroBits (hashSolution svc nonce solution))).lt
      payload.diff = false)
    (hobserve : svc.observe (solvedAfter svc st t payload) = none) :
    (verifySolution svc st t nonce solution liveScore userId deviceId).1 =
        .ok (.ok payload.iat) ∧
      (verifySolution svc st t nonce solution liveScore userId deviceId).2.store =
        UsedNonceStore.add store svc.cfg.usedNonceCapacity nonce payload.exp ∧
      (verifySolution svc st t nonce solution liveScore userId deviceId).2.now =
        st.now + t.expiry + t.store := by
  have hhas' : UsedNonceStore.has ((st.advance t.expiry).advance t.store).store
      ((st.advance t.expiry).advance t.store).now nonce = (false, store) := hhas
  have hlive' : payload.exp.le (.num (unixSeconds (st.advance t.expiry).now)) = false := hlive
  have hobserve' : svc.observe (solveTime svc.fl (unixSeconds (st.advance t.expiry).now)
      payload.iat) = none := hobserve
  unfold verifySolution
  simp only [hpayload]
  rw [if_neg (by omega)]
  unfold verifyPayload
  simp only [hid, hlive', hdiff, hhas', hzeros, markUsed, hobserve', ne_eq, not_true_eq_false,
    or_self, if_false, Bool.false_eq_true, Bool.true_eq_false]
  exact ⟨trivial, rfl, rfl⟩

/-- All checks before the store's pass, and the store has the nonce. -/
theorem verifySolution_replay {payload : NoncePayload} {store : UsedNonceStore.Store}
    (hlen : 1 ≤ (JsonText.units solution.toList).length ∧
      (JsonText.units solution.toList).length ≤ 256)
    (hpayload : payloadOf svc nonce = .ok payload)
    (hid : payload.sub = JsonText.units userId.toList ∧
      payload.dev = JsonText.units deviceId.toList)
    (hlive : payload.exp.le (.num (expirySecond st t)) = false)
    (hdiff : payload.diff.strictEq (difficultyForScore svc.fl liveScore svc.cfg.difficultyMin
      svc.cfg.difficultyMax) = true)
    (hhas : UsedNonceStore.has st.store (st.now + t.expiry + t.store) nonce = (true, store)) :
    (verifySolution svc st t nonce solution liveScore userId deviceId).1 =
      .ok (.fail .replay) := by
  have hhas' : UsedNonceStore.has ((st.advance t.expiry).advance t.store).store
      ((st.advance t.expiry).advance t.store).now nonce = (true, store) := hhas
  have hlive' : payload.exp.le (.num (unixSeconds (st.advance t.expiry).now)) = false := hlive
  unfold verifySolution
  simp only [hpayload]
  rw [if_neg (by omega)]
  unfold verifyPayload
  simp only [hid, hlive', hdiff, hhas', ne_eq, not_true_eq_false, or_self, if_false,
    Bool.false_eq_true, Bool.true_eq_false]

end ZTG
