import Mathlib.Algebra.Order.Floor.Semiring
import ZtGateway.Proofs.Hashcash

/-! Which calls of `verifySolution` succeed, and what every call leaves of the used nonces. The
clock stands still during a call. -/

namespace ZTG

variable {svc : HashcashDeps} {st : HashcashState}
  {nonce solution userId deviceId n : String} {liveScore : JsNum} {payload : NoncePayload}

/-- The nonce counts as used at the second `sec`. -/
def Live (store : UsedNonceStore.Store) (sec : ℕ) (n : String) : Prop :=
  ∃ exp, store.get n = some exp ∧ exp.le (.num sec) = false

/-- The nonce is a text of the payload, a dot and a text of its HMAC. -/
def Carries (svc : HashcashDeps) (nonce : String) (payload : NoncePayload) : Prop :=
  ∃ payloadB64 macB64, nonce.toList = payloadB64 ++ '.' :: macB64 ∧ '.' ∉ macB64 ∧
    payloadB64 ≠ [] ∧ macB64 ≠ [] ∧
    Base64.decode svc.base64Ends macB64 = svc.mac (Base64.decode svc.base64Ends payloadB64) ∧
    readPayload svc (Base64.decode svc.base64Ends payloadB64) = some payload

/-- what a solution of the challenge in `payload` must meet -/
structure Solves (svc : HashcashDeps) (st : HashcashState) (nonce solution : String)
    (liveScore : JsNum) (userId deviceId : String) (payload : NoncePayload) : Prop where
  length : 1 ≤ (JsonText.units solution.toList).length ∧
    (JsonText.units solution.toList).length ≤ 256
  carries : Carries svc nonce payload
  identity : payload.sub = JsonText.units userId.toList ∧
    payload.dev = JsonText.units deviceId.toList
  unexpired : (JsNum.num (unixSeconds st.now)).lt payload.exp = true
  difficulty : payload.diff =
    difficultyForScore svc.fl liveScore svc.cfg.difficultyMin svc.cfg.difficultyMax
  unused : ¬ Live st.store (unixSeconds st.now) nonce
  zeros : payload.diff.le
    (.num (countLeadingZeroBits (hashSolution svc nonce solution))) = true

theorem splitNonce_some_iff {s payloadB64 macB64 : List Char} :
    splitNonce s = some (payloadB64, macB64) ↔
      s = payloadB64 ++ '.' :: macB64 ∧ '.' ∉ macB64 ∧ payloadB64 ≠ [] ∧ macB64 ≠ [] := by
  constructor
  · intro h
    unfold splitNonce at h
    dsimp only at h
    split at h
    · cases h
    · rename_i c rest hdrop
      split_ifs at h with hempty
      obtain ⟨rfl, rfl⟩ := Prod.mk.inj (Option.some.inj h)
      push Not at hempty
      have hc : c = '.' := by
        have hhead := List.head?_dropWhile_not (fun c => decide (c ≠ '.')) s.reverse
        rw [hdrop] at hhead
        simpa using hhead
      subst hc
      refine ⟨?_, ?_, by simpa using hempty.1, hempty.2⟩
      · have hrev := List.takeWhile_append_dropWhile (p := fun c => decide (c ≠ '.'))
          (l := s.reverse)
        rw [hdrop] at hrev
        simpa using (congrArg List.reverse hrev).symm
      · intro hmem
        have hne := List.all_eq_true.mp List.all_takeWhile _ (List.mem_reverse.mp hmem)
        simp at hne
  · rintro ⟨rfl, hdot, hpayload, hmac⟩
    exact splitNonce_eq hpayload hmac hdot

theorem payloadOf_iff : payloadOf svc nonce = .ok payload ↔ Carries svc nonce payload := by
  unfold payloadOf openNonce Carries
  constructor
  · intro h
    split at h
    · cases h
    · rename_i bytes hopen
      split at hopen
      · cases hopen
      · rename_i payloadB64 macB64 hsplit
        dsimp only at hopen
        split_ifs at hopen with hmac
        obtain rfl := Except.ok.inj hopen
        obtain ⟨hs, hdot, hne, hne'⟩ := splitNonce_some_iff.mp hsplit
        refine ⟨payloadB64, macB64, hs, hdot, hne, hne', hmac, ?_⟩
        split at h
        · cases h
        · rename_i payload' hread
          rw [hread, Except.ok.inj h]
  · rintro ⟨payloadB64, macB64, hs, hdot, hne, hne', hmac, hread⟩
    rw [splitNonce_some_iff.mpr ⟨hs, hdot, hne, hne'⟩]
    simp only [hmac, if_true, hread]

theorem has_false_iff {now : ℕ} {store : UsedNonceStore.Store} :
    (UsedNonceStore.has store now nonce).1 = false ↔ ¬ Live store (unixSeconds now) nonce := by
  unfold UsedNonceStore.has Live
  cases store.get nonce with
  | none => simp
  | some exp =>
    dsimp only
    split_ifs with hexp
    · simp [hexp]
    · simp [Bool.eq_false_of_not_eq_true hexp]

/-- A lookup drops nothing that is live. -/
theorem has_live_iff {now : ℕ} {store : UsedNonceStore.Store} :
    Live (UsedNonceStore.has store now nonce).2 (unixSeconds now) n ↔
      Live store (unixSeconds now) n := by
  unfold UsedNonceStore.has
  cases hget : store.get nonce with
  | none => rfl
  | some exp =>
    dsimp only
    split_ifs with hexp
    · unfold Live
      rw [JsMap.get_delete]
      split_ifs with hn
      · subst hn
        simp [hget, hexp]
      · rfl
    · rfl

theorem Carries.unique {payload' : NoncePayload} (h : Carries svc nonce payload)
    (h' : Carries svc nonce payload') : payload = payload' :=
  Except.ok.inj ((payloadOf_iff.mpr h).symm.trans (payloadOf_iff.mpr h'))

/-- The numbers of a payload are those of its text. -/
theorem Carries.not_nan (hnan : ∀ text, svc.numbers.value text ≠ .nan)
    (h : Carries svc nonce payload) : payload.exp ≠ .nan ∧ payload.diff ≠ .nan := by
  obtain ⟨payloadB64, macB64, -, -, -, -, -, hread⟩ := h
  unfold readPayload at hread
  split at hread
  · cases hread
  · rename_i v hparse
    split at hread
    · rename_i exp diff iat sub dev hexp hdiff hiat hsub hdev
      obtain rfl := Option.some.inj hread
      obtain ⟨text, rfl⟩ := JsonText.parse_field_num hparse hexp
      obtain ⟨text', rfl⟩ := JsonText.parse_field_num hparse hdiff
      exact ⟨hnan text, hnan text'⟩
    · cases hread

theorem JsNum.lt_iff_not_le {a b : JsNum} (ha : a ≠ .nan) (hb : b ≠ .nan) :
    a.lt b = true ↔ b.le a = false := by
  cases a <;> cases b <;> simp_all [JsNum.lt, JsNum.le]

/-- A failure that leaves the live nonces alone, of a call that solves nothing. -/
structure Refused (svc : HashcashDeps) (st : HashcashState) (nonce solution : String)
    (liveScore : JsNum) (userId deviceId : String)
    (r : Except Err VerifyResult × HashcashState) : Prop where
  reason : ∃ reason, r.1 = .ok (.fail reason)
  frame : ∀ n, Live r.2.store (unixSeconds st.now) n ↔ Live st.store (unixSeconds st.now) n
  unsolved : ∀ payload, ¬ Solves svc st nonce solution liveScore userId deviceId payload

theorem has_size {now : ℕ} {store : UsedNonceStore.Store} :
    (UsedNonceStore.has store now nonce).2.size ≤ store.size := by
  unfold UsedNonceStore.has
  split
  · exact le_rfl
  · split_ifs
    · exact List.length_filter_le _ _
    · exact le_rfl

/-- The two ways through `verifySolution`: it is refused, or the nonce is marked as used. -/
theorem verifySolution_cases (hnan : ∀ text, svc.numbers.value text ≠ .nan)
    (st : HashcashState) (nonce solution : String) (liveScore : JsNum)
    (userId deviceId : String) :
    Refused svc st nonce solution liveScore userId deviceId
      (verifySolution svc st {} nonce solution liveScore userId deviceId) ∨
    ∃ payload, Solves svc st nonce solution liveScore userId deviceId payload ∧
      verifySolution svc st {} nonce solution liveScore userId deviceId =
        markUsed svc { st with store := (UsedNonceStore.has st.store st.now nonce).2 } nonce
          payload (unixSeconds st.now) := by
  unfold verifySolution
  dsimp only
  split_ifs with hlen
  · refine .inl ⟨⟨_, rfl⟩, fun n => Iff.rfl, fun payload hs => ?_⟩
    have := hs.length
    omega
  split
  · rename_i reason hpayload
    refine .inl ⟨⟨_, rfl⟩, fun n => Iff.rfl, fun payload hs => ?_⟩
    rw [payloadOf_iff.mpr hs.carries] at hpayload
    cases hpayload
  · rename_i payload hpayload
    have hcarries := payloadOf_iff.mp hpayload
    obtain ⟨hexpnan, hdiffnan⟩ := hcarries.not_nan hnan
    -- what is solved is this payload
    have hthis : ∀ payload', Solves svc st nonce solution liveScore userId deviceId payload' →
        Solves svc st nonce solution liveScore userId deviceId payload :=
      fun payload' hs => hcarries.unique hs.carries ▸ hs
    unfold verifyPayload
    dsimp only
    split
    · rename_i hid
      refine .inl ⟨⟨_, rfl⟩, fun n => Iff.rfl, fun payload' hs => ?_⟩
      have hsame := (hthis payload' hs).identity
      simp [hsame] at hid
    rename_i hid
    split
    · rename_i hexp
      refine .inl ⟨⟨_, rfl⟩, fun n => Iff.rfl, fun payload' hs => ?_⟩
      have hlive := (JsNum.lt_iff_not_le (by simp) hexpnan).mp (hthis payload' hs).unexpired
      exact absurd (hlive.symm.trans hexp) (by simp)
    rename_i hexp
    split
    · rename_i hdiff
      refine .inl ⟨⟨_, rfl⟩, fun n => Iff.rfl, fun payload' hs => ?_⟩
      have hsame := (hthis payload' hs).difficulty
      simp [JsNum.strictEq, ← hsame, hdiffnan] at hdiff
    rename_i hdiff
    have hnow : ((st.advance 0).advance 0).now = st.now := rfl
    have hstore : ((st.advance 0).advance 0).store = st.store := rfl
    rw [hstore, hnow]
    have hused := @has_false_iff nonce st.now st.store
    have hframe := fun n => @has_live_iff nonce n st.now st.store
    rcases hhas : UsedNonceStore.has st.store st.now nonce with ⟨found, store⟩
    rw [hhas] at hused
    simp only [hhas] at hframe
    cases found with
    | true =>
      refine .inl ⟨⟨_, rfl⟩, hframe, fun payload' hs => ?_⟩
      exact absurd (hused.mpr (hthis payload' hs).unused) (by simp)
    | false =>
      dsimp only
      split
      · rename_i hzeros
        refine .inl ⟨⟨_, rfl⟩, hframe, fun payload' hs => ?_⟩
        have hle := (hthis payload' hs).zeros
        have hnot := (JsNum.lt_iff_not_le (by simp) hdiffnan).mp hzeros
        exact absurd (hle.symm.trans hnot) (by simp)
      · rename_i hzeros
        refine .inr ⟨payload, ?_, rfl⟩
        refine ⟨by omega, hcarries, ?_, ?_, ?_, hused.mp rfl, ?_⟩
        · simpa [not_or] using hid
        · exact (JsNum.lt_iff_not_le (by simp) hexpnan).mpr (Bool.eq_false_of_not_eq_true hexp)
        · simpa [JsNum.strictEq, hdiffnan] using hdiff
        · by_contra hle
          exact hzeros ((JsNum.lt_iff_not_le (by simp) hdiffnan).mpr
            (Bool.eq_false_of_not_eq_true hle))

/-- what the store may hold -/
def storeBound (capacity : ℚ) : ℕ := max 1 ⌈capacity⌉₊

/-- The nonce is the only one that is new among the live ones, and at most the oldest entry is
gone, which needs a full store. -/
structure Gained (capacity : JsNum) (store store' : UsedNonceStore.Store) (sec : ℕ)
    (nonce : String) : Prop where
  own : Live store' sec nonce
  new : ∀ n, Live store' sec n → n = nonce ∨ Live store sec n
  kept : ∀ n, Live store sec n → Live store' sec n ∨
    capacity.le (.num store.size) = true ∧ (store.delete nonce).oldest = some n

theorem live_iff_entry {store : UsedNonceStore.Store} {sec : ℕ} :
    Live store sec n ↔ ∃ exp, (n, exp) ∈ store.entries ∧ exp.le (.num sec) = false := by
  simp only [Live, JsMap.get_eq_some]

/-- After the lookup of a nonce that is not live, it has no entry. -/
theorem has_entries {now : ℕ} {store : UsedNonceStore.Store}
    (h : ¬ Live store (unixSeconds now) nonce) :
    (UsedNonceStore.has store now nonce).2.entries = (store.delete nonce).entries ∧
      (UsedNonceStore.has store now nonce).2.get nonce = none := by
  unfold UsedNonceStore.has
  cases hget : store.get nonce with
  | none =>
    refine ⟨?_, hget⟩
    symm
    rw [JsMap.get_eq_none] at hget
    refine List.filter_eq_self.mpr fun e he => ?_
    have hne : e.1 ≠ nonce := fun heq => hget (heq ▸ List.mem_map_of_mem he)
    simpa using hne
  | some exp =>
    have hexp : exp.le (.num (unixSeconds now)) = true := by
      by_contra hlive
      exact h ⟨exp, hget, Bool.eq_false_of_not_eq_true hlive⟩
    simp [hexp]

theorem gained_of_add {capacity exp : JsNum} {now : ℕ} {store : UsedNonceStore.Store}
    (hunused : ¬ Live store (unixSeconds now) nonce)
    (hexp : exp.le (.num (unixSeconds now)) = false) :
    Gained capacity store
      (UsedNonceStore.add (UsedNonceStore.has store now nonce).2 capacity nonce exp)
      (unixSeconds now) nonce := by
  obtain ⟨hentries, habsent⟩ := has_entries hunused
  have hsize := @has_size nonce now store
  have hlive := fun n => @has_live_iff nonce n now store
  generalize (UsedNonceStore.has store now nonce).2 = swept at hentries habsent hsize hlive ⊢
  have hadd := @UsedNonceStore.add_entries swept nonce capacity exp habsent
  refine ⟨live_iff_entry.mpr ⟨exp, by simp [hadd], hexp⟩, fun n h => ?_, fun n h => ?_⟩
  · obtain ⟨exp', hmem, hexp'⟩ := live_iff_entry.mp h
    rw [hadd] at hmem
    rcases List.mem_append.mp hmem with hmem | hmem
    · right
      refine (hlive n).mp (live_iff_entry.mpr ⟨exp', ?_, hexp'⟩)
      split_ifs at hmem
      · exact List.mem_of_mem_tail hmem
      · exact hmem
    · left
      exact (Prod.mk.inj (List.mem_singleton.mp hmem)).1
  · obtain ⟨exp', hmem, hexp'⟩ := live_iff_entry.mp ((hlive n).mpr h)
    by_cases hfull : capacity.le (.num swept.size) = true
    · rcases hes : swept.entries with _ | ⟨x, es⟩
      · rw [hes] at hmem
        cases hmem
      · rw [hes] at hmem
        rcases List.mem_cons.mp hmem with rfl | hmem
        · refine .inr ⟨JsNum.le_num_mono hfull hsize, ?_⟩
          rw [JsMap.oldest, ← hentries, hes]
          rfl
        · refine .inl (live_iff_entry.mpr ⟨exp', ?_, hexp'⟩)
          rw [hadd, if_pos hfull, hes]
          exact List.mem_append_left _ hmem
    · refine .inl (live_iff_entry.mpr ⟨exp', ?_, hexp'⟩)
      rw [hadd, if_neg hfull]
      exact List.mem_append_left _ hmem

theorem size_add {capacity exp : JsNum} {store : UsedNonceStore.Store}
    (habsent : store.get nonce = none) :
    (UsedNonceStore.add store capacity nonce exp).size =
      (if capacity.le (.num store.size) then store.size - 1 else store.size) + 1 := by
  have hentries := @UsedNonceStore.add_entries store nonce capacity exp habsent
  have hlen : (UsedNonceStore.add store capacity nonce exp).size =
      (UsedNonceStore.add store capacity nonce exp).entries.length := rfl
  rw [hlen, hentries, List.length_append, List.length_singleton]
  split_ifs
  · rw [List.length_tail]
    rfl
  · rfl

/-- Marking a nonce keeps the store within its bound. -/
theorem size_add_le {capacity : ℚ} {exp : JsNum} {store : UsedNonceStore.Store}
    (habsent : store.get nonce = none) (h : store.size ≤ storeBound capacity) :
    (UsedNonceStore.add store (.num capacity) nonce exp).size ≤ storeBound capacity := by
  rw [size_add habsent]
  unfold storeBound at h ⊢
  split_ifs with hfull
  · omega
  · have hroom : (store.size : ℚ) < capacity := by simpa [JsNum.le] using hfull
    have hceil := Nat.lt_ceil.mpr hroom
    omega

/-- No call, at whatever times its readings of the clock are, takes the store over its bound. -/
theorem Visits.size {capacity : ℚ} (hcap : svc.cfg.usedNonceCapacity = .num capacity)
    {t : VerifyTicks} {r : Except Err VerifyResult} {st' : HashcashState}
    (h : Visits svc st t nonce r st') (hst : st.store.size ≤ storeBound capacity) :
    st'.store.size ≤ storeBound capacity := by
  cases h with
  | stayed _ _ hstore haccepted hissued => rwa [hstore]
  | dropped _ _ payload exp hpayload hlive hget hexp hstore haccepted hissued =>
    rw [hstore]
    exact le_trans (List.length_filter_le _ _) hst
  | marked _ _ payload store hpayload hlive hhas hstore haccepted hissued =>
    have hunused := has_false_iff.mp (congrArg Prod.fst hhas)
    have habsent := (has_entries hunused).2
    have hsize := @has_size nonce (st.now + t.expiry + t.store) st.store
    rw [hhas] at habsent hsize
    rw [hstore, hcap]
    exact size_add_le habsent (hsize.trans hst)

theorem hashcashStep_size {capacity : ℚ} (hcap : svc.cfg.usedNonceCapacity = .num capacity)
    (st : HashcashState) (op : HashcashOp) (h : st.store.size ≤ storeBound capacity) :
    (hashcashStep svc st op).store.size ≤ storeBound capacity := by
  cases op with
  | issue dt userId deviceId score => exact h
  | verify t nonce solution liveScore userId deviceId =>
    exact (verifySolution_visits svc st t nonce solution liveScore userId deviceId).size hcap h

theorem markUsed_ok (svc : HashcashDeps) (st : HashcashState) (nonce : String)
    (payload : NoncePayload) (sec : ℕ) :
    ((∃ iat, (markUsed svc st nonce payload sec).1 = .ok (.ok iat)) ↔
      svc.observe (solveTime svc.fl sec payload.iat) = none) ∧
    ∀ reason, (markUsed svc st nonce payload sec).1 ≠ .ok (.fail reason) := by
  unfold markUsed
  dsimp only
  split
  · rename_i err herr
    simp [herr]
  · rename_i hnone
    simp [hnone]

/-- The histogram takes the solve time of every challenge that the nonce carries. -/
def SolveTimeTaken (svc : HashcashDeps) (sec : ℕ) (nonce : String) : Prop :=
  ∀ payload, Carries svc nonce payload → svc.observe (solveTime svc.fl sec payload.iat) = none

/-- All that a call of `verifySolution` does: where the histogram takes the solve time, it returns,
and succeeds exactly for the solutions of the nonce; a failure leaves the live nonces alone, a
success adds its own and drops at most the oldest; and no run takes the store over its bound. -/
theorem verifySolution_exact (svc : HashcashDeps) (hnan : ∀ text, svc.numbers.value text ≠ .nan)
    (capacity : ℚ) (hcap : svc.cfg.usedNonceCapacity = .num capacity) (st : HashcashState)
    (nonce solution : String) (liveScore : JsNum) (userId deviceId : String) :
    let r := verifySolution svc st {} nonce solution liveScore userId deviceId
    (SolveTimeTaken svc (unixSeconds st.now) nonce →
      ((∃ iat, r.1 = .ok (.ok iat)) ↔
        ∃ payload, Solves svc st nonce solution liveScore userId deviceId payload) ∧
      ((¬ ∃ iat, r.1 = .ok (.ok iat)) → ∃ reason, r.1 = .ok (.fail reason))) ∧
    ((∃ reason, r.1 = .ok (.fail reason)) → ∀ n,
      Live r.2.store (unixSeconds st.now) n ↔ Live st.store (unixSeconds st.now) n) ∧
    ((∃ iat, r.1 = .ok (.ok iat)) →
      Gained (.num capacity) st.store r.2.store (unixSeconds st.now) nonce) ∧
    (st.store.size ≤ storeBound capacity → r.2.store.size ≤ storeBound capacity) ∧
    ∀ now ops, (runSteps (hashcashStep svc) { now := now } ops).store.size ≤
      storeBound capacity := by
  intro r
  have hsize : st.store.size ≤ storeBound capacity → r.2.store.size ≤ storeBound capacity :=
    (verifySolution_visits svc st {} nonce solution liveScore userId deviceId).size hcap
  have hruns : ∀ now ops, (runSteps (hashcashStep svc) { now := now } ops).store.size ≤
      storeBound capacity := fun now ops =>
    @runSteps_keeps HashcashState HashcashOp (hashcashStep svc) { now := now }
      (fun st => st.store.size ≤ storeBound capacity) (hashcashStep_size hcap) (Nat.zero_le _) ops
  rcases verifySolution_cases hnan st nonce solution liveScore userId deviceId with
    hrefused | ⟨payload, hsolves, hmark⟩
  · obtain ⟨reason, hreason⟩ := hrefused.reason
    have hno : ¬ ∃ iat, r.1 = .ok (.ok iat) := by
      rintro ⟨iat, hiat⟩
      cases hreason.symm.trans hiat
    refine ⟨fun _ => ⟨iff_of_false hno ?_, fun _ => ⟨reason, hreason⟩⟩, fun _ => hrefused.frame,
      fun h => absurd h hno, hsize, hruns⟩
    rintro ⟨payload, hsolves⟩
    exact hrefused.unsolved payload hsolves
  · have hr : r = _ := hmark
    obtain ⟨hok, hnofail⟩ := markUsed_ok svc
      { st with store := (UsedNonceStore.has st.store st.now nonce).2 } nonce payload
      (unixSeconds st.now)
    have hstore := (markUsed_record svc
      { st with store := (UsedNonceStore.has st.store st.now nonce).2 } nonce payload
      (unixSeconds st.now)).1
    rw [← hr] at hok hnofail hstore
    refine ⟨fun htaken => ?_, ?_, fun _ => ?_, hsize, hruns⟩
    · have hsucceeds := hok.mpr (htaken payload hsolves.carries)
      exact ⟨iff_of_true hsucceeds ⟨payload, hsolves⟩, fun h => absurd hsucceeds h⟩
    · rintro ⟨reason, hreason⟩
      exact absurd hreason (hnofail reason)
    · rw [hstore, hcap]
      have hexpnan := (hsolves.carries.not_nan hnan).1
      exact gained_of_add hsolves.unused
        ((JsNum.lt_iff_not_le (by simp) hexpnan).mp hsolves.unexpired)

theorem sampleNumbers_ne_nan (text : List Char) : sampleNumbers.value text ≠ .nan := nofun

theorem verifySolution_exact_sample :
    let r := verifySolution (sampleHashcash 1) { now := 0 } {} nonceU "5" (.num (17 / 20)) "u" "d"
    r.1 = .ok (.ok (.num 0)) ∧
    (∃ payload,
      Solves (sampleHashcash 1) { now := 0 } nonceU "5" (.num (17 / 20)) "u" "d" payload) ∧
    Gained (.num 1) .empty r.2.store 0 nonceU ∧ r.2.store.size ≤ 1 := by
  obtain ⟨hok, -⟩ := @sample_redeemed 1 { now := 0 } {} nonceU "5" .empty sample_open (by decide)
    (by decide) rfl zeros_five
  obtain ⟨hreturns, -, hgained, hsize, -⟩ := verifySolution_exact (sampleHashcash 1)
    sampleNumbers_ne_nan 1 rfl { now := 0 } nonceU "5" (.num (17 / 20)) "u" "d"
  have hbound : storeBound 1 = 1 := by simp [storeBound]
  rw [hbound] at hsize
  have htaken : SolveTimeTaken (sampleHashcash 1) (unixSeconds 0) nonceU := fun _ _ => rfl
  exact ⟨hok, (hreturns htaken).1.mp ⟨_, hok⟩, hgained ⟨_, hok⟩, hsize (Nat.zero_le 1)⟩

/-- a payload whose `iat` overflows, signed -/
def overflowPayload : Buffer :=
  Utf8.encode
    "\x7b\"v\":1,\"exp\":120,\"diff\":4,\"sub\":\"u\",\"dev\":\"d\",\"iat\":1e999\x7d".toList

/-- HMAC-SHA256 of `overflowPayload` under the secret -/
def overflowMac : Buffer :=
  [95, 14, 110, 154, 204, 41, 244, 184, 130, 88, 67, 136, 107, 89, 160, 242, 188, 245, 133, 139,
    91, 136, 9, 41, 37, 245, 4, 137, 142, 234, 146, 206]

def overflowNonce : String :=
  "eyJ2IjoxLCJleHAiOjEyMCwiZGlmZiI6NCwic3ViIjoidSIsImRldiI6ImQiLCJpYXQiOjFlOTk5fQ." ++
  "Xw5umswp9LiCWEOIa1mg8rz1hYtbiAkpJfUEiY7qks4"

/-- The service on `overflowPayload`: the histogram refuses what is not finite. -/
def overflowHashcash : HashcashDeps :=
  { sampleHashcash (3 / 2) with
    hmacSha256 := fun _ msg => if msg = overflowPayload then overflowMac else List.replicate 32 0
    hmacSha256_length := fun _ msg => by split <;> rfl
    -- SHA-256 of the nonce with the solution 12
    sha256 := fun _ => [15, 164, 237, 181, 212, 54, 116, 227, 26, 110, 141, 25, 209, 109, 164, 120,
      152, 170, 153, 179, 100, 119, 30, 64, 196, 228, 107, 122, 46, 133, 180, 169]
    numbers := { sampleNumbers with
      value := fun s => if s = "1e999".toList then .posInf else sampleNumbers.value s }
    observe := fun
      | .num _ => none
      | _ => some (.error "Value is not a valid number: -Infinity") }

theorem overflow_ne_nan (text : List Char) : overflowHashcash.numbers.value text ≠ .nan := by
  show (if text = "1e999".toList then .posInf else sampleNumbers.value text) ≠ JsNum.nan
  split_ifs
  · exact nofun
  · exact sampleNumbers_ne_nan text

/-- the two texts of one challenge, each with a solution -/
def bothRedeemed : List HashcashOp :=
  [.verify {} nonceU "5" (.num (17 / 20)) "u" "d",
    .verify {} (nonceU ++ "=") "7" (.num (17 / 20)) "u" "d"]

theorem overflow_solved :
    Solves overflowHashcash { now := 0 } overflowNonce "12" (.num (17 / 20)) "u" "d"
      { sampleNoncePayload with iat := .posInf } := by
  have hmac : overflowHashcash.mac overflowPayload = overflowMac := by
    show (if overflowPayload = overflowPayload then overflowMac else List.replicate 32 0) =
      overflowMac
    rw [if_pos rfl]
  have hnonce : overflowNonce = String.ofList (nonceText overflowPayload overflowMac) := by
    decide +kernel
  have hread : readPayload overflowHashcash overflowPayload =
      some { sampleNoncePayload with iat := .posInf } := by decide +kernel
  have hopen := @openNonce_nonceText overflowHashcash overflowPayload (by decide)
  rw [hmac, ← hnonce] at hopen
  have hpayload := payloadOf_of_open hopen hread
  refine ⟨by decide, payloadOf_iff.mp hpayload, ⟨rfl, rfl⟩, by decide, ?_, ?_, by decide⟩
  · exact (@sample_difficulty (3 / 2) (17 / 20)).symm
  · rintro ⟨exp, hget, -⟩
    cases hget

theorem run_two_verifies (svc : HashcashDeps) (st : HashcashState) (t t' : VerifyTicks)
    (nonce nonce' solution solution' : String) (score : JsNum) (userId deviceId : String) :
    runSteps (hashcashStep svc) st [.verify t nonce solution score userId deviceId,
        .verify t' nonce' solution' score userId deviceId] =
      (verifySolution svc (verifySolution svc st t nonce solution score userId deviceId).2 t' nonce'
        solution' score userId deviceId).2 := rfl

/-- A store of capacity 3/2 comes to hold two nonces; and a solution of a nonce whose `iat`
overflows ends in an error of the histogram. -/
theorem verifySolution_not_exact :
    ¬ ((runSteps (hashcashStep (sampleHashcash (3 / 2))) { now := 0 } bothRedeemed).store.size :
      ℚ) ≤ max 1 (3 / 2) ∧
    (∃ payload, Solves overflowHashcash { now := 0 } overflowNonce "12" (.num (17 / 20)) "u" "d"
      payload) ∧
    (verifySolution overflowHashcash { now := 0 } {} overflowNonce "12" (.num (17 / 20)) "u"
      "d").1 = .error (.error "Value is not a valid number: -Infinity") := by
  refine ⟨?_, ⟨_, overflow_solved⟩, ?_⟩
  · obtain ⟨⟨-, -, hfirst⟩, -, -, hsecond⟩ := @sample_redeemed_both (3 / 2) { now := 0 } _ _ rfl rfl
      rfl rfl
    have hsize : (runSteps (hashcashStep (sampleHashcash (3 / 2))) { now := 0 }
        bothRedeemed).store.size = 2 := by
      have habsent : (UsedNonceStore.add .empty (.num (3 / 2)) nonceU (.num 120)).get
          (nonceU ++ "=") = none := by
        rw [UsedNonceStore.add, JsMap.get_set_ne nonceU_ne_padded.symm]
        decide +kernel
      rw [bothRedeemed, run_two_verifies, hsecond, hfirst, size_add habsent, size_add rfl]
      decide +kernel
    rw [hsize]
    norm_num
  · rcases @verifySolution_cases overflowHashcash overflow_ne_nan { now := 0 } overflowNonce "12"
      (.num (17 / 20)) "u" "d" with hrefused | ⟨payload, hsolves, hmark⟩
    · exact absurd overflow_solved (hrefused.unsolved _)
    · rw [hmark, hsolves.carries.unique overflow_solved.carries]
      rfl

end ZTG
