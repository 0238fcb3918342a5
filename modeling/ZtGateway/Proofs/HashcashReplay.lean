import ZtGateway.Proofs.Hashcash

/-! No nonce text is accepted twice, unless the queue of used nonces has turned over in
between. The entries behind a nonce in the queue were accepted after it, so it reaches the
front of a full queue only when enough others were. The store forgets a nonce by itself
only if a second begins between the two clock readings of one call. -/

namespace ZTG

variable {svc : HashcashDeps} {st st' : HashcashState} {t : VerifyTicks} {n nonce : String}
  {store : UsedNonceStore.Store} {capacity exp : JsNum} {mid : List String}

/-- at least `capacity` different nonces -/
def Spent (capacity : JsNum) (mid : List String) : Prop :=
  capacity.le (.num (mid.dedup.length : ℕ)) = true

/-- `n` is in the queue, and what stands behind it came later -/
def Queued (store : UsedNonceStore.Store) (n : String) (mid : List String) : Prop :=
  ∃ es₁ exp es₂, store.entries = es₁ ++ (n, exp) :: es₂ ∧ ∀ x ∈ es₂, x.1 ∈ mid

theorem Spent.mono {mid' : List String} (h : Spent capacity mid) (hsub : mid ⊆ mid') :
    Spent capacity mid' := by
  refine JsNum.le_num_mono h ?_
  refine ((List.nodup_dedup mid).subperm fun x hx => ?_).length_le
  exact List.mem_dedup.mpr (hsub (List.mem_dedup.mp hx))

theorem Queued.get (h : Queued store n mid) : ∃ exp, store.get n = some exp := by
  obtain ⟨es₁, exp, es₂, hentries, -⟩ := h
  exact ⟨exp, JsMap.get_eq_some.mpr (by simp [hentries])⟩

/-- Another nonce is added: `n` moves up, and leaves the front of a full queue only if the queue
behind it and the new nonce are enough. -/
theorem Queued.add (h : Queued store n mid) (habsent : store.get nonce = none) :
    Spent capacity (mid ++ [nonce]) ∨
      Queued (UsedNonceStore.add store capacity nonce exp) n (mid ++ [nonce]) := by
  obtain ⟨es₁, e, es₂, hentries, hbehind⟩ := h
  have hlater : ∀ x ∈ es₂ ++ [(nonce, exp)], x.1 ∈ mid ++ [nonce] := by
    intro x hx
    rcases List.mem_append.mp hx with hx | hx
    · exact List.mem_append_left _ (hbehind x hx)
    · rw [List.mem_singleton.mp hx]
      simp
  by_cases hfull : capacity.le (.num store.size) = true
  · cases es₁ with
    | nil =>
      left
      have hnodup := store.nodup
      rw [hentries, List.nil_append, List.map_cons, List.nodup_cons] at hnodup
      have hnew : nonce ∉ es₂.map Prod.fst := by
        intro hmem
        refine JsMap.get_eq_none.mp habsent ?_
        rw [hentries]
        simp [hmem]
      have hkeys : (es₂.map Prod.fst ++ [nonce]).Nodup :=
        hnodup.2.append (List.nodup_singleton nonce) (by simpa using hnew)
      refine JsNum.le_num_mono hfull ?_
      have hsize : store.size = (es₂.map Prod.fst ++ [nonce]).length := by
        simp [JsMap.size, hentries]
      rw [hsize]
      refine (hkeys.subperm fun x hx => List.mem_dedup.mpr ?_).length_le
      rcases List.mem_append.mp hx with hx | hx
      · obtain ⟨y, hy, rfl⟩ := List.mem_map.mp hx
        exact List.mem_append_left _ (hbehind y hy)
      · exact List.mem_append_right _ hx
    | cons x es₁ =>
      right
      refine ⟨es₁, e, es₂ ++ [(nonce, exp)], ?_, hlater⟩
      rw [UsedNonceStore.add_entries habsent, if_pos hfull, hentries]
      simp
  · right
    refine ⟨es₁, e, es₂ ++ [(nonce, exp)], ?_, hlater⟩
    rw [UsedNonceStore.add_entries habsent, if_neg hfull, hentries]
    simp

theorem queued_added (habsent : store.get nonce = none) :
    Queued (UsedNonceStore.add store capacity nonce exp) nonce [] :=
  ⟨_, exp, [], UsedNonceStore.add_entries habsent, by simp⟩

/-- The clock does not pass the expiry of a stored nonce between the two readings of a call that
presents it. -/
def Steady (st : HashcashState) : HashcashOp → Prop
  | .verify t nonce _ _ _ _ =>
    match st.store.get nonce with
    | none => True
    | some exp =>
      exp.le (.num (expirySecond st t)) = false → exp.le (.num (storeSecond st t)) = false
  | .issue _ _ _ _ => True

structure ReplayInv (svc : HashcashDeps) (st : HashcashState) : Prop where
  /-- an entry has the expiry of its payload -/
  stored : ∀ n exp, st.store.get n = some exp → ∃ payload, payloadOf svc n = .ok payload ∧
    payload.exp = exp
  queued : ∀ pre n mid, st.accepted = pre ++ n :: mid → n ∉ mid →
    Spent svc.cfg.usedNonceCapacity mid ∨ Queued st.store n mid

/-- What a steady call can do: nothing, or mark a nonce that is not in the store. -/
theorem visits_steady {r : Except Err VerifyResult} (h : Visits svc st t nonce r st')
    (hi : ReplayInv svc st)
    (hsteady : ∀ exp, st.store.get nonce = some exp →
      exp.le (.num (expirySecond st t)) = false → exp.le (.num (storeSecond st t)) = false) :
    (st'.store = st.store ∧ st'.accepted = st.accepted) ∨
    ∃ payload, payloadOf svc nonce = .ok payload ∧ st.store.get nonce = none ∧
      st'.store = UsedNonceStore.add st.store svc.cfg.usedNonceCapacity nonce payload.exp ∧
      st'.accepted = st.accepted ++ [nonce] := by
  have hexp : ∀ payload exp, payloadOf svc nonce = .ok payload →
      payload.exp.le (.num (expirySecond st t)) = false → st.store.get nonce = some exp →
      exp.le (.num (storeSecond st t)) = false := by
    intro payload exp hpayload hlive hget
    obtain ⟨payload', hpayload', rfl⟩ := hi.stored nonce exp hget
    obtain rfl : payload = payload' := Except.ok.inj (hpayload.symm.trans hpayload')
    exact hsteady _ hget hlive
  cases h with
  | stayed reason _ hstore haccepted hissued => exact .inl ⟨hstore, haccepted⟩
  | dropped reason _ payload exp hpayload hlive hget hgone =>
    simp [hexp payload exp hpayload hlive hget] at hgone
  | marked _ _ payload store hpayload hlive hhas hstore haccepted hissued =>
    right
    cases hget : st.store.get nonce with
    | none =>
      rw [UsedNonceStore.has_of_absent hget] at hhas
      cases hhas
      exact ⟨payload, hpayload, rfl, hstore, haccepted⟩
    | some exp =>
      rw [UsedNonceStore.has_of_live hget (hexp payload exp hpayload hlive hget)] at hhas
      cases hhas

/-- A nonce that was not in the store is marked. -/
theorem ReplayInv.marked (hi : ReplayInv svc st) {payload : NoncePayload}
    (hpayload : payloadOf svc nonce = .ok payload) (habsent : st.store.get nonce = none)
    (hstore : st'.store =
      UsedNonceStore.add st.store svc.cfg.usedNonceCapacity nonce payload.exp)
    (haccepted : st'.accepted = st.accepted ++ [nonce]) : ReplayInv svc st' where
  stored n exp hget := by
    have hmem := JsMap.get_eq_some.mp hget
    rw [hstore, UsedNonceStore.add_entries habsent] at hmem
    rcases List.mem_append.mp hmem with hold | hnew
    · refine hi.stored n exp (JsMap.get_eq_some.mpr ?_)
      split_ifs at hold
      · exact List.mem_of_mem_tail hold
      · exact hold
    · cases List.mem_singleton.mp hnew
      exact ⟨payload, hpayload, rfl⟩
  queued pre n mid hsplit hn := by
    rw [haccepted] at hsplit
    rw [hstore]
    rcases List.eq_nil_or_concat mid with rfl | ⟨mid, last, rfl⟩
    · obtain ⟨-, hlast⟩ := List.append_inj' hsplit rfl
      cases hlast
      exact .inr (queued_added habsent)
    · rw [List.concat_eq_append, ← List.cons_append, ← List.append_assoc] at hsplit
      obtain ⟨hpre, hlast⟩ := List.append_inj' hsplit rfl
      cases hlast
      rw [List.concat_eq_append] at hn ⊢
      rcases hi.queued pre n mid hpre fun h => hn (List.mem_append_left _ h) with h | h
      · exact .inl (h.mono (List.subset_append_left _ _))
      · exact h.add habsent

theorem replay_step (svc : HashcashDeps) (st : HashcashState) (op : HashcashOp)
    (hi : ReplayInv svc st) (hop : Steady st op) : ReplayInv svc (hashcashStep svc st op) := by
  cases op with
  | issue dt userId deviceId score => exact ⟨hi.stored, hi.queued⟩
  | verify t nonce solution liveScore userId deviceId =>
    have hsteady : ∀ exp, st.store.get nonce = some exp →
        exp.le (.num (expirySecond st t)) = false → exp.le (.num (storeSecond st t)) = false := by
      intro exp hget
      simpa only [Steady, hget] using hop
    rcases visits_steady (verifySolution_visits svc st t nonce solution liveScore userId deviceId)
      hi hsteady with ⟨hstore, haccepted⟩ | ⟨payload, hpayload, habsent, hstore, haccepted⟩
    · refine ⟨fun n exp h => hi.stored n exp (hstore ▸ h), fun pre n mid h hn => ?_⟩
      have hkept := hi.queued pre n mid (haccepted ▸ h) hn
      exact hstore ▸ hkept
    · exact hi.marked hpayload habsent hstore haccepted

theorem replay_start (now : ℕ) : ReplayInv svc { now := now } :=
  ⟨fun _ _ h => by simp at h, fun pre n mid h _ => by simp at h⟩

theorem accepted_grows (svc : HashcashDeps) (st : HashcashState) (op : HashcashOp) :
    st.accepted <+: (hashcashStep svc st op).accepted := by
  cases op with
  | issue dt userId deviceId score => exact List.prefix_refl _
  | verify t nonce solution liveScore userId deviceId =>
    exact (verifySolution_visits svc st t nonce solution liveScore userId deviceId).accepted_kept

theorem accepted_grows_run (svc : HashcashDeps) (st : HashcashState) (ops : List HashcashOp) :
    st.accepted <+: (runSteps (hashcashStep svc) st ops).accepted := by
  induction ops generalizing st with
  | nil => exact List.prefix_refl _
  | cons op ops ih => exact (accepted_grows svc st op).trans (ih _)

/-- The call presents `n` and returns ok. -/
def Redeems (svc : HashcashDeps) (st : HashcashState) (n : String) : HashcashOp → Prop
  | .verify t nonce solution liveScore userId deviceId => nonce = n ∧ ∃ iat,
      (verifySolution svc st t nonce solution liveScore userId deviceId).1 = .ok (.ok iat)
  | .issue _ _ _ _ => False

theorem Redeems.accepted {op : HashcashOp} (h : Redeems svc st n op) :
    (hashcashStep svc st op).accepted = st.accepted ++ [n] := by
  cases op with
  | issue => exact h.elim
  | verify t nonce solution liveScore userId deviceId =>
    obtain ⟨rfl, iat, hok⟩ := h
    have hvisits := verifySolution_visits svc st t nonce solution liveScore userId deviceId
    rw [hok] at hvisits
    exact hvisits.accepted_of_ok

/-- A steady call redeems only a nonce that is not in the queue. -/
theorem Redeems.absent {op : HashcashOp} (hi : ReplayInv svc st) (hop : Steady st op)
    (h : Redeems svc st n op) : st.store.get n = none := by
  have haccepted := h.accepted
  cases op with
  | issue => exact h.elim
  | verify t nonce solution liveScore userId deviceId =>
    obtain ⟨rfl, -⟩ := h
    have hsteady : ∀ exp, st.store.get nonce = some exp →
        exp.le (.num (expirySecond st t)) = false → exp.le (.num (storeSecond st t)) = false := by
      intro exp hget
      simpa only [Steady, hget] using hop
    rcases visits_steady (verifySolution_visits svc st t nonce solution liveScore userId deviceId)
      hi hsteady with ⟨-, hsame⟩ | ⟨-, -, habsent, -⟩
    · exact absurd (haccepted.symm.trans hsame) (by simp)
    · exact habsent

/-- The last place of an element that occurs. -/
theorem exists_last {l : List String} (h : n ∈ l) : ∃ a b, l = a ++ n :: b ∧ n ∉ b := by
  obtain ⟨a, b, hrev, hnot⟩ := List.eq_append_cons_of_mem (List.mem_reverse.mpr h)
  refine ⟨b.reverse, a.reverse, ?_, by simpa using hnot⟩
  have := congrArg List.reverse hrev
  simpa using this

/-- In every run of steady calls, a nonce that was redeemed is not redeemed again unless at least
`capacity` different other nonces were accepted in between. -/
theorem no_replay_of_run (svc : HashcashDeps) (now : ℕ) (ops₁ ops₂ : List HashcashOp)
    (op₁ op₂ : HashcashOp) (n : String)
    (hops : Along (hashcashStep svc) Steady { now := now } (ops₁ ++ op₁ :: (ops₂ ++ [op₂])))
    (h₁ : Redeems svc (runSteps (hashcashStep svc) { now := now } ops₁) n op₁)
    (h₂ : Redeems svc (runSteps (hashcashStep svc) { now := now } (ops₁ ++ op₁ :: ops₂)) n op₂) :
    ∃ mid, (runSteps (hashcashStep svc) { now := now } (ops₁ ++ op₁ :: ops₂)).accepted =
        (runSteps (hashcashStep svc) { now := now } (ops₁ ++ [op₁])).accepted ++ mid ∧
      svc.cfg.usedNonceCapacity.le (.num ((mid.filter (· ≠ n)).dedup.length : ℕ)) = true := by
  have hsplit : ops₁ ++ op₁ :: (ops₂ ++ [op₂]) = (ops₁ ++ op₁ :: ops₂) ++ op₂ :: [] := by simp
  rw [hsplit] at hops
  obtain ⟨hbefore, hsteady⟩ := hops.at
  have hinv := runSteps_invariant (replay_step svc) (replay_start now) hbefore
  have habsent := h₂.absent hinv hsteady
  -- from the first redemption on
  have hfirst : (runSteps (hashcashStep svc) { now := now } (ops₁ ++ [op₁])).accepted =
      (runSteps (hashcashStep svc) { now := now } ops₁).accepted ++ [n] := by
    rw [runSteps_append]
    exact h₁.accepted
  have hgrows : (runSteps (hashcashStep svc) { now := now } (ops₁ ++ [op₁])).accepted <+:
      (runSteps (hashcashStep svc) { now := now } (ops₁ ++ op₁ :: ops₂)).accepted := by
    have hrun : runSteps (hashcashStep svc) { now := now } (ops₁ ++ op₁ :: ops₂) =
        runSteps (hashcashStep svc) (runSteps (hashcashStep svc) { now := now } (ops₁ ++ [op₁]))
          ops₂ := by
      rw [← runSteps_append, List.append_assoc, List.singleton_append]
    rw [hrun]
    exact accepted_grows_run svc _ ops₂
  obtain ⟨mid, hmid⟩ := hgrows
  refine ⟨mid, hmid.symm, ?_⟩
  obtain ⟨a, b, hlast, hnot⟩ := @exists_last n (n :: mid) (by simp)
  have hacc : (runSteps (hashcashStep svc) { now := now } (ops₁ ++ op₁ :: ops₂)).accepted =
      ((runSteps (hashcashStep svc) { now := now } ops₁).accepted ++ a) ++ n :: b := by
    rw [← hmid, hfirst, List.append_assoc, List.append_assoc, List.singleton_append, hlast]
  rcases hinv.queued _ n b hacc hnot with hspent | hqueued
  · refine Spent.mono hspent fun x hx => ?_
    have hne : x ≠ n := by
      rintro rfl
      exact hnot hx
    have hmem : x ∈ n :: mid := by
      rw [hlast]
      simp [hx]
    simp only [List.mem_filter, decide_eq_true_eq]
    exact ⟨(List.mem_cons.mp hmem).resolve_left hne, hne⟩
  · obtain ⟨exp, hget⟩ := hqueued.get
    rw [habsent] at hget
    cases hget

/-- A call that presents an unknown nonce is steady. -/
theorem steady_of_absent {solution userId deviceId : String} {liveScore : JsNum}
    (h : st.store.get nonce = none) :
    Steady st (.verify t nonce solution liveScore userId deviceId) := by
  simp only [Steady, h]

/-- a call of `u` with a solution -/
def redeem (nonce solution : String) : HashcashOp :=
  .verify {} nonce solution (.num (17 / 20)) "u" "d"

theorem hashcashStep_redeem (svc : HashcashDeps) (st : HashcashState) (nonce solution : String) :
    hashcashStep svc st (redeem nonce solution) =
      (verifySolution svc st {} nonce solution (.num (17 / 20)) "u" "d").2 := rfl

theorem redeems_redeem {solution : String} {iat : JsNum}
    (h : (verifySolution svc st {} nonce solution (.num (17 / 20)) "u" "d").1 = .ok (.ok iat)) :
    Redeems svc st nonce (redeem nonce solution) := ⟨rfl, iat, h⟩

/-- With room for one nonce, the text, the padded text and the text again are redeemed. -/
theorem sample_redeemed_thrice {first second : Except Err VerifyResult × HashcashState}
    (hfirst : first =
      verifySolution (sampleHashcash 1) st {} nonceU "5" (.num (17 / 20)) "u" "d")
    (hsecond : second = verifySolution (sampleHashcash 1) first.2 {} (nonceU ++ "=") "7"
      (.num (17 / 20)) "u" "d")
    (hnow : st.now = 0) (hstore : st.store = .empty) :
    let ops := [redeem nonceU "5", redeem (nonceU ++ "=") "7"]
    Along (hashcashStep (sampleHashcash 1)) Steady st (ops ++ [redeem nonceU "5"]) ∧
      Redeems (sampleHashcash 1) st nonceU (redeem nonceU "5") ∧
      Redeems (sampleHashcash 1) (runSteps (hashcashStep (sampleHashcash 1)) st ops) nonceU
        (redeem nonceU "5") := by
  obtain ⟨⟨hok, -, hadded⟩, -, hzero, hadded'⟩ :=
    sample_redeemed_both hfirst hsecond hnow hstore
  have hstep : hashcashStep (sampleHashcash 1) st (redeem nonceU "5") = first.2 := by
    rw [hfirst, hashcashStep_redeem]
  have hstep' : hashcashStep (sampleHashcash 1) first.2 (redeem (nonceU ++ "=") "7") = second.2 := by
    rw [hsecond, hashcashStep_redeem]
  have hempty : st.store.get nonceU = none := by
    rw [hstore]
    rfl
  have hentries : first.2.store.entries = [(nonceU, .num 120)] := by
    rw [hadded, UsedNonceStore.add_entries rfl]
    rfl
  have hother : first.2.store.get (nonceU ++ "=") = none := by
    rw [JsMap.get_eq_none, hentries]
    simp
  -- the second acceptance has evicted the first
  have hfull : (JsNum.num 1).le (.num first.2.store.size) = true := by
    rw [JsMap.size, hentries]
    rfl
  have hgone : second.2.store.get nonceU = none := by
    rw [JsMap.get_eq_none, hadded', UsedNonceStore.add_entries hother, if_pos hfull, hentries]
    simpa using nonceU_ne_padded
  intro ops
  refine ⟨?_, redeems_redeem (hfirst ▸ hok), ?_⟩
  · refine ⟨steady_of_absent hempty, ?_⟩
    rw [hstep]
    refine ⟨steady_of_absent hother, ?_⟩
    rw [hstep']
    exact ⟨steady_of_absent hgone, trivial⟩
  · simp only [ops, runSteps_cons, runSteps_nil, hstep, hstep']
    exact redeems_redeem (sample_redeemed sample_open (by decide)
      (by rw [expirySecond, hzero]; decide) (UsedNonceStore.has_of_absent hgone) zeros_five).1

/-- The turnover of the queue lets the nonce through again. -/
theorem no_replay_of_run_evicted :
    let svc := sampleHashcash 1
    let start : HashcashState := { now := 0 }
    let ops := [redeem nonceU "5", redeem (nonceU ++ "=") "7"]
    ∃ mid, (runSteps (hashcashStep svc) start ops).accepted =
        (runSteps (hashcashStep svc) start [redeem nonceU "5"]).accepted ++ mid ∧
      svc.cfg.usedNonceCapacity.le (.num ((mid.filter (· ≠ nonceU)).dedup.length : ℕ)) = true := by
  intro svc start ops
  obtain ⟨hsteady, h₁, h₂⟩ := @sample_redeemed_thrice { now := 0 } _ _ rfl rfl rfl rfl
  have hrun := no_replay_of_run (sampleHashcash 1) 0 [] [redeem (nonceU ++ "=") "7"]
    (redeem nonceU "5") (redeem nonceU "5") nonceU
  simp only [List.nil_append, List.cons_append, runSteps_nil] at hrun hsteady
  exact hrun hsteady h₁ h₂

/-- The text is redeemed, and again when its last second ends between the two readings. -/
theorem sample_redeemed_again {first again : Except Err VerifyResult × HashcashState}
    (hfirst : first =
      verifySolution (sampleHashcash 10000) st {} nonceU "5" (.num (17 / 20)) "u" "d")
    (hagain : again = verifySolution (sampleHashcash 10000) first.2
      { expiry := 119999, store := 1 } nonceU "5" (.num (17 / 20)) "u" "d")
    (hnow : st.now = 0) (hstore : st.store = .empty) :
    first.1 = .ok (.ok (.num 0)) ∧ again.1 = .ok (.ok (.num 0)) := by
  obtain ⟨⟨hok, hzero, hadded⟩, -⟩ := sample_redeemed_both hfirst rfl hnow hstore
  have hentries : first.2.store.entries = [(nonceU, .num 120)] := by
    rw [hadded, UsedNonceStore.add_entries rfl]
    rfl
  have hget : first.2.store.get nonceU = some (.num 120) := by
    rw [JsMap.get_eq_some, hentries]
    simp
  have hhas : UsedNonceStore.has first.2.store (first.2.now + 119999 + 1) nonceU =
      (false, first.2.store.delete nonceU) := by
    rw [UsedNonceStore.has, hget, hzero]
    rfl
  have hlive : expirySecond first.2 { expiry := 119999, store := 1 } < 120 := by
    rw [expirySecond, hzero]
    decide
  refine ⟨hok, ?_⟩
  rw [hagain]
  exact (sample_redeemed sample_open (by decide) hlive hhas zeros_five).1

/-- The last second of a challenge ends between the two readings of the second call: the service
still takes it as live, and the store has already forgotten it. -/
theorem replayed_at_expiry :
    let svc := sampleHashcash 10000
    let st := hashcashStep svc { now := 0 } (.issue 0 "u" "d" (.num (17 / 20)))
    let first := verifySolution svc st {} nonceU "5" (.num (17 / 20)) "u" "d"
    let again := verifySolution svc first.2 { expiry := 119999, store := 1 } nonceU "5"
      (.num (17 / 20)) "u" "d"
    (JsNum.num 1).le svc.cfg.usedNonceCapacity = true ∧ st.issued.map (·.nonce) = [nonceU] ∧
      (∃ iat, first.1 = .ok (.ok iat)) ∧ ∃ iat, again.1 = .ok (.ok iat) := by
  intro svc st first again
  have hissued : st.issued.map (·.nonce) = [nonceU] := by
    rw [← @sample_issued 10000]
    rfl
  obtain ⟨hfirst, hagain⟩ := @sample_redeemed_again st first again rfl rfl rfl rfl
  exact ⟨by decide, hissued, ⟨_, hfirst⟩, _, hagain⟩

end ZTG
