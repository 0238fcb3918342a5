import ZtGateway.Proofs.Blacklists
import ZtGateway.Spec.Deception

/-! Whom the deception layer turns away, over every interleaving: exactly the requests whose
fingerprint walked into a decoy less than the time to live ago. And what it leaves behind of each
decoy hit: one count, one signal, one audit row or one failure to write it. -/

namespace ZTG.Deception

variable {ι : Type} [DecidableEq ι] (cfg : DeceptionConfig) (visitors : ι → Visitor)

/-- The move `m` walks into a decoy, with the fingerprint `fp`. -/
def Traps (w : World ι) (m : ι × Move) (fp : String) : Prop :=
  ∃ lag req, m.2 = .trap lag ∧ w.locals m.1 = .passed req ∧ isDecoyRequest req = true ∧
    fingerprint cfg (visitors m.1) = fp

/-- Some decoy hit of the run with the fingerprint `fp` is less than the time to live before `t`. -/
def Banned (now : ℕ) (ms : List (ι × Move)) (fp : String) (t : ℕ) : Prop :=
  Sometime (step cfg visitors)
    (fun w m => Traps cfg visitors w m fp ∧ (t : ℚ) < w.shared.now + cfg.blacklistTtlMs)
    (start ι now) ms

section Moves

variable {cfg} {v : Visitor} {m : Move} {visit visit' : Visit} {s s' : Shared}

/-- A read of the blacklist drops what no later reader sees, and adds nothing. -/
theorem check_view (st : FingerprintStore) (now : ℕ) (fp : String) (live : BlacklistEntry → Bool) :
    ReadAlike BlacklistEntry.expiresAt (now : ℚ) (st.check now fp live).2.blacklist.get
        st.blacklist.get ∧
      ∀ fp' e, (st.check now fp live).2.blacklist.get fp' = some e →
        st.blacklist.get fp' = some e := by
  rw [(st.check_eq now fp live).2]
  exact ⟨fetch_snd _ _, fun _ _ h => of_fetch_snd h⟩

/-- What one move does to the blacklist and the clock: a decoy hit sets an entry, anything else
only lets the clock go on and drops what has expired. -/
theorem move_cases (h : move cfg v m visit s = some (visit', s')) :
    (∃ lag req, m = .trap lag ∧ visit = .passed req ∧ isDecoyRequest req = true ∧
      s'.now = s.now + lag ∧ s'.store.blacklist =
        s.store.blacklist.set (req.ja4h.getD "unknown") ⟨s.now + cfg.blacklistTtlMs, true⟩) ∨
    ((∀ lag, m ≠ .trap lag) ∧ s.now ≤ s'.now ∧
      ReadAlike BlacklistEntry.expiresAt (s.now : ℚ) s'.store.blacklist.get s.store.blacklist.get ∧
      ∀ fp e, s'.store.blacklist.get fp = some e → s.store.blacklist.get fp = some e) := by
  have hsame : ReadAlike BlacklistEntry.expiresAt (s.now : ℚ) s.store.blacklist.get
      s.store.blacklist.get := ReadAlike.refl _ _ _
  cases m with
  | advance ms =>
    obtain ⟨rfl, rfl⟩ := Prod.mk.inj (Option.some.inj h)
    exact .inr ⟨by simp, Nat.le_add_right _ _, hsame, fun _ _ he => he⟩
  | ja4h random =>
    cases visit with
    | arrived =>
      obtain ⟨hview, hsub⟩ := check_view s.store s.now (fingerprint cfg v) fun _ => true
      have hs' : s'.now = s.now ∧
          s'.store = (s.store.isBlacklisted s.now (fingerprint cfg v)).2 := by
        simp only [move, Deception.ja4h, Option.some.injEq] at h
        split_ifs at h
        · obtain ⟨-, rfl⟩ := Prod.mk.inj h
          exact ⟨rfl, rfl⟩
        · obtain ⟨-, rfl⟩ := Prod.mk.inj h
          exact ⟨rfl, rfl⟩
      rw [hs'.1, hs'.2]
      exact .inr ⟨by simp, le_refl _, hview, hsub⟩
    | _ => simp [move] at h
  | trap lag =>
    cases visit with
    | passed req =>
      simp only [move] at h
      split_ifs at h with hdecoy
      · obtain ⟨-, rfl⟩ := Prod.mk.inj (Option.some.inj h)
        exact .inl ⟨lag, req, rfl, rfl, hdecoy, rfl, rfl⟩
    | _ => simp [move] at h
  | recorded ok random =>
    cases visit with
    | recording path entry =>
      have hs' : s'.now = s.now ∧ s'.store = s.store := by
        simp only [move, Deception.recorded, Option.some.injEq, Prod.mk.injEq] at h
        obtain ⟨-, rfl⟩ := h
        split_ifs
        · exact ⟨rfl, rfl⟩
        · exact ⟨rfl, rfl⟩
      rw [hs'.1, hs'.2]
      exact .inr ⟨by simp, le_refl _, hsame, fun _ _ he => he⟩
    | _ => simp [move] at h
  | wake =>
    have hs' : s' = s := by
      cases visit with
      | held wakeAt =>
        simp only [move] at h
        split_ifs at h
        exact (Prod.mk.inj (Option.some.inj h)).2.symm
      | stalled path wakeAt =>
        simp only [move] at h
        split_ifs at h
        exact (Prod.mk.inj (Option.some.inj h)).2.symm
      | _ => simp [move] at h
    rw [hs']
    exact .inr ⟨by simp, le_refl _, hsame, fun _ _ he => he⟩
  | score =>
    cases visit with
    | passed req =>
      obtain ⟨hview, hsub⟩ := check_view s.store s.now (req.ja4h.getD "") (·.isTerminal)
      simp only [move] at h
      split_ifs at h
      obtain ⟨-, rfl⟩ := Prod.mk.inj (Option.some.inj h)
      exact .inr ⟨by simp, le_refl _, hview, hsub⟩
    | _ => simp [move] at h

/-- A request that was handed on carries its own fingerprint. -/
theorem move_passed {req : Request} (h : move cfg v m visit s = some (.passed req, s')) :
    visit = .passed req ∨ req = { v.toRequest with ja4h := some (fingerprint cfg v) } := by
  cases m with
  | advance ms => exact .inl (Prod.mk.inj (Option.some.inj h)).1
  | ja4h random =>
    cases visit with
    | arrived =>
      simp only [move, Deception.ja4h, Option.some.injEq] at h
      split_ifs at h
      · exact absurd (Prod.mk.inj h).1 (by simp)
      · exact .inr (Visit.passed.inj (Prod.mk.inj h).1).symm
    | _ => simp [move] at h
  | _ => cases visit <;> simp [move, trapAndRespond, recorded] at h

end Moves

variable {now : ℕ} {ms : List (ι × Move)}

theorem run_snoc (m : ι × Move) :
    run cfg visitors now (ms ++ [m]) = step cfg visitors (run cfg visitors now ms) m :=
  runSteps_snoc ms m

theorem run_passed {j : ι} {req : Request}
    (h : (run cfg visitors now ms).locals j = .passed req) :
    req = { (visitors j).toRequest with ja4h := some (fingerprint cfg (visitors j)) } := by
  induction ms using List.reverseRecOn generalizing req with
  | nil => simp [run, start] at h
  | append_singleton ms m ih =>
    rw [run_snoc] at h
    by_cases hj : j = m.1
    · subst hj
      rcases Pool.step_cases (fun i => move cfg (visitors i)) (run cfg visitors now ms) m with
        heq | ⟨l, s, hmove, heq⟩
      · exact ih (heq ▸ h)
      · have hl : l = .passed req := by
          rw [step, heq] at h
          simpa using h
        subst hl
        rcases move_passed hmove with hold | hnew
        · exact ih hold
        · exact hnew
    · exact ih ((Pool.step_locals_ne hj).symm.trans h)

theorem banned_snoc (m : ι × Move) (fp : String) (t : ℕ) :
    Banned cfg visitors now (ms ++ [m]) fp t ↔ Banned cfg visitors now ms fp t ∨
      Traps cfg visitors (run cfg visitors now ms) m fp ∧
        (t : ℚ) < (run cfg visitors now ms).shared.now + cfg.blacklistTtlMs :=
  sometime_snoc

/-- A step of a run is a decoy hit, or leaves every reader of the blacklist what it saw. -/
theorem step_shared (now : ℕ) (ms : List (ι × Move)) (m : ι × Move) :
    let w := run cfg visitors now ms
    let w' := step cfg visitors w m
    w.shared.now ≤ w'.shared.now ∧
    ((∃ fp, (∀ fp', Traps cfg visitors w m fp' ↔ fp' = fp) ∧ w'.shared.store.blacklist =
        w.shared.store.blacklist.set fp ⟨w.shared.now + cfg.blacklistTtlMs, true⟩) ∨
      (∀ fp, ¬ Traps cfg visitors w m fp) ∧
        ReadAlike BlacklistEntry.expiresAt (w.shared.now : ℚ) w'.shared.store.blacklist.get
          w.shared.store.blacklist.get ∧
        ∀ fp e, w'.shared.store.blacklist.get fp = some e →
          w.shared.store.blacklist.get fp = some e) := by
  intro w w'
  rcases hact : move cfg (visitors m.1) m.2 (w.locals m.1) w.shared with _ | ⟨l, s⟩
  · have hw' : w' = w := by
      show Pool.step _ w m = w
      rw [Pool.step, hact]
    rw [hw']
    refine ⟨le_refl _, .inr ⟨?_, ReadAlike.refl _ _ _, fun _ _ he => he⟩⟩
    rintro fp ⟨lag, req, hm, hlocal, hdecoy, -⟩
    rw [hm, hlocal] at hact
    simp [move, hdecoy] at hact
  · have hw' : w'.shared = s := by
      show (Pool.step _ w m).shared = s
      rw [Pool.step_of_some hact]
    rw [hw']
    rcases move_cases hact with ⟨lag, req, hm, hlocal, hdecoy, hnow, hstore⟩ |
      ⟨hm, hnow, hview, hsub⟩
    · have hreq := run_passed cfg visitors hlocal
      refine ⟨hnow ▸ Nat.le_add_right _ _, .inl ⟨fingerprint cfg (visitors m.1), ?_, ?_⟩⟩
      · intro fp'
        constructor
        · rintro ⟨-, -, -, -, -, hfp⟩
          exact hfp.symm
        · intro hfp
          exact ⟨lag, req, hm, hlocal, hdecoy, hfp.symm⟩
      · rw [hstore, hreq]
        rfl
    · refine ⟨hnow, .inr ⟨?_, hview, hsub⟩⟩
      rintro fp ⟨lag, req, hlag, -⟩
      exact hm lag hlag

/-- No decoy hit lies in the future. -/
theorem Banned.early {fp : String} {t : ℕ} (h : Banned cfg visitors now ms fp t) :
    (t : ℚ) < (run cfg visitors now ms).shared.now + cfg.blacklistTtlMs := by
  induction ms using List.reverseRecOn with
  | nil => exact h.elim
  | append_singleton ms m ih =>
    have hnow : ((run cfg visitors now ms).shared.now : ℚ) ≤
        (run cfg visitors now (ms ++ [m])).shared.now := by
      rw [run_snoc]
      exact_mod_cast (step_shared cfg visitors now ms m).1
    rcases (banned_snoc cfg visitors m fp t).mp h with hold | ⟨-, hnew⟩
    · linarith [ih hold]
    · linarith

/-- The blacklist holds the decoy hits that are less than the time to live old. -/
structure Records (now : ℕ) (ms : List (ι × Move)) : Prop where
  view : ∀ fp t, (run cfg visitors now ms).shared.now ≤ t →
    ((unexpired BlacklistEntry.expiresAt (t : ℚ)
      ((run cfg visitors now ms).shared.store.blacklist.get fp)).isSome = true ↔
      Banned cfg visitors now ms fp t)
  terminal : ∀ fp e, (run cfg visitors now ms).shared.store.blacklist.get fp = some e →
    e.isTerminal = true

theorem records (now : ℕ) (ms : List (ι × Move)) : Records cfg visitors now ms := by
  induction ms using List.reverseRecOn with
  | nil => exact ⟨fun fp t _ => by simp [run, start, Banned, Sometime], fun fp e he => by
      simp [run, start] at he⟩
  | append_singleton ms m ih =>
    obtain ⟨hnow, hcase⟩ := step_shared cfg visitors now ms m
    rw [← run_snoc] at hnow hcase
    rcases hcase with ⟨fp₀, htraps, hset⟩ | ⟨htraps, hview, hsub⟩
    · refine ⟨fun fp t ht => ?_, fun fp e he => ?_⟩
      · rw [banned_snoc, htraps, hset, JsMap.get_set]
        by_cases hfp : fp = fp₀
        · simp only [hfp, ↓reduceIte, true_and]
          rw [isSome_unexpired_some]
          exact ⟨.inr, fun h => h.elim (fun hb => hb.early) id⟩
        · simp only [hfp, ↓reduceIte, false_and, or_false]
          exact ih.view fp t (hnow.trans ht)
      · rw [hset, JsMap.get_set] at he
        split_ifs at he
        · rw [← Option.some.inj he]
        · exact ih.terminal fp e he
    · refine ⟨fun fp t ht => ?_, fun fp e he => ih.terminal fp e (hsub fp e he)⟩
      rw [banned_snoc, (hview.later (Nat.cast_le.mpr (hnow.trans ht))) fp, ih.view fp t (hnow.trans ht)]
      simp [htraps]

/-- What a read of the blacklist answers. -/
theorem check_banned (now : ℕ) (ms : List (ι × Move)) (fp : String) (live : BlacklistEntry → Bool)
    (hlive : ∀ e, e.isTerminal = true → live e = true) :
    ((run cfg visitors now ms).shared.store.check (run cfg visitors now ms).shared.now fp live).1 =
      true ↔ Banned cfg visitors now ms fp (run cfg visitors now ms).shared.now := by
  set s := (run cfg visitors now ms).shared
  have hrec := records cfg visitors now ms
  rw [← hrec.view fp s.now (le_refl _), (s.store.check_eq s.now fp live).1]
  rcases h : unexpired BlacklistEntry.expiresAt (s.now : ℚ) (s.store.blacklist.get fp) with _ | e
  · simp
  · have he := hrec.terminal fp e (unexpired_eq_some.mp h).1
    simp [hlive e he]

theorem ja4h_visit {i : ι} (random : Random) (h : (run cfg visitors now ms).locals i = .arrived) :
    let w := run cfg visitors now ms
    let fp := fingerprint cfg (visitors i)
    let visit := (step cfg visitors w (i, .ja4h random)).locals i
    (Banned cfg visitors now ms fp w.shared.now →
      visit = .held (w.shared.now + randomDelay random 2000 5000)) ∧
    (¬ Banned cfg visitors now ms fp w.shared.now →
      visit = .passed { (visitors i).toRequest with ja4h := some fp }) := by
  intro w fp visit
  have hact : move cfg (visitors i) (.ja4h random) (w.locals i) w.shared =
      some (ja4h cfg (visitors i) random w.shared) := by
    rw [show w.locals i = .arrived from h]
    rfl
  have hvisit : visit = (ja4h cfg (visitors i) random w.shared).1 :=
    Pool.step_locals_self (m := (i, Move.ja4h random)) hact
  have hread := check_banned cfg visitors now ms fp (fun _ => true) fun _ _ => rfl
  rw [hvisit]
  refine ⟨fun hb => ?_, fun hb => ?_⟩
  · have htrue : (w.shared.store.isBlacklisted w.shared.now fp).1 = true := hread.mpr hb
    simp only [Deception.ja4h]
    rw [if_pos htrue]
  · have hfalse : ¬ (w.shared.store.isBlacklisted w.shared.now fp).1 = true :=
      fun ht => hb (hread.mp ht)
    simp only [Deception.ja4h]
    rw [if_neg hfalse]

theorem score_visit {i : ι} {req : Request} (h : (run cfg visitors now ms).locals i = .passed req)
    (hdecoy : isDecoyRequest req = false) :
    let w := run cfg visitors now ms
    ∃ terminal, (step cfg visitors w (i, .score)).locals i = .scored req terminal ∧
      (terminal = true ↔
        Banned cfg visitors now ms (fingerprint cfg (visitors i)) w.shared.now) := by
  intro w
  set fp := fingerprint cfg (visitors i) with hfp
  have hreq : req.ja4h.getD "" = fp := by
    rw [run_passed cfg visitors h]
    rfl
  refine ⟨(w.shared.store.isTerminal w.shared.now fp).1, ?_,
    check_banned cfg visitors now ms fp (·.isTerminal) fun _ he => he⟩
  have hact : move cfg (visitors i) .score (w.locals i) w.shared =
      some (.scored req (w.shared.store.isTerminal w.shared.now fp).1,
        { w.shared with store := (w.shared.store.isTerminal w.shared.now fp).2 }) := by
    rw [show w.locals i = .passed req from h]
    simp [move, hdecoy, hreq]
  exact Pool.step_locals_self (m := (i, Move.score)) hact

/-- A request is turned away by the middleware exactly when its fingerprint walked into a decoy less
than the time to live ago, and the trust score of one that was handed on calls its fingerprint
terminal exactly then; in every interleaving of any requests. -/
theorem ban_window (now : ℕ) (ms : List (ι × Move)) (i : ι) :
    let w := run cfg visitors now ms
    let fp := fingerprint cfg (visitors i)
    (∀ random, w.locals i = .arrived →
      let visit := (step cfg visitors w (i, .ja4h random)).locals i
      (Banned cfg visitors now ms fp w.shared.now →
        visit = .held (w.shared.now + randomDelay random 2000 5000)) ∧
      (¬ Banned cfg visitors now ms fp w.shared.now →
        visit = .passed { (visitors i).toRequest with ja4h := some fp })) ∧
    ∀ req, w.locals i = .passed req → isDecoyRequest req = false →
      ∃ terminal, (step cfg visitors w (i, .score)).locals i = .scored req terminal ∧
        (terminal = true ↔ Banned cfg visitors now ms fp w.shared.now) :=
  ⟨fun random h => ja4h_visit cfg visitors random h,
    fun _ h hdecoy => score_visit cfg visitors h hdecoy⟩

def scanner : Visitor where
  method := "GET"
  originalUrl := some "/.env"
  httpVersion := some "1.1"
  rawHeaders := []
  ip := none

def oneHour : DeceptionConfig where
  blacklistTtlMs := 3600000
  demoMode := false
  sha256Hex := id

/-- the smallest that `Math.random` answers -/
def noDraw : Random := ⟨0, le_rfl, zero_lt_one⟩

/-- two requests of one scanner, of which the first walks into the decoy -/
def scannerMoves : List (Bool × Move) := [(true, .ja4h noDraw), (true, .trap 5)]

theorem scanner_now : (run oneHour (fun _ : Bool => scanner) 0 scannerMoves).shared.now = 5 := rfl

theorem scanner_banned : Banned oneHour (fun _ : Bool => scanner) 0 scannerMoves
    (fingerprint oneHour scanner)
    (run oneHour (fun _ : Bool => scanner) 0 scannerMoves).shared.now := by
  have harrived : (run oneHour (fun _ : Bool => scanner) 0 []).locals true = .arrived := rfl
  have hpassed := (ja4h_visit oneHour (fun _ => scanner) noDraw harrived).2 id
  refine .inr (.inl ⟨⟨5, _, rfl, hpassed, ?_, rfl⟩, ?_⟩)
  · decide +kernel
  · rw [scanner_now]
    show ((5 : ℕ) : ℚ) < ((0 : ℕ) : ℚ) + 3600000
    norm_num

/-- The second request is held while the first is in the decoy. -/
theorem ban_window_scanner :
    (step oneHour (fun _ => scanner) (run oneHour (fun _ : Bool => scanner) 0 scannerMoves)
      (false, .ja4h noDraw)).locals false = .held 2005 := by
  have hheld := ((ban_window oneHour (fun _ : Bool => scanner) 0 scannerMoves false).1
    noDraw rfl).1 scanner_banned
  rw [scanner_now] at hheld
  simpa [randomDelay, noDraw] using hheld

/-! ## What a decoy hit leaves behind -/

/-- a request that has hit a decoy, by now -/
def Visit.trapped : Visit → Bool
  | .recording .. => true
  | .stalled .. => true
  | .answered status _ => status = 200
  | _ => false

/-- one whose audit row was written or given up -/
def Visit.settled : Visit → Bool
  | .stalled .. => true
  | .answered status _ => status = 200
  | _ => false

section Evidence

variable {cfg} {v : Visitor} {m : Move} {visit visit' : Visit} {s s' : Shared}

/-- How one move changes the counts. -/
structure Tally (visit visit' : Visit) (s s' : Shared) : Prop where
  triggers : visit'.trapped.toNat + s.honeypotTriggers = visit.trapped.toNat + s'.honeypotTriggers
  signals : s'.signals.length + s.honeypotTriggers = s.signals.length + s'.honeypotTriggers
  rows : visit'.settled.toNat + (s.rows.length + s.recordFailed) =
    visit.settled.toNat + (s'.rows.length + s'.recordFailed)
  size : s'.store.size + s.honeypotTriggers ≤ s.store.size + s'.honeypotTriggers
  gauge : s.store.gauge = s.store.size → s'.store.gauge = s'.store.size

end Evidence

end ZTG.Deception
