import ZtGateway.Proofs.CertCache

/-! Polls of `CertMonitorService` whose reload fails. The monitor records the new mtimes
and `reload` clears the cache, both before the files are read. -/

namespace ZTG

namespace MtlsService

variable {ι : Type} [DecidableEq ι] {cfg : MtlsConfig}

/-- what the files answer while nobody rewrites them -/
def answersOf (cfg : MtlsConfig) (disk : Disk) : LoadAnswers where
  reads := ⟨disk.content cfg.caCertPath, disk.content cfg.clientCertPath,
    disk.content cfg.clientKeyPath⟩
  stats := ⟨disk.mtime cfg.caCertPath, disk.mtime cfg.clientCertPath,
    disk.mtime cfg.clientKeyPath⟩

theorem loadCertificates_fst (a : LoadAnswers) (c : Option CertCache) :
    (loadCertificates a c).1 = false ↔ a.reads.all = none ∨ a.stats.all = none := by
  unfold loadCertificates
  split
  next files mtimes hreads hstats => simp [hreads, hstats]
  next h =>
    refine ⟨fun _ => ?_, fun _ => rfl⟩
    by_contra hboth
    push Not at hboth
    obtain ⟨files, hfiles⟩ := Option.ne_none_iff_exists'.mp hboth.1
    obtain ⟨mtimes, hmtimes⟩ := Option.ne_none_iff_exists'.mp hboth.2
    exact h files mtimes hfiles hmtimes

theorem loadCertificates_of_failed {a : LoadAnswers} {c : Option CertCache}
    (h : (loadCertificates a c).1 = false) : (loadCertificates a c).2 = c := by
  revert h
  unfold loadCertificates
  split <;> simp

section Alone

variable {p : Calls ι} {s s' : Shared ι} {calls : ι → Call ι} {i : ι} {started : Bool}
  {files : CertFiles Buffer} {mtimes : CertFiles ℚ}

theorem step_own {l l' : Call ι} {move : Move} (h : act cfg i move l s = some (l', s')) :
    step cfg ⟨s, Function.update calls i l⟩ (.call i move) = ⟨s', Function.update calls i l'⟩ := by
  refine (Pool.step_of_some (by simpa using h)).trans ?_
  simp

theorem step_read {f : CertFile} {reads : CertFiles (Option Buffer)} (hf : reads.get f = none)
    (hdisk : s.disk.content (cfg.path f) = some (files.get f)) :
    step cfg ⟨s, Function.update calls i (.reading started reads)⟩ (.call i (.read f)) =
      ⟨s, Function.update calls i (.reading started (reads.set (some (files.get f)) f))⟩ :=
  step_own (by simp [act, hf, hdisk])

theorem step_stat {f : CertFile} {stats : CertFiles (Option ℚ)} (hf : stats.get f = none)
    (hdisk : s.disk.mtime (cfg.path f) = some (mtimes.get f)) :
    step cfg ⟨s, Function.update calls i (.statting started files stats)⟩ (.call i (.stat f)) =
      ⟨s, Function.update calls i
        (.statting started files (stats.set (some (mtimes.get f)) f))⟩ :=
  step_own (by simp [act, hf, hdisk])

theorem run_readAll (hdisk : ∀ f, s.disk.content (cfg.path f) = some (files.get f)) :
    runSteps (step cfg) ⟨s, Function.update calls i (.reading started .pending)⟩ (readAll i) =
      ⟨s, Function.update calls i (.statting started files .pending)⟩ := by
  rw [readAll, runSteps_cons, step_read rfl (hdisk .ca), runSteps_cons, step_read rfl (hdisk .cert),
    runSteps_cons, step_read rfl (hdisk .key), runSteps_cons, runSteps_nil]
  exact step_own rfl

theorem run_statAll (hdisk : ∀ f, s.disk.mtime (cfg.path f) = some (mtimes.get f)) :
    runSteps (step cfg) ⟨s, Function.update calls i (.statting started files .pending)⟩
        (statAll i) =
      ⟨{ s with certCache := some (.of files mtimes) },
        Function.update calls i (afterLoad started true)⟩ := by
  rw [statAll, runSteps_cons, step_stat rfl (hdisk .ca), runSteps_cons, step_stat rfl (hdisk .cert),
    runSteps_cons, step_stat rfl (hdisk .key), runSteps_cons, runSteps_nil]
  exact step_own rfl

/-- A reload whose steps nothing interleaves with does what `reload` says: this ties the steps of
concurrent calls to the function that the monitor's polls are modelled with. -/
theorem reload_alone (hi : p.locals i = .idle)
    (h : (reload (answersOf cfg p.shared.disk) p.shared.certCache).1 = true) :
    let q := runSteps (step cfg) p (.call i .reload :: readAll i ++ statAll i)
    q.locals i = .done ∧
      q.shared.certCache = (reload (answersOf cfg p.shared.disk) p.shared.certCache).2 := by
  obtain ⟨files, mtimes, hreads, hstats⟩ : ∃ files mtimes,
      (answersOf cfg p.shared.disk).reads.all = some files ∧
      (answersOf cfg p.shared.disk).stats.all = some mtimes := by
    unfold reload loadCertificates at h
    split at h
    next files mtimes hreads hstats => exact ⟨files, mtimes, hreads, hstats⟩
    next => cases h
  have hread : ∀ f, p.shared.disk.content (cfg.path f) = some (files.get f) := by
    intro f
    rw [← CertFiles.get_of_all hreads f]
    cases f <;> rfl
  have hstat : ∀ f, p.shared.disk.mtime (cfg.path f) = some (mtimes.get f) := by
    intro f
    rw [← CertFiles.get_of_all hstats f]
    cases f <;> rfl
  have hclear : step cfg p (.call i .reload) = ⟨{ p.shared with certCache := none },
      Function.update p.locals i (.reading false .pending)⟩ :=
    Pool.step_of_some (by simp [hi, act])
  intro q
  have hq : q = runSteps (step cfg) p (.call i .reload :: readAll i ++ statAll i) := rfl
  rw [runSteps_append, runSteps_cons, hclear,
    run_readAll (s := { p.shared with certCache := none }) hread,
    run_statAll (s := { p.shared with certCache := none }) hstat] at hq
  rw [hq]
  exact ⟨Function.update_self .., by rw [reload, loadCertificates, hreads, hstats]⟩

end Alone

end MtlsService

namespace CertMonitorService

variable {cfg : MtlsConfig} {m : Monitor}

/-- the last mtime that the stats of one path have answered -/
def lastAnswer (path : String) : List (String × Option ℚ) → Option ℚ
  | [] => none
  | (p, stat) :: rest => (lastAnswer path rest).or (if p = path then stat else none)

theorem recordMtimes_last (changed : Bool) (last : String → Option ℚ)
    (answers : List (String × Option ℚ)) (path : String) :
    (recordMtimes changed last answers).2 path = (lastAnswer path answers).or (last path) := by
  fun_induction recordMtimes changed last answers with
  | case1 => rfl
  | case2 changed last p rest ih => simp [ih, lastAnswer]
  | case3 changed last p t rest hne ih =>
    rw [ih, lastAnswer, Option.or_assoc]
    by_cases hp : p = path
    · subst hp
      simp
    · simp [hp, Function.update_of_ne (Ne.symm hp)]
  | case4 changed last p t rest heq ih =>
    rw [ih, lastAnswer, Option.or_assoc]
    by_cases hp : p = path
    · subst hp
      simp only [ne_eq, not_not] at heq
      simp [heq]
    · simp [hp]

/-- Some stat has answered an mtime other than the one recorded. -/
def SeesChange (last : String → Option ℚ) (answers : List (String × Option ℚ)) : Prop :=
  ∃ p t, (p, some t) ∈ answers ∧ last p ≠ some t

theorem recordMtimes_changed (changed : Bool) (last : String → Option ℚ)
    (answers : List (String × Option ℚ)) :
    (recordMtimes changed last answers).1 = true ↔ changed = true ∨ SeesChange last answers := by
  fun_induction recordMtimes changed last answers with
  | case1 => simp [SeesChange]
  | case2 changed last p rest ih => simp [ih, SeesChange]
  | case3 changed last p t rest hne ih =>
    simp only [ih, true_or, true_iff]
    exact .inr ⟨p, t, List.mem_cons_self, hne.symm⟩
  | case4 changed last p t rest heq ih =>
    rw [ih]
    simp only [ne_eq, not_not] at heq
    have hskip : SeesChange last ((p, some t) :: rest) ↔ SeesChange last rest := by
      constructor
      · rintro ⟨q, u, hmem, hne⟩
        rcases List.mem_cons.mp hmem with hhead | hmem
        · obtain ⟨rfl, hu⟩ := Prod.mk.inj hhead
          exact absurd (heq.symm.trans hu.symm) hne
        · exact ⟨q, u, hmem, hne⟩
      · rintro ⟨q, u, hmem, hne⟩
        exact ⟨q, u, List.mem_cons_of_mem _ hmem, hne⟩
    rw [hskip]

/-- The poll sees a change, and a read or a stat of its reload fails. -/
def ReloadFails (cfg : MtlsConfig) (m : Monitor) (a : PollAnswers) : Prop :=
  m.checking = false ∧ SeesChange m.lastMtimes (statted cfg a.stats) ∧
    (a.load.reads.all = none ∨ a.load.stats.all = none)

/-- What a poll answers and leaves behind. -/
theorem checkFiles_cases (cfg : MtlsConfig) (m : Monitor) (a : PollAnswers) :
    (m.checking = true ∧ checkFiles cfg m a = (.skipped, m)) ∨
    (m.checking = false ∧ ¬ SeesChange m.lastMtimes (statted cfg a.stats) ∧
      (checkFiles cfg m a).1 = .unchanged) ∨
    (m.checking = false ∧ SeesChange m.lastMtimes (statted cfg a.stats) ∧
      (checkFiles cfg m a).1 =
        (if (MtlsService.reload a.load m.certCache).1 then .reloaded else .reloadFailed) ∧
      (checkFiles cfg m a).2 = { m with
        lastMtimes := (recordMtimes false m.lastMtimes (statted cfg a.stats)).2,
        certCache := (MtlsService.reload a.load m.certCache).2 }) := by
  unfold checkFiles
  split
  next h => exact .inl ⟨h, rfl⟩
  next h =>
    have hiff := recordMtimes_changed false m.lastMtimes (statted cfg a.stats)
    right
    rcases hrec : recordMtimes false m.lastMtimes (statted cfg a.stats) with ⟨_ | _, last⟩
    · left
      refine ⟨by simpa using h, ?_, rfl⟩
      simpa [hrec] using hiff
    · right
      refine ⟨by simpa using h, by simpa [hrec] using hiff, ?_⟩
      rcases MtlsService.reload a.load m.certCache with ⟨_ | _, cache⟩ <;> exact ⟨rfl, rfl⟩

theorem checkFiles_attempts_iff (a : PollAnswers) :
    (checkFiles cfg m a).1 ∈ [PollOutcome.reloaded, PollOutcome.reloadFailed] ↔
      m.checking = false ∧ SeesChange m.lastMtimes (statted cfg a.stats) := by
  rcases checkFiles_cases cfg m a with ⟨hc, h⟩ | ⟨hc, hno, h⟩ | ⟨hc, hyes, h, -⟩
  · simp [h, hc]
  · simp [h, hno]
  · rw [h]
    split <;> simp [hc, hyes]

theorem checkFiles_reloadFailed_iff (a : PollAnswers) :
    (checkFiles cfg m a).1 = .reloadFailed ↔ ReloadFails cfg m a := by
  have hload := MtlsService.loadCertificates_fst a.load none
  unfold ReloadFails
  rw [← hload]
  rcases checkFiles_cases cfg m a with ⟨hc, h⟩ | ⟨hc, hno, h⟩ | ⟨hc, hyes, h, -⟩
  · simp [h, hc]
  · simp [h, hno]
  · rw [h, MtlsService.reload]
    cases (MtlsService.loadCertificates a.load none).1 <;> simp [hc, hyes]

/-- If the reload of the poll fails, the certificates are still there, and the next poll on the
same files tries to reload again. -/
def LosesNothing (cfg : MtlsConfig) (m : Monitor) (poll : Poll) : Prop :=
  (checkFiles cfg m poll.answers).1 = .reloadFailed →
    MtlsService.getCertificates (pollStep cfg m poll).certCache =
      MtlsService.getCertificates m.certCache ∧
    ∀ load, (checkFiles cfg (pollStep cfg m poll)
      { stats := (MtlsService.answersOf cfg poll.disk).stats, load := load }).1 ∈
        [PollOutcome.reloaded, PollOutcome.reloadFailed]

/-- The mtime of some file is not the last one the poll's own stats have answered, nor, where
these failed, the one recorded before. -/
def Unrecorded (cfg : MtlsConfig) (m : Monitor) (poll : Poll) : Prop :=
  ∃ f t, poll.disk.mtime (cfg.path f) = some t ∧
    (lastAnswer (cfg.path f) (statted cfg poll.answers.stats)).or (m.lastMtimes (cfg.path f)) ≠ some t

theorem mem_statted_answersOf {disk : Disk} {p : String} {t : ℚ} :
    (p, some t) ∈ statted cfg (MtlsService.answersOf cfg disk).stats ↔
      ∃ f, p = cfg.path f ∧ disk.mtime (cfg.path f) = some t := by
  simp only [statted, MtlsService.answersOf, List.mem_cons, Prod.mk.injEq, List.not_mem_nil, or_false]
  constructor
  · rintro (⟨rfl, h⟩ | ⟨rfl, h⟩ | ⟨rfl, h⟩)
    · exact ⟨.ca, rfl, h.symm⟩
    · exact ⟨.cert, rfl, h.symm⟩
    · exact ⟨.key, rfl, h.symm⟩
  · rintro ⟨f, rfl, h⟩
    cases f
    · exact .inl ⟨rfl, h.symm⟩
    · exact .inr (.inl ⟨rfl, h.symm⟩)
    · exact .inr (.inr ⟨rfl, h.symm⟩)

theorem getCertificates_none_iff (c : Option CertCache) :
    MtlsService.getCertificates none = MtlsService.getCertificates c ↔ c = none := by
  cases c <;> simp [MtlsService.getCertificates]

theorem losesNothing_iff (cfg : MtlsConfig) (m : Monitor) (poll : Poll) :
    LosesNothing cfg m poll ↔
      (ReloadFails cfg m poll.answers → m.certCache = none ∧ Unrecorded cfg m poll) := by
  unfold LosesNothing
  rw [checkFiles_reloadFailed_iff]
  refine imp_congr_right fun hfails => ?_
  have hafter : pollStep cfg m poll = { m with
      lastMtimes := (recordMtimes false m.lastMtimes (statted cfg poll.answers.stats)).2,
      certCache := none } := by
    rcases checkFiles_cases cfg m poll.answers with ⟨hc, -⟩ | ⟨-, hno, -⟩ | ⟨-, -, -, h⟩
    · exact absurd hfails.1 (by simp [hc])
    · exact absurd hfails.2.1 hno
    · rw [pollStep, h, MtlsService.reload, MtlsService.loadCertificates_of_failed]
      exact (MtlsService.loadCertificates_fst _ _).mpr hfails.2.2
  refine and_congr ?_ ?_
  · rw [hafter]
    exact getCertificates_none_iff m.certCache
  · simp only [checkFiles_attempts_iff, hafter, hfails.1, true_and, SeesChange,
      mem_statted_answersOf, recordMtimes_last]
    constructor
    · intro h
      obtain ⟨p, t, ⟨f, rfl, hf⟩, hne⟩ := h poll.answers.load
      exact ⟨f, t, hf, hne⟩
    · rintro ⟨f, t, hf, hne⟩ -
      exact ⟨_, t, ⟨f, rfl, hf⟩, hne⟩

/-- A run of polls loses nothing exactly if at every poll whose reload fails nothing was cached,
and some file's mtime is one the poll has not recorded. -/
theorem polls_lose_nothing_iff (cfg : MtlsConfig) (m : Monitor) (polls : List Poll) :
    Along (pollStep cfg) (LosesNothing cfg) m polls ↔
      Along (pollStep cfg) (fun m poll =>
        ReloadFails cfg m poll.answers → m.certCache = none ∧ Unrecorded cfg m poll) m polls :=
  along_iff (losesNothing_iff cfg)

/-- the monitor of a service that has loaded `sampleFiles` -/
def sampleMonitor : Monitor where
  lastMtimes := initMtimes MtlsService.sampleMtls ⟨some 100, some 100, some 100⟩
  certCache := some (.of ⟨[1], [2], [3]⟩ ⟨100, 100, 100⟩)

/-- The CA file is replaced, and the key cannot be read. -/
def samplePoll : Poll where
  answers :=
    { stats := ⟨some 200, some 100, some 100⟩
      load := { reads := ⟨some [4], some [2], none⟩, stats := ⟨some 200, some 100, some 100⟩ } }
  disk := (MtlsService.Calls.init MtlsService.sampleFiles : MtlsService.Calls ℕ).shared.disk.rewrite
    "ca.pem" ⟨[4], 200⟩

/-- After the failed reload there are no certificates, and the next poll sees no change. -/
theorem failed_reload_forgets :
    ¬ LosesNothing MtlsService.sampleMtls sampleMonitor samplePoll ∧
    MtlsService.getCertificates sampleMonitor.certCache = .ok ⟨[1], [2], [3]⟩ ∧
    MtlsService.getCertificates (pollStep MtlsService.sampleMtls sampleMonitor samplePoll).certCache =
      .error (.error "Certificates not loaded — call loadCertificates() first") ∧
    (checkFiles MtlsService.sampleMtls (pollStep MtlsService.sampleMtls sampleMonitor samplePoll)
      { stats := (MtlsService.answersOf MtlsService.sampleMtls samplePoll.disk).stats,
        load := samplePoll.answers.load }).1 = .unchanged := by
  refine ⟨fun h => ?_, rfl, by decide +kernel, by decide +kernel⟩
  have hkept := (h (by decide +kernel)).1
  exact absurd hkept (by decide +kernel)

end CertMonitorService

end ZTG
