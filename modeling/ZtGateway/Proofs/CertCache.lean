import ZtGateway.Spec.Mtls

/-! The certificate cache against the files on disk. The cache holds contents and mtimes
that were gathered by separate steps; it is coherent with the disk if every pair of
them was a version of its file. -/

namespace ZTG

namespace CertFiles

variable {α : Type}

theorem get_set (x : CertFiles α) (a : α) (f g : CertFile) :
    (x.set a f).get g = if g = f then a else x.get g := by
  cases f <;> cases g <;> rfl

theorem get_of_all {x : CertFiles (Option α)} {y : CertFiles α} (h : x.all = some y)
    (f : CertFile) : x.get f = some (y.get f) := by
  obtain ⟨ca, cert, key⟩ := x
  cases ca <;> cases cert <;> cases key <;> simp only [all, reduceCtorEq] at h
  obtain rfl := Option.some.inj h
  cases f <;> rfl

theorem get_pending (f : CertFile) : (pending : CertFiles (Option α)).get f = none := by
  cases f <;> rfl

end CertFiles

namespace MtlsService

variable {ι : Type} [DecidableEq ι] {cfg : MtlsConfig} {p : Calls ι}

/-- Every rewrite sets an mtime the file never had. -/
def FreshMtime (p : Calls ι) : Event ι → Prop
  | .call _ _ => True
  | .rewrite path v => v.mtime ∉ (p.shared.disk path).map (·.mtime)

/-- the contents a load has read and awaits the stats of -/
def Call.filesRead : Call ι → Option (CertFiles Buffer)
  | .statting _ files _ => some files
  | _ => none

/-- A load that stats a file finds there the contents it has read. -/
def StatsWhatItRead (cfg : MtlsConfig) (p : Calls ι) : Event ι → Prop
  | .call i (.stat f) => ∀ files ∈ (p.locals i).filesRead,
      p.shared.disk.content (cfg.path f) = some (files.get f)
  | _ => True

/-- If the cached mtimes are those on disk, then so are the cached contents, and the agent
is built from them. -/
def Coherent (cfg : MtlsConfig) (s : Shared ι) : Prop :=
  ∀ c, s.certCache = some c → (∀ f, s.disk.mtime (cfg.path f) = some (c.mtimes.get f)) →
    ∀ f, s.disk.content (cfg.path f) = some (c.get f) ∧
      s.disk.content (cfg.path f) = some (c.agent.get f)

/-- What a call does to the state: the files stay, and the cache stays, is cleared, or is what
a load with all its answers brings. -/
theorem act_shared {i : ι} {move : Move} {l l' : Call ι} {s s' : Shared ι}
    (h : act cfg i move l s = some (l', s')) :
    s'.disk = s.disk ∧ (s'.certCache = s.certCache ∨ s'.certCache = none ∨
      ∃ started files stats mtimes, l = .statting started files stats ∧
        stats.all = some mtimes ∧ s'.certCache = some (.of files mtimes)) := by
  cases move <;> cases l <;> simp only [act, reduceCtorEq] at h
  case resume.statting started files stats =>
    obtain ⟨mtimes, hall, heq⟩ := Option.map_eq_some_iff.mp h
    obtain ⟨-, rfl⟩ := Prod.mk.inj heq
    exact ⟨rfl, .inr (.inr ⟨started, files, stats, mtimes, rfl, hall, rfl⟩)⟩
  case reload.idle =>
    obtain ⟨-, rfl⟩ := Prod.mk.inj (Option.some.inj h)
    exact ⟨rfl, .inr (.inl rfl)⟩
  -- every other step leaves both alone
  all_goals
    have hsame : s'.disk = s.disk ∧ s'.certCache = s.certCache := by grind [Option.map_eq_some_iff]
    exact ⟨hsame.1, .inl hsame.2⟩

/-- How a call comes to await the stats of a load: it has just made its reads, or one more stat
has answered. -/
theorem act_statting {i : ι} {move : Move} {l : Call ι} {s s' : Shared ι} {started : Bool}
    {files : CertFiles Buffer} {stats : CertFiles (Option ℚ)}
    (h : act cfg i move l s = some (.statting started files stats, s')) :
    stats = .pending ∨ ∃ old f t, l = .statting started files old ∧ move = .stat f ∧
      s.disk.mtime (cfg.path f) = some t ∧ stats = old.set (some t) f := by
  cases move <;> cases l <;> simp only [act, reduceCtorEq] at h
  case resume.reading =>
    obtain ⟨files', -, heq⟩ := Option.map_eq_some_iff.mp h
    left
    grind
  case stat.statting f started' files' old =>
    split at h
    · obtain ⟨t, ht, heq⟩ := Option.map_eq_some_iff.mp h
      obtain ⟨hcall, -⟩ := Prod.mk.inj heq
      obtain ⟨rfl, rfl, rfl⟩ := Call.statting.inj hcall
      exact .inr ⟨old, f, t, rfl, rfl, ht, rfl⟩
    · cases h
  all_goals grind [afterLoad, Option.map_eq_some_iff]

/-- Contents and mtime are those of one version of the file. -/
def Dated (cfg : MtlsConfig) (disk : Disk) (f : CertFile) (content : Buffer) (mtime : ℚ) : Prop :=
  ⟨content, mtime⟩ ∈ disk (cfg.path f)

/-- No two versions of a file have the same mtime, and what is cached is dated. -/
structure CacheDated (cfg : MtlsConfig) (s : Shared ι) : Prop where
  distinct : ∀ path, ((s.disk path).map (·.mtime)).Nodup
  dated : ∀ c, s.certCache = some c → ∀ f, Dated cfg s.disk f (c.get f) (c.mtimes.get f)
  agent : ∀ c, s.certCache = some c → c.agent = c.toCertFiles

/-- What a load has read is dated by the stats that have answered. -/
def LoadDated (cfg : MtlsConfig) (l : Call ι) (s : Shared ι) : Prop :=
  ∀ started files stats, l = .statting started files stats →
    ∀ f t, stats.get f = some t → Dated cfg s.disk f (files.get f) t

theorem dated_of_disk {disk : Disk} {f : CertFile} {content : Buffer} {mtime : ℚ}
    (hcontent : disk.content (cfg.path f) = some content)
    (hmtime : disk.mtime (cfg.path f) = some mtime) : Dated cfg disk f content mtime := by
  obtain ⟨v, hv, rfl⟩ := Option.map_eq_some_iff.mp hcontent
  obtain ⟨v', hv', rfl⟩ := Option.map_eq_some_iff.mp hmtime
  obtain rfl := Option.some.inj (hv.symm.trans hv')
  exact List.mem_of_mem_head? hv

/-- A rewrite adds a version. -/
theorem Dated.rewrite {disk : Disk} {f : CertFile} {content : Buffer} {mtime : ℚ}
    (h : Dated cfg disk f content mtime) (path : String) (v : FileVersion) :
    Dated cfg (disk.rewrite path v) f content mtime := by
  by_cases hp : cfg.path f = path
  · subst hp
    simpa [Dated, Disk.rewrite] using .inr h
  · simpa [Dated, Disk.rewrite, Function.update_of_ne hp] using h

omit [DecidableEq ι] in
theorem CacheDated.coherent {s : Shared ι} (h : CacheDated cfg s) : Coherent cfg s := by
  intro c hc hmtimes f
  obtain ⟨v, hv, hvt⟩ := Option.map_eq_some_iff.mp (hmtimes f)
  have hmem := List.mem_of_mem_head? hv
  -- the version on disk and the cached one have the same mtime
  have heq := List.inj_on_of_nodup_map (h.distinct (cfg.path f)) hmem (h.dated c hc f) hvt
  have hcontent : s.disk.content (cfg.path f) = some (c.get f) := by
    rw [Disk.content, hv, heq]
    rfl
  rw [h.agent c hc]
  exact ⟨hcontent, hcontent⟩

theorem act_cacheDated {i : ι} {move : Move} {l l' : Call ι} {s s' : Shared ι}
    (h : act cfg i move l s = some (l', s')) (hs : CacheDated cfg s) (hl : LoadDated cfg l s) :
    CacheDated cfg s' := by
  obtain ⟨hdisk, hsame | hnone | ⟨started, files, stats, mtimes, rfl, hall, hnew⟩⟩ := act_shared h
  · exact ⟨hdisk ▸ hs.distinct, hdisk ▸ hsame ▸ hs.dated, hsame ▸ hs.agent⟩
  · exact ⟨hdisk ▸ hs.distinct, by simp [hnone], by simp [hnone]⟩
  · refine ⟨hdisk ▸ hs.distinct, fun c hc f => ?_, fun c hc => ?_⟩
    · obtain rfl := Option.some.inj (hnew.symm.trans hc)
      rw [hdisk]
      exact hl started files stats rfl f _ (CertFiles.get_of_all hall f)
    · obtain rfl := Option.some.inj (hnew.symm.trans hc)
      rfl

theorem act_loadDated {i : ι} {move : Move} {l l' : Call ι} {s s' : Shared ι}
    (h : act cfg i move l s = some (l', s')) (hl : LoadDated cfg l s)
    (hstat : ∀ f started files stats, move = .stat f → l = .statting started files stats →
      s.disk.content (cfg.path f) = some (files.get f)) : LoadDated cfg l' s' := by
  rintro started files stats rfl g t ht
  rw [(act_shared h).1]
  rcases act_statting h with rfl | ⟨old, f, t', rfl, rfl, hmtime, rfl⟩
  · rw [CertFiles.get_pending] at ht
    cases ht
  · rw [CertFiles.get_set] at ht
    split at ht
    next hgf =>
      subst hgf
      obtain rfl := Option.some.inj ht
      exact dated_of_disk (hstat g started files old rfl rfl) hmtime
    next => exact hl started files old rfl g t ht

/-- The invariant of the whole service. -/
def AllDated (cfg : MtlsConfig) (p : Calls ι) : Prop :=
  p.Holds (CacheDated cfg) fun _ => LoadDated cfg

theorem step_allDated (p : Calls ι) (e : Event ι) (hp : AllDated cfg p)
    (he : FreshMtime p e ∧ StatsWhatItRead cfg p e) : AllDated cfg (step cfg p e) := by
  obtain ⟨hfresh, hstat⟩ := he
  cases e with
  | call i move =>
    refine Pool.Holds.step hp (fun l s h => ?_) fun l s h j _ => ?_
    · refine ⟨act_cacheDated h hp.1 (hp.2 i), act_loadDated h (hp.2 i) ?_⟩
      rintro f started files stats rfl hl
      exact hstat files (by simp [hl, Call.filesRead])
    · intro started files stats hj f t ht
      rw [(act_shared h).1]
      exact hp.2 j started files stats hj f t ht
  | rewrite path v =>
    refine ⟨⟨fun q => ?_, fun c hc f => (hp.1.dated c hc f).rewrite path v, hp.1.agent⟩, ?_⟩
    · show ((p.shared.disk.rewrite path v q).map (·.mtime)).Nodup
      by_cases hq : q = path
      · subst hq
        rw [Disk.rewrite, Function.update_self, List.map_cons]
        exact List.nodup_cons.mpr ⟨hfresh, hp.1.distinct q⟩
      · simpa [Disk.rewrite, Function.update_of_ne hq] using hp.1.distinct q
    · intro i started files stats hi f t ht
      exact (hp.2 i started files stats hi f t ht).rewrite path v

omit [DecidableEq ι] in
theorem init_allDated (files : String → Option FileVersion) :
    AllDated cfg (Calls.init files : Calls ι) := by
  refine ⟨⟨fun path => ?_, fun c hc => ?_, fun c hc => ?_⟩, fun i started files stats h => ?_⟩
  · show (((files path).toList).map (·.mtime)).Nodup
    cases files path <;> simp
  · cases hc
  · cases hc
  · cases h

/-- What `getHttpsAgent` returns when it finds no mtime changed. -/
theorem resume_returned {i : ι} {stats : CertFiles (Option ℚ)} {agent : HttpsAgent}
    (hi : p.locals i = .checking stats)
    (h : (step cfg p (.call i .resume)).locals i = .returned agent) :
    ∃ c, p.shared.certCache = some c ∧ c.agent = agent ∧
      ∀ f, stats.get f = some (c.mtimes.get f) := by
  rcases Pool.step_cases (act cfg) p (i, .resume) with hnone | ⟨l, s, hact, hsome⟩
  · rw [step, hnone, hi] at h
    cases h
  · rw [step, hsome] at h
    obtain rfl : l = .returned agent := by simpa using h
    simp only [hi, act] at hact
    split at hact
    · cases hact
    next stats' hall =>
      split at hact
      · split at hact <;> simp at hact
      next hchanged =>
        obtain ⟨c, hc, heq⟩ := Option.map_eq_some_iff.mp hact
        rw [hc] at hchanged
        simp only [mtimesChanged, Bool.not_eq_true, Bool.or_eq_false_iff, decide_eq_false_iff_not,
          ne_eq, not_not] at hchanged
        obtain ⟨⟨hca, hcert⟩, hkey⟩ := hchanged
        refine ⟨c, hc, by simpa using (Prod.mk.inj heq).1, fun f => ?_⟩
        rw [CertFiles.get_of_all hall f]
        cases f
        · exact congrArg some hca
        · exact congrArg some hcert
        · exact congrArg some hkey

/-- In every run in which no load stats a file after its contents were replaced, the cache is
coherent in every state reached, and a `getHttpsAgent` that finds the mtimes on disk unchanged
returns an agent built from the contents on disk. -/
theorem cache_coherent (cfg : MtlsConfig) (files : String → Option FileVersion)
    (events : List (Event ι))
    (h : Along (step cfg) (fun p e => FreshMtime p e ∧ StatsWhatItRead cfg p e)
      (Calls.init files) events) :
    let p := runSteps (step cfg) (Calls.init files) events
    Coherent cfg p.shared ∧
    ∀ i stats agent, p.locals i = .checking stats →
      (∀ f, stats.get f = p.shared.disk.mtime (cfg.path f)) →
      (step cfg p (.call i .resume)).locals i = .returned agent →
      ∀ f, p.shared.disk.content (cfg.path f) = some (agent.get f) := by
  intro p
  have hp : AllDated cfg p := runSteps_invariant step_allDated (init_allDated files) h
  refine ⟨hp.1.coherent, fun i stats agent hi hstats hret f => ?_⟩
  obtain ⟨c, hc, rfl, hmtimes⟩ := resume_returned hi hret
  refine (hp.1.coherent c hc (fun f => ?_) f).2
  rw [← hstats f, hmtimes f]

def sampleMtls : MtlsConfig := ⟨"ca.pem", "cert.pem", "key.pem"⟩

/-- three files of one byte each -/
def sampleFiles (path : String) : Option FileVersion :=
  if path = "ca.pem" then some ⟨[1], 100⟩
  else if path = "cert.pem" then some ⟨[2], 100⟩
  else if path = "key.pem" then some ⟨[3], 100⟩
  else none

/-- the steps of call `i` by which a load makes its reads -/
def readAll (i : ι) : List (Event ι) :=
  [.call i (.read .ca), .call i (.read .cert), .call i (.read .key), .call i .resume]

/-- the steps of call `i` by which its three stats answer and it goes on -/
def statAll (i : ι) : List (Event ι) :=
  [.call i (.stat .ca), .call i (.stat .cert), .call i (.stat .key), .call i .resume]

def rotateCa : Event ℕ := .rewrite "ca.pem" ⟨[4], 200⟩

instance (p : Calls ι) : ∀ e, Decidable (FreshMtime p e)
  | .call _ _ => .isTrue trivial
  | .rewrite path v => inferInstanceAs (Decidable (v.mtime ∉ (p.shared.disk path).map (·.mtime)))

instance (cfg : MtlsConfig) (p : Calls ι) : ∀ e, Decidable (StatsWhatItRead cfg p e)
  | .call i (.stat f) => inferInstanceAs (Decidable (∀ files ∈ (p.locals i).filesRead,
      p.shared.disk.content (cfg.path f) = some (files.get f)))
  | .call _ .getHttpsAgent | .call _ .loadCertificates | .call _ .reload | .call _ (.read _)
  | .call _ .fail | .call _ .resume | .rewrite _ _ => .isTrue trivial

/-- A rotation between two loads: the agent returned after it is built from the new file. -/
theorem cache_coherent_rotation :
    let events := .call 0 .loadCertificates :: readAll 0 ++ statAll 0 ++ rotateCa ::
      .call 1 .getHttpsAgent :: statAll 1 ++ readAll 1 ++ statAll 1 ++
      .call 2 .getHttpsAgent :: (statAll 2).take 3
    let p := runSteps (step sampleMtls) (Calls.init sampleFiles) events
    p.shared.certCache = some (.of ⟨[4], [2], [3]⟩ ⟨200, 100, 100⟩) ∧
      p.shared.disk.content "ca.pem" = some [4] ∧ Coherent sampleMtls p.shared := by
  refine ⟨by decide +kernel, by decide +kernel, (cache_coherent sampleMtls sampleFiles _ ?_).1⟩
  decide +kernel

/-- A rotation between a load's reads and its stats: from then on `getHttpsAgent` finds nothing
changed and returns the agent of the replaced file. -/
theorem rotation_inside_load :
    let events := .call 0 .loadCertificates :: readAll 0 ++ rotateCa :: statAll 0 ++
      .call 1 .getHttpsAgent :: statAll 1
    let p := runSteps (step sampleMtls) (Calls.init sampleFiles) events
    Along (step sampleMtls) FreshMtime (Calls.init sampleFiles) events ∧
      ¬ Coherent sampleMtls p.shared ∧ p.locals 1 = .returned ⟨[1], [2], [3]⟩ ∧
      p.shared.disk.content "ca.pem" = some [4] := by
  refine ⟨by decide +kernel, fun h => ?_, by decide +kernel, by decide +kernel⟩
  have hca := (h (.of ⟨[1], [2], [3]⟩ ⟨200, 100, 100⟩) (by decide +kernel) (fun f => ?_) .ca).1
  · exact absurd hca (by decide +kernel)
  · cases f <;> decide +kernel

end MtlsService

end ZTG
