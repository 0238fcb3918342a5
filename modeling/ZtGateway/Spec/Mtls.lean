import ZtGateway.Lib.Pool
import ZtGateway.Spec.Totp

/-! `MtlsService` and `CertMonitorService`. The calls of `MtlsService` interleave: each
read and each stat of a file is a step of its own, and between two steps another
process may rewrite a file. `CertMonitorService` polls one at a time. -/

namespace ZTG

/-- one value for each certificate file -/
structure CertFiles (α : Type) where
  ca : α
  cert : α
  key : α
  deriving DecidableEq

inductive CertFile where
  | ca
  | cert
  | key
  deriving DecidableEq

namespace CertFiles

variable {α : Type}

def get (x : CertFiles α) : CertFile → α
  | .ca => x.ca
  | .cert => x.cert
  | .key => x.key

def set (x : CertFiles α) (a : α) : CertFile → CertFiles α
  | .ca => { x with ca := a }
  | .cert => { x with cert := a }
  | .key => { x with key := a }

/-- `Promise.all` of the three, once each has its value -/
def all (x : CertFiles (Option α)) : Option (CertFiles α) :=
  match x.ca, x.cert, x.key with
  | some ca, some cert, some key => some ⟨ca, cert, key⟩
  | _, _, _ => none

/-- three calls that have not answered -/
def pending : CertFiles (Option α) := ⟨none, none, none⟩

end CertFiles

structure MtlsConfig where
  caCertPath : String
  clientCertPath : String
  clientKeyPath : String

def MtlsConfig.path (cfg : MtlsConfig) : CertFile → String
  | .ca => cfg.caCertPath
  | .cert => cfg.clientCertPath
  | .key => cfg.clientKeyPath

/-- `new https.Agent({ ca, cert, key })` -/
abbrev HttpsAgent := CertFiles Buffer

structure CertCache extends CertFiles Buffer where
  mtimes : CertFiles ℚ
  agent : HttpsAgent
  deriving DecidableEq

/-- what `loadCertificates` caches -/
def CertCache.of (files : CertFiles Buffer) (mtimes : CertFiles ℚ) : CertCache :=
  { toCertFiles := files, mtimes := mtimes, agent := files }

/-- a file as a rewrite left it -/
structure FileVersion where
  content : Buffer
  /-- `mtimeMs` -/
  mtime : ℚ
  deriving DecidableEq

/-- the versions of each file, the newest first; only the newest can be read -/
abbrev Disk := String → List FileVersion

namespace Disk

def content (disk : Disk) (path : String) : Option Buffer := (disk path).head?.map (·.content)

def mtime (disk : Disk) (path : String) : Option ℚ := (disk path).head?.map (·.mtime)

def rewrite (disk : Disk) (path : String) (v : FileVersion) : Disk :=
  Function.update disk path (v :: disk path)

end Disk

namespace MtlsService

/-- `getHttpsAgent`'s comparison with what its stats answered -/
def mtimesChanged (certCache : Option CertCache) (stats : CertFiles ℚ) : Bool :=
  match certCache with
  | none => true
  | some c => stats.ca ≠ c.mtimes.ca || stats.cert ≠ c.mtimes.cert || stats.key ≠ c.mtimes.key

/-- one call, up to its next step; `started` says whether a load is the one of `reloadPromise` -/
inductive Call (ι : Type) where
  | idle
  /-- `getHttpsAgent` awaits its stats -/
  | checking (stats : CertFiles (Option ℚ))
  /-- `loadCertificates` awaits its reads -/
  | reading (started : Bool) (reads : CertFiles (Option Buffer))
  /-- `loadCertificates` awaits its stats -/
  | statting (started : Bool) (files : CertFiles Buffer) (stats : CertFiles (Option ℚ))
  /-- the load of `reloadPromise` is over, `finally` is not -/
  | settled (resolved : Bool)
  /-- `await this.reloadPromise`, whose load a call of this name runs -/
  | waiting (loader : ι)
  | returned (agent : HttpsAgent)
  | done
  | failed
  deriving DecidableEq

structure Shared (ι : Type) where
  disk : Disk
  certCache : Option CertCache := none
  reloadPromise : Option ι := none
  /-- how the promise that a call started was settled -/
  outcome : ι → Option Bool := fun _ => none

inductive Move where
  | getHttpsAgent
  | loadCertificates
  | reload
  | read (f : CertFile)
  | stat (f : CertFile)
  /-- one of the pending reads or stats fails -/
  | fail
  /-- the call goes on after its `await` -/
  | resume
  deriving DecidableEq

variable {ι : Type} [DecidableEq ι]

/-- where a load that is over leaves its call -/
def afterLoad (started resolved : Bool) : Call ι :=
  if started then .settled resolved else if resolved then .done else .failed

/-- The step `move` of call `i`; `none` where the call cannot take it. -/
def act (cfg : MtlsConfig) (i : ι) : Move → Call ι → Shared ι → Option (Call ι × Shared ι)
  | .getHttpsAgent, .idle, s => some (.checking .pending, s)
  | .loadCertificates, .idle, s => some (.reading false .pending, s)
  | .reload, .idle, s => some (.reading false .pending, { s with certCache := none })
  | .stat f, .checking stats, s =>
    if stats.get f = none then
      (s.disk.mtime (cfg.path f)).map fun t => (.checking (stats.set (some t) f), s)
    else none
  | .fail, .checking _, s => some (.failed, s)
  | .resume, .checking stats, s =>
    match stats.all with
    | none => none
    | some stats =>
      if mtimesChanged s.certCache stats then
        match s.reloadPromise with
        | none => some (.reading true .pending, { s with reloadPromise := some i })
        | some j => some (.waiting j, s)
      else s.certCache.map fun c => (.returned c.agent, s)
  | .read f, .reading started reads, s =>
    if reads.get f = none then
      (s.disk.content (cfg.path f)).map fun b => (.reading started (reads.set (some b) f), s)
    else none
  | .fail, .reading started _, s => some (afterLoad started false, s)
  | .resume, .reading started reads, s => reads.all.map fun files => (.statting started files .pending, s)
  | .stat f, .statting started files stats, s =>
    if stats.get f = none then
      (s.disk.mtime (cfg.path f)).map fun t => (.statting started files (stats.set (some t) f), s)
    else none
  | .fail, .statting started _ _, s => some (afterLoad started false, s)
  | .resume, .statting started files stats, s =>
    stats.all.map fun mtimes =>
      (afterLoad started true, { s with certCache := some (.of files mtimes) })
  | .resume, .settled resolved, s =>
    some (.waiting i,
      { s with reloadPromise := none, outcome := Function.update s.outcome i (some resolved) })
  | .resume, .waiting j, s =>
    match s.outcome j with
    | none => none
    | some false => some (.failed, s)
    | some true =>
      match s.certCache with
      | none => some (.failed, s)
      | some c => some (.returned c.agent, s)
  | _, _, _ => none

/-- the service with any number of calls -/
abbrev Calls (ι : Type) := Pool ι (Call ι) (Shared ι)

/-- No call has begun; each file, if there, is as it was written first. -/
def Calls.init (files : String → Option FileVersion) : Calls ι :=
  ⟨{ disk := fun path => (files path).toList }, fun _ => .idle⟩

inductive Event (ι : Type) where
  | call (i : ι) (move : Move)
  /-- another process rewrites a file -/
  | rewrite (path : String) (v : FileVersion)

def step (cfg : MtlsConfig) (p : Calls ι) : Event ι → Calls ι
  | .call i move => p.step (act cfg) (i, move)
  | .rewrite path v => { p with shared := { p.shared with disk := p.shared.disk.rewrite path v } }

/-- what the files answer to one load, `none` where a read or a stat fails -/
structure LoadAnswers where
  reads : CertFiles (Option Buffer)
  stats : CertFiles (Option ℚ)
  deriving DecidableEq

/-- a load that no other call interleaves with: whether it resolves, and the cache after it -/
def loadCertificates (a : LoadAnswers) (certCache : Option CertCache) : Bool × Option CertCache :=
  match a.reads.all, a.stats.all with
  | some files, some mtimes => (true, some (.of files mtimes))
  | _, _ => (false, certCache)

/-- clears the cache first -/
def reload (a : LoadAnswers) (_certCache : Option CertCache) : Bool × Option CertCache :=
  loadCertificates a none

def getCertificates : Option CertCache → Except Err (CertFiles Buffer)
  | none => .error (.error "Certificates not loaded — call loadCertificates() first")
  | some c => .ok c.toCertFiles

end MtlsService

namespace CertMonitorService

/-- the monitor's fields, and the cache of the `MtlsService` it reloads -/
structure Monitor where
  lastMtimes : String → Option ℚ := fun _ => none
  checking : Bool := false
  certCache : Option CertCache := none

/-- what the files answer to one poll: to its own stats, and to the load it may start -/
structure PollAnswers where
  stats : CertFiles (Option ℚ)
  load : MtlsService.LoadAnswers
  deriving DecidableEq

/-- the paths of `certPaths()`, each with what its stat answered -/
def statted (cfg : MtlsConfig) (stats : CertFiles (Option ℚ)) : List (String × Option ℚ) :=
  [(cfg.caCertPath, stats.ca), (cfg.clientCertPath, stats.cert), (cfg.clientKeyPath, stats.key)]

/-- the loop over the paths, with `changed` and `lastMtimes` after it -/
def recordMtimes (changed : Bool) (last : String → Option ℚ) :
    List (String × Option ℚ) → Bool × (String → Option ℚ)
  | [] => (changed, last)
  -- a failed stat is skipped
  | (_, none) :: rest => recordMtimes changed last rest
  | (p, some t) :: rest =>
    if some t ≠ last p then recordMtimes true (Function.update last p (some t)) rest
    else recordMtimes changed last rest

inductive PollOutcome where
  /-- another poll was running -/
  | skipped
  | unchanged
  | reloaded
  | reloadFailed
  deriving DecidableEq

def checkFiles (cfg : MtlsConfig) (m : Monitor) (a : PollAnswers) : PollOutcome × Monitor :=
  if m.checking then (.skipped, m)
  else
    match recordMtimes false m.lastMtimes (statted cfg a.stats) with
    | (false, last) => (.unchanged, { m with lastMtimes := last })
    | (true, last) =>
      match MtlsService.reload a.load m.certCache with
      | (true, cache) => (.reloaded, { m with lastMtimes := last, certCache := cache })
      | (false, cache) => (.reloadFailed, { m with lastMtimes := last, certCache := cache })

/-- `initMtimes`: 0 where a stat fails -/
def initMtimes (cfg : MtlsConfig) (stats : CertFiles (Option ℚ)) : String → Option ℚ :=
  (statted cfg stats).foldl (fun last x => Function.update last x.1 (some (x.2.getD 0)))
    fun _ => none

/-- a poll, and the files as it leaves them -/
structure Poll where
  answers : PollAnswers
  disk : Disk

def pollStep (cfg : MtlsConfig) (m : Monitor) (poll : Poll) : Monitor :=
  (checkFiles cfg m poll.answers).2

end CertMonitorService

end ZTG
