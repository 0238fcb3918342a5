import ZtGateway.Spec.Address
import ZtGateway.Proofs.Upstream

/-! The addresses `ProxyService.forward` connects to. The guard looks the hostname up once and
looks at that answer only; every attempt of the retry loop looks the hostname up again, and so does
every redirect that axios follows. -/

namespace ZTG

open Act

/-- The guard refuses this answer. -/
def guardBlocks (address : String) : Bool :=
  BLOCKED_EXACT.contains address ||
    match parseIPv4 address with
    | some octets => inCidr (ipv4ToUint32 octets) (ipv4ToUint32 [127, 0, 0, 0]) 8
    | none => false

theorem assertSafe_ok_iff {env : Env ProxyCall ProxyReply} {tr : Trace ProxyCall ProxyReply}
    {hostname : List Char} : (exec env (assertSafe hostname) () tr).1.1 = .ok () ↔
      ∃ address, env tr (.lookup hostname) = .ok address ∧ guardBlocks address = false := by
  simp only [assertSafe, exec_bind, exec_call, guardBlocks]
  cases env tr (.lookup hostname) with
  | error err => simp
  | ok address =>
    simp only [id, Except.ok.injEq, exists_eq_left', Bool.or_eq_false_iff]
    split_ifs with hexact
    · simp only [exec_throw, hexact, Bool.true_eq_false, false_and, iff_false]
      exact nofun
    · simp only [hexact, true_and]
      cases parseIPv4 address with
      | none => simp
      | some octets =>
        dsimp only
        split_ifs with hcidr
        · simp [hcidr]
        · simp [hcidr]

@[simp] theorem handed_append (tr tr' : Trace ProxyCall ProxyReply) :
    handed (tr ++ tr') = handed tr ++ handed tr' := List.filterMap_append ..

/-- Where the loop is after its first attempt. -/
theorem retryLoop_zero_trace (env : Env ProxyCall ProxyReply) (maxRetries : ℕ)
    (config : AxiosRequestConfig) (tr : Trace ProxyCall ProxyReply) :
    (exec env (retryLoop maxRetries config 0) () tr).2 =
      tr ++ [⟨.axios config, env tr (.axios config)⟩] := by
  simp only [retryLoop, exec_bind, exec_call]
  cases env tr (.axios config) with
  | error err => rfl
  | ok response =>
    dsimp only
    split_ifs
    · rfl
    · rfl

theorem retryLoop_succ_trace (env : Env ProxyCall ProxyReply) (maxRetries : ℕ)
    (config : AxiosRequestConfig) (left : ℕ) (tr : Trace ProxyCall ProxyReply) :
    (exec env (retryLoop maxRetries config (left + 1)) () tr).2 =
      if AxiosOutcome.retriable (env tr (.axios config)) then
        (exec env (retryLoop maxRetries config left) ()
          (tr ++ [⟨.axios config, env tr (.axios config)⟩] ++
            [⟨.sleep (backoff (maxRetries - (left + 1))), ()⟩])).2
      else tr ++ [⟨.axios config, env tr (.axios config)⟩] := by
  simp only [retryLoop, exec_bind, exec_call]
  cases env tr (.axios config) with
  | error err =>
    by_cases hretry : err.retriable = true
    · simp only [hretry, if_true]
      exact (if_pos hretry).symm
    · simp only [hretry]
      exact (if_neg hretry).symm
  | ok response =>
    by_cases hretry : RETRIABLE_STATUSES.contains response.status = true
    · simp only [hretry, if_true]
      exact (if_pos hretry).symm
    · simp only [hretry]
      exact (if_neg hretry).symm

namespace Network

variable {net : Network} {tr : Trace ProxyCall ProxyReply}

/-- The loop makes attempt `k`: all before it failed in a way that is tried again. -/
def Tries (net : Network) (maxRetries k : ℕ) : Prop :=
  k ≤ maxRetries ∧ ∀ j < k, AxiosOutcome.retriable (net.replies j) = true

/-- Nothing stops the request before its first attempt. -/
def Starts (net : Network) (p : ProxyService) (serviceName : List Char) (target : Url) : Prop :=
  (∃ address, net.resolved target.hostname = some address ∧ guardBlocks address = false) ∧
  p.breakers.contains (String.ofList serviceName) = true ∧ net.agent = .ok () ∧ net.admits = true

/-- The loop hands its request to axios once for each attempt it makes. -/
theorem handed_retryLoop (maxRetries : ℕ) (config : AxiosRequestConfig) (left : ℕ) :
    ∃ n, handed (exec net.env (retryLoop maxRetries config left) () tr).2 =
        handed tr ++ List.replicate n config ∧
      ∀ k, k < n ↔ k ≤ left ∧
        ∀ j < k, AxiosOutcome.retriable (net.replies ((handed tr).length + j)) = true := by
  induction left generalizing tr with
  | zero =>
    refine ⟨1, ?_, fun k => ?_⟩
    · rw [retryLoop_zero_trace, handed_append]
      rfl
    · constructor
      · intro hk
        exact ⟨by omega, fun j hj => by omega⟩
      · intro hk
        omega
  | succ left ih =>
    rw [retryLoop_succ_trace]
    have hreply : net.env tr (.axios config) = net.replies (handed tr).length := rfl
    split_ifs with hretry
    · obtain ⟨n, hn, hiff⟩ := @ih (tr ++ [⟨.axios config, net.env tr (.axios config)⟩] ++
        [⟨.sleep (backoff (maxRetries - (left + 1))), ()⟩])
      have hone : handed (tr ++ [⟨.axios config, net.env tr (.axios config)⟩] ++
          [⟨.sleep (backoff (maxRetries - (left + 1))), ()⟩]) = handed tr ++ [config] := by
        rw [handed_append, handed_append]
        simp [handed, ProxyCall.axiosConfig?]
      refine ⟨n + 1, ?_, fun k => ?_⟩
      · rw [hn, hone, List.append_assoc, List.replicate_succ]
        rfl
      · cases k with
        | zero => simp
        | succ k =>
          rw [Nat.succ_lt_succ_iff, hiff k, hone, List.length_append, List.length_singleton,
            Nat.succ_le_succ_iff]
          refine and_congr_right fun _ => ⟨fun h j hj => ?_, fun h j hj => ?_⟩
          · cases j with
            | zero => exact hretry
            | succ j => simpa [Nat.add_assoc, Nat.add_comm 1] using h j (by omega)
          · simpa [Nat.add_assoc, Nat.add_comm 1] using h (j + 1) (by omega)
    · refine ⟨1, ?_, fun k => ?_⟩
      · rw [handed_append]
        rfl
      · constructor
        · intro hk
          exact ⟨by omega, fun j hj => by omega⟩
        · rintro ⟨-, h⟩
          by_contra hk
          exact hretry (h 0 (by omega))

/-- After the loop `forward` calls nobody. -/
theorem deliver_trace (env : Env ProxyCall ProxyReply) (p : ProxyService) (name : List Char)
    (config : AxiosRequestConfig) (tr : Trace ProxyCall ProxyReply) :
    (exec env (p.deliver name config) () tr).2 = (exec env (p.fire name config) () tr).2 := by
  simp only [ProxyService.deliver, exec_tryCatch, exec_bind]
  obtain ⟨⟨r, u⟩, tr'⟩ := exec env (p.fire name config) () tr
  cases r with
  | error err => cases err <;> rfl
  | ok response =>
    obtain ⟨v, hvalid, -⟩ := @exec_assertValid env tr' response
    simp only [hvalid]
    cases v with
    | error err => cases err <;> rfl
    | ok u => rfl

theorem handed_deliver (p : ProxyService) (name : List Char) (config : AxiosRequestConfig)
    (htr : handed tr = []) :
    ∃ n, handed (exec net.env (p.deliver name config) () tr).2 = List.replicate n config ∧
      ∀ k, k < n ↔ net.admits = true ∧ net.Tries p.maxRetries k := by
  rw [deliver_trace]
  simp only [ProxyService.fire, exec_bind, exec_call]
  have hadmits : net.env tr (.admits name) = net.admits := rfl
  have hone : handed (tr ++ [⟨.admits name, net.admits⟩]) = [] := by
    rw [handed_append, htr]
    rfl
  rw [hadmits]
  cases hopen : net.admits with
  | false =>
    refine ⟨0, ?_, by simp⟩
    rw [hopen] at hone
    exact hone
  | true =>
    rw [hopen] at hone
    obtain ⟨n, hn, hiff⟩ := @handed_retryLoop net (tr ++ [⟨.admits name, true⟩]) p.maxRetries
      config p.maxRetries
    rw [hone, List.nil_append] at hn
    refine ⟨n, hn, fun k => ?_⟩
    rw [hiff k, hone]
    simp [Tries]

/-- The requests of a run of `forward`: none, unless the request starts, and then one for each
attempt. -/
theorem handed_forward (net : Network) (p : ProxyService) (req : Request) (claims : UserClaims)
    (score : JsNum) :
    (handed (exec net.env (p.forward req claims score) () []).2 = [] ∧
      ∀ name target, p.resolveTarget req.rawUrl = .ok (name, target) →
        ¬ net.Starts p name target) ∨
    ∃ name target config n, p.resolveTarget req.rawUrl = .ok (name, target) ∧
      net.Starts p name target ∧ config.url = target ∧
      handed (exec net.env (p.forward req claims score) () []).2 = List.replicate n config ∧
      ∀ k, k < n ↔ net.Tries p.maxRetries k := by
  unfold ProxyService.forward
  cases htarget : p.resolveTarget req.rawUrl with
  | error err => exact .inl ⟨rfl, by simp⟩
  | ok found =>
    obtain ⟨name, target⟩ := found
    have hguard := @assertSafe_ok_iff net.env [] target.hostname
    have hlookup : (∃ address, net.env [] (.lookup target.hostname) = .ok address ∧
        guardBlocks address = false) ↔ ∃ address,
        net.resolved target.hostname = some address ∧ guardBlocks address = false := by
      simp only [env]
      cases net.resolved target.hostname <;> simp
    obtain ⟨r, a, hsafe⟩ := @exec_assertSafe net.env [] target.hostname
    rw [hlookup, hsafe] at hguard
    simp only [exec_bind, hsafe]
    -- what stops the request before its first attempt is what `Starts` excludes
    have hstop : ¬ net.Starts p name target → ∀ name' target',
        Except.ok (name, target) = (.ok (name', target') : Except ProxyErr _) →
        ¬ net.Starts p name' target' := by
      rintro h name' target' heq
      obtain ⟨rfl, rfl⟩ := Prod.mk.inj (Except.ok.inj heq)
      exact h
    cases r with
    | error err =>
      refine .inl ⟨rfl, hstop fun h => ?_⟩
      exact absurd (hguard.mpr h.1) (by simp)
    | ok u =>
      dsimp only
      split_ifs with hbreaker
      · rw [exec_bind, exec_call]
        have hagent : net.env ([] ++ [⟨.lookup target.hostname, a⟩]) .getHttpsAgent = net.agent :=
          rfl
        cases hnet : net.agent with
        | error err =>
          simp only [hagent, hnet, id]
          refine .inl ⟨rfl, hstop fun h => ?_⟩
          exact absurd (h.2.2.1.symm.trans hnet) (by simp)
        | ok v =>
          simp only [hagent, hnet, id]
          let config : AxiosRequestConfig :=
            { method := req.method,
              url := target,
              headers :=
                buildProxyHeaders p.platform req.headers claims score (extractJa4h req),
              data := req.body }
          obtain ⟨n, hn, hiff⟩ := @handed_deliver net
            ([] ++ [⟨.lookup target.hostname, a⟩] ++ [⟨.getHttpsAgent, .ok v⟩]) p name config rfl
          cases hopen : net.admits with
          | false =>
            refine .inl ⟨?_, hstop fun h => ?_⟩
            · obtain rfl : n = 0 :=
                Nat.eq_zero_of_not_pos fun h => by simpa [hopen] using (hiff 0).mp h
              exact hn
            · exact absurd (h.2.2.2.symm.trans hopen) (by simp)
          | true =>
            refine .inr ⟨name, target, config, n, rfl, ?_, rfl, hn, fun k => ?_⟩
            · exact ⟨hguard.mp rfl, hbreaker, hnet, hopen⟩
            · simpa [hopen] using hiff k
      · refine .inl ⟨rfl, hstop fun h => ?_⟩
        exact hbreaker h.2.1

theorem Reaches.le {k j i : ℕ} {url last : Url} (h : net.Reaches k j url i last) : j ≤ i := by
  induction h with
  | here => exact le_rfl
  | redirect _ _ ih => omega

theorem mem_openedFrom {k left j : ℕ} {url : Url} {address : String} :
    address ∈ net.openedFrom k left j url ↔
      ∃ i last, net.Reaches k j url i last ∧ i ≤ j + left ∧
        address ∈ (net.hop k i last).opened := by
  induction left generalizing j url with
  | zero =>
    constructor
    · intro h
      exact ⟨j, url, .here j url, le_rfl, h⟩
    · rintro ⟨i, last, hreach, hi, h⟩
      cases hreach with
      | here => exact h
      | redirect _ hnext =>
        have := hnext.le
        omega
  | succ left ih =>
    rw [openedFrom, List.mem_append]
    constructor
    · rintro (h | h)
      · exact ⟨j, url, .here j url, by omega, h⟩
      · cases hloc : (net.hop k j url).location with
        | none => simp [hloc] at h
        | some next =>
          rw [hloc] at h
          obtain ⟨i, last, hreach, hi, hopened⟩ := ih.mp h
          exact ⟨i, last, .redirect hloc hreach, by omega, hopened⟩
    · rintro ⟨i, last, hreach, hi, hopened⟩
      cases hreach with
      | here => exact .inl hopened
      | redirect hloc hnext =>
        right
        rw [hloc]
        exact ih.mpr ⟨i, last, hnext, by omega, hopened⟩

theorem following_reaches {k j i : ℕ} {url last : Url} :
    net.following.Reaches k j url i last ↔ net.Reaches k j url i last := by
  constructor
  · intro h
    induction h with
    | here => exact .here _ _
    | redirect hloc _ ih => exact .redirect hloc ih
  · intro h
    induction h with
    | here => exact .here _ _
    | redirect hloc _ ih => exact .redirect hloc ih

theorem followsRedirects_following (net : Network) : net.following.FollowsRedirects := by
  intro k config address
  have hopened := @mem_openedFrom net k net.maxRedirects 0 config.url address
  rw [Nat.zero_add] at hopened
  simp only [following_reaches]
  exact hopened

theorem mem_connections {p : ProxyService} {req : Request} {claims : UserClaims} {score : JsNum}
    {address : String} (hnet : net.FollowsRedirects) :
    address ∈ net.connections p req claims score ↔
      ∃ name target k, p.resolveTarget req.rawUrl = .ok (name, target) ∧
        net.Starts p name target ∧ net.Tries p.maxRetries k ∧
        ∃ j url, net.Reaches k 0 target j url ∧ j ≤ net.maxRedirects ∧
          address ∈ (net.hop k j url).opened := by
  unfold connections
  rcases handed_forward net p req claims score with ⟨hnone, hstop⟩ |
    ⟨name, target, config, n, htarget, hstarts, rfl, hall, hiff⟩
  · rw [hnone]
    simp only [List.zipIdx_nil, List.flatMap_nil, List.not_mem_nil, false_iff]
    rintro ⟨name, target, k, htarget, hstarts, -⟩
    exact hstop name target htarget hstarts
  · rw [hall]
    constructor
    · intro h
      obtain ⟨⟨config', k⟩, hmem, haddress⟩ := List.mem_flatMap.mp h
      have hget := List.mk_mem_zipIdx_iff_getElem?.mp hmem
      obtain ⟨hk, hconfig⟩ := List.getElem?_eq_some_iff.mp hget
      obtain rfl : config = config' := by simpa using hconfig
      exact ⟨name, config.url, k, htarget, hstarts, (hiff k).mp (by simpa using hk),
        (hnet k config address).mp haddress⟩
    · rintro ⟨name', target', k, htarget', -, htries, hhop⟩
      obtain ⟨rfl, rfl⟩ := Prod.mk.inj (Except.ok.inj (htarget.symm.trans htarget'))
      refine List.mem_flatMap.mpr ⟨(config, k), ?_, (hnet k config address).mpr hhop⟩
      refine List.mk_mem_zipIdx_iff_getElem?.mpr ?_
      simp [(hiff k).mpr htries]

/-- No blocked address is connected to exactly if the request is stopped before its first
attempt, which the guard does for its own answer only, or no hop of an attempt that is made, be it
the first or a redirect that is followed, gets to one. -/
theorem no_blocked_connection_iff (net : Network) (hnet : net.FollowsRedirects) (p : ProxyService)
    (req : Request) (claims : UserClaims) (score : JsNum) :
    (∀ address ∈ net.connections p req claims score, blockedAddress address = false) ↔
      ∀ name target, p.resolveTarget req.rawUrl = .ok (name, target) →
        net.Starts p name target → ∀ k, net.Tries p.maxRetries k →
          ∀ j url, net.Reaches k 0 target j url → j ≤ net.maxRedirects →
            ∀ address ∈ (net.hop k j url).opened, blockedAddress address = false := by
  simp only [mem_connections hnet]
  constructor
  · intro h name target htarget hstarts k htries j url hreach hj address haddress
    exact h address ⟨name, target, k, htarget, hstarts, htries, j, url, hreach, hj, haddress⟩
  · rintro h address ⟨name, target, k, htarget, hstarts, htries, j, url, hreach, hj, haddress⟩
    exact h name target htarget hstarts k htries j url hreach hj address haddress

/-- The guard gets one answer and the first hop of each attempt another; it may be redirected, to
a host with the third. -/
def answering (checked first : String) (redirected : Option (Url × String)) : Network :=
  following {
    resolved := fun _ => some checked
    agent := .ok ()
    admits := true
    replies := fun _ => .ok ProxyService.calmResponse
    hop := fun _ j _ =>
      if j = 0 then ⟨[first], redirected.map Prod.fst⟩
      else ⟨(redirected.map Prod.snd).toList, none⟩
    maxRedirects := 21
    connects := fun _ _ => [] }

def metadataUrl : Url := { scheme := .http, host := some "169.254.169.254".toList }

/-- A private address, and a redirect to another. -/
theorem no_blocked_connection_private :
    ((answering "10.0.0.1" "10.0.0.1" (some (usersUrl, "10.0.0.2"))).connections usersProxy
      (getRequest "/users/1") anyClaims .nan).any blockedAddress = false := by
  refine List.any_eq_false.mpr fun address haddress => Bool.eq_false_iff.mp ?_
  refine (no_blocked_connection_iff (answering "10.0.0.1" "10.0.0.1"
    (some (usersUrl, "10.0.0.2"))) (followsRedirects_following _) usersProxy
    (getRequest "/users/1") anyClaims .nan).mpr ?_ address haddress
  clear address haddress
  intro name target htarget hstarts k htries j url hreach hj address haddress
  have hprivate : address = "10.0.0.1" ∨ address = "10.0.0.2" := by
    simp only [answering, following] at haddress
    split_ifs at haddress
    · exact .inl (List.mem_singleton.mp haddress)
    · exact .inr (List.mem_singleton.mp haddress)
  rcases hprivate with rfl | rfl
  · decide +kernel
  · decide +kernel

/-- The metadata address by a second answer and by a redirect, and the loopback address in another
notation. -/
theorem blocked_address_connected :
    (∀ checked first redirected, (answering checked first redirected).FollowsRedirects) ∧
    (answering "10.0.0.1" "169.254.169.254" none).connections usersProxy (getRequest "/users/1")
      anyClaims .nan = ["169.254.169.254"] ∧ blockedAddress "169.254.169.254" = true ∧
    (answering "::ffff:127.0.0.1" "::ffff:127.0.0.1" none).connections usersProxy
      (getRequest "/users/1") anyClaims .nan = ["::ffff:127.0.0.1"] ∧
    blockedAddress "::ffff:127.0.0.1" = true ∧
    (answering "10.0.0.1" "10.0.0.1" (some (metadataUrl, "169.254.169.254"))).connections
      usersProxy (getRequest "/users/1") anyClaims .nan = ["10.0.0.1", "169.254.169.254"] := by
  refine ⟨fun _ _ _ => followsRedirects_following _, ?_⟩
  decide +kernel

end Network

end ZTG
