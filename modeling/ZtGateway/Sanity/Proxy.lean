import ZtGateway.Lib.UrlReference
import ZtGateway.Spec.Proxy

/-! What `ProxyService.forward` can call: only the URL that `resolveTarget` found, and that one in
a world where nothing fails. -/

namespace ZTG

open Act

/-! The registry on paths. -/

theorem extractServiceName_slash (x : List Char) :
    extractServiceName ('/' :: x) =
      if x.takeWhile (· != '/') = [] then none else some (x.takeWhile (· != '/')) := by
  unfold extractServiceName
  by_cases hx : x = []
  · simp [hx]
  · simp [hx]

theorem stripPrefix_slash (x : List Char) :
    stripPrefix ('/' :: x) =
      if x.takeWhile (· != '/') = [] then '/' :: x
      else if x.dropWhile (· != '/') = [] then ['/'] else x.dropWhile (· != '/') := by
  have hdrop : x.drop (x.takeWhile (· != '/')).length = x.dropWhile (· != '/') := by
    calc x.drop (x.takeWhile (· != '/')).length
        = (x.takeWhile (· != '/') ++ x.dropWhile (· != '/')).drop
          (x.takeWhile (· != '/')).length := by
          rw [List.takeWhile_append_dropWhile]
      _ = x.dropWhile (· != '/') := List.drop_left
  unfold stripPrefix
  rw [extractServiceName_slash]
  split_ifs with h h'
  · rfl
  · simp [hdrop, h']
  · simp [hdrop, h']

/-- where a text without slashes ends -/
theorem span_slash {s rest : List Char} (hs : '/' ∉ s) (hrest : ∀ c ∈ rest.head?, c = '/') :
    (s ++ rest).takeWhile (· != '/') = s ∧ (s ++ rest).dropWhile (· != '/') = rest := by
  have hall : ∀ c ∈ s, (c != '/') = true := fun c hc => by simpa using ne_of_mem_of_not_mem hc hs
  rw [List.takeWhile_append_of_pos hall, List.dropWhile_append_of_pos hall]
  cases rest with
  | nil => simp
  | cons c rest => simp [hrest c rfl]

theorem stripPrefix_segment {s rest : List Char} (hs : '/' ∉ s) (hne : s ≠ [])
    (hrest : ∀ c ∈ rest.head?, c = '/') :
    stripPrefix ('/' :: (s ++ rest)) = if rest = [] then ['/'] else rest := by
  obtain ⟨htake, hdrop⟩ := span_slash hs hrest
  rw [stripPrefix_slash, htake, hdrop, if_neg hne]

/-- The request goes to `target` and nowhere else. -/
def OnlyTo (target : Url) (op : ProxyCall) : Prop :=
  ∀ config, op = .axios config → config.url = target

variable {target : Url} {config : AxiosRequestConfig}

theorem retryLoop_uses (h : config.url = target) (maxRetries left : ℕ) :
    (retryLoop maxRetries config left).Uses (OnlyTo target) := by
  have hcall : OnlyTo target (.axios config) := fun _ he => ProxyCall.axios.inj he ▸ h
  have hsleep : ∀ ms, OnlyTo target (.sleep ms) := fun _ _ he => by cases he
  induction left with
  | zero =>
    refine .bind (.call hcall _) fun outcome => ?_
    rcases outcome with err | response
    · exact .throw _
    · dsimp only
      split_ifs
      · exact .throw _
      · exact .pure _
  | succ left ih =>
    refine .bind (.call hcall _) fun outcome => ?_
    rcases outcome with err | response
    · dsimp only
      split_ifs
      · exact .bind (.tell (hsleep _)) fun _ => ih
      · exact .throw _
    · dsimp only
      split_ifs
      · exact .bind (.tell (hsleep _)) fun _ => ih
      · exact .pure _

theorem assertSafe_uses (hostname : List Char) : (assertSafe hostname).Uses (OnlyTo target) := by
  refine .bind (.call (fun _ he => by cases he) _) fun address => ?_
  dsimp only
  split_ifs
  · exact .throw _
  · split
    · split_ifs
      · exact .throw _
      · exact .pure _
    · exact .pure _

theorem assertValidProxyResponse_uses (response : AxiosResponse) :
    (assertValidProxyResponse response).Uses (OnlyTo target) := by
  unfold assertValidProxyResponse
  extract_lets ct
  split
  · exact .throw _
  · split
    · exact .throw _
    · exact .pure _

theorem assertValidProxyResponse_json {response : AxiosResponse} {ct : String}
    (hstatus : response.status < 500) (hct : response.contentType = some (.one ct))
    (hjson : includes ct.toLower.toList "application/json".toList = true) :
    assertValidProxyResponse response = pure () := by
  have hnot : ¬(!includes ct.toLower.toList "application/json".toList) = true := by
    simp only [hjson]; decide
  unfold assertValidProxyResponse
  rw [hct]
  exact (if_neg (by omega)).trans (if_neg hnot)

namespace ProxyService

variable {p : ProxyService} {req : Request} {claims : UserClaims} {score : JsNum} {name : List Char}

theorem registered {registry : ServiceRegistry} {key url : String}
    (h : registry.lookup key = some url) : (key, url) ∈ registry := by
  obtain ⟨l₁, l₂, rfl, -⟩ := List.lookup_eq_some_iff.mp h
  simp

theorem resolve_ok {registry : ServiceRegistry} {url : String} :
    registry.resolve name = .ok url ↔
      registry.lookup (String.ofList name) = some url ∧ url ≠ "" := by
  unfold ServiceRegistry.resolve
  cases registry.lookup (String.ofList name) with
  | none => simp
  | some u =>
    dsimp only
    split_ifs with h
    · simp only [false_iff, not_and, not_not]
      rintro ⟨rfl⟩
      exact h
    · simp only [Except.ok.injEq, Option.some.injEq, iff_self_and]
      rintro rfl
      exact h

theorem resolveTarget_ok {rawUrl : String} : p.resolveTarget rawUrl = .ok (name, target) ↔
    extractServiceName (beforeQuery rawUrl).toList = some name ∧ ∃ baseUrl path,
      p.registry.resolve name = .ok baseUrl ∧ forwardedPath p.parseHost rawUrl.toList = some path ∧
        newUrl p.parseHost path (withSlash baseUrl.toList) = some target := by
  unfold resolveTarget
  cases extractServiceName (beforeQuery rawUrl).toList with
  | none =>
    refine iff_of_false ?_ (by simp)
    exact nofun
  | some n =>
    simp only [Option.some.injEq]
    rcases hr : p.registry.resolve n with err | baseUrl
    · refine iff_of_false nofun ?_
      rintro ⟨rfl, baseUrl, -, hb, -⟩
      simp [hr] at hb
    · cases hp : forwardedPath p.parseHost rawUrl.toList with
      | none =>
        refine iff_of_false nofun ?_
        rintro ⟨-, -, path, -, hpath, -⟩
        cases hpath
      | some path =>
        cases ht : newUrl p.parseHost path (withSlash baseUrl.toList) with
        | none =>
          refine iff_of_false (by simp [Bind.bind, Except.bind, ht]) ?_
          rintro ⟨rfl, baseUrl', path', hb, hpath, htarget⟩
          obtain rfl := Option.some.inj hpath
          obtain rfl := Except.ok.inj (hr.symm.trans hb)
          simp [ht] at htarget
        | some t =>
          simp only [Bind.bind, Except.bind, ht, Pure.pure, Except.pure, Except.ok.injEq,
            Prod.mk.injEq]
          constructor
          · rintro ⟨rfl, rfl⟩
            exact ⟨rfl, baseUrl, path, hr, rfl, ht⟩
          · rintro ⟨rfl, baseUrl', path', hb, hpath, htarget⟩
            obtain rfl := Option.some.inj hpath
            obtain rfl := Except.ok.inj (hr.symm.trans hb)
            exact ⟨rfl, Option.some.inj (ht.symm.trans htarget)⟩

theorem fire_uses (h : config.url = target) : (p.fire name config).Uses (OnlyTo target) := by
  refine .bind (.call (fun _ he => by cases he) _) fun admitted => ?_
  split_ifs
  · exact retryLoop_uses h _ _
  · exact .throw _

theorem forward_uses (h : p.resolveTarget req.rawUrl = .ok (name, target)) :
    (p.forward req claims score).Uses (OnlyTo target) := by
  unfold forward
  rw [h]
  refine .bind (assertSafe_uses _) fun _ => ?_
  split_ifs
  · refine .bind (.call (fun _ he => by cases he) _) fun _ => ?_
    refine .tryCatch (.bind (fire_uses rfl) fun response => ?_) fun err => ?_
    · exact .bind (assertValidProxyResponse_uses response) fun _ => .pure _
    · cases err <;> exact .throw _
  · exact .throw _

/-- Whatever is handed to axios is the resolved target. -/
theorem upstreamCalls_target {env : Env ProxyCall ProxyReply}
    (h : config ∈ p.upstreamCalls env req claims score) :
    ∃ name, p.resolveTarget req.rawUrl = .ok (name, config.url) := by
  rcases hr : p.resolveTarget req.rawUrl with err | ⟨name, target⟩
  · simp [upstreamCalls, forward, hr] at h
  · obtain ⟨new, hnew, hall⟩ := exec_uses (forward_uses hr) env () []
    obtain ⟨e, he, hop⟩ := List.mem_filterMap.mp h
    rw [hnew, List.nil_append] at he
    have hto := hall e he
    generalize e.op = op at hop hto
    cases op with
    | axios config' =>
      obtain rfl := Option.some.inj hop
      rw [hto config' rfl]
      exact ⟨name, rfl⟩
    | _ => simp at hop

def calmResponse : AxiosResponse :=
  { status := 200, contentType := some (.one "application/json"), data := .null }

/-- a world where the name resolves to a private address and the service answers -/
def calmEnv : Env ProxyCall ProxyReply := fun _ op =>
  match op with
  | .lookup _ => .ok "10.0.0.1"
  | .getHttpsAgent => .ok ()
  | .admits _ => true
  | .axios _ => .ok calmResponse
  | .sleep _ => ()

theorem assertSafe_calm (hostname : List Char) (tr : Trace ProxyCall ProxyReply) :
    exec calmEnv (assertSafe hostname) () tr =
      ((.ok (), ()), tr ++ [⟨.lookup hostname, .ok "10.0.0.1"⟩]) := by
  have hblocked : "10.0.0.1" ∉ BLOCKED_EXACT := by decide +kernel
  have hip : parseIPv4 "10.0.0.1" = some [10, 0, 0, 1] := by decide +kernel
  have hcidr : inCidr (ipv4ToUint32 [10, 0, 0, 1]) (ipv4ToUint32 [127, 0, 0, 0]) 8 = false := by
    decide +kernel
  simp [assertSafe, exec_bind, calmEnv, hblocked, hip, hcidr]

theorem fire_calm (p : ProxyService) (name : List Char) (config : AxiosRequestConfig)
    (tr : Trace ProxyCall ProxyReply) : exec calmEnv (p.fire name config) () tr =
      ((.ok calmResponse, ()),
        tr ++ [⟨.admits name, true⟩, ⟨.axios config, .ok calmResponse⟩]) := by
  have hstatus : 200 ∉ RETRIABLE_STATUSES := by decide
  unfold fire executeWithRetry
  cases p.maxRetries with
  | zero => simp [exec_bind, calmEnv, retryLoop, hstatus, calmResponse]
  | succ n => simp [exec_bind, calmEnv, retryLoop, hstatus, calmResponse]

/-- Where nothing fails, the target is called. -/
theorem upstreamCalls_calm (h : p.resolveTarget req.rawUrl = .ok (name, target))
    (hb : p.breakers.contains (String.ofList name) = true) :
    ∃ config ∈ p.upstreamCalls calmEnv req claims score, config.url = target := by
  have hvalid : assertValidProxyResponse calmResponse = pure () :=
    assertValidProxyResponse_json (by decide) rfl (by decide +kernel)
  unfold upstreamCalls forward
  rw [h]
  simp only [exec_bind, assertSafe_calm, hb, if_true, exec_tryCatch, fire_calm, hvalid, exec_call,
    exec_pure, calmEnv, id]
  simp only [List.nil_append, List.cons_append, List.filterMap_cons, List.filterMap_nil]
  exact ⟨_, List.mem_cons_self, rfl⟩

end ProxyService

end ZTG
