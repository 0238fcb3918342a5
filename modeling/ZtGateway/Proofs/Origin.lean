import ZtGateway.Sanity.Proxy

/-! The SSRF boundary: when the URL that is handed to axios has the origin of the registered base
URL. The path of the request is parsed, loses its first segment and is then read again, as a
reference; a path that goes on with an empty segment is then a reference with an authority. -/

namespace ZTG

open Act

/-- an absolute http(s) URL, with no blank at its end -/
structure HttpBase (parseHost : HostParser) (text : List Char) (base : Url) : Prop where
  parsed : parseUrl parseHost none text = some base
  scheme : base.scheme = .http ∨ base.scheme = .https
  trimmed : ∀ c ∈ text.getLast?, isC0OrSpace c = false

variable {parseHost : HostParser} {base : Url} {text : List Char}

theorem HttpBase.special (h : HttpBase parseHost text base) : base.scheme.special = true := by
  rcases h.scheme with hs | hs <;> rw [hs] <;> rfl

theorem HttpBase.not_file (h : HttpBase parseHost text base) : base.scheme ≠ .file := by
  rcases h.scheme with hs | hs <;> rw [hs] <;> decide

/-- The URL that `forward` resolves against has the origin of the registered one. -/
theorem HttpBase.withSlash (h : HttpBase parseHost text base) :
    ∃ b l, parseUrl parseHost none (ProxyService.withSlash text) = some b ∧ b.SameOrigin base ∧
      b.path = .segments l := by
  have hresolved : ∃ b, parseUrl parseHost none (ProxyService.withSlash text) = some b ∧
      b.SameOrigin base := by
    unfold ProxyService.withSlash
    split_ifs
    · exact ⟨base, h.parsed, rfl, rfl, rfl⟩
    · exact parseUrl_concat_slash h.special h.not_file h.parsed h.trimmed
  obtain ⟨b, hb, hsame⟩ := hresolved
  have hs : b.scheme.special = true := by rw [hsame.1]; exact h.special
  have hfile : b.scheme ≠ .file := by rw [hsame.1]; exact h.not_file
  obtain ⟨l, hl⟩ := parseUrl_absolute_path hs hfile hb
  exact ⟨b, l, hb, hsame, hl⟩

theorem HttpBase.ne_nil (h : HttpBase parseHost text base) : text ≠ [] := by
  rintro rfl
  have := h.parsed
  simp [parseUrl, cleanInput, splitScheme, noSchemeState] at this

/-- Resolution against a registered URL stays at its origin exactly for these references. -/
theorem HttpBase.keepsOrigin_iff (h : HttpBase parseHost text base) (path : List Char) :
    (∀ u, newUrl parseHost path (ProxyService.withSlash text) = some u → u.SameOrigin base) ↔
      KeepsOrigin parseHost base path := by
  obtain ⟨b, l, hb, hsame, hl⟩ := h.withSlash
  have hspecial : b.scheme.special = true := by rw [hsame.1]; exact h.special
  have hfile : b.scheme ≠ .file := by rw [hsame.1]; exact h.not_file
  rw [← KeepsOrigin.congr hsame, ← ZTG.keepsOrigin_iff hspecial hfile hl]
  constructor
  · intro hall u hu
    exact (hall u (newUrl_some.mpr ⟨b, hb, hu⟩)).trans hsame.symm
  · intro hall u hu
    obtain ⟨b', hb', hparse⟩ := newUrl_some.mp hu
    obtain rfl := Option.some.inj (hb.symm.trans hb')
    exact (hall u hparse).trans hsame

/-- The placeholder base of the first parse. -/
theorem placeholder_base {b : Url}
    (h : parseUrl parseHost none "http://placeholder".toList = some b) :
    b.scheme = .http ∧ ∃ l, b.path = .segments l := by
  have hsplit : splitScheme (cleanInput "http://placeholder".toList) =
      some (.http, "//placeholder".toList) := by
    decide +kernel
  have hscheme : b.scheme = .http := by
    rw [parseUrl_scheme hsplit] at h
    exact schemeState_scheme h
  refine ⟨hscheme, parseUrl_absolute_path ?_ ?_ h⟩
  · rw [hscheme]; rfl
  · rw [hscheme]; decide

/-! What a path names behind its first segment. -/

/-- the authority in a path that starts with an empty segment, or has one after its first -/
def ownAuthority : List (List Char) → Option (List Char)
  | [] :: s :: l => some (((s :: l).find? (· ≠ [])).getD [])
  | _ :: [] :: s :: l => some (((s :: l).find? (· ≠ [])).getD [])
  | _ => none

/-- The request URL names no origin of its own: a request that starts with a slash names no
authority in its path other than the base's; what is left of any other URL is no reference
with an origin other than the base's. -/
def RequestKeepsOrigin (parseHost : HostParser) (base : Url) (rawUrl : List Char) : Prop :=
  ∀ u, newUrl parseHost rawUrl "http://placeholder".toList = some u →
    if rawUrl.head? = some '/' then
      ∀ text ∈ ownAuthority u.segments, ∀ a, parseAuthority parseHost base.scheme text = some a →
        some a.host = base.host ∧ a.port = base.port
    else KeepsOrigin parseHost base (stripPrefix u.pathname ++ u.search)

/-- the segments of what `stripPrefix` leaves -/
def keptSegments : List (List Char) → List (List Char)
  | [] :: l => [] :: l
  | _ :: s :: l => s :: l
  | _ => [[]]

theorem stripPrefix_segments {l : List (List Char)} (hne : l ≠ []) (hl : ∀ s ∈ l, PlainSegment s) :
    stripPrefix (l.flatMap fun s => '/' :: s) = (keptSegments l).flatMap fun s => '/' :: s := by
  obtain ⟨s, l, rfl⟩ := List.exists_cons_of_ne_nil hne
  have hhead : ∀ c ∈ (l.flatMap fun s => '/' :: s).head?, c = '/' := by
    cases l <;> simp
  rw [List.flatMap_cons, List.cons_append]
  cases s with
  | nil =>
    rw [stripPrefix_slash, if_pos]
    · rfl
    · exact (span_slash (s := []) (by simp) hhead).1
  | cons c s =>
    have hslash : '/' ∉ c :: s :=
      fun h => absurd ((hl _ List.mem_cons_self).chars _ h) (by decide +kernel)
    rw [stripPrefix_segment hslash (by simp) hhead]
    cases l with
    | nil => rfl
    | cons t l => rfl

theorem ownAuthority_eq (l : List (List Char)) :
    ownAuthority l = match keptSegments l with
      | [] :: s :: l => some (((s :: l).find? (· ≠ [])).getD [])
      | _ => none := by
  rcases l with _ | ⟨_ | ⟨c, s⟩, _ | ⟨_ | ⟨d, t⟩, _ | ⟨x, l⟩⟩⟩ <;> rfl

/-- What is left of a path of plain segments, read as a reference. -/
theorem keepsOrigin_segments {l : List (List Char)} (hne : l ≠ []) (hl : ∀ s ∈ l, PlainSegment s)
    {tail : List Char} (htail : QueryTail tail) :
    KeepsOrigin parseHost base (stripPrefix (l.flatMap fun s => '/' :: s) ++ tail) ↔
      ∀ text ∈ ownAuthority l, ∀ a, parseAuthority parseHost base.scheme text = some a →
        some a.host = base.host ∧ a.port = base.port := by
  have hkept : ∀ s ∈ keptSegments l, PlainSegment s := by
    intro s hs
    unfold keptSegments at hs
    split at hs
    · exact hl s hs
    · exact hl s (List.mem_cons_of_mem _ hs)
    · obtain rfl := List.mem_singleton.mp hs
      exact plainSegment_nil
  obtain ⟨s, k, hk⟩ : ∃ s k, keptSegments l = s :: k := by
    unfold keptSegments
    split <;> exact ⟨_, _, rfl⟩
  unfold KeepsOrigin
  rw [stripPrefix_segments hne hl, ownAuthority_eq]
  rw [hk] at hkept ⊢
  rw [originSource_segments hkept htail]
  rcases s with _ | ⟨c, s⟩
  · cases k with
    | nil => simp
    | cons t k => simp
  · simp

theorem forwardedPath_some {rawUrl path : List Char} :
    ProxyService.forwardedPath parseHost rawUrl = some path ↔
    ∃ u, newUrl parseHost rawUrl "http://placeholder".toList = some u ∧
      stripPrefix u.pathname ++ u.search = path :=
  Option.map_eq_some_iff

/-- A request that starts with a slash is parsed to a path of plain segments. -/
theorem request_plain {rawUrl : List Char} (hhead : rawUrl.head? = some '/') {u : Url}
    (hu : newUrl parseHost rawUrl "http://placeholder".toList = some u) : ∃ n, PlainPath u n := by
  obtain ⟨b, hb, hparse⟩ := newUrl_some.mp hu
  obtain ⟨hscheme, l, hl⟩ := placeholder_base hb
  obtain ⟨x, rfl⟩ : ∃ x, rawUrl = '/' :: x := by
    cases rawUrl with
    | nil => simp at hhead
    | cons c x => exact ⟨x, by simpa using hhead⟩
  exact parseUrl_slash_plain (by rw [hscheme]; rfl) (by rw [hscheme]; decide) hl
    (cleanInput_slash x) hparse

theorem requestKeepsOrigin_iff {rawUrl : List Char} : RequestKeepsOrigin parseHost base rawUrl ↔
    ∀ path, ProxyService.forwardedPath parseHost rawUrl = some path →
      KeepsOrigin parseHost base path := by
  have hforall : (∀ path, ProxyService.forwardedPath parseHost rawUrl = some path →
      KeepsOrigin parseHost base path) ↔
      ∀ u, newUrl parseHost rawUrl "http://placeholder".toList = some u →
        KeepsOrigin parseHost base (stripPrefix u.pathname ++ u.search) := by
    constructor
    · exact fun h u hu => h _ (forwardedPath_some.mpr ⟨u, hu, rfl⟩)
    · intro h path hpath
      obtain ⟨u, hu, rfl⟩ := forwardedPath_some.mp hpath
      exact h u hu
  rw [hforall]
  apply forall_congr'
  intro u
  apply imp_congr_right
  intro hu
  split_ifs with hhead
  · obtain ⟨n, l, hl, hne, hplain, -⟩ := request_plain hhead hu
    have hsegments : u.segments = l := by simp [Url.segments, hl]
    have hpathname : u.pathname = l.flatMap fun s => '/' :: s := by simp [Url.pathname, hl]
    rw [hsegments, hpathname, keepsOrigin_segments hne hplain (QueryTail.search u)]
  · rfl

/-- Every upstream call of the request goes to the origin of the base URL registered for the
first segment of its path. -/
def OriginContained (p : ProxyService) (req : Request) : Prop :=
  ∀ env claims score, ∀ config ∈ p.upstreamCalls env req claims score, ∃ name baseUrl base,
    extractServiceName (beforeQuery req.rawUrl).toList = some name ∧
      p.registry.lookup (String.ofList name) = some baseUrl ∧
      parseUrl p.parseHost none baseUrl.toList = some base ∧ config.url.SameOrigin base

/-- claims that no URL depends on -/
def anyClaims : UserClaims := { userId := "", roles := [], jti := "", exp := 0, deviceId := "" }

section
variable {registry : ServiceRegistry} {maxRetries : ℕ} {platform : Platform} {req : Request}
  {name : List Char}
  {baseUrl : String} {u : Url}

/-- A target that resolves is called in some world. -/
theorem called_of_target
    (hname : extractServiceName (beforeQuery req.rawUrl).toList = some name)
    (hlookup : registry.lookup (String.ofList name) = some baseUrl)
    (hbase : HttpBase parseHost baseUrl.toList base) {path : List Char}
    (hpath : ProxyService.forwardedPath parseHost req.rawUrl.toList = some path)
    (hu : newUrl parseHost path (ProxyService.withSlash baseUrl.toList) = some u) :
    ∃ env claims score, ∃ config ∈ ProxyService.upstreamCalls
      (.onModuleInit registry maxRetries platform parseHost) env req claims score,
      config.url = u := by
  have hne : baseUrl ≠ "" := by
    rintro rfl
    exact hbase.ne_nil rfl
  have hbreaker : (registry.map Prod.fst).contains (String.ofList name) = true := by
    rw [List.contains_eq_mem, decide_eq_true_eq]
    exact List.mem_map.mpr ⟨_, ProxyService.registered hlookup, rfl⟩
  refine ⟨ProxyService.calmEnv, anyClaims, .nan, ?_⟩
  refine ProxyService.upstreamCalls_calm
    (ProxyService.resolveTarget_ok.mpr ⟨hname, baseUrl, path, ?_, hpath, hu⟩) hbreaker
  exact ProxyService.resolve_ok.mpr ⟨hlookup, hne⟩

end

/-- The origin is contained exactly when the request names none of its own. -/
theorem origin_contained (registry : ServiceRegistry) (maxRetries : ℕ) (platform : Platform)
    (parseHost : HostParser) (hreg : ∀ e ∈ registry, ∃ base, HttpBase parseHost e.2.toList base)
    (req : Request) :
    OriginContained (.onModuleInit registry maxRetries platform parseHost) req ↔
      ∀ name baseUrl base, extractServiceName (beforeQuery req.rawUrl).toList = some name →
        registry.lookup (String.ofList name) = some baseUrl →
        parseUrl parseHost none baseUrl.toList = some base →
          RequestKeepsOrigin parseHost base req.rawUrl.toList := by
  constructor
  · intro h name baseUrl base hname hlookup hparsed
    obtain ⟨base', hbase⟩ := hreg _ (ProxyService.registered hlookup)
    obtain rfl := Option.some.inj (hbase.parsed.symm.trans hparsed)
    apply requestKeepsOrigin_iff.mpr
    intro path hpath
    apply (hbase.keepsOrigin_iff path).mp
    intro u hu
    obtain ⟨env, claims, score, config, hcall, rfl⟩ :=
      @called_of_target parseHost _ _ maxRetries platform _ _ _ _ hname hlookup hbase _ hpath hu
    obtain ⟨name', baseUrl', base'', hname', hlookup', hparsed', hsame⟩ :=
      h env claims score config hcall
    obtain rfl := Option.some.inj (hname.symm.trans hname')
    obtain rfl := Option.some.inj (hlookup.symm.trans hlookup')
    obtain rfl := Option.some.inj (hparsed.symm.trans hparsed')
    exact hsame
  · intro h env claims score config hcall
    obtain ⟨name, htarget⟩ := ProxyService.upstreamCalls_target hcall
    obtain ⟨hname, baseUrl, path, hresolve, hpath, hu⟩ := ProxyService.resolveTarget_ok.mp htarget
    obtain ⟨hlookup, -⟩ := ProxyService.resolve_ok.mp hresolve
    obtain ⟨base, hbase⟩ := hreg _ (ProxyService.registered hlookup)
    refine ⟨name, baseUrl, base, hname, hlookup, hbase.parsed, ?_⟩
    have hrequest :=
      requestKeepsOrigin_iff.mp (h name baseUrl base hname hlookup hbase.parsed) path hpath
    exact (hbase.keepsOrigin_iff path).mpr hrequest config.url hu

/-! One registered service, at `http://users:3000`. -/

/-- the host parser on ASCII domain names -/
def asciiDomain : HostParser := fun special s =>
  if s.all fun c => c.isAlphanum || c == '.' || c == '-' then
    some (if special then asciiLower s else s)
  else none

def usersRegistry : ServiceRegistry := [("users", "http://users:3000")]

def usersUrl : Url :=
  { scheme := .http, host := some "users".toList, port := some 3000, path := .segments [[]] }

def plainPlatform : Platform :=
  { numToString := fun _ => "", toNumber := fun _ => .nan, toISOString := fun _ => .ok "" }

def usersProxy : ProxyService := .onModuleInit usersRegistry 3 plainPlatform asciiDomain

def getRequest (url : String) : Request := { method := "GET", originalUrl := some url }

theorem usersRegistry_http : ∀ e ∈ usersRegistry, ∃ base, HttpBase asciiDomain e.2.toList base := by
  intro e he
  obtain rfl := List.mem_singleton.mp he
  have hlast : "http://users:3000".toList.getLast? = some '0' := by decide +kernel
  refine ⟨usersUrl, by decide +kernel, .inl rfl, fun c hc => ?_⟩
  obtain rfl := Option.some.inj (hlast.symm.trans hc)
  decide

theorem origin_contained_sample :
    OriginContained usersProxy (getRequest "/users/profile?full=1") := by
  refine (origin_contained usersRegistry 3 plainPlatform asciiDomain usersRegistry_http _).mpr ?_
  intro name baseUrl base _ _ _ u hu
  have hparsed : newUrl asciiDomain "/users/profile?full=1".toList "http://placeholder".toList =
      some { scheme := .http, host := some "placeholder".toList,
             path := .segments ["users".toList, "profile".toList],
             query := some "full=1".toList } := by decide +kernel
  obtain rfl := Option.some.inj (hparsed.symm.trans hu)
  have hnone : ownAuthority ["users".toList, "profile".toList] = none := by decide +kernel
  rw [if_pos (by decide +kernel)]
  intro text htext
  rw [Url.segments, hnone] at htext
  cases htext

/-- A request for the service `users` that is sent to `evil.com`. -/
theorem origin_escaped :
    (usersProxy.upstreamCalls ProxyService.calmEnv (getRequest "/users//evil.com/x")
      anyClaims .nan).map (fun config => String.ofList config.url.href) = ["http://evil.com/x"] ∧
    ¬ OriginContained usersProxy (getRequest "/users//evil.com/x") := by
  refine ⟨by decide +kernel, fun h => ?_⟩
  have hcalls : (usersProxy.upstreamCalls ProxyService.calmEnv (getRequest "/users//evil.com/x")
      anyClaims .nan).map (·.url) =
        [{ scheme := .http, host := some "evil.com".toList,
           path := .segments ["x".toList] }] := by decide +kernel
  obtain ⟨config, hcall, hurl⟩ := List.mem_map.mp (hcalls ▸ List.mem_singleton_self _)
  obtain ⟨name, baseUrl, base, hname, hlookup, hbase, -, hhost, -⟩ := h _ _ _ config hcall
  have hname' : extractServiceName (beforeQuery (getRequest "/users//evil.com/x").rawUrl).toList =
      some "users".toList := by decide +kernel
  obtain rfl := Option.some.inj (hname'.symm.trans hname)
  have hlookup' : usersRegistry.lookup (String.ofList "users".toList) =
      some "http://users:3000" := by decide +kernel
  obtain rfl := Option.some.inj (hlookup'.symm.trans hlookup)
  have hbase' : parseUrl asciiDomain none "http://users:3000".toList = some usersUrl := by
    decide +kernel
  obtain rfl := Option.some.inj (hbase'.symm.trans hbase)
  rw [hurl] at hhost
  revert hhost
  decide +kernel

end ZTG
