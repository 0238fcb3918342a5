import ZtGateway.Proofs.Forward
import ZtGateway.Proofs.Origin

/-! The three views of a request path: what the policy is asked about, what is written to the audit
row and picks the field policy, and what the service is asked for. Only the last one has been
through the URL parser, so they agree where the parser has nothing to change. -/

namespace ZTG

variable {parseHost : HostParser} {base : Url}

/-- the same path, up to one trailing slash -/
def SamePath (a b : List Char) : Prop := a = b ∨ a = b ++ ['/'] ∨ b = a ++ ['/']

def upstreamResource (serviceName : List Char) (target : Url) : List Char :=
  '/' :: serviceName ++ target.pathname

def OneResource (req : Request) (ctx : StageContext) (serviceName : List Char) (target : Url) :
    Prop :=
  SamePath (policyObject req).toList ctx.reqPath.toList ∧
    SamePath ctx.reqPath.toList (upstreamResource serviceName target) ∧
    SamePath (policyObject req).toList (upstreamResource serviceName target)

/-- what follows the first segment -/
def afterService (path : List Char) : List Char := (path.drop 1).dropWhile (· != '/')

/-- a path that starts with a slash and goes on, after the service name, with segments that the
parser leaves as they are, the first of them not empty unless it is the last -/
structure PlainRequest (path : List Char) : Prop where
  slash : path.head? = some '/'
  segments : ∀ s ∈ (afterService path).splitOn '/', PlainSegment s
  oneSlash : ¬ ['/', '/'] <+: afterService path

/-- a service name that the parser reads as one path segment -/
structure SegmentName (name : List Char) : Prop where
  chars : ∀ c ∈ name, isC0OrSpace c = false ∧ c ≠ '\\' ∧ c ≠ '#'
  singleDot : isSingleDot (percentEncode pathSet name) = false
  doubleDot : isDoubleDot (percentEncode pathSet name) = false

theorem samePath_append_left (p a b : List Char) : SamePath (p ++ a) (p ++ b) ↔ SamePath a b := by
  simp [SamePath]

/-! The service name in the path. -/

theorem serviceName_slash {x name : List Char} (h : extractServiceName ('/' :: x) = some name) :
    name ≠ [] ∧ '/' ∉ name ∧ x = name ++ afterService ('/' :: x) := by
  rw [extractServiceName_slash] at h
  split_ifs at h with hne
  obtain rfl := Option.some.inj h
  refine ⟨hne, fun hmem => ?_, List.takeWhile_append_dropWhile.symm⟩
  simpa using List.mem_takeWhile_imp hmem

theorem afterService_head (path : List Char) : ∀ c ∈ (afterService path).head?, c = '/' := by
  intro c hc
  have := List.head?_dropWhile_not (· != '/') (path.drop 1)
  rw [afterService] at hc
  rw [hc] at this
  simpa using this

/-- A path that does not start with a slash is none of those that a service is asked for. -/
theorem not_samePath_of_head {path y : List Char} (hne : path ≠ [])
    (hhead : path.head? ≠ some '/') : ¬ SamePath path ('/' :: y) := by
  obtain ⟨c, x, rfl⟩ := List.exists_cons_of_ne_nil hne
  have hc : c ≠ '/' := by simpa using hhead
  rintro (h | h | h)
  · exact hc (List.cons.inj h).1
  · exact hc (List.cons.inj h).1
  · exact hc (List.cons.inj h).1.symm

/-! The path through both parses. -/

/-- The first parse keeps the remainder and spells the service name. -/
theorem pushSegments_request {scheme : Scheme} (hfile : scheme ≠ .file) {name rest : List Char}
    (hname : SegmentName name) (hslash : '/' ∉ name) (hrest : ∀ c ∈ rest.head?, c = '/')
    (hplain : ∀ s ∈ rest.splitOn '/', PlainSegment s) :
    ((pushSegments scheme [] ((name ++ rest).splitOnP scheme.isSlash)).flatMap fun s => '/' :: s) =
      '/' :: (percentEncode pathSet name ++ rest) := by
  have hchars : ∀ c ∈ name, scheme.isSlash c = false := by
    intro c hc
    simp [Scheme.isSlash, ne_of_mem_of_not_mem hc hslash, (hname.chars c hc).2.1]
  have hpush := fun last => pushSegment_of_not_dot hfile [] hname.singleDot hname.doubleDot last
  cases rest with
  | nil =>
    rw [List.append_nil, List.splitOnP_eq_singleton hchars]
    simp [pushSegments, hpush]
  | cons c r =>
    obtain rfl := hrest c rfl
    have hr := plain_cons.mp hplain
    rw [List.splitOnP_append_cons_of_forall_mem hchars '/' (by simp [Scheme.isSlash]),
      splitOnP_of_plain hr, pushSegments_cons _ _ (by simp), hpush, pushSegments_plain hfile hr]
    simp [flatMap_splitOn]

theorem request_chars {name rest : List Char} (hname : SegmentName name) (hq : '?' ∉ name)
    (hplain : ∀ s ∈ rest.splitOn '/', PlainSegment s) :
    ∀ c ∈ name ++ rest, isC0OrSpace c = false ∧ c ≠ '?' ∧ c ≠ '#' := by
  intro c hc
  rcases List.mem_append.mp hc with hc | hc
  · exact ⟨(hname.chars c hc).1, ne_of_mem_of_not_mem hc hq, (hname.chars c hc).2.2⟩
  · exact mem_plain_text hplain hc

theorem request_head {name rest : List Char} (hname : SegmentName name) (hne : name ≠ [])
    (hslash : '/' ∉ name) (scheme : Scheme) :
    ∀ c ∈ (name ++ rest).head?, scheme.isSlash c = false := by
  obtain ⟨d, name, rfl⟩ := List.exists_cons_of_ne_nil hne
  intro c hc
  obtain rfl : d = c := by simpa using hc
  simp [Scheme.isSlash, ne_of_mem_of_not_mem List.mem_cons_self hslash,
    (hname.chars d List.mem_cons_self).2.1]

theorem parsed_pathname {name rest tail : List Char} (hname : SegmentName name) (hne : name ≠ [])
    (hslash : '/' ∉ name) (hq : '?' ∉ name) (hrest : ∀ c ∈ rest.head?, c = '/')
    (hplain : ∀ s ∈ rest.splitOn '/', PlainSegment s) (htail : QueryTail tail) {u : Url}
    (hu : newUrl parseHost ('/' :: (name ++ rest) ++ tail) "http://placeholder".toList = some u) :
    u.pathname = '/' :: (percentEncode pathSet name ++ rest) := by
  obtain ⟨b, hb, hparse⟩ := newUrl_some.mp hu
  obtain ⟨hscheme, l, hl⟩ := placeholder_base hb
  have hfile : b.scheme ≠ .file := by rw [hscheme]; decide
  obtain ⟨v, hv, hpath⟩ :=
    @parseUrl_path parseHost b hfile l hl (name ++ rest) tail (request_chars hname hq hplain)
      (request_head hname hne hslash b.scheme) htail
  obtain rfl := Option.some.inj (hv.symm.trans hparse)
  rw [Url.pathname, hpath]
  exact pushSegments_request hfile hname hslash hrest hplain

/-- The service name is spelled by the parser and then dropped. -/
theorem stripPrefix_request {name rest : List Char} (hname : SegmentName name) (hne : name ≠ [])
    (hslash : '/' ∉ name) (hrest : ∀ c ∈ rest.head?, c = '/') :
    stripPrefix ('/' :: (percentEncode pathSet name ++ rest)) =
      if rest = [] then ['/'] else rest := by
  have henc : '/' ∉ percentEncode pathSet name := by
    intro hmem
    refine absurd (percentEncode_plain (fun c hc => ?_) '/' hmem) (by decide +kernel)
    exact ⟨ne_of_mem_of_not_mem hc hslash, (hname.chars c hc).2.1⟩
  exact stripPrefix_segment henc (percentEncode_ne_nil hne) hrest

/-- What is left for the service when the remainder is plain. -/
theorem forwardedPath_plain {name rest tail path : List Char} (hname : SegmentName name)
    (hne : name ≠ []) (hslash : '/' ∉ name) (hq : '?' ∉ name) (hrest : ∀ c ∈ rest.head?, c = '/')
    (hplain : ∀ s ∈ rest.splitOn '/', PlainSegment s) (htail : QueryTail tail)
    (hpath : ProxyService.forwardedPath parseHost ('/' :: (name ++ rest) ++ tail) = some path) :
    ∃ search, QueryTail search ∧ path = (if rest = [] then ['/'] else rest) ++ search := by
  obtain ⟨u, hu, rfl⟩ := forwardedPath_some.mp hpath
  refine ⟨u.search, QueryTail.search u, ?_⟩
  rw [parsed_pathname hname hne hslash hq hrest hplain htail hu,
    stripPrefix_request hname hne hslash hrest]

/-- A remainder that agrees with a path of plain segments is plain, and only a trailing slash of
its own can make it longer. -/
theorem samePath_plain {rest : List Char} {l : List (List Char)} (hl : ∀ s ∈ l, PlainSegment s)
    (h : SamePath rest (l.flatMap fun s => '/' :: s)) :
    (∀ s ∈ rest.splitOn '/', PlainSegment s) ∧
      ((rest.splitOn '/').length ≤ l.length + 1 ∨ rest.splitOn '/' = [] :: l ++ [[]]) := by
  have hslash : ∀ s ∈ l, '/' ∉ s :=
    fun s hs hmem => absurd ((hl s hs).chars '/' hmem) (by decide +kernel)
  have hcons : ∀ s ∈ [] :: l, PlainSegment s := by simpa [plainSegment_nil] using hl
  have hsplit := splitOn_flatMap hslash
  rcases h with rfl | rfl | h
  · rw [hsplit]
    exact ⟨hcons, .inl (by simp)⟩
  · rw [List.splitOn_append_cons_self, hsplit, List.splitOn_nil]
    refine ⟨fun s hs => ?_, .inr rfl⟩
    rcases List.mem_append.mp hs with hs | hs
    · exact hcons s hs
    · obtain rfl := List.mem_singleton.mp hs
      exact plainSegment_nil
  · rw [h, List.splitOn_append_cons_self, List.splitOn_nil] at hsplit
    constructor
    · intro s hs
      exact hcons s (hsplit ▸ List.mem_append_left _ hs)
    · have := congrArg List.length hsplit
      simp only [List.length_append, List.length_cons, List.length_nil] at this
      exact .inl (by omega)

/-- A plain remainder that starts with two slashes is not the path of the URL it is read as. -/
theorem not_samePath_slashes (hs : base.scheme.special = true) (hfile : base.scheme ≠ .file)
    {l : List (List Char)} (hl : base.path = .segments l) {t search : List Char}
    (ht : ∀ s ∈ t.splitOn '/', PlainSegment s) (hsearch : QueryTail search) {target : Url}
    (h : parseUrl parseHost (some base) ('/' :: '/' :: t ++ search) = some target) :
    ¬ SamePath ('/' :: '/' :: t) target.pathname := by
  obtain ⟨hne, k, hk, -, hplain, hlen⟩ :=
    parseUrl_slashes hs hfile hl (fun c hc => mem_plain_text ht hc) hsearch h
  have hcount : (t.splitOn '/').length = t.countP base.scheme.isSlash + 1 := by
    rw [← splitOnP_of_plain ht, length_splitOnP]
  have hsplit : ('/' :: '/' :: t).splitOn '/' = [] :: [] :: t.splitOn '/' := by
    simp [List.splitOn_cons_eq_if_modifyHead]
  intro hsame
  rw [Url.pathname, hk] at hsame
  obtain ⟨-, hbound⟩ := samePath_plain hplain hsame
  rw [hsplit] at hbound
  rcases hbound with hbound | hbound
  · simp only [List.length_cons] at hbound
    omega
  · have hlength := congrArg List.length hbound
    simp only [List.length_append, List.length_cons, List.length_nil] at hlength
    have hzero : t.countP base.scheme.isSlash = 0 := by omega
    have hone : t.splitOn '/' = [t] := by
      rw [← splitOnP_of_plain ht]
      exact List.splitOnP_eq_singleton fun c hc => by simpa using List.countP_eq_zero.mp hzero c hc
    rw [hone] at hbound
    have hlast := congrArg List.getLast? hbound
    rw [List.getLast?_concat, List.getLast?_cons_cons, List.getLast?_cons_cons,
      List.getLast?_singleton] at hlast
    exact hne (Option.some.inj hlast)

/-- What the two parses make of the remainder of a request. -/
theorem target_samePath {text : List Char} (hbase : HttpBase parseHost text base)
    {name rest tail path : List Char} (hname : SegmentName name) (hne : name ≠ [])
    (hslash : '/' ∉ name) (hq : '?' ∉ name) (hrest : ∀ c ∈ rest.head?, c = '/')
    (htail : QueryTail tail)
    (hpath : ProxyService.forwardedPath parseHost ('/' :: (name ++ rest) ++ tail) = some path)
    {target : Url} (htarget : newUrl parseHost path (ProxyService.withSlash text) = some target) :
    (SamePath rest target.pathname →
      (∀ s ∈ rest.splitOn '/', PlainSegment s) ∧ ¬ ['/', '/'] <+: rest) ∧
      ((∀ s ∈ rest.splitOn '/', PlainSegment s) → ¬ ['/', '/'] <+: rest →
        target.pathname = if rest = [] then ['/'] else rest) := by
  obtain ⟨b, l, hb, hsame, hl⟩ := hbase.withSlash
  obtain ⟨b', hb', hparse⟩ := newUrl_some.mp htarget
  obtain rfl := Option.some.inj (hb.symm.trans hb')
  have hs : b.scheme.special = true := by rw [hsame.1]; exact hbase.special
  have hfile : b.scheme ≠ .file := by rw [hsame.1]; exact hbase.not_file
  have hkept := fun hplain => forwardedPath_plain hname hne hslash hq hrest hplain htail hpath
  refine ⟨fun h => ?_, fun hplain hone => ?_⟩
  · have htarget : ∃ n, PlainPath target n := by
      obtain ⟨u, hu, rfl⟩ := forwardedPath_some.mp hpath
      obtain ⟨n, k, hk, hkne, hkplain, -⟩ := request_plain (by simp) hu
      obtain ⟨x, hx⟩ : ∃ x, stripPrefix u.pathname = '/' :: x := by
        rw [Url.pathname, hk, stripPrefix_segments hkne hkplain]
        unfold keptSegments
        split <;> exact ⟨_, rfl⟩
      rw [hx, List.cons_append] at hparse
      exact parseUrl_slash_plain hs hfile hl (cleanInput_slash _) hparse
    obtain ⟨n, k, hk, -, hkplain, -⟩ := htarget
    have hrestplain : ∀ s ∈ rest.splitOn '/', PlainSegment s := by
      rw [Url.pathname, hk] at h
      exact (samePath_plain hkplain h).1
    refine ⟨hrestplain, ?_⟩
    rintro ⟨t, rfl⟩
    obtain ⟨search, hsearch, rfl⟩ := hkept hrestplain
    exact not_samePath_slashes hs hfile hl (plain_cons.mp (plain_cons.mp hrestplain)) hsearch
      hparse h
  · obtain ⟨search, hsearch, rfl⟩ := hkept hplain
    cases rest with
    | nil => exact parseUrl_plain hfile hl (by simp [plainSegment_nil]) (by simp) hsearch hparse
    | cons c r =>
      obtain rfl := hrest c rfl
      refine parseUrl_plain hfile hl (plain_cons.mp hplain) (fun hr => hone ?_) hsearch hparse
      obtain ⟨r', rfl⟩ : ∃ r', r = '/' :: r' := by
        cases r with
        | nil => simp at hr
        | cons d r' => exact ⟨r', by simpa using hr⟩
      exact ⟨r', rfl⟩

/-! The three views. -/

theorem reqPath_eq (env : Env Call Reply) (tr : Trace Call Reply) (req : Request) :
    (Prog.exec env tr (buildStageContext req)).1.reqPath = beforeQuery req.rawUrl := by
  unfold buildStageContext
  split <;> rfl

/-- The policy sees the path without its query, and at most one trailing slash shorter. -/
theorem normalizeResource_eq (rawUrl : String) :
    (normalizeResource rawUrl).toList = (beforeQuery rawUrl).toList ∨
      (beforeQuery rawUrl).toList = (normalizeResource rawUrl).toList ++ ['/'] := by
  unfold normalizeResource
  generalize (beforeQuery rawUrl).toList = p
  dsimp only
  split_ifs with h
  · right
    have hlast : p.getLast? = some '/' := by simpa using (Bool.and_eq_true_iff.mp h).2
    rw [String.toList_ofList, List.dropLast_append_getLast? _ hlast]
  · left
    rw [String.toList_ofList]

/-- The views of a path with a slash in front, given what its remainder is forwarded as. -/
private theorem views_iff {name rest obj pathname : List Char} {P : Prop} (hne : name ≠ [])
    (hslash : '/' ∉ name)
    (hobj : obj = '/' :: (name ++ rest) ∨ '/' :: (name ++ rest) = obj ++ ['/'])
    (honly : SamePath rest pathname → P)
    (hplain : P → pathname = if rest = [] then ['/'] else rest) :
    (SamePath obj ('/' :: (name ++ rest)) ∧
      SamePath ('/' :: (name ++ rest)) ('/' :: name ++ pathname) ∧
      SamePath obj ('/' :: name ++ pathname)) ↔ P := by
  constructor
  · intro h
    exact honly ((samePath_append_left ('/' :: name) _ _).mp h.2.1)
  · intro h
    rw [hplain h]
    split_ifs with hnil
    · -- the bare service name: the parser adds the slash, and the policy had none to drop
      subst hnil
      have hsame : obj = '/' :: (name ++ []) := by
        rcases hobj with h | h
        · exact h
        · obtain ⟨n, c, rfl⟩ := (List.eq_nil_or_concat name).resolve_left hne
          have hlast := congrArg List.getLast? h
          rw [List.append_nil, List.concat_eq_append, ← List.cons_append, List.getLast?_concat,
            List.getLast?_concat] at hlast
          exact absurd (Option.some.inj hlast ▸ by simp) hslash
      rw [hsame]
      exact ⟨.inl rfl, .inr (.inr (by simp)), .inr (.inr (by simp))⟩
    · rcases hobj with h | h
      · exact ⟨.inl h, .inl rfl, .inl h⟩
      · exact ⟨.inr (.inr h), .inl rfl, .inr (.inr h)⟩

private theorem plainRequest_iff (x : List Char) : PlainRequest ('/' :: x) ↔
    (∀ s ∈ (afterService ('/' :: x)).splitOn '/', PlainSegment s) ∧
      ¬ ['/', '/'] <+: afterService ('/' :: x) :=
  ⟨fun h => ⟨h.segments, h.oneSlash⟩, fun h => ⟨rfl, h.1, h.2⟩⟩

/-- For a request that reaches its service, the three views agree exactly when what follows the
service name is written as the URL parser would write it. -/
theorem one_resource (registry : ServiceRegistry) (maxRetries : ℕ) (platform : Platform)
    (parseHost : HostParser) (hreg : ∀ e ∈ registry, ∃ base, HttpBase parseHost e.2.toList base)
    (req : Request) (rawUrl : String) (horiginal : req.originalUrl = some rawUrl) (name : List Char)
    (hname : extractServiceName (beforeQuery rawUrl).toList = some name)
    (hsegment : SegmentName name) (gatewayEnv : Env Call Reply) (tr : Trace Call Reply)
    (env : Env ProxyCall ProxyReply) (claims : UserClaims) (score : JsNum)
    (config : AxiosRequestConfig)
    (hcall : config ∈ ProxyService.upstreamCalls
      (.onModuleInit registry maxRetries platform parseHost) env req claims score) :
    OneResource req (Prog.exec gatewayEnv tr (buildStageContext req)).1 name config.url ↔
      PlainRequest (beforeQuery rawUrl).toList := by
  have hraw : req.rawUrl = rawUrl := by simp [Request.rawUrl, horiginal]
  have hobject : policyObject req = normalizeResource rawUrl := by simp [policyObject, horiginal]
  obtain ⟨name', htarget⟩ := ProxyService.upstreamCalls_target hcall
  rw [hraw] at htarget
  obtain ⟨hname', baseUrl, path, hresolve, hpath, hu⟩ := ProxyService.resolveTarget_ok.mp htarget
  obtain rfl := Option.some.inj (hname.symm.trans hname')
  obtain ⟨base, hbase⟩ := hreg _ (ProxyService.registered (ProxyService.resolve_ok.mp hresolve).1)
  unfold OneResource upstreamResource
  rw [reqPath_eq, hraw, hobject]
  have hobj := normalizeResource_eq rawUrl
  have htext :
      rawUrl.toList = (beforeQuery rawUrl).toList ++ rawUrl.toList.dropWhile (· != '?') := by
    rw [beforeQuery, String.toList_ofList, List.takeWhile_append_dropWhile]
  have hquery : '?' ∉ (beforeQuery rawUrl).toList := by
    rw [beforeQuery, String.toList_ofList]
    intro hmem
    simpa using List.mem_takeWhile_imp hmem
  generalize (beforeQuery rawUrl).toList = p at *
  by_cases hhead : p.head? = some '/'
  · obtain ⟨x, rfl⟩ : ∃ x, p = '/' :: x := by
      cases p with
      | nil => simp at hhead
      | cons c x => exact ⟨x, by simpa using hhead⟩
    obtain ⟨hne, hslash, hx⟩ := serviceName_slash hname
    have hrest := afterService_head ('/' :: x)
    rw [plainRequest_iff]
    generalize afterService ('/' :: x) = rest at *
    subst hx
    rw [htext] at hpath
    obtain ⟨honly, hplain⟩ := target_samePath hbase hsegment hne hslash
      (fun h => hquery (by simp [h])) hrest (QueryTail.of_dropWhile _) hpath hu
    exact views_iff hne hslash hobj honly fun h => hplain h.1 h.2
  · have hne : p ≠ [] := by
      rintro rfl
      simp [extractServiceName] at hname
    refine iff_of_false (fun h => ?_) fun h => hhead h.slash
    exact not_samePath_of_head hne hhead h.2.1

theorem users_segmentName : SegmentName "users".toList := by
  have hall : ("users".toList.all fun c => !isC0OrSpace c && c != '\\' && c != '#') = true := by
    decide +kernel
  refine ⟨fun c hc => ?_, by decide +kernel, by decide +kernel⟩
  simpa [and_assoc] using List.all_eq_true.mp hall c hc

theorem profile_plainSegment : PlainSegment "profile".toList :=
  ⟨List.all_eq_true.mp (by decide +kernel), by decide +kernel, by decide +kernel⟩

theorem one_resource_sample :
    ∃ config ∈ usersProxy.upstreamCalls ProxyService.calmEnv
      (getRequest "/users/profile?full=1") sampleClaims .nan,
      OneResource (getRequest "/users/profile?full=1")
        (Prog.exec sampleEnv [] (buildStageContext (getRequest "/users/profile?full=1"))).1
          "users".toList config.url := by
  have htarget : usersProxy.resolveTarget "/users/profile?full=1" = .ok ("users".toList,
      { scheme := .http, host := some "users".toList, port := some 3000,
        path := .segments ["profile".toList], query := some "full=1".toList }) := by decide +kernel
  obtain ⟨config, hcall, -⟩ := @ProxyService.upstreamCalls_calm _ usersProxy
    (getRequest "/users/profile?full=1") sampleClaims .nan _ htarget (by decide +kernel)
  refine ⟨config, hcall, ?_⟩
  refine (one_resource usersRegistry 3 plainPlatform asciiDomain usersRegistry_http _
    "/users/profile?full=1" rfl "users".toList (by decide +kernel) users_segmentName sampleEnv []
    _ _ _ config hcall).mpr ?_
  have hafter : afterService (beforeQuery "/users/profile?full=1").toList = "/profile".toList := by
    decide +kernel
  refine ⟨by decide +kernel, ?_, ?_⟩
  · rw [hafter]
    have hsplit : "/profile".toList.splitOn '/' = [[], "profile".toList] := by decide +kernel
    rw [hsplit]
    intro s hs
    rcases List.mem_cons.mp hs with rfl | hs
    · exact plainSegment_nil
    · obtain rfl := List.mem_singleton.mp hs
      exact profile_plainSegment
  · rw [hafter]
    decide +kernel

/-- The policy is asked about `/users/public/../admin`, the service for `/admin`. -/
theorem resource_differs :
    ∃ config ∈ usersProxy.upstreamCalls ProxyService.calmEnv
      (getRequest "/users/public/../admin") sampleClaims .nan,
      policyObject (getRequest "/users/public/../admin") = "/users/public/../admin" ∧
      upstreamResource "users".toList config.url = "/users/admin".toList ∧
      ¬ OneResource (getRequest "/users/public/../admin")
        (Prog.exec sampleEnv [] (buildStageContext (getRequest "/users/public/../admin"))).1
          "users".toList config.url := by
  have hobject : policyObject (getRequest "/users/public/../admin") = "/users/public/../admin" := by
    decide +kernel
  have hcalls : (usersProxy.upstreamCalls ProxyService.calmEnv
      (getRequest "/users/public/../admin") sampleClaims .nan).map
      (fun config => upstreamResource "users".toList config.url) =
        ["/users/admin".toList] := by decide +kernel
  obtain ⟨config, hcall, hup⟩ := List.mem_map.mp (hcalls ▸ List.mem_singleton_self _)
  refine ⟨config, hcall, hobject, hup, ?_⟩
  rintro ⟨-, -, h⟩
  rw [hobject, hup] at h
  revert h
  unfold SamePath
  decide +kernel

end ZTG
