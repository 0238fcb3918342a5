import ZtGateway.Lib.UrlQuery
import ZtGateway.Proofs.Views

/-! The URL that a request is forwarded to, against the registered base URL. What is resolved
against the base starts with a slash, so the path of the base is lost, with or without the slash
that `forward` adds to it. -/

namespace ZTG

variable {parseHost : HostParser} {base : Url} {name tail rawUrl : List Char}
  {l : List (List Char)}

/-- `/service/rest` and a query, where `rest` has plain segments, none of them empty -/
structure ServiceRequest (rawUrl name : List Char) (l : List (List Char)) (tail : List Char) :
    Prop where
  text : rawUrl = '/' :: (name ++ l.flatMap fun s => '/' :: s) ++ tail
  name_ne : name ≠ []
  segmentName : SegmentName name
  name_chars : '/' ∉ name ∧ '?' ∉ name
  rest_ne : l ≠ []
  rest : ∀ s ∈ l, PlainSegment s ∧ s ≠ []
  tail : QueryTail tail

def withoutSlash (s : List Char) : List Char := if s.getLast? = some '/' then s.dropLast else s

/-- the base URL's origin and path, then `rest` and the query -/
structure Composed (base : Url) (l : List (List Char)) (tail : List Char) (u : Url) : Prop where
  origin : u.SameOrigin base
  path : u.pathname = withoutSlash base.pathname ++ l.flatMap fun s => '/' :: s
  search : u.search = tailSearch tail
  fragment : u.fragment = none

namespace ServiceRequest

/-- `rest` as a path of its own: it starts with one slash. -/
theorem rest_path (h : ServiceRequest rawUrl name l tail) :
    ∃ r, (l.flatMap fun s => '/' :: s) = '/' :: r ∧ (∀ s ∈ r.splitOn '/', PlainSegment s) ∧
      ∀ c ∈ r.head?, plainChar c = true := by
  obtain ⟨s, l, rfl⟩ := List.exists_cons_of_ne_nil h.rest_ne
  obtain ⟨hs, hne⟩ := h.rest s List.mem_cons_self
  refine ⟨s ++ l.flatMap fun s => '/' :: s, rfl, ?_, fun c hc => ?_⟩
  · refine plain_cons.mp ?_
    have hsplit := @splitOn_flatMap (s :: l) fun t ht hmem =>
      absurd ((h.rest t ht).1.chars '/' hmem) (by decide +kernel)
    rw [List.flatMap_cons, List.cons_append] at hsplit
    rw [hsplit]
    intro t ht
    rcases List.mem_cons.mp ht with rfl | ht
    · exact plainSegment_nil
    · exact (h.rest t ht).1
  · obtain ⟨d, s, rfl⟩ := List.exists_cons_of_ne_nil hne
    obtain rfl : d = c := by simpa using hc
    exact hs.chars d List.mem_cons_self

theorem rest_head (l : List (List Char)) :
    ∀ c ∈ (l.flatMap fun s => '/' :: s).head?, c = '/' := by
  cases l with
  | nil => simp
  | cons s l => simp

/-- The first parse: the path goes on with `rest`, and the query is what the parser makes of it. -/
theorem forwardedPath (h : ServiceRequest rawUrl name l tail)
    (hplaceholder : ∃ b, parseUrl parseHost none "http://placeholder".toList = some b) :
    ∃ search, ProxyService.forwardedPath parseHost rawUrl =
        some ((l.flatMap fun s => '/' :: s) ++ search) ∧
      QueryTail search ∧ tailSearch search = search ∧ (∀ c ∈ search, queryChar c = true) ∧
      (search = tailSearch tail ↔ ∀ c ∈ tail, queryChar c = true) := by
  obtain ⟨b, hb⟩ := hplaceholder
  obtain ⟨hscheme, k, hk⟩ := placeholder_base hb
  have hs : b.scheme.special = true := by rw [hscheme]; rfl
  have hfile : b.scheme ≠ .file := by rw [hscheme]; decide
  obtain ⟨r, hr, hplain, hhead⟩ := h.rest_path
  have hsplit : ∀ s ∈ (l.flatMap fun s => '/' :: s).splitOn '/', PlainSegment s := by
    rw [hr]
    exact plain_cons.mpr hplain
  have hne : (l.flatMap fun s => '/' :: s) ≠ [] := by simp [hr]
  generalize htext : (l.flatMap fun s => '/' :: s) = rest at hsplit hne
  have hrest : ∀ c ∈ rest.head?, c = '/' := htext ▸ rest_head l
  obtain ⟨u, hparse, hchars, hiff⟩ : ∃ u,
      parseUrl parseHost (some b) ('/' :: (name ++ rest) ++ tail) = some u ∧
      (∀ c ∈ u.search, queryChar c = true) ∧
      (u.search = tailSearch tail ↔ ∀ c ∈ tail, queryChar c = true) :=
    ⟨_, parseUrl_root hfile hk (request_chars h.segmentName h.name_chars.2 hsplit)
        (request_head h.segmentName h.name_ne h.name_chars.1 b.scheme) h.tail,
      queryState_search_chars (by exact hs) rfl h.tail.clean,
      queryState_search_iff (by exact hs) rfl rfl h.tail⟩
  have hu := newUrl_some.mpr ⟨b, hb, hparse⟩
  have hpathname := parsed_pathname h.segmentName h.name_ne h.name_chars.1 h.name_chars.2 hrest
    hsplit h.tail hu
  have hraw : rawUrl = '/' :: (name ++ rest) ++ tail := htext ▸ h.text
  refine ⟨u.search, forwardedPath_some.mpr ⟨u, hraw ▸ hu, ?_⟩, QueryTail.search u,
    tailSearch_search u, hchars, hiff⟩
  rw [hpathname, stripPrefix_request h.segmentName h.name_ne h.name_chars.1 hrest, if_neg hne]

/-- The second parse: origin and `rest`, with nothing of the base's path. -/
theorem target (h : ServiceRequest rawUrl name l tail)
    (hplaceholder : ∃ b, parseUrl parseHost none "http://placeholder".toList = some b)
    {text : List Char} (hbase : HttpBase parseHost text base) :
    ∃ path u, ProxyService.forwardedPath parseHost rawUrl = some path ∧
      newUrl parseHost path (ProxyService.withSlash text) = some u ∧ u.SameOrigin base ∧
      u.pathname = (l.flatMap fun s => '/' :: s) ∧ u.fragment = none ∧
      (u.search = tailSearch tail ↔ ∀ c ∈ tail, queryChar c = true) := by
  obtain ⟨search, hpath, hsearch, hself, hchars, hiff⟩ := h.forwardedPath hplaceholder
  obtain ⟨r, hr, hplain, hhead⟩ := h.rest_path
  obtain ⟨b, k, hb, hsame, hk⟩ := hbase.withSlash
  have hs : b.scheme.special = true := by rw [hsame.1]; exact hbase.special
  have hfile : b.scheme ≠ .file := by rw [hsame.1]; exact hbase.not_file
  have hparse := @parseUrl_root parseHost b hfile k hk r search (fun c hc => mem_plain_text hplain hc)
    (fun c hc => plainChar_not_slash (hhead c hc) _) hsearch
  rw [cleanTail_queryChars hchars] at hparse
  have hslash : r.head? ≠ some '/' := fun hc => absurd (hhead '/' hc) (by decide +kernel)
  obtain ⟨hkept, hfragment⟩ := queryState_kept
    (u := { b with
      path := .segments (pushSegments b.scheme [] (r.splitOnP b.scheme.isSlash)),
      query := none,
      fragment := none }) hs rfl rfl hsearch hchars
  refine ⟨_, _, hpath, newUrl_some.mpr ⟨b, hb, by rw [hr]; exact hparse⟩, ?_, ?_, hfragment, ?_⟩
  · exact (queryState_sameOrigin _ _).trans ⟨hsame.1, hsame.2.1, hsame.2.2⟩
  · rw [hr]
    refine parseUrl_plain hfile hk hplain hslash hsearch hparse
  · rw [hkept, hself]
    exact hiff

end ServiceRequest

theorem withoutSlash_eq_nil {s : List Char} : withoutSlash s = [] ↔ s = [] ∨ s = ['/'] := by
  unfold withoutSlash
  split_ifs with h
  · obtain ⟨t, rfl⟩ := List.getLast?_eq_some_iff.mp h
    simp
  · constructor
    · exact Or.inl
    · rintro (rfl | rfl)
      · rfl
      · exact absurd rfl h

theorem HttpBase.pathname_ne_nil {text : List Char} (h : HttpBase parseHost text base) :
    base.pathname ≠ [] := by
  obtain ⟨rest, -, hauth⟩ := parseUrl_absolute h.special h.not_file h.parsed
  obtain ⟨k, hk, hne, -⟩ := authorityState_plain h.special h.not_file hauth
  have hpathname : base.pathname = k.flatMap fun s => '/' :: s := by rw [Url.pathname, hk]
  rw [hpathname, flatMap_slash hne]
  exact List.cons_ne_nil _ _

theorem ServiceRequest.serviceName {raw : String} (h : ServiceRequest raw.toList name l tail) :
    extractServiceName (beforeQuery raw).toList = some name := by
  obtain ⟨r, hr, hplain, -⟩ := h.rest_path
  have hsplit : ∀ s ∈ (l.flatMap fun s => '/' :: s).splitOn '/', PlainSegment s := by
    rw [hr]
    exact plain_cons.mpr hplain
  have hchars := request_chars h.segmentName h.name_chars.2 hsplit
  have hbefore : (beforeQuery raw).toList = '/' :: (name ++ l.flatMap fun s => '/' :: s) := by
    rw [beforeQuery, String.toList_ofList, h.text, List.cons_append, List.takeWhile_cons_of_pos rfl,
      List.takeWhile_append_of_pos fun c hc => by simpa using (hchars c hc).2.1]
    rcases h.tail with rfl | ⟨q, rfl⟩
    · simp
    · simp
  obtain ⟨htake, -⟩ := span_slash h.name_chars.1 (ServiceRequest.rest_head l)
  rw [hbefore, extractServiceName_slash, htake, if_neg h.name_ne]

/-- The upstream URL is the base URL with `rest` and the query appended exactly if the base URL has
no path to lose and the query nothing that the URL parser encodes. -/
theorem base_composed_iff (registry : ServiceRegistry) (maxRetries : ℕ) (platform : Platform)
    (parseHost : HostParser)
    (hplaceholder : ∃ b, parseUrl parseHost none "http://placeholder".toList = some b)
    (baseUrl : String) (base : Url) (hbase : HttpBase parseHost baseUrl.toList base)
    (name : List Char) (hlookup : registry.lookup (String.ofList name) = some baseUrl)
    (req : Request) (l : List (List Char)) (tail : List Char)
    (hreq : ServiceRequest req.rawUrl.toList name l tail) :
    (∀ env claims score, ∀ config ∈ ProxyService.upstreamCalls
        (.onModuleInit registry maxRetries platform parseHost) env req claims score,
      Composed base l tail config.url) ↔
    base.pathname = ['/'] ∧ ∀ c ∈ tail, specialQuerySet c = false := by
  have hname := hreq.serviceName
  obtain ⟨path, u, hpath, hu, horigin, hpathname, hfragment, hsearch⟩ :=
    hreq.target hplaceholder hbase
  have hcomposed : Composed base l tail u ↔
      base.pathname = ['/'] ∧ ∀ c ∈ tail, specialQuerySet c = false := by
    have hkept : u.pathname = withoutSlash base.pathname ++ (l.flatMap fun s => '/' :: s) ↔
        base.pathname = ['/'] := by
      rw [hpathname, eq_comm, List.append_left_eq_self, withoutSlash_eq_nil]
      exact or_iff_right hbase.pathname_ne_nil
    have hquery : u.search = tailSearch tail ↔ ∀ c ∈ tail, specialQuerySet c = false := by
      rw [hsearch]
      simp [queryChar]
    rw [← hkept, ← hquery]
    exact ⟨fun h => ⟨h.path, h.search⟩, fun h => ⟨horigin, h.1, h.2, hfragment⟩⟩
  rw [← hcomposed]
  constructor
  · intro h
    obtain ⟨env, claims, score, config, hcall, rfl⟩ :=
      @called_of_target parseHost base registry maxRetries platform req name baseUrl u hname
        hlookup hbase path hpath hu
    exact h env claims score config hcall
  · intro h env claims score config hcall
    obtain ⟨name', htarget⟩ := ProxyService.upstreamCalls_target hcall
    obtain ⟨hname', baseUrl', path', hresolve, hpath', hu'⟩ :=
      ProxyService.resolveTarget_ok.mp htarget
    obtain rfl := Option.some.inj (hname.symm.trans hname')
    obtain rfl := Option.some.inj (hlookup.symm.trans (ProxyService.resolve_ok.mp hresolve).1)
    obtain rfl := Option.some.inj (hpath.symm.trans hpath')
    obtain rfl := Option.some.inj (hu.symm.trans hu')
    exact h

theorem profileRequest : ServiceRequest "/users/profile?full=1".toList "users".toList
    ["profile".toList] "?full=1".toList where
  text := by decide +kernel
  name_ne := by decide +kernel
  segmentName := users_segmentName
  name_chars := by decide +kernel
  rest_ne := by simp
  rest := List.forall_mem_singleton.mpr ⟨profile_plainSegment, by decide +kernel⟩
  tail := .inr ⟨"full=1".toList, by decide +kernel⟩

/-- A base URL without a path. -/
theorem base_composed_users :
    usersUrl.pathname = ['/'] ∧ ∀ env claims score, ∀ config ∈ usersProxy.upstreamCalls env
        (getRequest "/users/profile?full=1") claims score,
      Composed usersUrl ["profile".toList] "?full=1".toList config.url := by
  have hlast : "http://users:3000".toList.getLast? = some '0' := by decide +kernel
  have hquery : ∀ c ∈ "?full=1".toList, specialQuerySet c = false := by
    have hall : ("?full=1".toList.all fun c => !specialQuerySet c) = true := by decide +kernel
    simpa using List.all_eq_true.mp hall
  refine ⟨rfl, (base_composed_iff usersRegistry 3 plainPlatform asciiDomain ⟨_, rfl⟩
    "http://users:3000" usersUrl ⟨by decide +kernel, .inl rfl, fun c hc => ?_⟩ "users".toList
    (by decide +kernel) (getRequest "/users/profile?full=1") _ _ profileRequest).mpr
      ⟨rfl, hquery⟩⟩
  obtain rfl := Option.some.inj (hlast.symm.trans hc)
  decide

/-- The users service registered under a path, and asked for a profile. -/
def apiProxy : ProxyService :=
  .onModuleInit [("users", "http://users:3000/api")] 3 plainPlatform asciiDomain

def apiUrl : Url :=
  { scheme := .http, host := some "users".toList, port := some 3000,
    path := .segments ["api".toList] }

/-- The path of the base URL is gone. -/
theorem base_path_lost :
    (apiProxy.upstreamCalls ProxyService.calmEnv (getRequest "/users/profile?full=1")
      anyClaims .nan).map (fun config => String.ofList config.url.href) =
        ["http://users:3000/profile?full=1"] ∧
    parseUrl asciiDomain none "http://users:3000/api".toList = some apiUrl ∧
    ¬ ∀ env claims score, ∀ config ∈ apiProxy.upstreamCalls env
        (getRequest "/users/profile?full=1") claims score,
      Composed apiUrl ["profile".toList] "?full=1".toList config.url := by
  have hcalls : (apiProxy.upstreamCalls ProxyService.calmEnv (getRequest "/users/profile?full=1")
      anyClaims .nan).map (fun config => config.url.pathname) = ["/profile".toList] := by
    decide +kernel
  refine ⟨by decide +kernel, by decide +kernel, fun h => ?_⟩
  obtain ⟨config, hcall, hpath⟩ := List.mem_map.mp (hcalls ▸ List.mem_singleton_self _)
  have hcomposed := (h _ _ _ config hcall).path
  rw [hpath] at hcomposed
  exact absurd hcomposed (by decide +kernel)

end ZTG
