import ZtGateway.Spec.Proxy

/-! What of the incoming headers reaches the service: nothing that the gateway vouches for, as long
as it has a fingerprint to put in the place of the client's. -/

namespace ZTG

/-- `req.headers` as Node delivers it. The keys are those of an object, in lower case, and
`__proto__` is none of them: assigning to it makes no property. -/
structure IncomingHeaders where
  entries : List (String × Option HeaderValue)
  keys : (entries.map Prod.fst).Nodup
  lower : ∀ h ∈ entries, h.1.toLower = h.1
  noProto : "__proto__" ∉ entries.map Prod.fst

/-- `if (v === undefined) continue` -/
def definedEntry (h : String × Option HeaderValue) : Option (String × HeaderValue) :=
  h.2.map (h.1, ·)

def IncomingHeaders.defined (h : IncomingHeaders) : List (String × HeaderValue) :=
  h.entries.filterMap definedEntry

/-- the headers by which the gateway vouches for a request -/
def GatewayHeader (name : String) : Prop :=
  name ∈ ["x-user-id", "x-roles", "x-trust-score", "x-ja4h"] ∨
    "x-gateway-".toList <+: name.toList

/-- the loop copies a header of this name -/
def copies (name : String) : Bool :=
  !STRIP_HEADERS.contains name.toLower && !"x-gateway-".toList.isPrefixOf name.toLower.toList

theorem lookup_map_replace (out : List (String × String)) (k v name : String) :
    (out.map fun h => if h.1 == k then (k, v) else h).lookup name =
      if name = k then (out.lookup name).map fun _ => v else out.lookup name := by
  induction out with
  | nil => simp
  | cons h out ih =>
    obtain ⟨k', v'⟩ := h
    rw [List.map_cons]
    by_cases hk : k' = k
    · subst hk
      by_cases hname : name = k'
      · simp [hname]
      · simp only [beq_self_eq_true, if_true, List.lookup_cons, beq_eq_false_iff_ne.mpr hname, ih,
          if_neg hname]
    · simp only [beq_eq_false_iff_ne.mpr hk, Bool.false_eq_true, if_false, List.lookup_cons]
      by_cases hname : name = k'
      · simp [hname, hk]
      · simp only [beq_eq_false_iff_ne.mpr hname, ih]

theorem lookup_setHeader (out : List (String × String)) (k v name : String) :
    (setHeader out k v).lookup name = if name = k then some v else out.lookup name := by
  unfold setHeader
  split_ifs with hany hname hname
  · rw [lookup_map_replace, if_pos hname, hname]
    obtain ⟨h, hmem, hk⟩ := List.any_eq_true.mp hany
    have hfound : (out.lookup k).isSome :=
      List.lookup_isSome_iff.mpr ⟨h, hmem, beq_iff_eq.mpr (beq_iff_eq.mp hk).symm⟩
    obtain ⟨v', hv'⟩ := Option.isSome_iff_exists.mp hfound
    rw [hv', Option.map_some]
  · rw [lookup_map_replace, if_neg hname]
  · have hnone : out.lookup k = none := by
      refine List.lookup_eq_none_iff.mpr fun h hmem => bne_iff_ne.mpr fun hk => ?_
      exact hany (List.any_eq_true.mpr ⟨h, hmem, beq_iff_eq.mpr hk.symm⟩)
    rw [List.lookup_append, hname, hnone, Option.none_or, List.lookup_cons, beq_self_eq_true]
  · rw [List.lookup_append, List.lookup_cons, beq_eq_false_iff_ne.mpr hname, List.lookup_nil,
      Option.or_none]

/-- The loop copies each header once, since the keys of an object are distinct. -/
theorem lookup_copied (kept : List (String × HeaderValue)) (hkeys : (kept.map Prod.fst).Nodup)
    (out : List (String × String)) (name : String) :
    (kept.foldl (fun out h => setHeader out h.1 h.2.asString) out).lookup name =
      ((kept.lookup name).map HeaderValue.asString).or (out.lookup name) := by
  induction kept generalizing out with
  | nil => rfl
  | cons h kept ih =>
    rw [List.map_cons, List.nodup_cons] at hkeys
    rw [List.foldl_cons, ih hkeys.2, lookup_setHeader, List.lookup_cons]
    by_cases hname : name = h.1
    · have hrest : kept.lookup name = none :=
        List.lookup_eq_none_iff.mpr fun x hx => bne_iff_ne.mpr fun hk =>
          hkeys.1 (hname ▸ hk ▸ List.mem_map_of_mem hx)
      rw [hrest, if_pos hname, hname, beq_self_eq_true]
      rfl
    · rw [if_neg hname, beq_eq_false_iff_ne.mpr hname]

theorem lookup_filter_key {α : Type} (p : String → Bool) (l : List (String × α)) (name : String) :
    (l.filter fun h => p h.1).lookup name = if p name then l.lookup name else none := by
  induction l with
  | nil => simp
  | cons h l ih =>
    obtain ⟨k, v⟩ := h
    have hcons : List.lookup name ((k, v) :: l) = if name = k then some v else l.lookup name := by
      rw [List.lookup_cons]
      by_cases hname : name = k
      · rw [if_pos hname, hname, beq_self_eq_true]
      · rw [if_neg hname, beq_eq_false_iff_ne.mpr hname]
    rw [hcons]
    by_cases hk : p (k, v).1 = true
    · rw [List.filter_cons, if_pos hk, List.lookup_cons, ih]
      by_cases hname : name = k
      · have hp : p k = true := hk
        simp only [hname, beq_self_eq_true, hp, if_true]
      · rw [beq_eq_false_iff_ne.mpr hname, if_neg hname]
    · rw [List.filter_cons, if_neg hk, ih]
      by_cases hname : name = k
      · rw [hname, if_neg hk, if_neg hk]
      · rw [if_neg hname]

/-- The output header by header: what the gateway injects, then what the loop has copied. -/
theorem lookup_buildProxyHeaders (platform : Platform) (incoming : List (String × HeaderValue))
    (hkeys : (incoming.map Prod.fst).Nodup) (claims : UserClaims) (trustScore : JsNum)
    (ja4h : Option String) (name : String) :
    (buildProxyHeaders platform incoming claims trustScore ja4h).lookup name =
      if name = "x-ja4h" ∧ ja4h.isSome then ja4h
      else if name = "x-gateway-request" then some "true"
      else if name = "x-trust-score" then some (platform.numToString trustScore)
      else if name = "x-roles" then some (",".intercalate claims.roles)
      else if name = "x-user-id" then some claims.userId
      else if copies name then (incoming.lookup name).map HeaderValue.asString
      else none := by
  have hkept : ((incoming.filter fun h => copies h.1).map Prod.fst).Nodup :=
    hkeys.sublist (List.filter_sublist.map Prod.fst)
  have hloop := lookup_copied _ hkept [] name
  rw [lookup_filter_key, List.lookup_nil, Option.or_none] at hloop
  have hcopied : ((incoming.filter fun h => !STRIP_HEADERS.contains h.1.toLower &&
      !"x-gateway-".toList.isPrefixOf h.1.toLower.toList).foldl
        (fun out h => setHeader out h.1 h.2.asString) []).lookup name =
      if copies name then (incoming.lookup name).map HeaderValue.asString else none := by
    refine hloop.trans ?_
    split_ifs
    · rfl
    · rfl
  unfold buildProxyHeaders
  cases ja4h with
  | none =>
    simp only [lookup_setHeader, hcopied, Option.isSome_none, Bool.false_eq_true, and_false,
      if_false]
  | some fp => simp only [lookup_setHeader, hcopied, Option.isSome_some, and_true]

theorem IncomingHeaders.defined_keys (h : IncomingHeaders) : (h.defined.map Prod.fst).Nodup := by
  have hsub : (h.defined.map Prod.fst).Sublist (h.entries.map Prod.fst) := by
    unfold IncomingHeaders.defined
    generalize h.entries = l
    induction l with
    | nil => exact List.Sublist.refl _
    | cons x l ih =>
      obtain ⟨k, v⟩ := x
      cases v with
      | none => exact ih.cons k
      | some v => exact ih.cons_cons k
  exact h.keys.sublist hsub

theorem IncomingHeaders.lookup_defined (h : IncomingHeaders) {name : String} {v : HeaderValue}
    (hmem : (name, some v) ∈ h.entries) : h.defined.lookup name = some v := by
  have hmem' : (name, v) ∈ h.defined := List.mem_filterMap.mpr ⟨_, hmem, rfl⟩
  obtain ⟨l₁, l₂, heq⟩ := List.append_of_mem hmem'
  have hkeys := h.defined_keys
  rw [heq, List.map_append, List.map_cons] at hkeys
  have hnot := (List.nodup_middle.mp hkeys).notMem
  rw [heq]
  refine List.lookup_eq_some_iff.mpr ⟨l₁, l₂, rfl, fun x hx => bne_iff_ne.mpr fun hk => hnot ?_⟩
  have hx' : x.1 ∈ l₁.map Prod.fst := List.mem_map_of_mem hx
  exact List.mem_append_left _ (hk ▸ hx')

theorem IncomingHeaders.lower_of_lookup (h : IncomingHeaders) {name : String} {v : HeaderValue}
    (hv : h.defined.lookup name = some v) : name.toLower = name := by
  obtain ⟨l₁, l₂, heq, -⟩ := List.lookup_eq_some_iff.mp hv
  have hmem : (name, v) ∈ h.defined := heq ▸ List.mem_append_right _ List.mem_cons_self
  obtain ⟨x, hx, hdefined⟩ := List.mem_filterMap.mp hmem
  obtain ⟨w, hw, heq'⟩ := Option.map_eq_some_iff.mp hdefined
  obtain ⟨rfl, rfl⟩ := Prod.mk.inj heq'
  exact h.lower x hx

/-- `buildProxyHeaders` on what Node delivered -/
def IncomingHeaders.proxied (h : IncomingHeaders) (platform : Platform) (claims : UserClaims)
    (trustScore : JsNum) (ja4h : Option String) : List (String × String) :=
  buildProxyHeaders platform h.defined claims trustScore ja4h

variable {platform : Platform} {claims : UserClaims} {trustScore : JsNum} {ja4h : Option String}

theorem not_copies_gateway {name : String} (hlower : name.toLower = name)
    (hpre : "x-gateway-".toList <+: name.toList) : copies name = false := by
  unfold copies
  rw [hlower, List.isPrefixOf_iff_prefix.mpr hpre, Bool.not_true, Bool.and_false]

theorem copies_other {name : String} (hlower : name.toLower = name) (hstrip : name ∉ STRIP_HEADERS)
    (hpre : ¬ "x-gateway-".toList <+: name.toList) : copies name = true := by
  have hstrip' : STRIP_HEADERS.contains name = false := by
    rw [List.contains_eq_mem]
    exact decide_eq_false hstrip
  have hpre' : "x-gateway-".toList.isPrefixOf name.toList = false :=
    Bool.eq_false_iff.mpr fun h => hpre (List.isPrefixOf_iff_prefix.mp h)
  unfold copies
  rw [hlower, hstrip', hpre']
  rfl

/-- The gateway's own headers come from the gateway, apart from a missing fingerprint. -/
theorem lookup_gateway {name : String} (hname : GatewayHeader name) (hja4h : ja4h.isSome)
    (h h' : IncomingHeaders) : (h.proxied platform claims trustScore ja4h).lookup name =
      (h'.proxied platform claims trustScore ja4h).lookup name := by
  unfold IncomingHeaders.proxied
  rw [lookup_buildProxyHeaders _ _ h.defined_keys, lookup_buildProxyHeaders _ _ h'.defined_keys]
  have hnone : ∀ h : IncomingHeaders, "x-gateway-".toList <+: name.toList →
      (if copies name then (h.defined.lookup name).map HeaderValue.asString else none) = none := by
    intro h hpre
    cases hv : h.defined.lookup name with
    | none => exact ite_self _
    | some v => rw [not_copies_gateway (h.lower_of_lookup hv) hpre]; rfl
  rcases hname with hname | hpre
  · fin_cases hname
    all_goals simp [hja4h]
  · rw [hnone h hpre, hnone h' hpre]

theorem stripped_absent (h : IncomingHeaders) {name : String} (hname : name ∈ STRIP_HEADERS) :
    (h.proxied platform claims trustScore ja4h).lookup name = none := by
  unfold IncomingHeaders.proxied
  rw [lookup_buildProxyHeaders _ _ h.defined_keys]
  have hcopies : ∀ name ∈ STRIP_HEADERS, copies name = false := by decide +kernel
  rw [hcopies name hname]
  fin_cases hname
  all_goals simp

theorem other_copied (h : IncomingHeaders) {name : String} {v : HeaderValue}
    (hmem : (name, some v) ∈ h.entries) (hstrip : name ∉ STRIP_HEADERS)
    (hother : ¬ GatewayHeader name) :
    (h.proxied platform claims trustScore ja4h).lookup name = some v.asString := by
  unfold IncomingHeaders.proxied
  rw [lookup_buildProxyHeaders _ _ h.defined_keys, h.lookup_defined hmem,
    copies_other (h.lower _ hmem) hstrip fun hpre => hother (Or.inr hpre)]
  have hne : ∀ other ∈ ["x-user-id", "x-roles", "x-trust-score", "x-ja4h"], name ≠ other :=
    fun other hmem heq => hother (Or.inl (heq ▸ hmem))
  have hrequest : name ≠ "x-gateway-request" := by
    rintro rfl
    exact hother (Or.inr (by decide))
  simp [hne, hrequest]

/-- Without a fingerprint the client's own header is copied like any other. -/
theorem client_ja4h (h : IncomingHeaders) :
    (h.proxied platform claims trustScore none).lookup "x-ja4h" =
      (h.defined.lookup "x-ja4h").map HeaderValue.asString := by
  unfold IncomingHeaders.proxied
  rw [lookup_buildProxyHeaders _ _ h.defined_keys]
  have hcopies : copies "x-ja4h" = true := by decide +kernel
  simp [hcopies]

def stringHeader (h : String × String) : String × Option HeaderValue := (h.1, some (.one h.2))

/-- a request that names a fingerprint of its own -/
def forgedHeaders : IncomingHeaders where
  entries := [stringHeader ("accept", "application/json"), stringHeader ("x-ja4h", "forged")]
  keys := by decide
  lower := by decide +kernel
  noProto := by decide

def plainHeaders : IncomingHeaders where
  entries := [stringHeader ("accept", "application/json")]
  keys := by decide
  lower := by decide +kernel
  noProto := by decide

/-- Clients cannot influence the gateway's headers, the headers to strip are stripped and all others
are copied, exactly if a fingerprint is attached to the request. -/
theorem headers_protected_iff (platform : Platform) (claims : UserClaims) (trustScore : JsNum)
    (ja4h : Option String) :
    (∀ h h' : IncomingHeaders,
      (∀ name, GatewayHeader name → (h.proxied platform claims trustScore ja4h).lookup name =
        (h'.proxied platform claims trustScore ja4h).lookup name) ∧
      (∀ name ∈ ["authorization", "cookie", "x-forwarded-for", "host", "content-length"],
        (h.proxied platform claims trustScore ja4h).lookup name = none) ∧
      ∀ name v, (name, some v) ∈ h.entries → name ∉ STRIP_HEADERS → ¬ GatewayHeader name →
        (h.proxied platform claims trustScore ja4h).lookup name = some v.asString) ↔
      ja4h.isSome := by
  constructor
  · intro hall
    by_contra hnone
    obtain rfl : ja4h = none := by simpa using hnone
    have hsame := (hall forgedHeaders plainHeaders).1 "x-ja4h" (Or.inl (by decide))
    rw [client_ja4h, client_ja4h] at hsame
    exact absurd hsame (by decide)
  · intro hja4h h h'
    exact ⟨fun name hname => lookup_gateway hname hja4h h h',
      fun name hname => stripped_absent h hname,
      fun name v hmem hstrip hother => other_copied h hmem hstrip hother⟩

/-- Without a fingerprint the client's own `x-ja4h` reaches the service. -/
theorem ja4h_forged :
    let platform : Platform := ⟨fun _ => "0", fun _ => .num 0, fun _ => .ok ""⟩
    let claims : UserClaims :=
      { userId := "alice", roles := ["user"], jti := "j1", exp := 900, deviceId := "d" }
    GatewayHeader "x-ja4h" ∧
      (forgedHeaders.proxied platform claims (.num 0) none).lookup "x-ja4h" = some "forged" ∧
      (plainHeaders.proxied platform claims (.num 0) none).lookup "x-ja4h" = none := by
  refine ⟨Or.inl (by decide), ?_⟩
  decide +kernel

end ZTG
