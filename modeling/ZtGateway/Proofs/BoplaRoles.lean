import ZtGateway.Proofs.BoplaPaths

/-! Which of the caller's roles decides what `strip` leaves: the first that has an entry, in the
order of the token. Two roles are told apart by some body unless their effects are the same, and
one shows what another does exactly if it can create its names. -/

namespace ZTG

namespace BoPlaInterceptor

/-- what a role does to a body, apart from the values -/
inductive Effect where
  | passes
  | throws
  /-- whether the prototype is set, and the names that can be created, in their order -/
  | picks (sets : Bool) (names : List String)
  deriving DecidableEq

def effect : RoleFields → Effect
  | .fields allowed =>
    if allowed.head? = some "*" then .passes
    else .picks (allowed.contains "__proto__") (created allowed)
  | .inherited => .throws

/-- A role with this effect leaves a field of this name. -/
def Effect.Shows : Effect → String → Prop
  | .passes, _ => True
  | .throws, _ => False
  | .picks _ names, k => k ∈ names

/-- the effect to a reader who sees the keys in this order -/
def Effect.arranged (order : KeyOrder) : Effect → Effect
  | .picks sets names => .picks sets (order.keys names)
  | e => e

/-- what `strip` makes of the body once the role is found -/
def outcome (data : JsValue) : Option RoleFields → Except Err JsValue
  | none => .ok .empty
  | some (.fields allowed) =>
    if allowed.head? = some "*" then .ok data else .ok (applyAllowList allowed data)
  | some .inherited => if iterates data then .error (.error "allowed is not iterable") else .ok data

section Effects

variable {k : String} {a b : List String}

theorem effect_passes (h : a.head? = some "*") : effect (.fields a) = .passes := if_pos h

theorem effect_picks (h : a.head? ≠ some "*") :
    effect (.fields a) = .picks (a.contains "__proto__") (created a) := if_neg h

theorem outcome_passes (h : a.head? = some "*") (data : JsValue) :
    outcome data (some (.fields a)) = .ok data := if_pos h

theorem outcome_picks (h : a.head? ≠ some "*") (data : JsValue) :
    outcome data (some (.fields a)) = .ok (applyAllowList a data) := if_neg h

theorem outcome_congr (order : KeyOrder) {x y : RoleFields}
    (h : (effect x).arranged order = (effect y).arranged order) (data : Json) :
    (outcome data.toJs (some x)).map (JsValue.arranged order) =
      (outcome data.toJs (some y)).map (JsValue.arranged order) := by
  cases x with
  | inherited =>
    cases y with
    | inherited => rfl
    | fields b =>
      by_cases hb : b.head? = some "*"
      · rw [effect_passes hb] at h
        cases h
      · rw [effect_picks hb] at h
        cases h
  | fields a =>
    cases y with
    | inherited =>
      by_cases ha : a.head? = some "*"
      · rw [effect_passes ha] at h
        cases h
      · rw [effect_picks ha] at h
        cases h
    | fields b =>
      by_cases ha : a.head? = some "*"
      · by_cases hb : b.head? = some "*"
        · rw [outcome_passes ha, outcome_passes hb]
        · rw [effect_passes ha, effect_picks hb] at h
          cases h
      · by_cases hb : b.head? = some "*"
        · rw [effect_picks ha, effect_passes hb] at h
          cases h
        · rw [effect_picks ha, effect_picks hb] at h
          obtain ⟨hsets, hnames⟩ := Effect.picks.inj h
          rw [outcome_picks ha, outcome_picks hb]
          exact congrArg Except.ok (applyAllowList_congr order hsets hnames data)

/-- the field `k` of the object at `p` in the body is in the result -/
def Visible (data : Json) (out : Except Err JsValue) (p : List PathStep) (k : String) : Prop :=
  (data.atPath (p ++ [.key k])).isSome ∧ ∃ r, out = .ok r ∧ (r.atPath (p ++ [.key k])).isSome

theorem visible_arranged (order : KeyOrder) (data : Json) (out : Except Err JsValue)
    (p : List PathStep) (k : String) :
    Visible data (out.map (JsValue.arranged order)) p k ↔ Visible data out p k := by
  refine and_congr_right fun _ => ?_
  cases out with
  | error e =>
    constructor
    · rintro ⟨r, hr, -⟩
      cases hr
    · rintro ⟨r, hr, -⟩
      cases hr
  | ok v =>
    constructor
    · rintro ⟨r, hr, h⟩
      refine ⟨v, rfl, ?_⟩
      rwa [← Except.ok.inj hr, atPath_arranged] at h
    · rintro ⟨r, hr, h⟩
      refine ⟨_, rfl, ?_⟩
      rwa [atPath_arranged, Except.ok.inj hr]

theorem atPath_nil_key (out : JsValue) (k : String) :
    (out.atPath ([] ++ [.key k])).isSome ↔ ∃ own proto, out = .obj own proto ∧
      (own.lookup k).isSome := by
  cases out with
  | obj own proto =>
    have hpath : (JsValue.obj own proto).atPath ([] ++ [.key k]) = own.lookup k := by
      rw [List.nil_append, JsValue.atPath]
      cases own.lookup k with
      | none => rfl
      | some v => rfl
    rw [hpath]
    constructor
    · exact fun h => ⟨own, proto, rfl, h⟩
    · rintro ⟨own', proto', heq, h⟩
      obtain ⟨rfl, -⟩ := JsValue.obj.inj heq
      exact h
  | undefined | null | bool | num | str | func | arr | objectPrototype | exotic =>
    simp [JsValue.atPath]

/-- An object with one field, null: the field is left exactly if the role shows it. -/
theorem visible_null_iff (x : RoleFields) (k : String) :
    Visible (nullObject [k]) (outcome (nullObject [k]).toJs (some x)) [] k ↔
      (effect x).Shows k := by
  have hdata : ((nullObject [k]).atPath ([] ++ [.key k])).isSome := by
    rw [List.nil_append, nullObject, Json.atPath, lookup_nulls, if_pos List.mem_cons_self]
    rfl
  unfold Visible
  rw [and_iff_right hdata]
  simp only [atPath_nil_key]
  cases x with
  | inherited =>
    constructor
    · rintro ⟨r, hr, -⟩
      cases hr
    · exact False.elim
  | fields a =>
    by_cases ha : a.head? = some "*"
    · rw [outcome_passes ha, effect_passes ha]
      refine iff_of_true ⟨_, rfl, _, _, by rw [nullObject, Json.toJs], ?_⟩ trivial
      rw [Json.lookup_fieldsToJs, lookup_nulls, if_pos List.mem_cons_self]
      rfl
    · rw [outcome_picks ha, effect_picks ha, nullObject, applyAllowList_object]
      have hlookup := @lookup_ownOf (hasField ([k].map fun k => (k, .null)))
        (fieldValue a ([k].map fun k => (k, .null))) (created a) k
      rw [creates_nulls List.mem_cons_self] at hlookup
      constructor
      · rintro ⟨_, hr, own, proto, rfl, hsome⟩
        obtain ⟨rfl, -⟩ := JsValue.obj.inj (Except.ok.inj hr)
        rw [hlookup] at hsome
        by_contra hk
        rw [if_neg fun h => hk h.1] at hsome
        cases hsome
      · intro hk
        refine ⟨_, rfl, _, _, rfl, ?_⟩
        rw [hlookup, if_pos ⟨hk, rfl⟩]
        rfl

theorem exists_fresh (l : List String) : ∃ k, k ∉ l := by
  refine ⟨String.ofList (List.replicate ((l.map String.length).sum + 1) 'x'), fun hmem => ?_⟩
  have hle := List.single_le_sum (fun _ _ => Nat.zero_le _) _
    (List.mem_map_of_mem (f := String.length) hmem)
  rw [String.length_ofList, List.length_replicate] at hle
  omega

theorem proto_inj (order : KeyOrder) {x y : Bool}
    (h : (if x then JsValue.null else .objectPrototype).arranged order =
      (if y then JsValue.null else .objectPrototype).arranged order) : x = y := by
  cases x with
  | false =>
    cases y with
    | false => rfl
    | true => cases h
  | true =>
    cases y with
    | false => cases h
    | true => rfl

theorem outcome_fields_ok (a : List String) (data : JsValue) :
    ∃ r, outcome data (some (.fields a)) = .ok r := by
  by_cases ha : a.head? = some "*"
  · exact ⟨_, outcome_passes ha data⟩
  · exact ⟨_, outcome_picks ha data⟩

/-- A list lets no more names through than it has. -/
theorem exists_not_shown (ha : a.head? ≠ some "*") : ∃ k, ¬ (effect (.fields a)).Shows k := by
  obtain ⟨k, hk⟩ := exists_fresh a
  rw [effect_picks ha]
  exact ⟨k, fun h => hk (List.erase_subset (mem_created.mp h))⟩

/-- Some body tells two effects apart. -/
theorem effect_of_outcome (order : KeyOrder) {x y : RoleFields}
    (h : ∀ data : Json, (outcome data.toJs (some x)).map (JsValue.arranged order) =
      (outcome data.toJs (some y)).map (JsValue.arranged order)) :
    (effect x).arranged order = (effect y).arranged order := by
  have hshows : ∀ k, (effect x).Shows k ↔ (effect y).Shows k := by
    intro k
    rw [← visible_null_iff, ← visible_null_iff, ← visible_arranged order, h, visible_arranged]
  have hthrows : outcome (Json.obj []).toJs (some .inherited) =
    .error (.error "allowed is not iterable") := rfl
  cases x with
  | inherited =>
    cases y with
    | inherited => rfl
    | fields b =>
      obtain ⟨r, hr⟩ := outcome_fields_ok b (Json.obj []).toJs
      have hempty := h (.obj [])
      rw [hr, hthrows] at hempty
      cases hempty
  | fields a =>
    cases y with
    | inherited =>
      obtain ⟨r, hr⟩ := outcome_fields_ok a (Json.obj []).toJs
      have hempty := h (.obj [])
      rw [hr, hthrows] at hempty
      cases hempty
    | fields b =>
      by_cases ha : a.head? = some "*"
      · by_cases hb : b.head? = some "*"
        · rw [effect_passes ha, effect_passes hb]
        · obtain ⟨k, hk⟩ := exists_not_shown hb
          rw [← hshows, effect_passes ha] at hk
          exact absurd trivial hk
      · by_cases hb : b.head? = some "*"
        · obtain ⟨k, hk⟩ := exists_not_shown ha
          rw [hshows, effect_passes hb] at hk
          exact absurd trivial hk
        · have hdata := h (nullObject ("__proto__" :: (a ++ b)))
          rw [outcome_picks ha, outcome_picks hb,
            applyAllowList_nulls List.mem_cons_self fun k hk =>
              List.mem_cons_of_mem _ (List.mem_append_left b hk),
            applyAllowList_nulls List.mem_cons_self fun k hk =>
              List.mem_cons_of_mem _ (List.mem_append_right a hk), Except.map, Except.map,
            JsValue.arranged_keys, JsValue.arranged_keys] at hdata
          obtain ⟨hown, hproto⟩ := JsValue.obj.inj (Except.ok.inj hdata)
          have hnames : order.keys (created a) = order.keys (created b) :=
            List.map_injective_iff.mpr (fun _ _ h => (Prod.ext_iff.mp h).1) hown
          have hsets := proto_inj order hproto
          rw [effect_picks ha, effect_picks hb, Effect.arranged, Effect.arranged, hsets, hnames]

theorem visible_passes (ha : a.head? = some "*") (data : Json) (p : List PathStep) (k : String) :
    Visible data (outcome data.toJs (some (.fields a))) p k ↔
      (data.atPath (p ++ [.key k])).isSome := by
  rw [Visible, outcome_passes ha]
  refine and_iff_left_of_imp fun h => ⟨_, rfl, ?_⟩
  rwa [atPath_toJs, Option.isSome_map]

theorem visible_picks (ha : a.head? ≠ some "*") (data : Json) (p : List PathStep) (k : String) :
    Visible data (outcome data.toJs (some (.fields a))) p k ↔
      (data.atPath (p ++ [.key k])).isSome ∧
        ((applyAllowList a data.toJs).atPath (p ++ [.key k])).isSome := by
  rw [Visible, outcome_picks ha]
  refine and_congr_right fun _ => ⟨?_, fun h => ⟨_, rfl, h⟩⟩
  rintro ⟨r, hr, h⟩
  rwa [Except.ok.inj hr]

theorem not_visible_inherited (data : Json) (p : List PathStep) (k : String) :
    ¬ Visible data (outcome data.toJs (some .inherited)) p k := by
  rintro ⟨hdata, r, hr, -⟩
  by_cases hiterates : iterates data.toJs = true
  · rw [outcome, if_pos hiterates] at hr
    cases hr
  · rw [atPath_of_not_iterates (Bool.not_eq_true _ ▸ hiterates)] at hdata
    cases hdata

/-- A role that shows more names leaves more fields. -/
theorem visible_mono {x y : RoleFields} (h : ∀ k, (effect x).Shows k → (effect y).Shows k)
    {data : Json} {p : List PathStep} {k : String}
    (hv : Visible data (outcome data.toJs (some x)) p k) :
    Visible data (outcome data.toJs (some y)) p k := by
  have hshown : (effect x).Shows k := by
    cases x with
    | inherited => exact absurd hv (not_visible_inherited data p k)
    | fields a =>
      by_cases ha : a.head? = some "*"
      · rw [effect_passes ha]
        trivial
      · rw [visible_picks ha] at hv
        rw [effect_picks ha]
        exact created_of_atPath p k data hv.1 hv.2
  cases y with
  | inherited => exact (h k hshown).elim
  | fields b =>
    by_cases hb : b.head? = some "*"
    · exact (visible_passes hb data p k).mpr hv.1
    · cases x with
      | inherited => exact absurd hv (not_visible_inherited data p k)
      | fields a =>
        by_cases ha : a.head? = some "*"
        · obtain ⟨k', hk'⟩ := exists_not_shown hb
          rw [effect_passes ha] at h
          exact absurd (h k' trivial) hk'
        · rw [effect_picks ha, effect_picks hb] at h
          rw [visible_picks ha] at hv
          exact (visible_picks hb data p k).mpr ⟨hv.1, atPath_mono h _ data hv.1 hv.2⟩

theorem not_visible_empty (data : Json) (p : List PathStep) (k : String) :
    ¬ Visible data (outcome data.toJs none) p k := by
  rintro ⟨-, r, hr, hsome⟩
  obtain rfl := Except.ok.inj hr
  cases p with
  | nil => cases hsome
  | cons x p =>
    cases x with
    | key k' => cases hsome
    | pos n => cases hsome

end Effects

/-- the roles of the first pattern that matches the path -/
def matchedRoleMap (isMatch : String → String → Except Err Bool) (requestPath : String) :
    FieldPolicy → Except Err (Option (List (String × List String)))
  | [] => .ok none
  | (pattern, roleMap) :: rest => do
    if ← isMatch requestPath pattern then pure (some roleMap)
    else matchedRoleMap isMatch requestPath rest

section Roles

variable {isMatch : String → String → Except Err Bool} {policy : FieldPolicy}
  {requestPath role : String} {roles roles' : List String}
  {roleMap : List (String × List String)} {data : Json} {order : KeyOrder}

theorem findAllowedFields_eq (isMatch : String → String → Except Err Bool)
    (requestPath : String) (roles : List String) (policy : FieldPolicy) :
    findAllowedFields isMatch requestPath roles policy =
      (matchedRoleMap isMatch requestPath policy).map fun matched =>
        matched.bind fun roleMap => roles.findSome? (roleFields roleMap) := by
  induction policy with
  | nil => rfl
  | cons entry rest ih =>
    obtain ⟨pattern, roleMap⟩ := entry
    unfold findAllowedFields matchedRoleMap
    cases isMatch requestPath pattern with
    | error e => rfl
    | ok matches_ =>
      cases matches_ with
      | false => exact ih
      | true => rfl

theorem strip_admin (h : "admin" ∈ roles) (data : JsValue) :
    strip isMatch policy data requestPath roles = .ok data := by
  unfold strip
  rw [if_pos (List.contains_iff_mem.mpr h)]
  rfl

theorem strip_matched (h : "admin" ∉ roles) (data : JsValue) :
    strip isMatch policy data requestPath roles =
      (matchedRoleMap isMatch requestPath policy).bind fun matched =>
        outcome data (matched.bind fun roleMap => roles.findSome? (roleFields roleMap)) := by
  unfold strip
  rw [if_neg (fun hc => h (List.contains_iff_mem.mp hc)), findAllowedFields_eq]
  cases matchedRoleMap isMatch requestPath policy with
  | error e => rfl
  | ok matched =>
    simp only [Except.map, bind, Except.bind]
    cases matched.bind fun roleMap => roles.findSome? (roleFields roleMap) with
    | none => rfl
    | some x =>
      cases x with
      | fields allowed => rfl
      | inherited => rfl

/-- Every role of the caller that has an entry does the same to a body. -/
def RolesAgree (order : KeyOrder) (roleMap : List (String × List String)) (roles : List String) :
    Prop :=
  ∀ r ∈ roles, ∀ r' ∈ roles, ∀ a a', roleFields roleMap r = some a →
    roleFields roleMap r' = some a' → (effect a).arranged order = (effect a').arranged order

/-- The role finds no entry, or one that shows what the entries of `roles` show. -/
def ShowsAll (roleMap : List (String × List String)) (roles : List String) (role : String) :
    Prop :=
  ∀ b, roleFields roleMap role = some b → ∀ r ∈ roles, ∀ a, roleFields roleMap r = some a →
    ∀ k, (effect a).Shows k → (effect b).Shows k

theorem findSome_congr (hsame : RolesAgree order roleMap roles)
    (h : ∀ r, r ∈ roles' ↔ r ∈ roles) :
    (outcome data.toJs (roles'.findSome? (roleFields roleMap))).map (JsValue.arranged order) =
      (outcome data.toJs (roles.findSome? (roleFields roleMap))).map (JsValue.arranged order) := by
  cases hfound : roles.findSome? (roleFields roleMap) with
  | none =>
    have hnone : roles'.findSome? (roleFields roleMap) = none := by
      rw [List.findSome?_eq_none_iff] at hfound ⊢
      exact fun r hr => hfound r ((h r).mp hr)
    rw [hnone]
  | some a =>
    obtain ⟨r, hr, ha⟩ := List.exists_of_findSome?_eq_some hfound
    have hsome : (roles'.findSome? (roleFields roleMap)).isSome := by
      rw [List.findSome?_isSome_iff]
      exact ⟨r, (h r).mpr hr, by rw [ha]; rfl⟩
    obtain ⟨a', hfound'⟩ := Option.isSome_iff_exists.mp hsome
    obtain ⟨r', hr', ha'⟩ := List.exists_of_findSome?_eq_some hfound'
    rw [hfound']
    exact outcome_congr order (hsame r' ((h r').mp hr') r hr a' a ha' ha) data

theorem strip_congr (hsame : ∀ roleMap, matchedRoleMap isMatch requestPath policy =
      .ok (some roleMap) → RolesAgree order roleMap roles) (h : ∀ r, r ∈ roles' ↔ r ∈ roles)
    (data : Json) :
    (strip isMatch policy data.toJs requestPath roles').map (JsValue.arranged order) =
      (strip isMatch policy data.toJs requestPath roles).map (JsValue.arranged order) := by
  by_cases hadmin : "admin" ∈ roles
  · rw [strip_admin hadmin, strip_admin ((h "admin").mpr hadmin)]
  · rw [strip_matched hadmin, strip_matched fun hc => hadmin ((h "admin").mp hc)]
    cases hmatched : matchedRoleMap isMatch requestPath policy with
    | error e => rfl
    | ok matched =>
      cases matched with
      | none => rfl
      | some roleMap => exact findSome_congr (hsame roleMap hmatched) h

theorem visible_admin (h : "admin" ∈ roles) (data : Json) (p : List PathStep) (k : String) :
    Visible data (strip isMatch policy data.toJs requestPath roles) p k ↔
      (data.atPath (p ++ [.key k])).isSome := by
  rw [strip_admin h, Visible]
  refine and_iff_left_of_imp fun hsome => ⟨_, rfl, ?_⟩
  rwa [atPath_toJs, Option.isSome_map]

/-- One more role is asked before those behind it. -/
theorem visible_insert {pre post : List String} (hshows : ShowsAll roleMap (pre ++ post) role)
    {p : List PathStep} {k : String}
    (h : Visible data (outcome data.toJs ((pre ++ post).findSome? (roleFields roleMap))) p k) :
    Visible data (outcome data.toJs ((pre ++ role :: post).findSome? (roleFields roleMap))) p k := by
  rw [List.findSome?_append] at h ⊢
  rw [List.findSome?_cons]
  cases hpre : pre.findSome? (roleFields roleMap) with
  | some a => rwa [hpre] at h
  | none =>
    rw [hpre, Option.none_or] at h
    rw [Option.none_or]
    cases hrole : roleFields roleMap role with
    | none => exact h
    | some b =>
      cases hpost : post.findSome? (roleFields roleMap) with
      | none =>
        rw [hpost] at h
        exact absurd h (not_visible_empty data p k)
      | some a =>
        rw [hpost] at h
        obtain ⟨r, hr, ha⟩ := List.exists_of_findSome?_eq_some hpost
        exact visible_mono (hshows b hrole r (List.mem_append_right pre hr) a ha) h

theorem strip_grows {pre post : List String}
    (hgrows : "admin" ∉ pre ++ post → ∀ roleMap, matchedRoleMap isMatch requestPath policy =
      .ok (some roleMap) → role = "admin" ∨ ShowsAll roleMap (pre ++ post) role)
    {p : List PathStep} {k : String}
    (h : Visible data (strip isMatch policy data.toJs requestPath (pre ++ post)) p k) :
    Visible data (strip isMatch policy data.toJs requestPath (pre ++ role :: post)) p k := by
  by_cases hadmin' : "admin" ∈ pre ++ role :: post
  · exact (visible_admin hadmin' data p k).mpr h.1
  · have hadmin : "admin" ∉ pre ++ post := by
      intro hc
      rw [List.mem_append, List.mem_cons] at hadmin'
      rcases List.mem_append.mp hc with hc | hc
      · exact hadmin' (.inl hc)
      · exact hadmin' (.inr (.inr hc))
    rw [strip_matched hadmin] at h
    rw [strip_matched hadmin']
    cases hmatched : matchedRoleMap isMatch requestPath policy with
    | error e =>
      rw [hmatched] at h
      obtain ⟨-, r, hr, -⟩ := h
      cases hr
    | ok matched =>
      rw [hmatched] at h
      cases matched with
      | none => exact absurd h (not_visible_empty data p k)
      | some roleMap =>
        rcases hgrows hadmin roleMap hmatched with rfl | hshows
        · exact absurd (List.mem_append_right pre List.mem_cons_self) hadmin'
        · exact visible_insert hshows h

/-- What `strip` makes of a body if this role is asked first. -/
theorem strip_cons (hadmin : "admin" ∉ role :: roles)
    (hmatched : matchedRoleMap isMatch requestPath policy = .ok (some roleMap)) {a : RoleFields}
    (ha : roleFields roleMap role = some a) (data : JsValue) :
    strip isMatch policy data requestPath (role :: roles) = outcome data (some a) := by
  rw [strip_matched hadmin, hmatched]
  change outcome data ((role :: roles).findSome? (roleFields roleMap)) = _
  rw [List.findSome?_cons, ha]

theorem rolesAgree_of_strip (hadmin : "admin" ∉ roles)
    (hmatched : matchedRoleMap isMatch requestPath policy = .ok (some roleMap))
    (h : ∀ (data : Json) (roles' : List String), (∀ r, r ∈ roles' ↔ r ∈ roles) →
      (strip isMatch policy data.toJs requestPath roles').map (JsValue.arranged order) =
        (strip isMatch policy data.toJs requestPath roles).map (JsValue.arranged order)) :
    RolesAgree order roleMap roles := by
  -- a role of the list may stand in front as well
  have hfirst : ∀ r ∈ roles, ∀ a, roleFields roleMap r = some a → ∀ data : Json,
      (strip isMatch policy data.toJs requestPath roles).map (JsValue.arranged order) =
        (outcome data.toJs (some a)).map (JsValue.arranged order) := by
    intro r hr a ha data
    have hset : ∀ r', r' ∈ r :: roles ↔ r' ∈ roles := by
      intro r'
      rw [List.mem_cons]
      exact ⟨fun h => h.elim (fun heq => heq ▸ hr) id, .inr⟩
    rw [← h data (r :: roles) hset,
      strip_cons (fun hc => hadmin ((hset "admin").mp hc)) hmatched ha data.toJs]
  intro r hr r' hr' a a' ha ha'
  refine effect_of_outcome order fun data => ?_
  rw [← hfirst r hr a ha data, ← hfirst r' hr' a' ha' data]

theorem showsAll_of_strip (hadmin : "admin" ∉ role :: roles)
    (hmatched : matchedRoleMap isMatch requestPath policy = .ok (some roleMap))
    (hagree : RolesAgree order roleMap roles)
    (h : ∀ (data : Json) (p : List PathStep) (k : String),
      Visible data (strip isMatch policy data.toJs requestPath roles) p k →
      Visible data (strip isMatch policy data.toJs requestPath (role :: roles)) p k) :
    ShowsAll roleMap roles role := by
  intro b hb r hr a ha k hshows
  have hset : ∀ r', r' ∈ r :: roles ↔ r' ∈ roles := by
    intro r'
    rw [List.mem_cons]
    exact ⟨fun h => h.elim (fun heq => heq ▸ hr) id, .inr⟩
  have hadmin' : "admin" ∉ r :: roles := fun hc =>
    hadmin (List.mem_cons_of_mem _ ((hset "admin").mp hc))
  have hroles : ∀ data : Json,
      (strip isMatch policy data.toJs requestPath roles).map (JsValue.arranged order) =
        (outcome data.toJs (some a)).map (JsValue.arranged order) := by
    intro data
    have hsame : ∀ roleMap', matchedRoleMap isMatch requestPath policy = .ok (some roleMap') →
        RolesAgree order roleMap' roles := by
      intro roleMap' hmatched'
      rw [hmatched] at hmatched'
      cases hmatched'
      exact hagree
    rw [← strip_cons hadmin' hmatched ha]
    exact (strip_congr hsame hset data).symm
  have hgrown := h (nullObject [k]) [] k
  rw [← visible_arranged order, hroles, visible_arranged, strip_cons hadmin hmatched hb,
    visible_null_iff, visible_null_iff] at hgrown
  exact hgrown hshows

/-- In whichever order the keys are looked at: the result depends on the set of roles alone, and
a further role hides nothing, exactly if the caller is an admin, or no pattern matches, or all
entries of the roles do the same to a body and the further role is the admin's, or has no entry,
or shows what they show. -/
theorem strip_roles_iff (isMatch : String → String → Except Err Bool) (policy : FieldPolicy)
    (requestPath : String) (roles : List String) (role : String) (order : KeyOrder) :
    ((∀ (data : Json) (roles' : List String), (∀ r, r ∈ roles' ↔ r ∈ roles) →
        (strip isMatch policy data.toJs requestPath roles').map (JsValue.arranged order) =
          (strip isMatch policy data.toJs requestPath roles).map (JsValue.arranged order)) ∧
      ∀ (data : Json) (pre post : List String), roles = pre ++ post →
        ∀ (p : List PathStep) (k : String),
          Visible data (strip isMatch policy data.toJs requestPath roles) p k →
          Visible data (strip isMatch policy data.toJs requestPath (pre ++ role :: post)) p k) ↔
      "admin" ∈ roles ∨ ∀ roleMap,
        matchedRoleMap isMatch requestPath policy = .ok (some roleMap) →
          RolesAgree order roleMap roles ∧ (role = "admin" ∨ ShowsAll roleMap roles role) := by
  constructor
  · rintro ⟨hset, hgrows⟩
    by_cases hadmin : "admin" ∈ roles
    · exact .inl hadmin
    · refine .inr fun roleMap hmatched => ?_
      have hagree := rolesAgree_of_strip hadmin hmatched hset
      refine ⟨hagree, ?_⟩
      by_cases hrole : role = "admin"
      · exact .inl hrole
      · have hadmin' : "admin" ∉ role :: roles := by
          rw [List.mem_cons]
          rintro (heq | hc)
          · exact hrole heq.symm
          · exact hadmin hc
        exact .inr (showsAll_of_strip hadmin' hmatched hagree fun data =>
          hgrows data [] roles rfl)
  · intro h
    constructor
    · intro data roles' hset
      rcases h with hadmin | h
      · rw [strip_admin hadmin, strip_admin ((hset "admin").mpr hadmin)]
      · exact strip_congr (fun roleMap hmatched => (h roleMap hmatched).1) hset data
    · rintro data pre post rfl p k hv
      refine strip_grows (fun hadmin roleMap hmatched => ?_) hv
      rcases h with hadmin' | h
      · exact absurd hadmin' hadmin
      · exact (h roleMap hmatched).2

/-- A policy that shows a user the address and a viewer the name only: the role that comes first
decides, and a viewer's role in front hides the address. -/
theorem strip_first_role :
    let isMatch := fun _ _ => Except.ok true
    let policy : FieldPolicy :=
      [("/users/**", [("user", ["id", "name", "email"]), ("viewer", ["id", "name"])])]
    let data := Json.obj [("id", .str "1"), ("name", .str "Alice"), ("email", .str "a@x.org")]
    (∀ order : KeyOrder,
        (strip isMatch policy data.toJs "/users/1" ["user", "viewer"]).map
            (JsValue.arranged order) ≠
          (strip isMatch policy data.toJs "/users/1" ["viewer", "user"]).map
            (JsValue.arranged order)) ∧
      Visible data (strip isMatch policy data.toJs "/users/1" ["user"]) [] "email" ∧
      ¬ Visible data (strip isMatch policy data.toJs "/users/1" ["viewer", "user"]) []
        "email" := by
  intro isMatch policy data
  have huser : Visible data (strip isMatch policy data.toJs "/users/1" ["user", "viewer"]) []
      "email" := ⟨rfl, _, rfl, rfl⟩
  have hviewer : ¬ Visible data (strip isMatch policy data.toJs "/users/1" ["viewer", "user"]) []
      "email" := by
    have hstrip : strip isMatch policy data.toJs "/users/1" ["viewer", "user"] =
        .ok (.obj [("id", .str "1"), ("name", .str "Alice")] .objectPrototype) := rfl
    rintro ⟨-, r, hr, hemail⟩
    rw [hstrip] at hr
    obtain rfl := Except.ok.inj hr
    cases hemail
  refine ⟨fun order heq => hviewer ?_, ⟨rfl, _, rfl, rfl⟩, hviewer⟩
  rw [← visible_arranged order, ← heq, visible_arranged]
  exact huser

end Roles

end BoPlaInterceptor

end ZTG
