import ZtGateway.Proofs.BoplaWalk

/-! What `strip` leaves of a JSON value, path by path. The walk keeps exactly the paths of allowed
keys and array positions, as long as no allowed key is a name that every object inherits. -/

namespace ZTG

inductive PathStep where
  | key (k : String)
  | pos (i : ℕ)
  deriving DecidableEq

/-- the value at a path of own properties and array positions -/
def JsValue.atPath : List PathStep → JsValue → Option JsValue
  | [], v => some v
  | .key k :: p, .obj own _ => (own.lookup k).bind (atPath p)
  | .pos i :: p, .arr items => items[i]?.bind (atPath p)
  | _ :: _, _ => none

def Json.atPath : List PathStep → Json → Option Json
  | [], j => some j
  | .key k :: p, .obj fields => (fields.lookup k).bind (atPath p)
  | .pos i :: p, .arr items => items[i]?.bind (atPath p)
  | _ :: _, _ => none

def Json.isLeaf : Json → Bool
  | .arr _ | .obj _ => false
  | .null | .bool _ | .num _ | .str _ => true

/-- every key of the path is allowed -/
def AllowedPath (allowed : List String) (p : List PathStep) : Prop :=
  ∀ k, .key k ∈ p → k ∈ allowed

/-- `result` is `data` without the keys that are not allowed. -/
structure Stripped (allowed : List String) (data : Json) (result : JsValue) : Prop where
  /-- every key at every depth is allowed and a key of the data at the same path -/
  only : ∀ p, (result.atPath p).isSome → AllowedPath allowed p ∧ (data.atPath p).isSome
  complete : ∀ p, AllowedPath allowed p → (data.atPath p).isSome → (result.atPath p).isSome
  leaf : ∀ p, AllowedPath allowed p → ∀ w, data.atPath p = some w → w.isLeaf →
    result.atPath p = some w.toJs
  array : ∀ p, AllowedPath allowed p → ∀ items, data.atPath p = some (.arr items) →
    ∃ items', result.atPath p = some (.arr items') ∧ items'.length = items.length
  object : ∀ p, AllowedPath allowed p → ∀ fields, data.atPath p = some (.obj fields) →
    ∃ own proto, result.atPath p = some (.obj own proto)

theorem Json.induct {P : Json → Prop} (leaf : ∀ j : Json, j.isLeaf → P j)
    (arr : ∀ items, (∀ item ∈ items, P item) → P (.arr items))
    (obj : ∀ fields, (∀ x ∈ fields, P x.2) → P (.obj fields)) : ∀ j, P j
  | .null => leaf _ rfl
  | .bool _ => leaf _ rfl
  | .num _ => leaf _ rfl
  | .str _ => leaf _ rfl
  | .arr items => arr items fun item _ => Json.induct leaf arr obj item
  | .obj fields => obj fields fun x hx => by
      obtain ⟨k, v⟩ := x
      have hsize := List.sizeOf_lt_of_mem hx
      exact Json.induct leaf arr obj v
termination_by j => sizeOf j
decreasing_by
  all_goals simp_wf
  · have := List.sizeOf_lt_of_mem ‹_ ∈ _›
    omega
  · simp at hsize
    omega

theorem mem_of_lookup {α β : Type} [BEq α] [LawfulBEq α] {l : List (α × β)} {a : α} {b : β}
    (h : l.lookup a = some b) : (a, b) ∈ l := by
  obtain ⟨l₁, l₂, rfl, -⟩ := List.lookup_eq_some_iff.mp h
  exact List.mem_append_right _ List.mem_cons_self

theorem Json.itemsToJs_eq (items : List Json) : Json.itemsToJs items = items.map Json.toJs := by
  induction items with
  | nil => rw [Json.itemsToJs, List.map_nil]
  | cons item items ih => rw [Json.itemsToJs, List.map_cons, ih]

theorem Json.lookup_fieldsToJs (fields : List (String × Json)) (k : String) :
    (Json.fieldsToJs fields).lookup k = (fields.lookup k).map Json.toJs := by
  induction fields with
  | nil => rw [Json.fieldsToJs]; rfl
  | cons x fields ih =>
    obtain ⟨k', v⟩ := x
    rw [Json.fieldsToJs, List.lookup_cons, List.lookup_cons, ih]
    cases k == k' with
    | true => rfl
    | false => rfl

namespace BoPlaInterceptor

variable {allowed : List String}

theorem applyItems_eq (items : List JsValue) :
    applyItems allowed items = items.map (applyAllowList allowed) := by
  induction items with
  | nil => rw [applyItems, List.map_nil]
  | cons item items ih => rw [applyItems, List.map_cons, ih]

theorem applyAllowList_of_not_object {v : JsValue} (h : v.typeofObject = false) :
    applyAllowList allowed v = v := by
  cases v with
  | undefined | null | bool | num | str | func => rfl
  | arr | obj | objectPrototype | exotic => cases h

theorem lookup_applyValues (own : List (String × JsValue)) (k : String) :
    (applyValues allowed own).lookup k = (own.lookup k).map (applyAllowList allowed) := by
  induction own with
  | nil => rw [applyValues]; rfl
  | cons x own ih =>
    obtain ⟨k', v⟩ := x
    have hvalue : (if v.typeofObject then applyAllowList allowed v else v) =
        applyAllowList allowed v := by
      split_ifs with h
      · rfl
      · exact (applyAllowList_of_not_object (Bool.not_eq_true _ ▸ h)).symm
    rw [applyValues, List.lookup_cons, List.lookup_cons, ih, hvalue]
    cases k == k' with
    | true => rfl
    | false => rfl

/-- the properties that `get` has for the names in `l`, added to `own` -/
def pick (get : String → Option JsValue) (l : List String) (own : List (String × JsValue)) :
    List (String × JsValue) :=
  l.foldl (fun own f => match get f with
    | some v => JsValue.setKey own f v
    | none => own) own

variable {get get' : String → Option JsValue} {f : String} {l : List String}

theorem pick_some {v : JsValue} (h : get f = some v) (own : List (String × JsValue)) :
    pick get (f :: l) own = pick get l (JsValue.setKey own f v) := by
  simp only [pick, List.foldl_cons, h]

theorem pick_none (h : get f = none) (own : List (String × JsValue)) :
    pick get (f :: l) own = pick get l own := by
  simp only [pick, List.foldl_cons, h]

theorem lookup_pick (get : String → Option JsValue) (l : List String)
    (own : List (String × JsValue)) (k : String) :
    (pick get l own).lookup k = if k ∈ l then (get k).or (own.lookup k) else own.lookup k := by
  induction l generalizing own with
  | nil => simp [pick]
  | cons f l ih =>
    cases hget : get f with
    | none =>
      rw [pick_none hget, ih]
      by_cases hf : k = f
      · subst hf
        simp [hget]
      · simp [hf]
    | some v =>
      rw [pick_some hget, ih, JsValue.lookup_setKey]
      by_cases hf : k = f
      · subst hf
        simp [hget]
      · simp [hf]

theorem pick_congr (h : ∀ f ∈ l, get f = get' f) (own : List (String × JsValue)) :
    pick get l own = pick get' l own := by
  induction l generalizing own with
  | nil => rfl
  | cons f l ih =>
    unfold pick
    rw [List.foldl_cons, List.foldl_cons, h f List.mem_cons_self]
    exact ih (fun f hf => h f (List.mem_cons_of_mem _ hf)) _

/-- no allowed name is one that every object inherits -/
def Safe (allowed : List String) : Prop := ∀ f ∈ allowed, f ∉ JsValue.objectNames

/-- The walk of a plain object picks its own properties by name. -/
theorem applyAllowList_obj (hsafe : Safe allowed) (own : List (String × JsValue)) :
    applyAllowList allowed (.obj own .objectPrototype) =
      .obj (pick (fun k => (own.lookup k).map (applyAllowList allowed)) allowed [])
        .objectPrototype := by
  have hwalk : ∀ (l : List String) (acc : List (String × JsValue)),
      (∀ f ∈ l, f ∉ JsValue.objectNames) →
      l.foldl (fun (out : JsValue) field =>
          if (JsValue.obj own .objectPrototype).hasProperty field then
            out.assign field (((applyValues allowed own).lookup field).getD
              (applyInherited allowed .objectPrototype field))
          else out) (.obj acc .objectPrototype) =
        JsValue.obj (pick (fun k => (own.lookup k).map (applyAllowList allowed)) l acc)
          .objectPrototype := by
    intro l
    induction l with
    | nil => exact fun _ _ => rfl
    | cons f l ih =>
      intro acc hl
      have hf := hl f List.mem_cons_self
      have hproto : f ≠ "__proto__" := fun h => hf (h ▸ List.mem_cons_self)
      have hhas : (JsValue.obj own .objectPrototype).hasProperty f = (own.lookup f).isSome := by
        simp only [JsValue.hasProperty, List.contains_eq_mem, hf, decide_false, Bool.or_false]
      have hrest := fun acc => ih acc fun f hf => hl f (List.mem_cons_of_mem _ hf)
      rw [List.foldl_cons, hhas, lookup_applyValues]
      cases hlookup : own.lookup f with
      | none =>
        rw [pick_none (by rw [hlookup, Option.map_none])]
        exact hrest acc
      | some v =>
        rw [pick_some (by rw [hlookup, Option.map_some])]
        have hassign : JsValue.assign (.obj acc .objectPrototype) f (applyAllowList allowed v) =
            .obj (JsValue.setKey acc f (applyAllowList allowed v)) .objectPrototype := by
          unfold JsValue.assign
          exact if_neg fun h => hproto h.1
        rw [Option.isSome_some, if_pos rfl, Option.map_some, Option.getD_some, hassign]
        exact hrest _
  rw [applyAllowList]
  exact hwalk allowed [] hsafe

theorem AllowedPath.cons {x : PathStep} {p : List PathStep} :
    AllowedPath allowed (x :: p) ↔ (∀ k, x = .key k → k ∈ allowed) ∧ AllowedPath allowed p := by
  unfold AllowedPath
  constructor
  · intro h
    exact ⟨fun k hk => h k (hk ▸ List.mem_cons_self), fun k hk => h k (List.mem_cons_of_mem _ hk)⟩
  · rintro ⟨hx, hp⟩ k hk
    rcases List.mem_cons.mp hk with hk | hk
    · exact hx k hk.symm
    · exact hp k hk

theorem applyAllowList_leaf {j : Json} (h : j.isLeaf) :
    applyAllowList allowed j.toJs = j.toJs := by
  cases j with
  | null | bool | num | str => rfl
  | arr | obj => cases h

theorem applyAllowList_arr (items : List Json) :
    applyAllowList allowed (Json.arr items).toJs =
      .arr (items.map fun item => applyAllowList allowed item.toJs) := by
  rw [Json.toJs, Json.itemsToJs_eq, applyAllowList, applyItems_eq, List.map_map]
  rfl

/-- The values of a stripped object are the stripped values of its allowed fields. -/
theorem applyAllowList_fields (hsafe : Safe allowed) (fields : List (String × Json)) :
    ∃ own, applyAllowList allowed (Json.obj fields).toJs = .obj own .objectPrototype ∧
      ∀ k, own.lookup k = if k ∈ allowed then
        (fields.lookup k).map fun v => applyAllowList allowed v.toJs else none := by
  refine ⟨_, by rw [Json.toJs, applyAllowList_obj hsafe], fun k => ?_⟩
  rw [lookup_pick, List.lookup_nil, Json.lookup_fieldsToJs, Option.map_map, Option.or_none]
  rfl

theorem atPath_leaf {j : Json} (h : j.isLeaf) (x : PathStep) (p : List PathStep) :
    j.toJs.atPath (x :: p) = none ∧ j.atPath (x :: p) = none := by
  cases j with
  | null | bool | num | str =>
    cases x with
    | key k => exact ⟨rfl, rfl⟩
    | pos n => exact ⟨rfl, rfl⟩
  | arr | obj => cases h

/-- What the result has at a path: the stripped value of the data, if all keys are allowed. -/
theorem atPath_applyAllowList (hsafe : Safe allowed) (p : List PathStep) (j : Json) (r : JsValue) :
    (applyAllowList allowed j.toJs).atPath p = some r ↔
      AllowedPath allowed p ∧ ∃ w, j.atPath p = some w ∧ applyAllowList allowed w.toJs = r := by
  induction p generalizing j with
  | nil => simp [JsValue.atPath, Json.atPath, AllowedPath]
  | cons x p ih =>
    rw [AllowedPath.cons]
    cases x with
    | key k =>
      cases j with
      | null | bool | num | str =>
        rw [applyAllowList_leaf rfl, (atPath_leaf rfl _ p).1, (atPath_leaf rfl _ p).2]
        simp
      | arr items => simp [applyAllowList_arr, JsValue.atPath, Json.atPath]
      | obj fields =>
        obtain ⟨own, hown, hlookup⟩ := applyAllowList_fields hsafe fields
        rw [hown, JsValue.atPath, Json.atPath, hlookup]
        by_cases hk : k ∈ allowed
        · cases fields.lookup k with
          | none => simp [hk]
          | some v => simp [hk, ih]
        · simp [hk]
    | pos n =>
      cases j with
      | null | bool | num | str =>
        rw [applyAllowList_leaf rfl, (atPath_leaf rfl _ p).1, (atPath_leaf rfl _ p).2]
        simp
      | arr items =>
        rw [applyAllowList_arr, JsValue.atPath, Json.atPath, List.getElem?_map]
        cases items[n]? with
        | none => simp
        | some item => simp [ih]
      | obj fields =>
        obtain ⟨own, hown, -⟩ := applyAllowList_fields hsafe fields
        simp [hown, JsValue.atPath, Json.atPath]

theorem stripped_of_safe (hsafe : Safe allowed) (data : Json) :
    Stripped allowed data (applyAllowList allowed data.toJs) where
  only p h := by
    obtain ⟨r, hr⟩ := Option.isSome_iff_exists.mp h
    obtain ⟨hp, w, hw, -⟩ := (atPath_applyAllowList hsafe p data r).mp hr
    exact ⟨hp, hw ▸ rfl⟩
  complete p hp h := by
    obtain ⟨w, hw⟩ := Option.isSome_iff_exists.mp h
    rw [(atPath_applyAllowList hsafe p data _).mpr ⟨hp, w, hw, rfl⟩]
    rfl
  leaf p hp w hw hleaf :=
    (atPath_applyAllowList hsafe p data _).mpr ⟨hp, w, hw, applyAllowList_leaf hleaf⟩
  array p hp items hw := by
    refine ⟨_, (atPath_applyAllowList hsafe p data _).mpr
      ⟨hp, _, hw, applyAllowList_arr items⟩, ?_⟩
    exact List.length_map _
  object p hp fields hw := by
    obtain ⟨own, hown, -⟩ := applyAllowList_fields hsafe fields
    exact ⟨own, _, (atPath_applyAllowList hsafe p data _).mpr ⟨hp, _, hw, hown⟩⟩

theorem applyAllowList_idem (hsafe : Safe allowed) (data : Json) :
    applyAllowList allowed (applyAllowList allowed data.toJs) =
      applyAllowList allowed data.toJs := by
  induction data using Json.induct with
  | leaf j hleaf => rw [applyAllowList_leaf hleaf, applyAllowList_leaf hleaf]
  | arr items ih =>
    rw [applyAllowList_arr, applyAllowList, applyItems_eq, List.map_map]
    exact congrArg JsValue.arr (List.map_congr_left ih)
  | obj fields ih =>
    rw [Json.toJs, applyAllowList_obj hsafe, applyAllowList_obj hsafe]
    -- the second walk finds under each allowed name what the first one put there
    refine congrArg (JsValue.obj · .objectPrototype) (pick_congr (fun f hf => ?_) [])
    rw [lookup_pick, if_pos hf, List.lookup_nil, Option.or_none, Json.lookup_fieldsToJs]
    cases hlookup : fields.lookup f with
    | none => rfl
    | some v => exact congrArg some (ih (f, v) (mem_of_lookup hlookup))

/-- an object with an own property of this name -/
def HasOwn (f : String) (out : JsValue) : Prop :=
  ∃ own proto, out = .obj own proto ∧ (own.lookup f).isSome

/-- An allowed name that `in` finds ends up in the result, unless it is the accessor's. -/
theorem walk_hasOwn {has : String → Bool} {value : String → JsValue}
    (hproto : has "__proto__" = true) (hf : f ≠ "__proto__") (hhas : has f = true)
    (hmem : f ∈ allowed) : HasOwn f (walk allowed has value) := by
  have hcreated : f ∈ created allowed := mem_created.mpr ((List.mem_erase_of_ne hf).mpr hmem)
  have hcreates : creates has value f = true := by simp [creates, hhas, hf]
  refine ⟨_, _, walk_eq hproto allowed, ?_⟩
  rw [lookup_ownOf, if_pos ⟨hcreated, hcreates⟩]
  rfl

/-- The accessor takes no primitive, and nothing else can create the key. -/
theorem walk_drops_proto {has : String → Bool} {value : String → JsValue}
    (hproto : has "__proto__" = true) (hvalue : (value "__proto__").canBePrototype = false) :
    (walk allowed has value).atPath [.key "__proto__"] = none := by
  have hcreates : ¬ creates has value "__proto__" = true := by simp [creates, hvalue]
  rw [walk_eq hproto, JsValue.atPath, lookup_ownOf, if_neg fun h => hcreates h.2]
  rfl

/-- An empty object gets the methods that are allowed; a key `__proto__` with a primitive value
gets lost. -/
theorem safe_of_stripped (h : ∀ data : Json,
    Stripped allowed data (applyAllowList allowed data.toJs)) : Safe allowed := by
  intro f hmem hname
  by_cases hf : f = "__proto__"
  · subst hf
    have hlost : (applyAllowList allowed
        (Json.obj [("__proto__", .bool true)]).toJs).atPath [.key "__proto__"] = none := by
      rw [Json.toJs, applyAllowList]
      exact walk_drops_proto rfl rfl
    have hallowed : AllowedPath allowed [.key "__proto__"] := by
      intro k hk
      obtain rfl : k = "__proto__" := by simpa using hk
      exact hmem
    have hkept := (h (.obj [("__proto__", .bool true)])).complete _ hallowed rfl
    rw [hlost] at hkept
    cases hkept
  · have hhas : (JsValue.obj [] .objectPrototype).hasProperty f = true := by
      simpa [JsValue.hasProperty, List.contains_eq_mem] using hname
    have hown : HasOwn f (applyAllowList allowed (Json.obj []).toJs) := by
      rw [Json.toJs, applyAllowList]
      exact walk_hasOwn rfl hf hhas hmem
    obtain ⟨own, proto, heq, hsome⟩ := hown
    have honly := ((h (.obj [])).only [.key f] (by
      rw [heq, JsValue.atPath]
      obtain ⟨v, hv⟩ := Option.isSome_iff_exists.mp hsome
      rw [hv]
      rfl)).2
    cases honly

variable {isMatch : String → String → Except Err Bool} {policy : FieldPolicy}
  {requestPath : String} {roles : List String}

theorem strip_eq (hadmin : "admin" ∉ roles)
    (hfound : findAllowedFields isMatch requestPath roles policy = .ok (some (.fields allowed)))
    (hstar : allowed.head? ≠ some "*") (data : JsValue) :
    strip isMatch policy data requestPath roles = .ok (applyAllowList allowed data) := by
  unfold strip
  rw [hfound]
  simp only [List.contains_eq_mem, hadmin, decide_false, Bool.false_eq_true, if_false]
  exact if_neg hstar

/-- With an explicit allow-list, `strip` is exact for every JSON value and stable under a second
`strip` exactly if the list has no name that every object inherits. -/
theorem strip_exact_iff (isMatch : String → String → Except Err Bool) (policy : FieldPolicy)
    (requestPath : String) (roles allowed : List String) (hadmin : "admin" ∉ roles)
    (hfound : findAllowedFields isMatch requestPath roles policy = .ok (some (.fields allowed)))
    (hstar : allowed.head? ≠ some "*") :
    (∀ data : Json, ∃ result,
        strip isMatch policy data.toJs requestPath roles = .ok result ∧
        Stripped allowed data result ∧
        strip isMatch policy result requestPath roles = .ok result) ↔
      ∀ f ∈ allowed, f ∉ JsValue.objectNames := by
  have hstrip := strip_eq hadmin hfound hstar
  constructor
  · intro h
    refine safe_of_stripped fun data => ?_
    obtain ⟨result, hresult, hstripped, -⟩ := h data
    rw [hstrip] at hresult
    rwa [Except.ok.inj hresult]
  · intro hsafe data
    refine ⟨_, hstrip _, stripped_of_safe hsafe data, ?_⟩
    rw [hstrip, applyAllowList_idem hsafe]

/-- a policy with one pattern, which matches the path `/users/1` -/
def usersPolicy (allowed : List String) : FieldPolicy := [("/users/**", [("user", allowed)])]

/-- `id` and `email` of a user. -/
theorem strip_exact_users :
    let isMatch := fun _ _ => Except.ok true
    let data := Json.obj [("id", .num (.num 1)), ("secret", .str "s")]
    ∃ result, strip isMatch (usersPolicy ["id", "email"]) data.toJs "/users/1" ["user"] =
        .ok result ∧ Stripped ["id", "email"] data result ∧
      strip isMatch (usersPolicy ["id", "email"]) result "/users/1" ["user"] = .ok result :=
  (strip_exact_iff (fun _ _ => .ok true) (usersPolicy ["id", "email"]) "/users/1" ["user"]
    ["id", "email"] (by decide) rfl (by decide)).mpr (by decide) _

/-- A user without a field `toString`: the result has the method of `Object.prototype`. -/
theorem strip_adds_method :
    let isMatch := fun _ _ => Except.ok true
    let data := Json.obj [("id", .num (.num 1))]
    strip isMatch (usersPolicy ["id", "toString"]) data.toJs "/users/1" ["user"] =
        .ok (.obj [("id", .num (.num 1)), ("toString", .func "toString")] .objectPrototype) ∧
      ¬ ∃ result, strip isMatch (usersPolicy ["id", "toString"]) data.toJs "/users/1" ["user"] =
        .ok result ∧ Stripped ["id", "toString"] data result := by
  intro isMatch data
  have hstrip : strip isMatch (usersPolicy ["id", "toString"]) data.toJs "/users/1" ["user"] =
      .ok (.obj [("id", .num (.num 1)), ("toString", .func "toString")] .objectPrototype) := rfl
  refine ⟨hstrip, ?_⟩
  rintro ⟨result, hresult, hstripped⟩
  rw [hstrip] at hresult
  obtain rfl := Except.ok.inj hresult
  cases (hstripped.only [.key "toString"] rfl).2

end BoPlaInterceptor

end ZTG
