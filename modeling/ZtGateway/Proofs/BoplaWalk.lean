import ZtGateway.Spec.Bopla

/-! The walk in a closed form: the names it can create, in the order of their creation, and whether
the prototype is set. -/

namespace ZTG

namespace BoPlaInterceptor

/-- A name goes behind the others, unless it is one of them. -/
def addKey (keys : List String) (k : String) : List String :=
  if k ∈ keys then keys else keys ++ [k]

/-- The names in the order in which the walk creates them. The first `__proto__` creates nothing:
it sets the prototype. -/
def created (l : List String) : List String := (l.erase "__proto__").foldl addKey []

/-- An assignment to the name creates an own property; for `__proto__`, one that comes after the
prototype was set. -/
def creates (has : String → Bool) (value : String → JsValue) (k : String) : Bool :=
  has k && (k != "__proto__" || ((value k).canBePrototype && !(value k).reachesAccessor))

def ownOf (keys : List String) (has : String → Bool) (value : String → JsValue) :
    List (String × JsValue) :=
  (keys.filter (creates has value)).map fun k => (k, value k)

def protoOf (sets : Bool) (value : String → JsValue) : JsValue :=
  if sets && (value "__proto__").canBePrototype then value "__proto__" else .objectPrototype

variable {has : String → Bool} {value : String → JsValue} {k : String} {keys l : List String}

theorem mem_foldl_addKey (l keys : List String) :
    k ∈ l.foldl addKey keys ↔ k ∈ keys ∨ k ∈ l := by
  induction l generalizing keys with
  | nil => simp
  | cons f l ih =>
    rw [List.foldl_cons, ih, addKey]
    split_ifs with hf
    · rw [List.mem_cons]
      constructor
      · rintro (h | h)
        · exact .inl h
        · exact .inr (.inr h)
      · rintro (h | rfl | h)
        · exact .inl h
        · exact .inl hf
        · exact .inr h
    · rw [List.mem_append, List.mem_singleton, List.mem_cons, or_assoc]

theorem mem_created : k ∈ created l ↔ k ∈ l.erase "__proto__" := by
  rw [created, mem_foldl_addKey]
  simp

theorem setKey_map (value : String → JsValue) (keys : List String) (k : String) :
    JsValue.setKey (keys.map fun k => (k, value k)) k (value k) =
      (addKey keys k).map fun k => (k, value k) := by
  induction keys with
  | nil => rfl
  | cons f keys ih =>
    rw [List.map_cons, JsValue.setKey]
    by_cases hf : f = k
    · subst hf
      rw [if_pos rfl, addKey, if_pos List.mem_cons_self, List.map_cons]
    · rw [if_neg hf, ih, addKey, addKey]
      by_cases hmem : k ∈ keys
      · rw [if_pos hmem, if_pos (List.mem_cons_of_mem _ hmem), List.map_cons]
      · rw [if_neg hmem, if_neg (by simp [Ne.symm hf, hmem]), List.cons_append, List.map_cons]

theorem ownOf_addKey (hk : creates has value k = true) :
    ownOf (addKey keys k) has value = JsValue.setKey (ownOf keys has value) k (value k) := by
  have hmem : k ∈ keys.filter (creates has value) ↔ k ∈ keys := by simp [hk]
  rw [ownOf, ownOf, setKey_map, addKey, addKey]
  simp only [hmem]
  split_ifs
  · rfl
  · rw [List.filter_append, List.filter_cons_of_pos hk, List.filter_nil]

theorem ownOf_addKey_of_not (hk : creates has value k = false) :
    ownOf (addKey keys k) has value = ownOf keys has value := by
  rw [ownOf, ownOf, addKey]
  split_ifs
  · rfl
  · rw [List.filter_append, List.filter_cons_of_neg (by simp [hk]), List.filter_nil,
      List.append_nil]

theorem lookup_ownOf (keys : List String) (k : String) : (ownOf keys has value).lookup k =
    if k ∈ keys ∧ creates has value k = true then some (value k) else none := by
  induction keys with
  | nil => rfl
  | cons f keys ih =>
    unfold ownOf at ih ⊢
    by_cases hf : creates has value f = true
    · rw [List.filter_cons_of_pos hf, List.map_cons, JsValue.lookup_cons, ih]
      by_cases hk : k = f
      · subst hk
        simp [hf]
      · simp [hk]
    · rw [List.filter_cons_of_neg hf, ih]
      by_cases hk : k = f
      · subst hk
        simp [hf]
      · simp [hk]

/-- one round of the loop -/
theorem walk_snoc (l : List String) (k : String) : walk (l ++ [k]) has value =
    if has k then (walk l has value).assign k (value k) else walk l has value := by
  rw [walk, walk, List.foldl_append, List.foldl_cons, List.foldl_nil]

theorem created_snoc (l : List String) (k : String) : created (l ++ [k]) =
    if k = "__proto__" ∧ "__proto__" ∉ l then created l else addKey (created l) k := by
  unfold created
  by_cases hl : "__proto__" ∈ l
  · rw [List.erase_append_left _ hl, List.foldl_append, if_neg fun h => h.2 hl]
    rfl
  · rw [List.erase_append_right _ hl, List.erase_of_not_mem hl]
    by_cases hk : k = "__proto__"
    · subst hk
      rw [if_pos ⟨rfl, hl⟩, List.erase_cons_head, List.append_nil]
    · have hk' : [k].erase "__proto__" = [k] := List.erase_of_not_mem (by simp [Ne.symm hk])
      rw [if_neg fun h => hk h.1, hk', List.foldl_append]
      rfl

theorem assign_of_ne (hk : k ≠ "__proto__") (own : List (String × JsValue)) (proto v : JsValue) :
    (JsValue.obj own proto).assign k v = .obj (JsValue.setKey own k v) proto := by
  unfold JsValue.assign
  exact if_neg fun h => hk h.1

theorem assign_proto (own : List (String × JsValue)) (proto v : JsValue) :
    (JsValue.obj own proto).assign "__proto__" v =
      if (own.lookup "__proto__").isNone = true ∧ proto.reachesAccessor = true then
        if v.canBePrototype then .obj own v else .obj own proto
      else .obj (JsValue.setKey own "__proto__" v) proto := by
  unfold JsValue.assign
  simp only [true_and]

/-- One more `__proto__`: the first sets the prototype, the others repeat this or create the
property; a primitive is ignored every time. -/
theorem walk_proto (hhas : has "__proto__" = true) (l : List String) :
    (JsValue.obj (ownOf (created l) has value) (protoOf (l.contains "__proto__") value)).assign
        "__proto__" (value "__proto__") =
      .obj (ownOf (created (l ++ ["__proto__"])) has value) (protoOf true value) := by
  have hcreates : creates has value "__proto__" =
      ((value "__proto__").canBePrototype && !(value "__proto__").reachesAccessor) := by
    simp [creates, hhas]
  rw [assign_proto, lookup_ownOf, created_snoc, hcreates]
  by_cases hcan : (value "__proto__").canBePrototype = true
  · by_cases hl : "__proto__" ∈ l
    · have hproto : ∀ sets, protoOf sets value =
          if sets then value "__proto__" else .objectPrototype := by
        intro sets
        simp [protoOf, hcan]
      rw [if_neg (show ¬ ("__proto__" = "__proto__" ∧ "__proto__" ∉ l) from fun h => h.2 hl),
        hproto, hproto, List.contains_iff_mem.mpr hl, if_pos rfl]
      by_cases hreaches : (value "__proto__").reachesAccessor = true
      · rw [ownOf_addKey_of_not (by rw [hcreates, hreaches]; simp)]
        simp [hcan, hreaches]
      · rw [ownOf_addKey (by rw [hcreates, hcan]; simpa using hreaches),
          if_neg fun h => hreaches h.2]
    · have hnot : "__proto__" ∉ created l := by
        rw [mem_created, List.erase_of_not_mem hl]
        exact hl
      simp [hnot, hl, hcan, protoOf, JsValue.reachesAccessor]
  · have hproto : ∀ sets, protoOf sets value = .objectPrototype := by
      intro sets
      simp [protoOf, hcan]
    rw [hproto, hproto]
    have hkept : ownOf (addKey (created l) "__proto__") has value =
        ownOf (created l) has value :=
      ownOf_addKey_of_not (by rw [hcreates]; simp [hcan])
    rw [if_pos ⟨by simp [hcan], rfl⟩, if_neg hcan]
    split_ifs
    · rfl
    · rw [hkept]

/-- The walk of an object that has the name `__proto__`, be it inherited. -/
theorem walk_eq (hhas : has "__proto__" = true) (l : List String) : walk l has value =
    .obj (ownOf (created l) has value) (protoOf (l.contains "__proto__") value) := by
  induction l using List.reverseRecOn with
  | nil => rfl
  | append_singleton l k ih =>
    rw [walk_snoc, ih]
    by_cases hk : k = "__proto__"
    · subst hk
      rw [if_pos hhas, walk_proto hhas,
        show (l ++ ["__proto__"]).contains "__proto__" = true by simp]
    · have hcontains : (l ++ [k]).contains "__proto__" = l.contains "__proto__" := by
        simp [Ne.symm hk]
      have hcreates : creates has value k = has k := by simp [creates, hk]
      rw [hcontains, created_snoc,
        if_neg (show ¬ (k = "__proto__" ∧ "__proto__" ∉ l) from fun h => hk h.1)]
      by_cases hhk : has k = true
      · rw [if_pos hhk, assign_of_ne hk, ownOf_addKey (hcreates.trans hhk)]
      · rw [if_neg hhk, ownOf_addKey_of_not (hcreates.trans (Bool.not_eq_true _ ▸ hhk))]

theorem applyToPrototype_eq (allowed : List String) : applyToPrototype allowed =
    .obj (ownOf (created allowed) JsValue.objectPrototype.hasProperty JsValue.ofObjectPrototype)
      (protoOf (allowed.contains "__proto__") JsValue.ofObjectPrototype) :=
  walk_eq rfl allowed

end BoPlaInterceptor

end ZTG
