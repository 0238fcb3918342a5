import ZtGateway.Lib.JsOrder
import ZtGateway.Proofs.Bopla

/-! The walk of a body by any allow-list, path by path. What is left depends on the names that the
list creates, and a list that creates more of them leaves more. -/

namespace ZTG

namespace BoPlaInterceptor

variable {has : String → Bool} {value : String → JsValue} {k : String} {a b : List String}

/-- what the walk of an object puts under a name -/
def fieldValue (allowed : List String) (fields : List (String × Json)) (k : String) : JsValue :=
  ((fields.lookup k).map fun v => applyAllowList allowed v.toJs).getD
    (applyInherited allowed .objectPrototype k)

def hasField (fields : List (String × Json)) (k : String) : Bool :=
  (fields.lookup k).isSome || JsValue.objectNames.contains k

theorem applyAllowList_object (allowed : List String) (fields : List (String × Json)) :
    applyAllowList allowed (Json.obj fields).toJs =
      .obj (ownOf (created allowed) (hasField fields) (fieldValue allowed fields))
        (protoOf (allowed.contains "__proto__") (fieldValue allowed fields)) := by
  have hhas : (JsValue.obj (Json.fieldsToJs fields) .objectPrototype).hasProperty =
      hasField fields := by
    funext k
    rw [JsValue.hasProperty, Json.lookup_fieldsToJs, Option.isSome_map]
    rfl
  have hvalue : (fun field => ((applyValues allowed (Json.fieldsToJs fields)).lookup field).getD
      (applyInherited allowed .objectPrototype field)) = fieldValue allowed fields := by
    funext k
    rw [lookup_applyValues, Json.lookup_fieldsToJs, Option.map_map]
    rfl
  rw [Json.toJs, applyAllowList,
    if_pos (show (JsValue.obj (Json.fieldsToJs fields) .objectPrototype).isPlain = true from rfl)]
  dsimp only
  rw [hhas, hvalue]
  exact walk_eq (by simp [hasField, JsValue.objectNames]) allowed

/-- Walks that create the same names, up to the order, and find the same values under them. -/
theorem arranged_walk (order : KeyOrder) {value' : String → JsValue}
    (hvalue : ∀ k, (value k).arranged order = (value' k).arranged order)
    (hsets : a.contains "__proto__" = b.contains "__proto__")
    (hnames : order.keys (created a) = order.keys (created b)) :
    (JsValue.obj (ownOf (created a) has value)
        (protoOf (a.contains "__proto__") value)).arranged order =
      (JsValue.obj (ownOf (created b) has value')
        (protoOf (b.contains "__proto__") value')).arranged order := by
  have hcan : ∀ k, (value k).canBePrototype = (value' k).canBePrototype := by
    intro k
    rw [← JsValue.canBePrototype_arranged order, hvalue, JsValue.canBePrototype_arranged]
  have hreaches : ∀ k, (value k).reachesAccessor = (value' k).reachesAccessor := by
    intro k
    rw [← JsValue.reachesAccessor_arranged order, hvalue, JsValue.reachesAccessor_arranged]
  have hcreates : creates has value = creates has value' := by
    funext k
    rw [creates, creates, hcan, hreaches]
  have hproto : (protoOf (a.contains "__proto__") value).arranged order =
      (protoOf (b.contains "__proto__") value').arranged order := by
    rw [protoOf, protoOf, hsets, hcan]
    split_ifs
    · exact hvalue "__proto__"
    · rfl
  rw [ownOf, ownOf, JsValue.arranged_keys, JsValue.arranged_keys, order.keys_filter,
    order.keys_filter, hnames, hcreates, hproto]
  congr 1
  exact List.map_congr_left fun k _ => congrArg (Prod.mk k) (hvalue k)

/-- Lists that create the same names, and set the prototype alike, strip alike. -/
theorem applyAllowList_congr (order : KeyOrder)
    (hsets : a.contains "__proto__" = b.contains "__proto__")
    (hnames : order.keys (created a) = order.keys (created b)) (data : Json) :
    (applyAllowList a data.toJs).arranged order =
      (applyAllowList b data.toJs).arranged order := by
  induction data using Json.induct with
  | leaf j hleaf => rw [applyAllowList_leaf hleaf, applyAllowList_leaf hleaf]
  | arr items ih =>
    rw [applyAllowList_arr, applyAllowList_arr, JsValue.arranged, JsValue.arranged,
      JsValue.arrangedItems_eq, JsValue.arrangedItems_eq, List.map_map, List.map_map]
    exact congrArg JsValue.arr (List.map_congr_left ih)
  | obj fields ih =>
    rw [applyAllowList_object, applyAllowList_object]
    refine arranged_walk order (fun k => ?_) hsets hnames
    unfold fieldValue
    cases hlookup : fields.lookup k with
    | some v => exact ih (k, v) (mem_of_lookup hlookup)
    | none =>
      simp only [Option.map_none, Option.getD_none]
      unfold applyInherited
      split
      · rw [applyToPrototype_eq, applyToPrototype_eq]
        exact arranged_walk order (fun _ => rfl) hsets hnames
      · rfl

theorem proto_mem (h : "__proto__" ∈ created a) : a.contains "__proto__" = true :=
  List.contains_iff_mem.mpr (List.erase_subset (mem_created.mp h))

/-- With `__proto__` in the list twice, the value under this name tells whether the result of the
walk still reaches the accessor. -/
theorem reachesAccessor_walk (ha : "__proto__" ∈ created a) (hhas : has "__proto__" = true) :
    (JsValue.obj (ownOf (created a) has value)
      (protoOf (a.contains "__proto__") value)).reachesAccessor =
      (!(value "__proto__").canBePrototype || (value "__proto__").reachesAccessor) := by
  have hcreates : creates has value "__proto__" =
      ((value "__proto__").canBePrototype && !(value "__proto__").reachesAccessor) := by
    simp [creates, hhas]
  rw [JsValue.reachesAccessor, lookup_ownOf, hcreates, proto_mem ha, protoOf, Bool.true_and]
  by_cases hcan : (value "__proto__").canBePrototype = true
  · rw [if_pos hcan, hcan]
    by_cases hreaches : (value "__proto__").reachesAccessor = true
    · simp [hreaches]
    · simp [ha, hreaches]
  · rw [if_neg hcan]
    simp [hcan, JsValue.reachesAccessor]

theorem reachesAccessor_prototype (ha : "__proto__" ∈ created a) :
    (applyToPrototype a).reachesAccessor = false := by
  rw [applyToPrototype_eq, reachesAccessor_walk ha rfl]
  rfl

/-- What became of a value as a prototype does not depend on the rest of the list. -/
theorem accessor_of_created (ha : "__proto__" ∈ created a) (hb : "__proto__" ∈ created b)
    (j : Json) :
    (applyAllowList a j.toJs).canBePrototype = (applyAllowList b j.toJs).canBePrototype ∧
    (applyAllowList a j.toJs).reachesAccessor = (applyAllowList b j.toJs).reachesAccessor := by
  induction j using Json.induct with
  | leaf j hleaf =>
    rw [applyAllowList_leaf hleaf, applyAllowList_leaf hleaf]
    exact ⟨rfl, rfl⟩
  | arr items ih =>
    rw [applyAllowList_arr, applyAllowList_arr]
    exact ⟨rfl, rfl⟩
  | obj fields ih =>
    have hhas : hasField fields "__proto__" = true := by simp [hasField, JsValue.objectNames]
    rw [applyAllowList_object, applyAllowList_object, reachesAccessor_walk ha hhas,
      reachesAccessor_walk hb hhas]
    refine ⟨rfl, ?_⟩
    unfold fieldValue
    cases hlookup : fields.lookup "__proto__" with
    | none =>
      have hproto : ∀ l, applyInherited l .objectPrototype "__proto__" = applyToPrototype l :=
        fun l => rfl
      have hcan : ∀ l, (applyToPrototype l).canBePrototype = true := by
        intro l
        rw [applyToPrototype_eq]
        rfl
      rw [Option.map_none, Option.map_none, Option.getD_none, Option.getD_none, hproto, hproto,
        hcan, hcan, reachesAccessor_prototype ha, reachesAccessor_prototype hb]
    | some v =>
      obtain ⟨hcan, hreaches⟩ := ih _ (mem_of_lookup hlookup)
      rw [Option.map_some, Option.map_some, Option.getD_some, Option.getD_some, hcan, hreaches]

/-- what the walk leaves under a key of the data -/
theorem atPath_object {v : Json} {fields : List (String × Json)} {k : String}
    (hv : fields.lookup k = some v) (p : List PathStep) :
    ((applyAllowList a (Json.obj fields).toJs).atPath (.key k :: p)).isSome ↔
      k ∈ created a ∧
        (k = "__proto__" → (applyAllowList a v.toJs).canBePrototype = true ∧
          (applyAllowList a v.toJs).reachesAccessor = false) ∧
        ((applyAllowList a v.toJs).atPath p).isSome := by
  have hvalue : fieldValue a fields k = applyAllowList a v.toJs := by
    rw [fieldValue, hv]
    rfl
  have hhas : hasField fields k = true := by simp [hasField, hv]
  have hcreates : creates (hasField fields) (fieldValue a fields) k = true ↔
      (k = "__proto__" → (applyAllowList a v.toJs).canBePrototype = true ∧
        (applyAllowList a v.toJs).reachesAccessor = false) := by
    rw [creates, hhas, hvalue]
    by_cases hk : k = "__proto__"
    · simp [hk]
    · simp [hk]
  rw [applyAllowList_object, JsValue.atPath, lookup_ownOf, hvalue, ← hcreates, ← and_assoc]
  by_cases hk : k ∈ created a ∧ creates (hasField fields) (fieldValue a fields) k = true
  · rw [if_pos hk, and_iff_right hk]
    rfl
  · rw [if_neg hk]
    exact iff_of_false Bool.false_ne_true fun h => hk h.1

/-- A list that creates more names leaves more of the body. -/
theorem atPath_mono (h : ∀ k ∈ created a, k ∈ created b) (p : List PathStep) (j : Json)
    (hj : (j.atPath p).isSome) (hp : ((applyAllowList a j.toJs).atPath p).isSome) :
    ((applyAllowList b j.toJs).atPath p).isSome := by
  induction p generalizing j with
  | nil => rfl
  | cons x p ih =>
    cases j with
    | null | bool | num | str => rwa [applyAllowList_leaf rfl] at hp ⊢
    | arr items =>
      cases x with
      | key k => cases hj
      | pos n =>
        rw [Json.atPath] at hj
        rw [applyAllowList_arr, JsValue.atPath, List.getElem?_map] at hp ⊢
        cases hn : items[n]? with
        | none =>
          rw [hn] at hj
          cases hj
        | some item =>
          rw [hn] at hj hp
          exact ih item hj hp
    | obj fields =>
      cases x with
      | pos n => cases hj
      | key k =>
        rw [Json.atPath] at hj
        cases hv : fields.lookup k with
        | none =>
          rw [hv] at hj
          cases hj
        | some v =>
          rw [hv] at hj
          rw [atPath_object hv] at hp ⊢
          obtain ⟨hk, hproto, hp⟩ := hp
          refine ⟨h k hk, fun heq => ?_, ih v hj hp⟩
          subst heq
          obtain ⟨hcan, hreaches⟩ := accessor_of_created hk (h _ hk) v
          rw [← hcan, ← hreaches]
          exact hproto rfl

/-- The last key of a visible field is shown. -/
theorem created_of_atPath (p : List PathStep) (k : String) (j : Json)
    (hj : (j.atPath (p ++ [.key k])).isSome)
    (hp : ((applyAllowList a j.toJs).atPath (p ++ [.key k])).isSome) : k ∈ created a := by
  induction p generalizing j with
  | nil =>
    cases j with
    | null | bool | num | str | arr => cases hj
    | obj fields =>
      rw [List.nil_append, Json.atPath] at hj
      cases hv : fields.lookup k with
      | none =>
        rw [hv] at hj
        cases hj
      | some v =>
        rw [List.nil_append, atPath_object hv] at hp
        exact hp.1
  | cons x p ih =>
    cases j with
    | null | bool | num | str =>
      rw [List.cons_append, (atPath_leaf rfl _ _).2] at hj
      cases hj
    | arr items =>
      cases x with
      | key k => cases hj
      | pos n =>
        rw [List.cons_append, Json.atPath] at hj
        rw [List.cons_append, applyAllowList_arr, JsValue.atPath, List.getElem?_map] at hp
        cases hn : items[n]? with
        | none =>
          rw [hn] at hj
          cases hj
        | some item =>
          rw [hn] at hj hp
          exact ih item hj hp
    | obj fields =>
      cases x with
      | pos n => cases hj
      | key k' =>
        rw [List.cons_append, Json.atPath] at hj
        cases hv : fields.lookup k' with
        | none =>
          rw [hv] at hj
          cases hj
        | some v =>
          rw [hv] at hj
          rw [List.cons_append, atPath_object hv] at hp
          exact ih v hj hp.2.2

theorem atPath_toJs (p : List PathStep) (j : Json) :
    j.toJs.atPath p = (j.atPath p).map Json.toJs := by
  induction p generalizing j with
  | nil => rfl
  | cons x p ih =>
    cases j with
    | null | bool | num | str => rw [(atPath_leaf rfl x p).1, (atPath_leaf rfl x p).2]; rfl
    | arr items =>
      cases x with
      | key k => rfl
      | pos n =>
        rw [Json.toJs, Json.itemsToJs_eq, JsValue.atPath, Json.atPath, List.getElem?_map]
        cases items[n]? with
        | none => rfl
        | some item => exact ih item
    | obj fields =>
      cases x with
      | key k =>
        rw [Json.toJs, JsValue.atPath, Json.atPath, Json.lookup_fieldsToJs]
        cases fields.lookup k with
        | none => rfl
        | some v => exact ih v
      | pos n => rfl

/-- Arranging the keys moves no path. -/
theorem atPath_arranged (order : KeyOrder) (p : List PathStep) (v : JsValue) :
    ((v.arranged order).atPath p).isSome = (v.atPath p).isSome := by
  induction p generalizing v with
  | nil => rfl
  | cons x p ih =>
    cases v with
    | undefined | null | bool | num | str | func | objectPrototype | exotic => rfl
    | arr items =>
      cases x with
      | key k => rw [JsValue.arranged]; rfl
      | pos n =>
        rw [JsValue.arranged, JsValue.arrangedItems_eq, JsValue.atPath, JsValue.atPath,
          List.getElem?_map]
        cases items[n]? with
        | none => rfl
        | some item => exact ih item
    | obj own proto =>
      cases x with
      | pos n => rw [JsValue.arranged]; rfl
      | key k =>
        rw [JsValue.arranged, JsValue.atPath, JsValue.atPath, JsValue.lookup_arrangedOwn]
        cases own.lookup k with
        | none => rfl
        | some v => exact ih v

theorem iterates_item {items : List Json} (h : iterates (Json.arr items).toJs = false)
    {item : Json} (hmem : item ∈ items) : iterates item.toJs = false := by
  rw [Json.toJs, iterates] at h
  induction items with
  | nil => exact absurd hmem List.not_mem_nil
  | cons item' items ih =>
    rw [Json.itemsToJs, iteratesItems, Bool.or_eq_false_iff] at h
    rcases List.mem_cons.mp hmem with rfl | hmem
    · exact h.1
    · exact ih h.2 hmem

/-- Where the walk comes to no object, there is no field. -/
theorem atPath_of_not_iterates {j : Json} (h : iterates j.toJs = false) (p : List PathStep)
    (k : String) : j.atPath (p ++ [.key k]) = none := by
  induction j using Json.induct generalizing p with
  | leaf j hleaf =>
    cases p with
    | nil => exact (atPath_leaf hleaf _ _).2
    | cons x p => exact (atPath_leaf hleaf _ _).2
  | arr items ih =>
    cases p with
    | nil => rfl
    | cons x p =>
      cases x with
      | key k' => rfl
      | pos n =>
        rw [List.cons_append, Json.atPath]
        cases hn : items[n]? with
        | none => rfl
        | some item =>
          have hmem := List.mem_of_getElem? hn
          exact ih item hmem (iterates_item h hmem) p
  | obj fields ih => cases h

/-- an object with these names, all of them null -/
def nullObject (names : List String) : Json := .obj (names.map fun k => (k, .null))

theorem lookup_nulls (names : List String) (k : String) :
    (names.map fun k => (k, Json.null)).lookup k = if k ∈ names then some .null else none := by
  induction names with
  | nil => rfl
  | cons f names ih =>
    by_cases hk : k = f
    · subst hk
      simp
    · have hne : (k == f) = false := beq_false_of_ne hk
      rw [List.map_cons, List.lookup_cons, hne, ih]
      simp [hk]

theorem fieldValue_nulls {names : List String} (hk : k ∈ names) :
    fieldValue a (names.map fun k => (k, .null)) k = .null := by
  unfold fieldValue
  rw [lookup_nulls, if_pos hk]
  rfl

theorem creates_nulls {names : List String} (hk : k ∈ names) :
    creates (hasField (names.map fun k => (k, .null)))
      (fieldValue a (names.map fun k => (k, .null))) k = true := by
  unfold creates hasField
  rw [fieldValue_nulls hk, lookup_nulls, if_pos hk]
  simp [JsValue.canBePrototype, JsValue.reachesAccessor]

/-- An object of nulls shows which names are created, and whether the prototype is set. -/
theorem applyAllowList_nulls {names : List String} (hproto : "__proto__" ∈ names)
    (hnames : ∀ k ∈ a, k ∈ names) : applyAllowList a (nullObject names).toJs =
      .obj ((created a).map fun k => (k, .null))
        (if a.contains "__proto__" then .null else .objectPrototype) := by
  have hcreated : ∀ k ∈ created a, k ∈ names := fun k hk =>
    hnames k (List.erase_subset (mem_created.mp hk))
  rw [nullObject, applyAllowList_object, ownOf, protoOf, fieldValue_nulls hproto,
    List.filter_eq_self.mpr fun k hk => creates_nulls (hcreated k hk)]
  congr 1
  · exact List.map_congr_left fun k hk => by rw [fieldValue_nulls (hcreated k hk)]
  · rw [show JsValue.null.canBePrototype = true from rfl, Bool.and_true]

end BoPlaInterceptor

end ZTG
