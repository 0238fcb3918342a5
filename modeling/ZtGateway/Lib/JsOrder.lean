import Mathlib.Data.List.Sort
import Mathlib.Data.String.Basic
import Mathlib.Order.WithBot
import ZtGateway.Lib.JsObject

/-! Two readings of the order of an object's keys: as JavaScript enumerates them, with the array
indices first, and as if it did not count. Each arranges the keys, and values with the same
arrangement are the same to that reading. -/

namespace ZTG

section Stable

variable {α : Type*} (r : α → α → Prop) [DecidableRel r] (p : α → Bool)

theorem filter_orderedInsert [IsTrans α r] (a : α) {l : List α} (hl : l.Pairwise r) :
    (l.orderedInsert r a).filter p =
      if p a then (l.filter p).orderedInsert r a else l.filter p := by
  induction l with
  | nil => simp [List.filter_cons]
  | cons b l ih =>
    obtain ⟨hb, hl⟩ := List.pairwise_cons.mp hl
    by_cases hab : r a b
    · rw [List.orderedInsert_cons_of_le r l hab, List.filter_cons]
      split_ifs with ha
      · -- what follows `b` does not come before `a` either
        have hall : ∀ c ∈ (b :: l).filter p, r a c := by
          intro c hc
          rcases List.mem_cons.mp (List.mem_of_mem_filter hc) with rfl | hc
          · exact hab
          · exact IsTrans.trans _ _ _ hab (hb c hc)
        cases hf : (b :: l).filter p with
        | nil => rfl
        | cons c rest =>
          rw [List.orderedInsert_cons_of_le r rest (hall c (hf ▸ List.mem_cons_self))]
      · rfl
    · rw [List.orderedInsert_of_not_le r l hab, List.filter_cons, List.filter_cons, ih hl]
      by_cases hb : p b = true
      · rw [if_pos hb, if_pos hb]
        split_ifs
        · rw [List.orderedInsert_of_not_le r _ hab]
        · rfl
      · rw [if_neg hb, if_neg hb]

/-- Insertion sort is stable, so leaving out elements before it is leaving them out after it. -/
theorem filter_insertionSort [Std.Total r] [IsTrans α r] (l : List α) :
    (l.insertionSort r).filter p = (l.filter p).insertionSort r := by
  induction l with
  | nil => rfl
  | cons a l ih =>
    rw [List.insertionSort_cons, filter_orderedInsert r p a (List.pairwise_insertionSort r l), ih,
      List.filter_cons]
    split_ifs
    · rw [List.insertionSort_cons]
    · rfl

end Stable

inductive KeyOrder where
  /-- array indices first, in ascending order, and the others as they were created -/
  | enumerated
  /-- any order is as good as any other -/
  | ignored

/-- the number that the key is as an array index; the other keys come after all of these -/
def arrayIndex (key : String) : WithTop ℕ :=
  match key.toNat? with
  | some n => if toString n = key ∧ n < 2 ^ 32 - 1 then n else ⊤
  | none => ⊤

namespace KeyOrder

/-- Arranged, `x` may stand before `y`. -/
def Before : KeyOrder → String → String → Prop
  | .enumerated, x, y => arrayIndex x ≤ arrayIndex y
  | .ignored, x, y => x ≤ y

variable (order : KeyOrder)

instance : DecidableRel order.Before :=
  match order with
  | .enumerated => fun x y => inferInstanceAs (Decidable (arrayIndex x ≤ arrayIndex y))
  | .ignored => fun x y => inferInstanceAs (Decidable (x ≤ y))

instance : Std.Total order.Before where
  total x y := by
    cases order with
    | enumerated => exact le_total (arrayIndex x) (arrayIndex y)
    | ignored => exact le_total x y

instance : IsTrans String order.Before where
  trans x y z := by
    cases order with
    | enumerated => exact le_trans
    | ignored => exact le_trans

def keys (keys : List String) : List String := keys.insertionSort order.Before

theorem keys_filter (p : String → Bool) (keys : List String) :
    order.keys (keys.filter p) = (order.keys keys).filter p :=
  (filter_insertionSort order.Before p keys).symm

/-- the properties of an object by their keys -/
def properties (own : List (String × JsValue)) : List (String × JsValue) :=
  own.insertionSort fun x y => order.Before x.1 y.1

/-- Two properties of one key do not change places. -/
theorem lookup_properties (own : List (String × JsValue)) (k : String) :
    (order.properties own).lookup k = own.lookup k := by
  have hinsert : ∀ (x : String × JsValue) (l : List (String × JsValue)),
      (l.orderedInsert (fun x y => order.Before x.1 y.1) x).lookup k = (x :: l).lookup k := by
    intro x l
    induction l with
    | nil => rfl
    | cons y l ih =>
      by_cases hxy : order.Before x.1 y.1
      · rw [List.orderedInsert_cons_of_le _ l hxy]
      · have hne : x.1 ≠ y.1 := fun heq => hxy (heq ▸ Std.Refl.refl x.1)
        rw [List.orderedInsert_of_not_le _ l hxy, JsValue.lookup_cons, ih, JsValue.lookup_cons,
          JsValue.lookup_cons, JsValue.lookup_cons]
        by_cases hx : k = x.1
        · rw [if_pos hx, if_neg (hx ▸ hne), if_pos hx]
        · rw [if_neg hx, if_neg hx]
  induction own with
  | nil => rfl
  | cons x own ih =>
    unfold properties at ih ⊢
    rw [List.insertionSort_cons, hinsert, JsValue.lookup_cons, JsValue.lookup_cons, ih]

theorem properties_map (value : String → JsValue) (keys : List String) :
    order.properties (keys.map fun k => (k, value k)) =
      (order.keys keys).map fun k => (k, value k) :=
  (List.map_insertionSort order.Before (fun x y : String × JsValue => order.Before x.1 y.1)
    (fun k => (k, value k)) keys fun _ _ _ _ => Iff.rfl).symm

end KeyOrder

namespace JsValue

mutual

/-- the value with the keys of every object in it arranged -/
def arranged (order : KeyOrder) : JsValue → JsValue
  | .arr items => .arr (arrangedItems order items)
  | .obj own proto => .obj (order.properties (arrangedOwn order own)) (arranged order proto)
  | v => v

def arrangedItems (order : KeyOrder) : List JsValue → List JsValue
  | [] => []
  | item :: items => arranged order item :: arrangedItems order items

def arrangedOwn (order : KeyOrder) : List (String × JsValue) → List (String × JsValue)
  | [] => []
  | (k, v) :: own => (k, arranged order v) :: arrangedOwn order own

end

variable (order : KeyOrder)

theorem arrangedItems_eq (items : List JsValue) :
    arrangedItems order items = items.map (arranged order) := by
  induction items with
  | nil => rw [arrangedItems, List.map_nil]
  | cons item items ih => rw [arrangedItems, List.map_cons, ih]

theorem arrangedOwn_map (value : String → JsValue) (keys : List String) :
    arrangedOwn order (keys.map fun k => (k, value k)) =
      keys.map fun k => (k, (value k).arranged order) := by
  induction keys with
  | nil => rw [List.map_nil, arrangedOwn, List.map_nil]
  | cons k keys ih => rw [List.map_cons, arrangedOwn, List.map_cons, ih]

theorem lookup_arrangedOwn (own : List (String × JsValue)) (k : String) :
    (order.properties (arrangedOwn order own)).lookup k = (own.lookup k).map (arranged order) := by
  rw [order.lookup_properties]
  induction own with
  | nil => rw [arrangedOwn]; rfl
  | cons x own ih =>
    obtain ⟨k', v⟩ := x
    rw [arrangedOwn, lookup_cons, lookup_cons, ih]
    split_ifs
    · rfl
    · rfl

theorem arranged_keys (value : String → JsValue) (keys : List String) (proto : JsValue) :
    (JsValue.obj (keys.map fun k => (k, value k)) proto).arranged order =
      .obj ((order.keys keys).map fun k => (k, (value k).arranged order))
        (proto.arranged order) := by
  rw [arranged, arrangedOwn_map, order.properties_map]

theorem canBePrototype_arranged (v : JsValue) :
    (v.arranged order).canBePrototype = v.canBePrototype := by
  cases v with
  | arr items => rw [arranged]; rfl
  | obj own proto => rw [arranged]; rfl
  | undefined | null | bool | num | str | func | objectPrototype | exotic => rfl

theorem reachesAccessor_arranged : ∀ v : JsValue,
    (v.arranged order).reachesAccessor = v.reachesAccessor
  | .arr items => by rw [arranged]; rfl
  | .obj own proto => by
    rw [arranged, reachesAccessor, reachesAccessor, lookup_arrangedOwn,
      reachesAccessor_arranged proto, Option.isNone_map]
  | .undefined => rfl
  | .null => rfl
  | .bool _ => rfl
  | .num _ => rfl
  | .str _ => rfl
  | .func _ => rfl
  | .objectPrototype => rfl
  | .exotic _ => rfl

end JsValue

end ZTG
