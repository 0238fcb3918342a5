import ZtGateway.Lib.JsNumber

/-! JavaScript values as far as plain objects are concerned: own properties, the prototype, and
what `in`, reading and assigning do with the two. `Object.prototype` has methods, which anyone
may shadow, and the accessor `__proto__`, which reads and sets the prototype. -/

namespace ZTG

inductive JsValue where
  | undefined
  | null
  | bool (b : Bool)
  | num (n : JsNum)
  | str (s : String)
  | func (name : String)
  | arr (items : List JsValue)
  /-- own properties in the order of their creation, and the prototype -/
  | obj (own : List (String × JsValue)) (proto : JsValue)
  | objectPrototype
  /-- an instance of a class, such as a Buffer or a Date -/
  | exotic (name : String)

namespace JsValue

def objectMethods : List String :=
  ["constructor", "__defineGetter__", "__defineSetter__", "hasOwnProperty", "__lookupGetter__",
    "__lookupSetter__", "isPrototypeOf", "propertyIsEnumerable", "toString", "valueOf",
    "toLocaleString"]

def objectNames : List String := "__proto__" :: objectMethods

def empty : JsValue := .obj [] .objectPrototype

def isObject : JsValue → Bool
  | .func _ | .arr _ | .obj _ _ | .objectPrototype | .exotic _ => true
  | .undefined | .null | .bool _ | .num _ | .str _ => false

/-- `typeof value === 'object'`, null left out -/
def typeofObject : JsValue → Bool
  | .func _ => false
  | v => v.isObject

/-- an object whose prototype is `Object.prototype` or null -/
def isPlain : JsValue → Bool
  | .obj _ .objectPrototype | .obj _ .null | .objectPrototype => true
  | _ => false

def hasProperty : JsValue → String → Bool
  | .obj own proto, key => (own.lookup key).isSome || proto.hasProperty key
  | .objectPrototype, key => objectNames.contains key
  | _, _ => false

def inherited : JsValue → String → JsValue
  | .objectPrototype, key =>
    if key = "__proto__" then .objectPrototype
    else if objectMethods.contains key then .func key else .undefined
  | _, _ => .undefined

/-- what `Object.prototype` itself answers: its own prototype is null -/
def ofObjectPrototype (key : String) : JsValue :=
  if key = "__proto__" then .null
  else if objectMethods.contains key then .func key else .undefined

/-- An object with this prototype finds the accessor `__proto__` when it assigns the name. -/
def reachesAccessor : JsValue → Bool
  | .objectPrototype | .func _ | .arr _ | .exotic _ => true
  | .obj own proto => (own.lookup "__proto__").isNone && proto.reachesAccessor
  | .undefined | .null | .bool _ | .num _ | .str _ => false

def canBePrototype : JsValue → Bool
  | .null => true
  | v => v.isObject

def setKey (own : List (String × JsValue)) (key : String) (v : JsValue) : List (String × JsValue) :=
  match own with
  | [] => [(key, v)]
  | (k, w) :: rest => if k = key then (k, v) :: rest else (k, w) :: setKey rest key v

/-- `target[key] = v`, for an extensible object with writable properties -/
def assign (target : JsValue) (key : String) (v : JsValue) : JsValue :=
  match target with
  | .obj own proto =>
    if key = "__proto__" ∧ (own.lookup key).isNone ∧ proto.reachesAccessor then
      if v.canBePrototype then .obj own v else .obj own proto
    else .obj (setKey own key v) proto
  | other => other

theorem lookup_cons (k key : String) (v : JsValue) (own : List (String × JsValue)) :
    ((key, v) :: own).lookup k = if k = key then some v else own.lookup k := by
  by_cases h : k = key
  · subst h
    simp
  · have hne : (k == key) = false := beq_false_of_ne h
    rw [List.lookup_cons, hne, if_neg h]

theorem lookup_setKey (own : List (String × JsValue)) (key : String) (v : JsValue) (k : String) :
    (setKey own key v).lookup k = if k = key then some v else own.lookup k := by
  induction own with
  | nil => exact lookup_cons k key v []
  | cons x own ih =>
    obtain ⟨k', w⟩ := x
    unfold setKey
    by_cases hkey : k' = key
    · subst hkey
      rw [if_pos rfl, lookup_cons, lookup_cons]
      split_ifs <;> rfl
    · rw [if_neg hkey, lookup_cons, lookup_cons, ih]
      by_cases hk : k = k'
      · rw [if_pos hk, if_neg (hk ▸ hkey), if_pos hk]
      · rw [if_neg hk, if_neg hk]

end JsValue

end ZTG
