import ZtGateway.Lib.JsObject
import ZtGateway.Spec.Services

/-! `BoPlaInterceptor`: the lookup of the allowed fields and the walk that strips a body. The
bodies are JavaScript values, because the walk asks `in` and assigns by name; `micromatch.isMatch`
is a parameter. -/

namespace ZTG

mutual

/-- what `JSON.parse` builds: a key `__proto__` is an own property like any other -/
def Json.toJs : Json → JsValue
  | .null => .null
  | .bool b => .bool b
  | .num n => .num n
  | .str s => .str s
  | .arr items => .arr (Json.itemsToJs items)
  | .obj fields => .obj (Json.fieldsToJs fields) .objectPrototype

def Json.itemsToJs : List Json → List JsValue
  | [] => []
  | item :: items => item.toJs :: Json.itemsToJs items

def Json.fieldsToJs : List (String × Json) → List (String × JsValue)
  | [] => []
  | (k, v) :: fields => (k, v.toJs) :: Json.fieldsToJs fields

end

/-- route patterns in the order of `Object.entries`, each with the fields of its roles -/
abbrev FieldPolicy := List (String × List (String × List String))

/-- what `roleMap[role]` finds -/
inductive RoleFields where
  | fields (allowed : List String)
  /-- not an own property but one of `Object.prototype`, which is truthy and cannot be iterated -/
  | inherited
  deriving DecidableEq

namespace BoPlaInterceptor

def roleFields (roleMap : List (String × List String)) (role : String) : Option RoleFields :=
  match roleMap.lookup role with
  | some allowed => some (.fields allowed)
  | none => if JsValue.objectNames.contains role then some .inherited else none

def findAllowedFields (isMatch : String → String → Except Err Bool) (requestPath : String)
    (roles : List String) : FieldPolicy → Except Err (Option RoleFields)
  | [] => .ok none
  | (pattern, roleMap) :: rest => do
    if ← isMatch requestPath pattern then pure (roles.findSome? (roleFields roleMap))
    else findAllowedFields isMatch requestPath roles rest

/-- the loop over `allowed`: `has` is `field in data`, `value` what the walk makes of
`data[field]` -/
def walk (allowed : List String) (has : String → Bool) (value : String → JsValue) : JsValue :=
  allowed.foldl (fun out field => if has field then out.assign field (value field) else out) .empty

/-- the walk of `Object.prototype`, whose values are functions and null -/
def applyToPrototype (allowed : List String) : JsValue :=
  walk allowed JsValue.objectPrototype.hasProperty JsValue.ofObjectPrototype

/-- what the walk makes of an inherited value -/
def applyInherited (allowed : List String) (proto : JsValue) (field : String) : JsValue :=
  match proto.inherited field with
  | .objectPrototype => applyToPrototype allowed
  | value => value

mutual

/-- The values of a plain object are walked first and then picked by name, which is the same
since the walk has no effects. -/
def applyAllowList (allowed : List String) : JsValue → JsValue
  | .arr items => .arr (applyItems allowed items)
  | .obj own proto =>
    if (JsValue.obj own proto).isPlain then
      let values := applyValues allowed own
      walk allowed (JsValue.obj own proto).hasProperty fun field =>
        (values.lookup field).getD (applyInherited allowed proto field)
    else .obj own proto
  | .objectPrototype => applyToPrototype allowed
  | data => data

def applyItems (allowed : List String) : List JsValue → List JsValue
  | [] => []
  | item :: items => applyAllowList allowed item :: applyItems allowed items

def applyValues (allowed : List String) : List (String × JsValue) → List (String × JsValue)
  | [] => []
  | (k, value) :: own =>
    (k, if value.typeofObject then applyAllowList allowed value else value) ::
      applyValues allowed own

end

mutual

/-- The walk comes to a plain object, where it iterates over `allowed`. -/
def iterates : JsValue → Bool
  | .arr items => iteratesItems items
  | .obj own proto => (JsValue.obj own proto).isPlain
  | .objectPrototype => true
  | _ => false

def iteratesItems : List JsValue → Bool
  | [] => false
  | item :: items => iterates item || iteratesItems items

end

def strip (isMatch : String → String → Except Err Bool) (policy : FieldPolicy) (data : JsValue)
    (requestPath : String) (roles : List String) : Except Err JsValue := do
  if roles.contains "admin" then return data
  match ← findAllowedFields isMatch requestPath roles policy with
  | none => return .empty
  | some (.fields allowed) =>
    if allowed.head? = some "*" then return data
    return applyAllowList allowed data
  | some .inherited => if iterates data then throw (.error "allowed is not iterable") else return data

end BoPlaInterceptor

end ZTG
