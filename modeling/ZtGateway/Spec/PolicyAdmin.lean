import Mathlib.Data.Finset.Basic
import ZtGateway.Lib.Mutex
import ZtGateway.Spec.Services

/-! `PolicyEvaluatorService.addRule` and `removeRule`. The enforcer adds or removes one rule of its
memory and says whether the set changed, and `savePolicy` writes the whole memory to the policy
file; each of these calls may also answer `false` or throw, and then does nothing. The calls run
one at a time, behind `writerMutex`; `evaluate` reads the memory at any time. -/

namespace ZTG

open Act

namespace PolicyEvaluatorService

/-- a `p` rule -/
structure Rule where
  sub : String
  obj : String
  act : String
  deriving DecidableEq

inductive EnforcerCall where
  | addPolicy (rule : Rule)
  | removePolicy (rule : Rule)
  | savePolicy

abbrev EnforcerReply (_ : EnforcerCall) := Except Err Bool

/-- the rules that `enforce` uses, and those in the policy file -/
structure Rules where
  memory : Finset Rule
  persisted : Finset Rule
  deriving DecidableEq

inductive Outcome where
  | done
  | refused
  | threw (e : Err)

def perform : (op : EnforcerCall) → Outcome → Rules → EnforcerReply op × Rules
  | _, .refused, s => (.ok false, s)
  | _, .threw e, s => (.error e, s)
  | .addPolicy rule, .done, s =>
    (.ok (decide (rule ∉ s.memory)), { s with memory := insert rule s.memory })
  | .removePolicy rule, .done, s =>
    (.ok (decide (rule ∈ s.memory)), { s with memory := s.memory.erase rule })
  | .savePolicy, .done, s => (.ok true, { s with persisted := s.memory })

def notSaved : Err :=
  .error "savePolicy returned false — check policy/model.conf has [role_definition]"

/-- the body under the mutex, of which `addRule` and `removeRule` are the two cases -/
def changeRule (op : EnforcerCall) : Act EnforcerCall EnforcerReply Unit Err Bool := do
  let changed : Bool ← call op id
  if changed then
    let saved : Bool ← call .savePolicy id
    if !saved then throw notSaved else pure changed
  else pure changed

def addRule (sub obj act : String) : Act EnforcerCall EnforcerReply Unit Err Bool :=
  changeRule (.addPolicy ⟨sub, obj, act⟩)

def removeRule (sub obj act : String) : Act EnforcerCall EnforcerReply Unit Err Bool :=
  changeRule (.removePolicy ⟨sub, obj, act⟩)

/-- a call of the admin API -/
inductive RuleCall where
  | add (sub obj act : String)
  | remove (sub obj act : String)

namespace RuleCall

def run : RuleCall → Prog EnforcerCall EnforcerReply (Except Err Bool)
  | add sub obj act => (addRule sub obj act ()).bind fun r => .ret r.1
  | remove sub obj act => (removeRule sub obj act ()).bind fun r => .ret r.1

/-- what the call is for -/
def apply : RuleCall → Finset Rule → Finset Rule
  | add sub obj act, rules => insert ⟨sub, obj, act⟩ rules
  | remove sub obj act, rules => rules.erase ⟨sub, obj, act⟩

end RuleCall

/-- any number of calls at once, with the log of those that have ended -/
abbrev Admin (ι : Type) :=
  Pool ι (Mutex.Phase EnforcerCall EnforcerReply Rules (Except Err Bool))
    (Mutex.Guarded ι Rules (Except Err Bool))

variable {ι : Type} [DecidableEq ι]

/-- `onModuleInit` has loaded the policy file. -/
def Admin.init (rules : Finset Rule) : Admin ι := Mutex.start ⟨rules, rules⟩

/-- One call takes a step; the outcome is that of the enforcer, if it asks the enforcer. -/
def Admin.step (calls : ι → RuleCall) : Admin ι → ι × Outcome → Admin ι :=
  Pool.step (Mutex.act perform fun i => (calls i).run)

/-- The step, if it is a `savePolicy`, writes the file. -/
def Admin.Saves : Admin ι → ι × Outcome → Prop :=
  Mutex.Allowed fun op c _ => op = .savePolicy → c = .done

end PolicyEvaluatorService

end ZTG
