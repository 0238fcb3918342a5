import ZtGateway.Lib.JsMap
import ZtGateway.Spec.Services

/-! `FingerprintStore` and the aggregation of `TrustScoreService`. The rules and the
providers answer a signal or throw; what they compute is not looked at here. -/

namespace ZTG

/-- `expiresAt` in milliseconds; the time to live may be any finite number -/
structure BlacklistEntry where
  expiresAt : ℚ
  isTerminal : Bool

/-- the blacklist, and the sizes announced to the metrics so far -/
structure FingerprintStore where
  blacklist : JsMap String BlacklistEntry := .empty
  sizes : List ℕ := []

namespace FingerprintStore

def emitSize (st : FingerprintStore) : FingerprintStore :=
  { st with sizes := st.sizes ++ [st.blacklist.size] }

/-- The expiry is the exact sum; the source adds doubles, which rounds a sum that needs more than 53
bits. -/
def add (st : FingerprintStore) (now : ℕ) (fingerprint : String) (ttlMs : ℚ) (isTerminal : Bool) :
    FingerprintStore :=
  emitSize { st with blacklist := st.blacklist.set fingerprint ⟨now + ttlMs, isTerminal⟩ }

/-- the body of `isBlacklisted` and `isTerminal`, which differ in what they say of a live entry -/
def check (st : FingerprintStore) (now : ℕ) (fingerprint : String) (live : BlacklistEntry → Bool) :
    Bool × FingerprintStore :=
  match st.blacklist.get fingerprint with
  | none => (false, st)
  | some entry =>
    if entry.expiresAt ≤ now then
      (false, emitSize { st with blacklist := st.blacklist.delete fingerprint })
    else (live entry, st)

def isBlacklisted (st : FingerprintStore) (now : ℕ) (fingerprint : String) :
    Bool × FingerprintStore := st.check now fingerprint fun _ => true

def isTerminal (st : FingerprintStore) (now : ℕ) (fingerprint : String) :
    Bool × FingerprintStore := st.check now fingerprint (·.isTerminal)

def size (st : FingerprintStore) : ℕ := st.blacklist.size

def clear (st : FingerprintStore) : FingerprintStore := emitSize { st with blacklist := .empty }

/-- a terminal entry that has not expired -/
def LiveTerminal (st : FingerprintStore) (now : ℕ) (fingerprint : String) : Prop :=
  ∃ entry, st.blacklist.get fingerprint = some entry ∧ (now : ℚ) < entry.expiresAt ∧
    entry.isTerminal = true

end FingerprintStore

structure SignalAdjustment where
  source : String
  delta : JsNum
  reason : String
  decayable : Bool

/-- What the signals of one request answer: the rules and the two providers of phase 1, in
order and by name, and the decay of phase 2. -/
structure SignalAnswers where
  phase1 : List (String × Except Err SignalAdjustment)
  attenuate : List SignalAdjustment → Except Err SignalAdjustment

namespace TrustScoreService

/-- `faultAdjustment`; `literal` turns a decimal of the source into a number -/
def faultAdjustment (literal : ℚ → JsNum) (source : String) : SignalAdjustment :=
  { source := source, delta := literal (1 / 10), reason := source ++ "_fault", decayable := false }

def settled (literal : ℚ → JsNum) (source : String) :
    Except Err SignalAdjustment → SignalAdjustment
  | .ok a => a
  | .error _ => faultAdjustment literal source

/-- `evaluateScore`, and the store it leaves; `add` is the addition of doubles -/
def evaluateScore (literal : ℚ → JsNum) (add : JsNum → JsNum → JsNum) (store : FingerprintStore)
    (now : ℕ) (signals : SignalAnswers) (ctx : TrustContext) : JsNum × FingerprintStore :=
  let (terminal, store) := store.isTerminal now ctx.ja4h
  if terminal then (.num 1, store)
  else
    let phase1 := signals.phase1.map fun (name, r) => settled literal name r
    let decayCorrection := settled literal "trust_decay" (signals.attenuate phase1)
    let deltaSum := (phase1 ++ [decayCorrection]).foldl (fun s a => add s a.delta) (.num 0)
    (JsNum.min (.num 1) (JsNum.max (.num 0) (add (literal (1 / 2)) deltaSum)), store)

end TrustScoreService

end ZTG
