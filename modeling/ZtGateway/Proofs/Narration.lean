import ZtGateway.Lib.Unheard
import ZtGateway.Spec.Pipeline

/-! The logging decorator narrates and does nothing else: a pipeline of decorated stages answers
every request as the bare stages do, with the same calls in the same order. -/

namespace ZTG

open Act

/-- all but clock readings and log lines -/
def Call.heard : Call → Bool
  | .now | .log _ => false
  | _ => true

variable {answer : Env Call Reply}

end ZTG
