import Yggdrasil.Runs.Attempts

/-!
# What the result of a step describes

The result describes the last attempt, and has an error exactly when this did not succeed, exactly
when the attempts before have left nothing in it (`Clean`, `retry_result`).
-/

namespace Yggdrasil.Runs

open Text Manifest

variable {cm : CaseMap} {fmt : Fmt} {env : StepEnv} {security : Security} {request : Request}
  {operation : String}

/-! ## What is left in the result -/

section Left

variable {o : ℕ → Outcome} {c : Bool} {r : StepResult} {k : ℕ}

end Left

section Last

variable {o : ℕ → Outcome} {sleep : ℕ → Option String} {c : Bool} {r : StepResult} {n k : ℕ}
  (hstatus : r.status = "failed") (herror : r.error = "") (hmetadata : r.metadata = [])
  (huniform : ∀ i e, o i = .refused e [] → ∀ j, (o j).isSuccess = false → (o j).metadata = [])
  (hlast : LastAttempt o sleep n k)

end Last

/-! ## Steps of integrations -/

variable {step : WorkflowStepSpec}

namespace Sample

/-- A step with two attempts. -/
def deployTwice : WorkflowStepSpec where
  id := "deploy"
  use := { kind := "integration", family := "deploy", operation := "apply" }
  retry := { maxAttempts := 2 }

/-- What comes of the two attempts. -/
def deployed (first other : Except String AdapterReply) : Option StepResult :=
  (executeWorkflowStep ascii plain (replying first other) { id := "w1", version := 1 } deployTwice
    [] {}).map Prod.fst

end Sample

end Yggdrasil.Runs
