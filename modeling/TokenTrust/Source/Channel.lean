/-
  TokenTrust.Source.Channel — tokens asked of the issuing service. Each request borrows a
  connection, makes one call on it, and gives it back, whatever the answer.
-/

import TokenTrust.Acceptance
import TokenTrust.Service.Pool
import TokenTrust.Session.Made

namespace TokenTrust

/-- An application that asks, the name of the service, and the pool that leads to it. -/
structure Channel (σ : Type) where
  ownId : String
  serviceName : String
  pool : Pool σ

namespace Channel

variable {σ α : Type}

/-- The answer of the service, as seen by the application; failures are for the operator to see. -/
def translate (c : Channel σ) : Except ServiceError α → Attempt σ α
  | .ok a => return a
  | .error (.notRegistered message) =>
    Attempt.refuse (.notRegistered c.ownId message) (.notRegistered c.ownId message)
  | .error (.transport message) =>
    Attempt.refuse (.transportFailed c.serviceName message) (.transportFailed c.serviceName message)

def exchange (c : Channel σ) (use : Lease.Use σ α) : Attempt σ α := do
  let lease ← c.translate (← Attempt.lift (Lease.borrow c.pool c.serviceName))
  let (answer, lease) ← Attempt.lift (use c.pool lease)
  let result ← (c.translate answer).outcome
  Attempt.lift (lease.giveBack c.pool)
  Attempt.ofExcept result

/-- The request to refresh a token: the token is its subject, and its recipient the target. -/
def renewal [Clock σ] (c : Channel σ) (t : Token) : Run σ Request :=
  Request.make c.ownId t.kind (.token t) (t.recipient.getD "") none

def ping (c : Channel σ) : Attempt σ Bool := c.exchange Lease.ping

end Channel

end TokenTrust
