/-
  TokenTrust.Service.Pool — a pool of connections to the issuing service, and the lease of one. A
  connection on which a call has failed in transport is given back as broken, even if later calls
  on it succeed.
-/

import TokenTrust.Session.Run

namespace TokenTrust

/-- What the world answers when a connection is borrowed, used and given back. -/
structure Pool (σ : Type) where
  borrow : String → σ → Except ServiceError Connection × σ
  request : Connection → Request → String → σ → Except ServiceError Token × σ
  refresh : Connection → Request → String → σ → Except ServiceError Token × σ
  ping : Connection → σ → Except ServiceError Bool × σ
  giveBack : Connection → Bool → σ → σ

structure Lease where
  connection : Connection
  broken : Bool := false
  deriving DecidableEq, Repr

namespace Lease

variable {σ α : Type}

def borrow (pool : Pool σ) (service : String) : Run σ (Except ServiceError Lease) :=
  return (← Run.call (pool.borrow service) (.borrow service)).map fun c => { connection := c }

def noting (l : Lease) : Except ServiceError α → Lease
  | .error (.transport _) => { l with broken := true }
  | _ => l

def call (make : Connection → Run σ (Except ServiceError α)) (l : Lease) :
    Run σ (Except ServiceError α × Lease) := do
  let answer ← make l.connection
  return (answer, l.noting answer)

abbrev Use (σ α : Type) := Pool σ → Lease → Run σ (Except ServiceError α × Lease)

def request (r : Request) (signature : String) : Use σ Token := fun pool =>
  call fun on => Run.call (pool.request on r signature) (.request on r signature)

def refresh (r : Request) (signature : String) : Use σ Token := fun pool =>
  call fun on => Run.call (pool.refresh on r signature) (.refresh on r signature)

def ping : Use σ Bool := fun pool => call fun on => Run.call (pool.ping on) (.ping on)

def giveBack (l : Lease) (pool : Pool σ) : Run σ Unit := do
  if l.broken then Run.log .brokenReturned
  Run.call (fun s => ((), pool.giveBack l.connection l.broken s))
    fun _ => .giveBack l.connection l.broken

def describe (l : Lease) : String := s!"PooledClient \x7b borrowed: true, broken: {l.broken} \x7d"

end Lease

end TokenTrust
