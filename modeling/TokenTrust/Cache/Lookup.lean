/-
  TokenTrust.Cache.Lookup — looking up and keeping tokens in the cache of a session. A lookup takes
  a copy of the entry and judges it; while it does, the cache may change, so an entry found stale is
  only dropped if it is still the one that was judged.
-/

import TokenTrust.Session.Run

namespace TokenTrust.Cache

variable {σ : Type} [Clock σ]

/-- The token under a key, unless it has expired or is not `valid`. -/
def findValid (key : Key) (valid : Token → Run σ Bool) : Run σ (Option Token) := do
  let now ← Run.now
  match ← Run.cached (·.use key) with
  | none =>
    Run.recache miss
    Run.log (.cacheMiss key)
    return none
  | some token =>
    let good ← if token.isValidAt now then valid token else pure false
    if good then
      Run.recache hit
      Run.log (.cacheHit key)
      return some token
    else
      if ← Run.cached (·.dropStale key token) then Run.log (.staleEvicted key)
      Run.recache miss
      return none

def find (key : Key) : Run σ (Option Token) := findValid key fun _ => pure true

omit [Clock σ] in
def store (key : Key) (token : Token) : Run σ Unit := do
  match ← Run.cached (·.put key token) with
  | some evicted => Run.log (.oldestEvicted evicted)
  | none => pure ()

end TokenTrust.Cache
