/-
  TokenTrust.Source.Basic — where a client gets its tokens from, and how far it trusts them: made up
  locally, taken from the issuing service as they come, or asked for under the application's key and
  checked under the issuer's.
-/

import TokenTrust.Settings.Basic
import TokenTrust.Source.Mock
import TokenTrust.Source.Channel

namespace TokenTrust

inductive Source (σ : Type) where
  | mock (made : MockSource)
  | unauthenticated (channel : Channel σ)
  | production (channel : Channel σ) (appKey issuerKey : KeyPair)

namespace Source

variable {σ : Type}

def mode : Source σ → TrustMode
  | mock _ => .mock
  | unauthenticated _ => .unauthenticated
  | production .. => .production

def describe (s : Source σ) : String := s!"TokenProvider({s.mode.describe})"

/-! ## Setting up -/

def ofSettings (s : Settings) (pool : Option (Pool σ)) (appKey issuerKey : Option KeyPair) :
    Attempt σ (Source σ) := do
  let channel : Attempt σ (Channel σ) := do
    let pool ← Attempt.require pool s!"{s.mode.name} mode needs a client pool"
    return { ownId := s.ownId, serviceName := s.serviceName, pool }
  match s.mode with
  | .mock =>
    Attempt.log (.untrustedSource .mock)
    return mock { ownId := s.ownId, labels := s.mockLabels }
  | .unauthenticated =>
    let channel ← channel
    Attempt.log (.untrustedSource .unauthenticated)
    return unauthenticated channel
  | .production =>
    let appKey ← Attempt.require (appKey.filter (·.hasPrivate))
      "production mode needs the application private key"
    let issuerKey ← Attempt.require (issuerKey.filter (·.hasPublic))
      "production mode needs the issuer public key"
    return production (← channel) appKey issuerKey

/-! ## Production -/

section Production

variable [Clock σ]

/-- Checks a token: the issuer's signature, then its expiry. -/
def checkIssued (issuerKey : KeyPair) (t : Token) : Attempt σ Unit := do
  unless ← Attempt.lift (t.verify issuerKey.verifier) do
    throw (.signatureInvalid t.subject "issuer")
  unless t.isValidAt (← Attempt.now) do
    throw (.expired t.subject t.validity.notAfter)

/-- Checks a token that the service has just sent; a forged one is for the operator to see. -/
def checkResponse (issuerKey : KeyPair) (t : Token) : Attempt σ Unit := do
  match ← (checkIssued issuerKey t).outcome with
  | .ok () => return ()
  | .error (.signatureInvalid subject signer) =>
    Attempt.refuse (.responseForged t.subject) (.signatureInvalid subject signer)
  | .error e => throw e

omit [Clock σ] in
def requestSignature (appKey : KeyPair) (r : Request) : Attempt σ String :=
  Attempt.ofExcept ((r.sign appKey).mapError (·.toTrustError))

end Production

/-! ## Tokens -/

variable [Clock σ]

def acquire (s : Source σ) (r : Request) : Attempt σ Token := do
  match s with
  | mock made => made.acquire r
  | unauthenticated channel =>
    Attempt.log (.unsignedRequest r.target)
    channel.exchange (Lease.request r "")
  | production channel appKey issuerKey =>
    let signature ← requestSignature appKey r
    let token ← channel.exchange (Lease.request r signature)
    checkResponse issuerKey token
    Attempt.log (.acquired token.subject r.target)
    return token

def refresh (s : Source σ) (t : Token) : Attempt σ Token := do
  match s with
  | mock _ => Attempt.lift (MockSource.refresh t)
  | unauthenticated channel =>
    let request ← Attempt.lift (channel.renewal t)
    channel.exchange (Lease.refresh request "")
  | production channel appKey issuerKey =>
    let request ← Attempt.lift (channel.renewal t)
    let signature ← requestSignature appKey request
    let fresh ← channel.exchange (Lease.refresh request signature)
    checkResponse issuerKey fresh
    Attempt.log (.refreshed fresh.subject fresh.validity.notAfter)
    return fresh

/-- Whether a token kept earlier may still be used. Only production has a way to tell; a stale or
forged one is no incident. -/
def isValid (s : Source σ) (t : Token) : Run σ Bool := do
  match s with
  | production _ _ issuerKey =>
    match ← (checkIssued issuerKey t).run with
    | .ok () => return true
    | .error e =>
      Run.log (.cachedInvalid e)
      return false
  | _ => return true

omit [Clock σ] in
def ping (s : Source σ) : Attempt σ Bool :=
  match s with
  | mock _ => return true
  | unauthenticated channel | production channel _ _ => channel.ping

end Source

end TokenTrust
