/-
  TokenTrust.Client.Basic — an application's client: it fetches tokens through a cache, checks what
  peers present, and finds the user of an inbound request.
-/

import TokenTrust.Cache.Lookup
import TokenTrust.Headers
import TokenTrust.Source.Basic

namespace TokenTrust

/-- Whether a fetch may be answered from the cache. Fresh tokens are kept either way. -/
inductive CachePolicy where
  | use
  | bypass
  deriving DecidableEq, Repr

structure Client (σ : Type) where
  settings : Settings
  source : Source σ
  /-- The ids of applications by name. A directory that answers differently within one operation is not
  modelled, since no operation asks for more than one name; one that changes between two operations is
  another function for the second one. -/
  directory : String → Option String
  issuerKey : Option KeyPair
  frontEndKey : Option KeyPair

namespace Client

variable {σ : Type}

def ownId (c : Client σ) : String := c.settings.ownId

def describe (c : Client σ) : String :=
  s!"SecurityClient \x7b security_id: {Text.quoted c.ownId}, provider: {c.source.describe}, " ++
  s!"use_mock: {c.settings.useMock}, .. \x7d"

/-- The id of a target. No target means this application, or the target configured for mock mode;
an id stands for itself; a name that is not in the directory is used as it is given. -/
def targetId (c : Client σ) (target : String) : Run σ String := do
  if target = "" then
    return if c.settings.useMock then c.settings.mockTarget.getD c.ownId else c.ownId
  else if Identity.isId target then return target
  else
    match c.directory target with
    | some id =>
      Run.log (.targetResolved target id)
      return id
    | none =>
      Run.log (.targetUnresolved target)
      return target

def ping (c : Client σ) : Attempt σ Bool := c.source.ping

variable [Clock σ]

/-! ## What peers present -/

def checkPresented (c : Client σ) (t : Token) : Attempt σ Unit := do
  let issuer ← Attempt.require c.issuerKey "validating received tokens needs the issuer public key"
  t.accept c.ownId issuer.verifier

/-- Checks a token from a peer, and refreshes it once if it has expired. The token given back is the
one to go on with: a fresh one after a refresh, else the one that was presented. -/
def admitToken (c : Client σ) (t : Token) : Run σ (Except TrustError Unit × Token) := do
  if c.settings.useMock then
    Run.log (.receivedUnchecked t.subject)
    return (.ok (), t)
  else
    match ← (c.checkPresented t).run with
    | .ok () => return (.ok (), t)
    | .error e =>
      if e.isRefreshable then
        Run.log (.receivedRefreshing t.subject)
        match ← (c.source.refresh t).run with
        | .ok fresh => return (.ok (), fresh)
        | .error e => return (.error e, t)
      else return (.error e, t)

def admitPrincipal (c : Client σ) (p : Principal) : Attempt σ Unit := do
  if c.settings.useMock then Attempt.log (.principalUnchecked p.subject)
  else
    let issuer ← Attempt.require c.issuerKey "verifying principals needs the issuer public key"
    p.accept issuer.verifier

/-- The user that an assertion speaks of, once it is accepted. -/
def admitAssertion (c : Client σ) (a : Assertion) : Attempt σ AssertedUser := do
  if c.settings.useMock then
    Attempt.log .assertionUnchecked
    Attempt.ofExcept a.user
  else
    let frontEnd ← Attempt.require c.frontEndKey
      "verifying proxy principals needs the front-end public key"
    a.accept frontEnd.verifier

/-! ## The user of a request -/

/-- The assertion of the configured user, unsigned. -/
def mockAssertion (c : Client σ) : Run σ Assertion := do
  let lifetime := Int64.ofInt (min (c.settings.userLifetimeMillis : Int) maxInt64)
  let user : AssertedUser := {
    certificate := { subject := c.settings.mockUser }
    issuedBy := Identity.issuer.name
    issuedTo := ""
    notAfter := ← Millis.fromNow lifetime }
  Run.log (.userSubstituted c.settings.mockUser)
  return ⟨AssertedUser.codec.render user, ""⟩

/-- The assertion in the headers; in mock mode the configured user stands in for one. -/
def assertionOf (c : Client σ) (h : Headers) : Attempt σ Assertion := do
  match ← Attempt.lift h.assertion with
  | some a => return a
  | none =>
    if c.settings.useMock then Attempt.lift c.mockAssertion
    else throw (.malformed "request headers" "no proxied user assertion present")

def admitRequest (c : Client σ) (h : Headers) : Attempt σ Assertion := do
  let a ← c.assertionOf h
  let _ ← c.admitAssertion a
  return a

/-! ## Fetching tokens -/

/-- A token that answers a request: from the cache if that is allowed and it has a valid one, else
from the source. -/
def fetch (c : Client σ) (r : Request) (key : Cache.Key) (policy : CachePolicy) :
    Attempt σ Token := do
  let kept ← match policy with
    | .use => Attempt.lift (Cache.findValid key c.source.isValid)
    | .bypass => pure none
  match kept with
  | some token =>
    Attempt.log (.cachedUsed key)
    return token
  | none =>
    let token ← c.source.acquire r
    Attempt.lift (Cache.store key token)
    return token

def fetchOwn (c : Client σ) (target : String) (exclude : Option (OrderedSet String))
    (policy : CachePolicy) : Attempt σ Token := do
  let target ← Attempt.lift (c.targetId target)
  let request ← Attempt.lift (Request.make c.ownId .app .application target exclude)
  c.fetch request (.of .app c.ownId exclude none target) policy

/-- A token for the user of an assertion, which has to be accepted first. -/
def fetchAsserted (c : Client σ) (a : Assertion) (target : String)
    (exclude : Option (OrderedSet String)) (policy : CachePolicy) : Attempt σ Token := do
  let user ← c.admitAssertion a
  let target ← Attempt.lift (c.targetId target)
  let request ← Attempt.lift (Request.make c.ownId .user (.assertion a) target exclude)
  c.fetch request (.of .user user.subject exclude none target) policy

def fetchForRequest (c : Client σ) (h : Headers) (target : String)
    (exclude : Option (OrderedSet String)) : Attempt σ Token := do
  c.fetchAsserted (← c.assertionOf h) target exclude .use

/-- A token like an existing one, for another target. -/
def fetchDerived (c : Client σ) (existing : Token) (target : String)
    (exclude : Option (OrderedSet String)) (policy : CachePolicy) : Attempt σ Token := do
  let target ← Attempt.lift (c.targetId target)
  let request ← Attempt.lift (Request.make c.ownId existing.kind (.token existing) target exclude)
  c.fetch request
    (.of existing.kind existing.subject exclude (some existing.principal.requestChain) target)
    policy

end Client

end TokenTrust
