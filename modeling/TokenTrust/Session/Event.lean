/-
  TokenTrust.Session.Event — what a client has to say about its work, from what an operator must
  see (`Level.error`) down to every single lookup (`Level.trace`).
-/

import TokenTrust.Cache.Key
import TokenTrust.Signing.Key
import TokenTrust.TrustMode

namespace TokenTrust

inductive Level where
  | error
  | warn
  | info
  | debug
  | trace
  deriving DecidableEq, Repr

namespace Level

def name : Level → String
  | error => "ERROR"
  | warn => "WARN"
  | info => "INFO"
  | debug => "DEBUG"
  | trace => "TRACE"

/-- The place in the order from the most severe level on. -/
def rank : Level → Nat
  | error => 0
  | warn => 1
  | info => 2
  | debug => 3
  | trace => 4

/-- Whether someone who listens at `l` hears of an event at `m`. -/
def hears (l m : Level) : Bool := m.rank ≤ l.rank

end Level

inductive Event where
  -- Signatures
  | unsignedToken (subject : String)
  | uncheckable (fault : SignatureFault)
  -- The cache
  | cacheMiss (key : Cache.Key)
  | cacheHit (key : Cache.Key)
  | staleEvicted (key : Cache.Key)
  | oldestEvicted (key : Cache.Key)
  -- Settings and headers
  | unknownMode (text : String)
  | propertiesLoaded (mode : TrustMode) (ownId : String)
  | documentLoaded (path : String) (mode : TrustMode)
  | headerLookup (name : String) (found : Bool)
  -- Checks of what a peer presents
  | wrongRecipient (expected : String) (actual : Option String) (subject : String)
  | receivedExpired (subject : String) (notAfter : Millis)
  | receivedForged (subject issuedTo : String)
  | assertionForged
  | assertionExpired (subject : String) (notAfter : Millis)
  | principalForged (subject : String)
  -- Sources of tokens
  | untrustedSource (mode : TrustMode)
  | mockIssued (subject target : String)
  | unsignedRequest (target : String)
  | acquired (subject target : String)
  | refreshed (subject : String) (notAfter : Millis)
  | cachedInvalid (error : TrustError)
  | responseForged (subject : String)
  | notRegistered (ownId message : String)
  | transportFailed (service message : String)
  | brokenReturned
  -- Clients
  | receivedUnchecked (subject : String)
  | receivedRefreshing (subject : String)
  | cachedUsed (key : Cache.Key)
  | targetResolved (name id : String)
  | targetUnresolved (name : String)
  | userSubstituted (user : String)
  | assertionUnchecked
  | principalUnchecked (subject : String)
  | mockClient (user : String)
  | clientReady (ownId : String) (mode : TrustMode)
  deriving DecidableEq

namespace Event

def level : Event → Level
  | wrongRecipient .. | receivedForged .. | assertionForged | principalForged .. | responseForged ..
  | notRegistered .. | transportFailed .. => .error
  | unknownMode .. | untrustedSource .. | brokenReturned | receivedUnchecked ..
  | targetUnresolved .. | assertionUnchecked | principalUnchecked .. | mockClient .. => .warn
  | receivedRefreshing .. | clientReady .. => .info
  | unsignedToken .. | staleEvicted .. | oldestEvicted .. | propertiesLoaded .. | documentLoaded ..
  | receivedExpired .. | assertionExpired .. | mockIssued .. | unsignedRequest .. | acquired ..
  | refreshed .. | cachedInvalid .. | cachedUsed .. | targetResolved ..
  | userSubstituted .. => .debug
  | uncheckable .. | cacheMiss .. | cacheHit .. | headerLookup .. => .trace

def message : Event → String
  | unsignedToken .. => "token carries no signature"
  | uncheckable .noPublicKey => "verification attempted without a public key"
  | uncheckable .notBase64 => "signature is not valid base64"
  | uncheckable (.wrongLength _) => "signature has the wrong length"
  | cacheMiss .. => "token cache miss"
  | cacheHit .. => "token cache hit"
  | staleEvicted .. => "evicted stale token on read"
  | oldestEvicted .. => "evicted least recently used token"
  | unknownMode text => s!"Unknown client mode \"{text}\", falling back to production mode"
  | propertiesLoaded .. => "loaded client configuration from properties"
  | documentLoaded .. => "loaded client configuration file"
  | headerLookup .. => "header lookup"
  | wrongRecipient .. => "token was issued for another application"
  | receivedExpired .. => "received token has expired"
  | receivedForged .. => "received token failed signature verification"
  | assertionForged => "proxy principal failed signature verification"
  | assertionExpired .. => "proxy principal has expired"
  | principalForged .. => "principal failed signature verification"
  | untrustedSource .. => "token provider does not verify tokens; never use this mode in production"
  | mockIssued .. => "issued mock token"
  | unsignedRequest .. => "requesting unsigned token"
  | acquired .. => "acquired verified token"
  | refreshed .. => "refreshed token"
  | cachedInvalid .. => "cached security token is not valid"
  | responseForged .. => "issuing service response failed signature verification"
  | notRegistered .. => "application is not registered with the issuing service"
  | transportFailed .. => "transport failure talking to the issuing service"
  | brokenReturned => "returning broken client to pool"
  | receivedUnchecked .. => "mock mode: skipping received token validation"
  | receivedRefreshing .. => "received token expired, refreshing"
  | cachedUsed .. => "using cached token"
  | targetResolved .. => "resolved target"
  | targetUnresolved .. => "no security id for target, using the name as given"
  | userSubstituted .. => "mock mode: substituting configured user"
  | assertionUnchecked => "mock mode: skipping proxy principal verification"
  | principalUnchecked .. => "mock mode: skipping principal verification"
  | mockClient .. => "security client running in mock mode; received tokens are not validated"
  | clientReady .. => "security client ready"

def fields : Event → List (String × String)
  | unsignedToken subject => [("subject", subject)]
  | uncheckable (.wrongLength bytes) => [("len", toString bytes)]
  | uncheckable _ => []
  | cacheMiss key | cacheHit key | staleEvicted key | oldestEvicted key | cachedUsed key =>
    [("key", key.describe)]
  | unknownMode _ => []
  | propertiesLoaded mode ownId => [("mode", mode.name), ("security_id", ownId)]
  | documentLoaded path mode => [("path", path), ("mode", mode.name)]
  | headerLookup name found => [("header", name), ("found", toString found)]
  | wrongRecipient expected actual subject =>
    [("expected", expected), ("actual", actual.elim "None" fun a => s!"Some({Text.quoted a})"),
      ("subject", subject)]
  | receivedExpired subject notAfter | assertionExpired subject notAfter
  | refreshed subject notAfter => [("subject", subject), ("not_after", Text.ofInt64 notAfter)]
  | receivedForged subject issuedTo => [("subject", subject), ("issued_to", issuedTo)]
  | assertionForged | brokenReturned | assertionUnchecked => []
  | principalForged subject | responseForged subject | receivedUnchecked subject
  | receivedRefreshing subject | principalUnchecked subject => [("subject", subject)]
  | untrustedSource mode => [("mode", mode.name)]
  | mockIssued subject target | acquired subject target =>
    [("subject", subject), ("target", target)]
  | unsignedRequest target => [("target", target)]
  | cachedInvalid error => [("error", error.message)]
  | notRegistered ownId message => [("security_id", ownId), ("message", message)]
  | transportFailed service message => [("service", service), ("message", message)]
  | targetResolved name id => [("name", name), ("security_id", id)]
  | targetUnresolved name => [("name", name)]
  | userSubstituted user | mockClient user => [("user", user)]
  | clientReady ownId mode => [("security_id", ownId), ("mode", mode.name)]

end Event

end TokenTrust
