/-
  TokenTrust.Source.Mock — tokens that are made up locally, good for a short while. Nothing is
  signed and nothing is checked.
-/

import TokenTrust.Acceptance
import TokenTrust.Identity
import TokenTrust.Session.Made

namespace TokenTrust

/-- Makes up tokens for an application, with fixed labels. -/
structure MockSource where
  ownId : String
  labels : OrderedSet String
  deriving DecidableEq

namespace MockSource

def tokenLifetime : Millis := 10000

def applicationLifetime : Millis := 1000

variable {σ : Type} [Clock σ]

def principalOf (r : Request) : Attempt σ Principal :=
  match r.subject, r.kind with
  | .assertion a, _ => do
    let user ← Attempt.ofExcept a.user
    let validity ← Attempt.lift (Validity.make user.issuedBy user.issuedTo user.notAfter)
    return { subject := user.subject, issuer := user.certificate.issuer, validity }
  | .token t, _ => return t.principal
  | .principal p, _ => return p
  | .application, .app => do
    let notAfter ← Attempt.lift (Millis.fromNow applicationLifetime)
    let validity ← Attempt.lift (Validity.make Identity.issuer.name r.requester notAfter)
    return { subject := r.requester, validity }
  | .application, .user =>
    throw (.malformed "token request" "a user token needs a proxy principal, token or principal")

/-- A token that answers a request, with all labels that it does not exclude. -/
def acquire (m : MockSource) (r : Request) : Attempt σ Token := do
  let principal ← principalOf r
  let notAfter ← Attempt.lift (Millis.fromNow tokenLifetime)
  let validity ← Attempt.lift (Validity.make Identity.issuer.name m.ownId notAfter)
  let authorizations := (Authorizations.ofFormal m.labels).without (r.exclude.getD .empty)
  Attempt.log (.mockIssued principal.subject r.target)
  return { kind := r.kind, principal, validity := { validity with issuedFor := some r.target },
           authorizations }

omit [Clock σ] in
/-- The instant up to which a token is good once it is refreshed. -/
def renewed (notAfter now : Millis) : Millis :=
  Millis.after (if notAfter < now then now else notAfter) tokenLifetime

/-- The token, good for longer than now and than it was. -/
def refresh (t : Token) : Run σ Token := do
  let now ← Run.now
  return { t with validity := { t.validity with notAfter := renewed t.validity.notAfter now } }

end MockSource

end TokenTrust
