/-
  TokenTrust.Acceptance — what is accepted from a peer: tokens, principals and assertions.
-/

import TokenTrust.Signing.Signed

namespace TokenTrust

variable {σ : Type} [Clock σ]

def Assertion.user (a : Assertion) : Except TrustError AssertedUser :=
  (AssertedUser.codec.parse a.text).mapError (.malformed "proxy user token")

namespace Token

omit [Clock σ] in
def requireRecipient (t : Token) (ownId : String) : Attempt σ Unit :=
  if t.recipient = some ownId then return ()
  else
    Attempt.refuse (.wrongRecipient ownId t.recipient t.subject)
      (.recipientMismatch ownId t.recipient)

def requireUnexpired (t : Token) : Attempt σ Unit := do
  if t.isValidAt (← Attempt.now) then return ()
  else
    Attempt.refuse (.receivedExpired t.subject t.validity.notAfter)
      (.expired t.subject t.validity.notAfter)

/-- Accepts a token presented to `ownId`. Recipient and expiry are checked before the signature, and
again after it, since checking a signature takes time. -/
def accept (t : Token) (ownId : String) (issuer : Verifier σ) : Attempt σ Unit := do
  t.requireRecipient ownId
  t.requireUnexpired
  unless ← Attempt.lift (t.verify issuer) do
    Attempt.refuse (.receivedForged t.subject t.holder) (.signatureInvalid t.subject "issuer")
  t.requireRecipient ownId
  t.requireUnexpired

end Token

/-- Accepts an assertion: only once its signature is known to be the front end's is it read. -/
def Assertion.accept (a : Assertion) (frontEnd : Verifier σ) : Attempt σ AssertedUser := do
  unless ← Attempt.lift (a.verify frontEnd) do
    Attempt.refuse .assertionForged (.signatureInvalid "proxy principal" "front end")
  let user ← Attempt.ofExcept a.user
  if user.notAfter ≤ (← Attempt.now) then
    Attempt.refuse (.assertionExpired user.subject user.notAfter)
      (.expired user.subject user.notAfter)
  return user

/-- Accepts a principal: its expiry is checked first, then the issuer's signature. -/
def Principal.accept (p : Principal) (issuer : Verifier σ) : Attempt σ Unit := do
  unless p.validity.isValidAt (← Attempt.now) do
    throw (.expired p.subject p.validity.notAfter)
  unless ← Attempt.lift (p.verify issuer) do
    Attempt.refuse (.principalForged p.subject) (.signatureInvalid p.subject "issuer")

end TokenTrust
