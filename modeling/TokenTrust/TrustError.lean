/-
  TokenTrust.TrustError — why a token, a principal or an assertion is not to be had, or not to be
  trusted. Only expiry can be mended, by asking for a fresh token.
-/

import TokenTrust.Text.Numeral
import TokenTrust.Time

namespace TokenTrust

inductive TrustError where
  | malformed (input message : String)
  | expired (subject : String) (notAfter : Millis)
  | signatureInvalid (subject signer : String)
  | recipientMismatch (expected : String) (actual : Option String)
  | notRegistered (id message : String)
  | transportFailed (service message : String)
  | signingFailed (message : String) (source : Option String)
  | configuration (message : String)
  deriving DecidableEq, Repr

namespace TrustError

def message : TrustError → String
  | malformed input message => s!"malformed {input}: {message}"
  | expired subject notAfter => s!"token for '{subject}' expired at {Text.ofInt64 notAfter}"
  | signatureInvalid subject signer =>
    s!"signature for '{subject}' does not verify against the {signer} key"
  | recipientMismatch expected (some actual) =>
    s!"token was issued for '{actual}', not for '{expected}'"
  | recipientMismatch expected none =>
    s!"token has no recipient, expected it to be issued for '{expected}'"
  | notRegistered id message =>
    s!"application '{id}' is not registered with the issuing service: {message}"
  | transportFailed service message => s!"failed to reach '{service}': {message}"
  | signingFailed message (some source) => s!"signing failed: {message}: {source}"
  | signingFailed message none => s!"signing failed: {message}"
  | configuration message => s!"configuration error: {message}"

/-- Whether a fresh token would mend it. -/
def isRefreshable : TrustError → Bool
  | expired .. => true
  | _ => false

/-- Whether someone presented what was not theirs to present. -/
def isViolation : TrustError → Bool
  | signatureInvalid .. | recipientMismatch .. => true
  | _ => false

def source : TrustError → Option String
  | signingFailed _ source => source
  | _ => none

end TrustError

end TokenTrust
