/-
  TokenTrust.Session.Made — validity windows and requests that are made now.
-/

import TokenTrust.Session.Run
import TokenTrust.Token.Request

namespace TokenTrust

variable {σ : Type} [Clock σ]

def Validity.make (issuer issuedTo : String) (notAfter : Millis) : Run σ Validity :=
  return { issuer, issuedTo, issuedTime := ← Run.now, notAfter }

def Request.make (requester : String) (kind : TokenKind) (subject : Subject) (target : String)
    (exclude : Option (OrderedSet String)) : Run σ Request :=
  return Request.excluding
    { requester, timestamp := ← Run.now, kind, subject, target } exclude

end TokenTrust
