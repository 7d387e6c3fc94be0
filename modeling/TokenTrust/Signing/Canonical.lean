/-
  TokenTrust.Signing.Canonical — the texts that signatures cover. The parts of a value stand one
  after the other, with nothing between them: absent parts leave nothing behind, sets and the
  lists inside maps are sorted, the request chain keeps its order. Signatures in use depend on
  this form.
-/

import TokenTrust.Text.Numeral
import TokenTrust.Token.Request

namespace TokenTrust

inductive CanonicalPart where
  | text (s : String)
  | optional (s : Option String)
  | integer (n : Int64)
  | boolean (b : Bool)
  | all (ss : List String)
  | sorted (ss : List String)
  deriving DecidableEq

/-- The texts in increasing order, repetitions kept. -/
def sortTexts (ss : List String) : List String := ss.mergeSort fun a b => decide (a ≤ b)

def CanonicalPart.render : CanonicalPart → String
  | text s => s
  | optional s => s.getD ""
  | integer n => Text.ofInt64 n
  | boolean b => if b then "true" else "false"
  | all ss => String.join ss
  | sorted ss => String.join (sortTexts ss)

def canonicalText (parts : List CanonicalPart) : String := String.join (parts.map (·.render))

def Principal.canonicalParts (p : Principal) : List CanonicalPart :=
  [.text p.subject, .optional p.issuer, .all p.requestChain, .integer p.validity.notAfter]

def Principal.canonical (p : Principal) : String := canonicalText p.canonicalParts

def Membership.canonicalParts (m : Membership) : List CanonicalPart :=
  [.text m.name, .text m.kind, .text m.organization, .sorted m.groups, .sorted m.topics,
    .sorted m.regions] ++
  m.flags.toList.flatMap fun (flag, b) => [.text flag, .boolean b]

def Token.canonicalParts (t : Token) : List CanonicalPart :=
  [.text t.validity.issuedTo, .optional t.validity.recipient, .integer t.validity.notAfter,
    .integer (t.validity.notBefore.getD 0), .integer t.validity.issuedTime, .text t.kind.name,
    .text t.principal.subject, .optional t.principal.issuer, .all t.principal.requestChain,
    .optional t.level, .all t.authorizations.formal.toList,
    .all t.authorizations.community.toList] ++
  t.authorizations.platformObjects.toList.map .integer ++
  (t.projectGroups.toList.flatMap fun (project, groups) => [.text project, .sorted groups]) ++
  t.communities.values.flatMap (·.canonicalParts) ++
  [.boolean t.validForExternalRequest, .optional t.citizenship, .optional t.organization]

def Token.canonical (t : Token) : String := canonicalText t.canonicalParts

/-- An assertion and a token are part of the request's text; a principal is not. -/
def Subject.canonicalParts : Subject → List CanonicalPart
  | .application => []
  | .assertion a => [.text a.text, .text a.signature]
  | .token t => t.canonicalParts
  | .principal _ => []

def Request.canonicalParts (r : Request) : List CanonicalPart :=
  r.subject.canonicalParts ++
  [.text r.kind.name, .text r.requester, .text r.target, .integer r.timestamp,
    .all (r.exclude.elim [] (·.toList))]

def Request.canonical (r : Request) : String := canonicalText r.canonicalParts

end TokenTrust
