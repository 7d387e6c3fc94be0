/-
  TokenTrust.Proofs.Client.Asserted — a user's assertion arrives as the front end has signed it, and
  nothing arrives that it has not signed.

  - `Assertion.decided`: with any verifier, an assertion comes to what the verifier says of its bytes
    and its signature; if they are good, to what the bytes say; and if they say a user, to the clock.
  - `signed_assertion_arrives`: so what a private half has signed comes back as the user it was made of
    until the user's time is over, if the public half accepts what the private half makes of the bytes.
-/

import TokenTrust.Proofs.Acceptance.Verdict
import TokenTrust.Proofs.Client.Built
import TokenTrust.Proofs.Signing.Checking
import TokenTrust.Proofs.Token.Written

namespace TokenTrust

variable {σ : Type} [Clock σ]

/-! ## Any verifier -/

/-- What accepting the assertion comes to in a session, by what the verifier says there of the bytes of
its text and its signature. What the text says counts only if they are good. -/
structure Assertion.Decided (a : Assertion) (check : Verifier σ) (s : Session σ)
    (r : Except TrustError AssertedUser) : Prop where
  forged : ((check (Text.bytes a.text) a.signature).run s).value = false →
    r = .error (.signatureInvalid "proxy principal" "front end")
  malformed : ∀ fault, ((check (Text.bytes a.text) a.signature).run s).value = true →
    AssertedUser.codec.parse a.text = .error fault → r = .error (.malformed "proxy user token" fault)
  expired : ∀ user, ((check (Text.bytes a.text) a.signature).run s).value = true →
    AssertedUser.codec.parse a.text = .ok user →
    user.notAfter ≤ ((check (Text.bytes a.text) a.signature).run s).session.instant →
    r = .error (.expired user.subject user.notAfter)
  accepted_iff : ∀ user, r = .ok user ↔
    ((check (Text.bytes a.text) a.signature).run s).value = true ∧
    AssertedUser.codec.parse a.text = .ok user ∧
    ((check (Text.bytes a.text) a.signature).run s).session.instant < user.notAfter

namespace Assertion

variable {a : Assertion} {check : Verifier σ} {s s' : Session σ} {es : List Entry}

theorem Judged.decided {r : Except TrustError AssertedUser} (h : a.Judged check s r es s') :
    a.Decided check s r := by
  cases h with
  | @forged es s' checked =>
    have hrun : (check (Text.bytes a.text) a.signature).run s = ⟨false, es, s'⟩ := checked
    constructor <;> simp [hrun]
  | unreadable checked read =>
    have hrun : (check (Text.bytes a.text) a.signature).run s = ⟨true, es, s'⟩ := checked
    obtain ⟨fault, hfault, rfl⟩ := user_eq_error_iff.mp read
    constructor <;> simp [hrun, hfault]
  | @ended user now es es' s₁ s' checked read looked late =>
    have hrun : (check (Text.bytes a.text) a.signature).run s = ⟨true, es, s₁⟩ := checked
    have hparse := user_eq_ok_iff.mp read
    obtain rfl : now = s₁.instant := (Run.ends_now.mp looked).1
    constructor <;> simp [hrun, hparse, late]
  | @sound user now es es' s₁ s' checked read looked intime =>
    have hrun : (check (Text.bytes a.text) a.signature).run s = ⟨true, es, s₁⟩ := checked
    have hparse := user_eq_ok_iff.mp read
    obtain rfl : now = s₁.instant := (Run.ends_now.mp looked).1
    constructor <;> simp [hrun, hparse, intime]

theorem decided (a : Assertion) (check : Verifier σ) (s : Session σ) :
    a.Decided check s ((ExceptT.run (a.accept check)).run s).value :=
  (ends_accept (Run.ends_run _ s)).decided

end Assertion

/-! ## From front end to client -/

/-- What a private half has signed its public half accepts, as the user it was signed for, until the
user's time is over; with any verifier, an assertion is accepted just as the verifier, the text and the
clock decide. -/
theorem signed_assertion_arrives (u : AssertedUser) (k : KeyPair) (s : Session σ) :
    (k.hasPrivate = true →
      ∃ a, u.sign k = .ok a ∧ a.text = AssertedUser.codec.render u ∧ (k.Answers (Text.bytes a.text) →
        ((ExceptT.run (a.accept k.withoutPrivate.verifier)).run s).value =
          if s.instant < u.notAfter then .ok u else .error (.expired u.subject u.notAfter))) ∧
    ∀ (a : Assertion) (check : Verifier σ),
      a.Decided check s ((ExceptT.run (a.accept check)).run s).value := by
  refine ⟨fun hk => ?_, fun a check => a.decided check s⟩
  obtain ⟨signature, hsign, hcheck⟩ := KeyPair.exists_sign hk (Text.bytes (AssertedUser.codec.render u))
  refine ⟨⟨AssertedUser.codec.render u, signature⟩, ?_, rfl, fun answers => ?_⟩
  · simp only [AssertedUser.sign, hsign]
    rfl
  · have hverifier := KeyPair.verifier_of_check (σ := σ) (hcheck answers)
    have hread := Json.Codec.parse_render AssertedUser.codec_lawful u
    have hdecided := Assertion.decided ⟨AssertedUser.codec.render u, signature⟩ k.withoutPrivate.verifier s
    have hrun : (k.withoutPrivate.verifier (Text.bytes (AssertedUser.codec.render u)) signature).run s =
        ⟨true, [], s⟩ := by rw [hverifier]; rfl
    by_cases intime : s.instant < u.notAfter
    · rw [if_pos intime]
      exact (hdecided.accepted_iff u).mpr ⟨by rw [hrun], hread, by rw [hrun]; exact intime⟩
    · rw [if_neg intime]
      exact hdecided.expired u (by rw [hrun]) hread (by rw [hrun]; exact Int64.not_lt.mp intime)

namespace Gateway

def nightfall : Session Scene := { session [] [] with world := ⟨9000, []⟩ }

def nobody : Assertion := ⟨"\x7b\x7d", ""⟩

/-- What is signed for Zoë arrives before her time is over, and not when it is. Of a text that speaks
of nobody, the signature alone decides what is said. -/
theorem zoe_arrives :
    (∃ a, AssertedUser.zoe.sign .desk = .ok a ∧
      ((ExceptT.run (a.accept KeyPair.desk.withoutPrivate.verifier)).run (session [] [])).value =
        .ok .zoe) ∧
    (∃ a, AssertedUser.zoe.sign .desk = .ok a ∧
      ((ExceptT.run (a.accept KeyPair.desk.withoutPrivate.verifier)).run nightfall).value =
        .error (.expired "CN=zoë" 9000)) ∧
    (∃ fault, ((ExceptT.run (nobody.accept fun _ _ => pure true)).run (session [] [])).value =
      .error (.malformed "proxy user token" fault)) ∧
    ((ExceptT.run (nobody.accept fun _ _ => pure false)).run (session [] [])).value =
      .error (.signatureInvalid "proxy principal" "front end") := by
  obtain ⟨early, decided⟩ := signed_assertion_arrives .zoe .desk (session [] [])
  obtain ⟨late, -⟩ := signed_assertion_arrives .zoe .desk nightfall
  obtain ⟨a, hsign, htext, harrives⟩ := early rfl
  obtain ⟨b, hsign', htext', hover⟩ := late rfl
  rw [htext] at harrives
  rw [htext'] at hover
  have hread : (AssertedUser.codec.parse nobody.text).toOption = none := by decide +kernel
  refine ⟨⟨a, hsign, harrives (by decide +kernel)⟩, ⟨b, hsign', hover (by decide +kernel)⟩, ?_,
    (decided nobody _).forged rfl⟩
  cases hfault : AssertedUser.codec.parse nobody.text with
  | error fault => exact ⟨fault, (decided nobody _).malformed fault rfl hfault⟩
  | ok user => rw [hfault] at hread; cases hread

end Gateway

end TokenTrust
