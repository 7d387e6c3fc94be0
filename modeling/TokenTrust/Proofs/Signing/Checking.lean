/-
  TokenTrust.Proofs.Signing.Checking — what a pair signs, its public half finds signed.

  Of the curve this asks one thing, `KeyPair.Answers`: the public half accepts what the private half
  makes of a message. Between the two the signature is a text, and is read back (`exists_sign`); what
  keeps its signature in itself is signed over bytes that leave it out, so the new one is no change to
  them (`exists_signInPlace`).
  - `signed_checks`: this is so for tokens, principals, requests and assertions, and signing in place
    changes the signature alone. Without a private half it fails, and changes nothing.
-/

import TokenTrust.Proofs.Signing.Coverage
import TokenTrust.Proofs.Text.Base64

namespace TokenTrust

open Crypto

variable {σ : Type}

/-! ## Keys -/

namespace KeyPair

variable {k : KeyPair} {message : List UInt8} {signature : String}

/-- The public half accepts what the private half, if there is one, makes of the message. -/
def Answers (k : KeyPair) (message : List UInt8) : Prop :=
  match k with
  | signing seed key _ => Ed25519.verify key message (Ed25519.sign seed key message) = true
  | _ => True

instance (k : KeyPair) (message : List UInt8) : Decidable (k.Answers message) :=
  match k with
  | signing seed key _ =>
    inferInstanceAs (Decidable (Ed25519.verify key message (Ed25519.sign seed key message) = true))
  | empty => .isTrue trivial
  | verifying _ => .isTrue trivial

theorem signatureBytes_encode {raw : List UInt8} (h : raw.length = signatureSize) :
    signatureBytes (Text.Base64.encode raw) = .ok raw := by
  simp only [signatureBytes, Text.Base64.decode_encode, if_pos h]

theorem exists_sign (hk : k.hasPrivate = true) (message : List UInt8) :
    ∃ signature, k.sign message = .ok signature ∧
      (k.Answers message → k.withoutPrivate.check message signature = .ok true) := by
  cases k with
  | empty => cases hk
  | verifying key => cases hk
  | signing seed key belongs =>
    refine ⟨Text.Base64.encode (Ed25519.sign seed key message), rfl, fun answers => ?_⟩
    have hbytes := signatureBytes_encode (Ed25519.length_sign seed key message)
    show (signatureBytes _).map (fun raw => Ed25519.verify key message raw) = .ok true
    rw [hbytes]
    exact congrArg Except.ok answers

theorem sign_without (hk : k.hasPrivate = false) (message : List UInt8) :
    k.sign message = .error .noPrivateKey := by
  cases k with
  | empty => rfl
  | verifying key => rfl
  | signing seed key belongs => cases hk

/-- What can be checked is checked in silence. -/
theorem verifier_of_check (h : k.check message signature = .ok true) :
    (k.verifier message signature : Run σ Bool) = pure true := by
  simp only [verifier, h]

/-! ## Signing in place -/

section InPlace

variable {α : Type} {bytes : α → List UInt8} {withSignature : α → String → α}

/-- If the bytes of a value leave its signature out, a second signature is the first. -/
theorem exists_signInPlace (hk : k.hasPrivate = true)
    (hbytes : ∀ x signature, bytes (withSignature x signature) = bytes x)
    (hagain : ∀ x signature,
      withSignature (withSignature x signature) signature = withSignature x signature) (x : α) :
    ∃ signature,
      k.signInPlace (bytes x) (withSignature x) x = (.ok (), withSignature x signature) ∧
      (k.Answers (bytes x) →
        k.withoutPrivate.check (bytes (withSignature x signature)) signature = .ok true) ∧
      k.signInPlace (bytes (withSignature x signature)) (withSignature (withSignature x signature))
        (withSignature x signature) = (.ok (), withSignature x signature) := by
  obtain ⟨signature, hsign, hcheck⟩ := exists_sign hk (bytes x)
  refine ⟨signature, ?_, ?_, ?_⟩
  · simp only [signInPlace, hsign]
  · rw [hbytes]
    exact hcheck
  · simp only [signInPlace, hbytes, hsign, hagain]

theorem signInPlace_without (hk : k.hasPrivate = false) (x : α) :
    k.signInPlace (bytes x) (withSignature x) x = (.error .noPrivateKey, x) := by
  simp only [signInPlace, sign_without hk]

end InPlace

end KeyPair

/-! ## What is signed -/

theorem Token.signedBytes_withSignature (t : Token) (signature : String) :
    (t.withSignature signature).signedBytes = t.signedBytes :=
  congrArg Text.bytes (canonical_eq_of_agree fun i =>
    agree_uncovered t t.validity.issuer (some signature) t.principal.name t.principal.validity i).symm

theorem Principal.signedBytes_withSignature (p : Principal) (signature : String) :
    (p.withSignature signature).signedBytes = p.signedBytes := rfl

/-- A pair with a private half signs whatever is to be signed, and its public half finds it signed if
it accepts what the private half makes of the bytes. In a token or a principal nothing but its own
signature is new, and a second signature changes nothing more. Without a private half nothing is
signed, and an old signature stays. -/
theorem signed_checks (k : KeyPair) (t : Token) (p : Principal) (r : Request) (u : AssertedUser) :
    (k.hasPrivate = true →
      (∃ signature,
        let signed : Token := { t with validity := { t.validity with signature := some signature } }
        t.signInPlace k = (.ok (), signed) ∧
          (k.Answers t.signedBytes →
            (signed.verify k.withoutPrivate.verifier : Run σ Bool) = pure true) ∧
          signed.signInPlace k = (.ok (), signed)) ∧
      (∃ signature,
        let signed : Principal := { p with validity := { p.validity with signature := some signature } }
        p.signInPlace k = (.ok (), signed) ∧
          (k.Answers p.signedBytes →
            (signed.verify k.withoutPrivate.verifier : Run σ Bool) = pure true) ∧
          signed.signInPlace k = (.ok (), signed)) ∧
      (∃ signature, r.sign k = .ok signature ∧
        (k.Answers r.signedBytes →
          (r.verify signature k.withoutPrivate.verifier : Run σ Bool) = pure true)) ∧
      ∃ a : Assertion, u.sign k = .ok a ∧ a.text = AssertedUser.codec.render u ∧
        (k.Answers (Text.bytes a.text) →
          (a.verify k.withoutPrivate.verifier : Run σ Bool) = pure true)) ∧
    (k.hasPrivate = false →
      t.signInPlace k = (.error .noPrivateKey, t) ∧
      p.signInPlace k = (.error .noPrivateKey, p) ∧
      r.sign k = .error .noPrivateKey ∧
      u.sign k = .error
        (.signingFailed KeyError.noPrivateKey.message (some KeyError.noPrivateKey.message))) := by
  refine ⟨fun hk => ⟨?token, ?principal, ?request, ?assertion⟩, fun hk => ?without⟩
  case token =>
    obtain ⟨signature, hsign, hcheck, hagain⟩ :=
      KeyPair.exists_signInPlace hk Token.signedBytes_withSignature (fun _ _ => rfl) t
    exact ⟨signature, hsign, fun answers => KeyPair.verifier_of_check (hcheck answers), hagain⟩
  case principal =>
    obtain ⟨signature, hsign, hcheck, hagain⟩ :=
      KeyPair.exists_signInPlace hk Principal.signedBytes_withSignature (fun _ _ => rfl) p
    exact ⟨signature, hsign, fun answers => KeyPair.verifier_of_check (hcheck answers), hagain⟩
  case request =>
    obtain ⟨signature, hsign, hcheck⟩ := KeyPair.exists_sign hk r.signedBytes
    exact ⟨signature, hsign, fun answers => KeyPair.verifier_of_check (hcheck answers)⟩
  case assertion =>
    obtain ⟨signature, hsign, hcheck⟩ :=
      KeyPair.exists_sign hk (Text.bytes (AssertedUser.codec.render u))
    refine ⟨⟨AssertedUser.codec.render u, signature⟩, ?_, rfl,
      fun answers => KeyPair.verifier_of_check (hcheck answers)⟩
    simp only [AssertedUser.sign, hsign]
    rfl
  case without =>
    refine ⟨KeyPair.signInPlace_without hk t, KeyPair.signInPlace_without hk p,
      KeyPair.sign_without hk _, ?_⟩
    simp only [AssertedUser.sign, KeyPair.sign_without hk]
    rfl

def KeyPair.desk : KeyPair := .ofSeed (List.replicate 32 0x1e)

def Token.worn : Token where
  kind := .user
  principal := {
    subject := "zoë"
    validity := { issuer := "01", issuedTo := "7", issuedTime := 0, notAfter := 9000 } }
  validity := {
    issuer := "01", issuedTo := "7", issuedFor := some "8", issuedTime := 3, notAfter := 9000,
    signature := some "old" }

def AssertedUser.zoe : AssertedUser where
  certificate := { subject := "CN=zoë" }
  issuedBy := "09"
  issuedTo := "02"
  notAfter := 9000

theorem worn_checks :
    (∃ signature, Token.worn.signInPlace .desk = (.ok (), Token.worn.withSignature signature) ∧
      ((Token.worn.withSignature signature).verify KeyPair.desk.withoutPrivate.verifier : Run Unit Bool) =
        pure true) ∧
    (∃ signature, (Token.worn.principal.withSignature signature).verify
        KeyPair.desk.withoutPrivate.verifier = (pure true : Run Unit Bool)) ∧
    (∃ signature, (Request.about .worn 12).verify signature KeyPair.desk.withoutPrivate.verifier =
        (pure true : Run Unit Bool)) ∧
    (∃ a : Assertion, a.text = AssertedUser.codec.render .zoe ∧
      a.verify KeyPair.desk.withoutPrivate.verifier = (pure true : Run Unit Bool)) ∧
    Token.worn.signInPlace KeyPair.desk.withoutPrivate = (.error .noPrivateKey, .worn) := by
  obtain ⟨signs, -⟩ := @signed_checks Unit .desk .worn Token.worn.principal (.about .worn 12) .zoe
  obtain ⟨-, fails⟩ := @signed_checks Unit KeyPair.desk.withoutPrivate .worn Token.worn.principal
    (.about .worn 12) .zoe
  obtain ⟨⟨onToken, hsign, token, -⟩, ⟨onPrincipal, -, principal, -⟩, ⟨onRequest, -, request⟩,
    a, -, htext, assertion⟩ := signs rfl
  rw [htext] at assertion
  exact ⟨⟨onToken, hsign, token (by decide +kernel)⟩, ⟨onPrincipal, principal (by decide +kernel)⟩,
    ⟨onRequest, request (by decide +kernel)⟩, ⟨a, htext, assertion (by decide +kernel)⟩, (fails rfl).1⟩

end TokenTrust
