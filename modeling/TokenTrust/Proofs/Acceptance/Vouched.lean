/-
  TokenTrust.Proofs.Acceptance.Vouched — what an accepted token has behind it: the issuer's
  signature over its canonical text, and a reading of the clock before its end.

  - `ends_verify`: checking a token under a key says whether the key has signed it.
  - `gives_accept`: a token that is accepted names the client as its recipient and is vouched for.
  - `recipient_of_fails_accept`: the recipient is checked first, so a token found expired names the
    client too.
  - `accept_keeps`: accepting does no more than look at the clock and say what it found.
-/

import TokenTrust.Acceptance
import TokenTrust.Proofs.Session.Ending

namespace TokenTrust

variable {σ : Type}

/-- The token carries a signature of the key over its canonical text. -/
def Token.isSignedBy (t : Token) (k : KeyPair) : Bool :=
  match t.validity.signature with
  | some signature => k.accepts t.signedBytes signature
  | none => false

/-- The token is signed by the issuer, and the clock was read before its end. -/
structure Token.Vouched (t : Token) (issuer : KeyPair) (es : List Entry) : Prop where
  signed : t.isSignedBy issuer = true
  unexpired : ∃ now, .reading now ∈ es ∧ t.isValidAt now = true

theorem Token.Vouched.mono {t : Token} {issuer : KeyPair} {es es' : List Entry}
    (h : t.Vouched issuer es) (hes : es ⊆ es') : t.Vouched issuer es' := by
  obtain ⟨now, hnow, hvalid⟩ := h.unexpired
  exact ⟨h.signed, now, hes hnow, hvalid⟩

/-! ## Signatures -/

section Signatures

variable {P : Conduct σ} {s s' : Session σ} {es : List Entry}

theorem KeyPair.ends_verifier {k : KeyPair} {bytes : List UInt8} {signature : String} {b : Bool}
    (h : (k.verifier bytes signature).Ends s b es s') : b = k.accepts bytes signature := by
  unfold KeyPair.verifier at h
  unfold KeyPair.accepts
  cases hc : k.check bytes signature with
  | ok accepted =>
    rw [hc] at h
    exact (Run.ends_pure.mp h).1
  | error fault =>
    rw [hc] at h
    obtain ⟨_, _, _, h⟩ := h.last
    exact (Run.ends_pure.mp h).1

theorem KeyPair.verifier_keeps [Clock σ] (hP : P.Notes) (k : KeyPair) (bytes : List UInt8)
    (signature : String) : (k.verifier bytes signature).Keeps P := by
  unfold KeyPair.verifier
  split
  · exact .pure _
  · exact .bind (.note hP (by simp [Event.level])) fun _ => .pure _

namespace Token

variable {t : Token} {k : KeyPair}

theorem ends_verify {b : Bool} (h : (t.verify k.verifier).Ends s b es s') : b = t.isSignedBy k := by
  unfold verify at h
  unfold isSignedBy
  cases hs : t.validity.signature with
  | some signature =>
    rw [hs] at h
    exact KeyPair.ends_verifier h
  | none =>
    rw [hs] at h
    obtain ⟨_, _, _, h⟩ := h.last
    exact (Run.ends_pure.mp h).1

theorem verify_keeps [Clock σ] (hP : P.Notes) (t : Token) (k : KeyPair) : (t.verify k.verifier).Keeps P := by
  unfold verify
  split
  · exact KeyPair.verifier_keeps hP k _ _
  · exact .bind (.note hP (by simp [Event.level])) fun _ => .pure _

end Token

end Signatures

/-! ## Tokens -/

namespace Token

variable [Clock σ] {P : Conduct σ} {s s' : Session σ} {es : List Entry} {t : Token} {k : KeyPair}
  {ownId : String}

omit [Clock σ] in
theorem gives_requireRecipient {u : Unit} (h : (t.requireRecipient ownId).Gives s u es s') :
    t.recipient = some ownId := by
  unfold requireRecipient at h
  split at h
  · assumption
  · exact absurd h Attempt.gives_refuse

omit [Clock σ] in
theorem fails_requireRecipient {e : TrustError} (h : (t.requireRecipient ownId).Fails s e es s') :
    e = .recipientMismatch ownId t.recipient := by
  unfold requireRecipient at h
  split at h
  · exact absurd h Attempt.fails_pure
  · exact (Attempt.fails_refuse.mp h).1

theorem gives_requireUnexpired {u : Unit} (h : (t.requireUnexpired).Gives s u es s') :
    ∃ now, .reading now ∈ es ∧ t.isValidAt now = true := by
  rw [requireUnexpired, Attempt.gives_bind] at h
  obtain ⟨now, es₁, s₁, es₂, hnow, h, rfl⟩ := h
  obtain ⟨-, rfl, -⟩ := Run.ends_now.mp (Attempt.gives_now.mp hnow)
  split at h
  · exact ⟨now, by simp, ‹_›⟩
  · exact absurd h Attempt.gives_refuse

theorem requireRecipient_keeps (hP : P.Watches) (t : Token) (ownId : String) :
    (t.requireRecipient ownId).Keeps P := by
  unfold requireRecipient
  split
  · exact .pure _
  · exact .refuse hP _ _

theorem requireUnexpired_keeps (hP : P.Watches) (t : Token) : t.requireUnexpired.Keeps P := by
  refine .bind (.now hP.notes) fun now => ?_
  split
  · exact .pure _
  · exact .refuse hP _ _

theorem gives_accept {u : Unit} (h : (t.accept ownId k.verifier).Gives s u es s') :
    t.recipient = some ownId ∧ t.Vouched k es := by
  rw [accept, Attempt.gives_bind] at h
  obtain ⟨_, es₁, s₁, es₂, hrecipient, h, rfl⟩ := h
  rw [Attempt.gives_bind] at h
  obtain ⟨_, es₃, s₂, es₄, hunexpired, h, rfl⟩ := h
  rw [Attempt.gives_bind] at h
  obtain ⟨b, es₅, s₃, es₆, hverify, h, rfl⟩ := h
  have hsigned := ends_verify (Attempt.gives_lift.mp hverify)
  obtain ⟨now, hnow, hvalid⟩ := gives_requireUnexpired hunexpired
  refine ⟨gives_requireRecipient hrecipient, ?_, now, by simp [hnow], hvalid⟩
  cases b with
  | true => exact hsigned.symm
  | false => simp [Attempt.gives_bind] at h

theorem accept_keeps (hP : P.Watches) (t : Token) (ownId : String) (k : KeyPair) :
    (t.accept ownId k.verifier).Keeps P := by
  refine .bind (requireRecipient_keeps hP t ownId) fun _ => ?_
  refine .bind (requireUnexpired_keeps hP t) fun _ => ?_
  refine .bind (.lift (verify_keeps hP.notes t k)) fun b => ?_
  have hlast : (do t.requireRecipient ownId; t.requireUnexpired : Attempt σ Unit).Keeps P :=
    .bind (requireRecipient_keeps hP t ownId) fun _ => requireUnexpired_keeps hP t
  split
  · exact hlast
  · exact .bind (.refuse hP _ _) fun _ => hlast

/-- Only after the recipient was checked is a token found expired. -/
theorem recipient_of_fails_accept {e : TrustError}
    (h : (t.accept ownId k.verifier).Fails s e es s') (he : e.isRefreshable = true) :
    t.recipient = some ownId := by
  rw [accept, Attempt.fails_bind] at h
  obtain ⟨_, _, _, _, hrecipient, -, -⟩ | h := h
  · exact gives_requireRecipient hrecipient
  · rw [fails_requireRecipient h] at he
    exact absurd he (by simp [TrustError.isRefreshable])

end Token

/-! ## Assertions -/

section Assertions

variable [Clock σ] {P : Conduct σ} {s s' : Session σ} {es : List Entry} {a : Assertion}
  {k : KeyPair}

theorem Assertion.gives_accept {user : AssertedUser}
    (h : (a.accept k.verifier).Gives s user es s') : a.user = .ok user := by
  rw [accept] at h
  obtain ⟨b, _, _, h⟩ := h.last
  -- an assertion that is not signed is refused before it is read
  cases b with
  | false => simp [Attempt.gives_bind] at h
  | true =>
    rw [if_pos rfl, Attempt.gives_bind] at h
    obtain ⟨u, _, _, _, hu, h, -⟩ := h
    obtain ⟨now, _, _, h⟩ := h.last
    split at h
    · rw [Attempt.gives_bind] at h
      obtain ⟨_, _, _, _, hrefused, -, -⟩ := h
      exact absurd hrefused Attempt.gives_refuse
    · rw [(Attempt.gives_pure.mp h).1]
      exact (Attempt.gives_ofExcept.mp hu).1

theorem Assertion.accept_keeps (hP : P.Watches) (a : Assertion) (k : KeyPair) :
    (a.accept k.verifier).Keeps P := by
  have hread : (do
      let user ← Attempt.ofExcept a.user
      if user.notAfter ≤ (← Attempt.now) then
        Attempt.refuse (.assertionExpired user.subject user.notAfter)
          (.expired user.subject user.notAfter)
      return user : Attempt σ AssertedUser).Keeps P := by
    refine .bind (.ofExcept _) fun user => .bind (.now hP.notes) fun now => ?_
    split
    · exact .bind (.refuse hP _ _) fun _ => .pure _
    · exact .pure _
  refine .bind (.lift (KeyPair.verifier_keeps hP.notes k _ _)) fun b => ?_
  split
  · exact hread
  · exact .bind (.refuse hP _ _) fun _ => hread

end Assertions

/-! ## Principals -/

theorem Principal.verify_keeps [Clock σ] {P : Conduct σ} (hP : P.Notes) (p : Principal) (k : KeyPair) :
    (p.verify k.verifier).Keeps P := by
  unfold verify
  split
  · exact KeyPair.verifier_keeps hP k _ _
  · exact .pure _

theorem Principal.accept_keeps [Clock σ] {P : Conduct σ} (hP : P.Watches) (p : Principal) (k : KeyPair) :
    (p.accept k.verifier).Keeps P := by
  have hsigned : (do
      unless ← Attempt.lift (p.verify k.verifier) do
        Attempt.refuse (.principalForged p.subject) (.signatureInvalid p.subject "issuer")
      : Attempt σ Unit).Keeps P := by
    refine .bind (.lift (verify_keeps hP.notes p k)) fun b => ?_
    split
    · exact .pure _
    · exact .refuse hP _ _
  refine .bind (.now hP.notes) fun now => ?_
  split
  · exact hsigned
  · exact .bind (.throw _) fun _ => hsigned

end TokenTrust
