/-
  TokenTrust.Proofs.Source.Reporting — what checks and sources report of their work.

  Under any policy that lets clients work (`Policy.Works`), and with a source whose signing follows it
  (`Source.SignsUnder`), these follow it too:
  - `Token.accept_follows`, `Assertion.accept_follows`, `Principal.accept_follows`: the checks of what
    peers present. A forgery alarms the operator, and so does a token for someone else.
  - `Channel.exchange_follows`: a call on the service. The connection goes back after the failure was
    reported, and before it takes effect.
  - `Source.checkResponse_follows`: the check of a token that was just sent. It is the quiet check of
    kept tokens, and its refusals are reported here.
  - `Source.acquire_follows`, `Source.refresh_follows`, `Source.ping_follows`.
-/

import TokenTrust.Proofs.Session.Policy
import TokenTrust.Proofs.Source.Issued

namespace TokenTrust

variable {σ α : Type} {P : Policy} {s s' : Session σ} {es : List Entry}

/-! ## What peers present -/

section Acceptance

variable [Clock σ]

namespace Token

omit [Clock σ] in
theorem requireRecipient_follows (hP : P.Works) (t : Token) (ownId : String) :
    (t.requireRecipient ownId : Attempt σ Unit).Follows P := by
  unfold requireRecipient
  split
  · exact .pure _
  · exact .refuse (hP.alarm _ _ rfl rfl)

theorem requireUnexpired_follows (hP : P.Works) (t : Token) :
    (t.requireUnexpired : Attempt σ Unit).Follows P := by
  refine .bind (.lift (.now hP.notes)) fun now => ?_
  split
  · exact .pure _
  · exact .refuse (hP.remark (by simp [Event.level]) rfl rfl rfl)

theorem accept_follows (hP : P.Works) (t : Token) (ownId : String) (k : KeyPair) :
    (t.accept ownId k.verifier : Attempt σ Unit).Follows P := by
  have hlast : (do t.requireRecipient ownId; t.requireUnexpired : Attempt σ Unit).Follows P :=
    .bind (requireRecipient_follows hP t ownId) fun _ => requireUnexpired_follows hP t
  refine .bind (requireRecipient_follows hP t ownId) fun _ => ?_
  refine .bind (requireUnexpired_follows hP t) fun _ => ?_
  refine .bind (.lift (verify_keeps hP.notes t k)) fun b => ?_
  split
  · exact hlast
  · exact .bind (.refuse (hP.alarm _ _ rfl rfl)) fun _ => hlast

end Token

omit [Clock σ] in
theorem Assertion.user_calm {a : Assertion} {e : TrustError} (h : a.user = .error e) :
    e.isAlarming = false ∧ e.isUnsigned = false ∧ e.isUnset = false := by
  unfold Assertion.user at h
  cases hread : AssertedUser.codec.parse a.text with
  | ok user => rw [hread] at h; cases h
  | error fault => rw [hread] at h; cases h; exact ⟨rfl, rfl, rfl⟩

omit [Clock σ] in
theorem Assertion.user_follows (hP : P.Works) (a : Assertion) :
    (Attempt.ofExcept a.user : Attempt σ AssertedUser).Follows P :=
  .ofExcept fun e h =>
    have ⟨hcalm, hsigned, hset⟩ := user_calm h
    hP.quiet e hcalm hsigned hset

theorem Assertion.accept_follows (hP : P.Works) (a : Assertion) (k : KeyPair) :
    (a.accept k.verifier : Attempt σ AssertedUser).Follows P := by
  have hread : (do
      let user ← Attempt.ofExcept a.user
      if user.notAfter ≤ (← Attempt.now) then
        Attempt.refuse (.assertionExpired user.subject user.notAfter)
          (.expired user.subject user.notAfter)
      return user : Attempt σ AssertedUser).Follows P := by
    refine .bind (user_follows hP a) fun user => .bind (.lift (.now hP.notes)) fun now => ?_
    split
    · exact .bind (.refuse (hP.remark (by simp [Event.level]) rfl rfl rfl)) fun _ => .pure _
    · exact .pure _
  refine .bind (.lift (KeyPair.verifier_keeps hP.notes k _ _)) fun b => ?_
  split
  · exact hread
  · exact .bind (.refuse (hP.alarm _ _ rfl rfl)) fun _ => hread

theorem Principal.accept_follows (hP : P.Works) (p : Principal) (k : KeyPair) :
    (p.accept k.verifier : Attempt σ Unit).Follows P := by
  have hsigned : (do
      unless ← Attempt.lift (p.verify k.verifier) do
        Attempt.refuse (.principalForged p.subject) (.signatureInvalid p.subject "issuer")
      : Attempt σ Unit).Follows P := by
    refine .bind (.lift (verify_keeps hP.notes p k)) fun b => ?_
    split
    · exact .pure _
    · exact .refuse (hP.alarm _ _ rfl rfl)
  refine .bind (.lift (.now hP.notes)) fun now => ?_
  split
  · exact hsigned
  · exact .bind (.throw (hP.quiet _ rfl rfl rfl)) fun _ => hsigned

end Acceptance

/-! ## The service -/

namespace Channel

theorem translate_follows (hP : P.Works) (c : Channel σ) (answer : Except ServiceError α) :
    (c.translate answer).Follows P := by
  unfold translate
  split
  · exact .pure _
  · exact .refuse (hP.alarm _ _ rfl rfl)
  · exact .refuse (hP.alarm _ _ rfl rfl)

theorem exchange_follows [Clock σ] (hP : P.Works) (c : Channel σ) {use : Lease.Use σ α}
    (huse : ∀ l, (use c.pool l).Keeps P.conduct) : (c.exchange use).Follows P := by
  refine .bind (.lift (Lease.borrow_keeps hP.leases _)) fun borrowed => ?_
  refine .bind (translate_follows hP c _) fun l => ?_
  refine .bind (.lift (huse l)) fun (answer, l') => ?_
  exact .before_end (translate_follows hP c answer) (Lease.giveBack_keeps hP.leases l')

theorem ping_follows [Clock σ] (hP : P.Works) (c : Channel σ) : c.ping.Follows P :=
  c.exchange_follows hP (Lease.ping_keeps hP.leases)

end Channel

/-! ## Sources -/

variable [Clock σ]

namespace MockSource

theorem principalOf_follows (hP : P.Works) (r : Request) :
    (principalOf r : Attempt σ Principal).Follows P := by
  unfold principalOf
  split
  · refine .bind (Assertion.user_follows hP _) fun user => ?_
    exact .bind (.lift (Validity.make_keeps hP.notes _ _ _)) fun _ => .pure _
  · exact .pure _
  · exact .pure _
  · refine .bind (.lift (Millis.fromNow_keeps hP.notes _)) fun notAfter => ?_
    exact .bind (.lift (Validity.make_keeps hP.notes _ _ _)) fun _ => .pure _
  · exact .throw (hP.quiet _ rfl rfl rfl)

theorem acquire_follows (hP : (P.conduct : Conduct σ).Notes) (m : MockSource) {r : Request}
    (hprincipal : (principalOf r : Attempt σ Principal).Follows P) :
    (m.acquire r : Attempt σ Token).Follows P := by
  refine .bind hprincipal fun principal => ?_
  refine .bind (.lift (Millis.fromNow_keeps hP _)) fun notAfter => ?_
  refine .bind (.lift (Validity.make_keeps hP _ _ _)) fun validity => ?_
  exact .bind (.lift (.note hP (by simp [Event.level]))) fun _ => .pure _

end MockSource

namespace Source

theorem fails_checkIssued {issuer : KeyPair} {t : Token} {e : TrustError}
    (h : (checkIssued issuer t).Fails s e es s') :
    e = .signatureInvalid t.subject "issuer" ∨ e = .expired t.subject t.validity.notAfter := by
  have hexpiry : ∀ s es s', (do
      unless t.isValidAt (← Attempt.now) do
        throw (.expired t.subject t.validity.notAfter) : Attempt σ Unit).Fails s e es s' →
      e = .expired t.subject t.validity.notAfter := by
    intro s es s' h
    rw [Attempt.fails_bind] at h
    rcases h with ⟨now, _, _, _, -, h, -⟩ | h
    · split at h
      · exact absurd h Attempt.fails_pure
      · exact (Attempt.fails_throw.mp h).1
    · exact absurd h Attempt.fails_now
  rw [checkIssued, Attempt.fails_bind] at h
  rcases h with ⟨b, _, _, _, -, h, -⟩ | h
  · split at h
    · exact .inr (hexpiry _ _ _ h)
    · rw [Attempt.fails_bind] at h
      rcases h with ⟨_, _, _, _, hthrown, -, -⟩ | hthrown
      · exact absurd hthrown Attempt.gives_throw
      · exact .inl (Attempt.fails_throw.mp hthrown).1
  · exact absurd h Attempt.fails_lift

theorem checkResponse_follows (hP : P.Works) (issuer : KeyPair) (t : Token) :
    (checkResponse issuer t : Attempt σ Unit).Follows P := by
  have hquiet : (checkIssued issuer t : Attempt σ Unit).outcome.Follows P :=
    .lift (checkIssued_keeps hP.notes issuer t)
  apply hquiet.bind_of_gives
  intro s result es s' hcheck
  cases result with
  | ok _ => exact .pure _
  | error e =>
    rcases fails_checkIssued (Attempt.gives_outcome.mp hcheck) with rfl | rfl
    · exact .refuse (hP.alarm _ _ rfl rfl)
    · exact .throw (hP.quiet _ rfl rfl rfl)

/-- If the source signs, it does so as the policy says. -/
def SignsUnder (P : Policy) : Source σ → Prop
  | production _ appKey _ => ∀ r, (requestSignature appKey r : Attempt σ String).Follows P
  | _ => True

theorem acquire_follows (hP : P.Works) {source : Source σ} (hsigns : source.SignsUnder P)
    (r : Request) : (source.acquire r).Follows P := by
  have hnote : ∀ {e : Event}, e.level ≠ .error → (Attempt.log e : Attempt σ Unit).Follows P :=
    fun he => .lift (.note hP.notes he)
  cases source with
  | mock made => exact made.acquire_follows hP.notes (MockSource.principalOf_follows hP r)
  | unauthenticated channel =>
    refine .bind (hnote (by simp [Event.level])) fun _ => ?_
    exact channel.exchange_follows hP (Lease.request_keeps hP.leases _ _)
  | production channel appKey issuer =>
    refine .bind (hsigns r) fun signature => ?_
    refine .bind (channel.exchange_follows hP (Lease.request_keeps hP.leases _ _)) fun token => ?_
    refine .bind (checkResponse_follows hP issuer token) fun _ => ?_
    exact .bind (hnote (by simp [Event.level])) fun _ => .pure _

theorem refresh_follows (hP : P.Works) {source : Source σ} (hsigns : source.SignsUnder P)
    (t : Token) : (source.refresh t).Follows P := by
  cases source with
  | mock made => exact .lift (MockSource.refresh_keeps hP.notes t)
  | unauthenticated channel =>
    refine .bind (.lift (channel.renewal_keeps hP.notes t)) fun request => ?_
    exact channel.exchange_follows hP (Lease.refresh_keeps hP.leases _ _)
  | production channel appKey issuer =>
    refine .bind (.lift (channel.renewal_keeps hP.notes t)) fun request => ?_
    refine .bind (hsigns request) fun signature => ?_
    refine .bind (channel.exchange_follows hP (Lease.refresh_keeps hP.leases _ _)) fun fresh => ?_
    refine .bind (checkResponse_follows hP issuer fresh) fun _ => ?_
    exact .bind (.lift (.note hP.notes (by simp [Event.level]))) fun _ => .pure _

theorem ping_follows (hP : P.Works) (source : Source σ) : source.ping.Follows P := by
  cases source with
  | mock made => exact .pure _
  | unauthenticated channel => exact channel.ping_follows hP
  | production channel appKey issuer => exact channel.ping_follows hP

omit [Clock σ] in
/-- No one is alarmed by a signing that fails. -/
theorem signsUnder_alarmsMatch (source : Source σ) : source.SignsUnder alarmsMatch := by
  cases source with
  | production channel appKey issuer =>
    intro r
    apply Attempt.Follows.ofExcept
    intro e h
    cases hsign : r.sign appKey with
    | ok signature => rw [hsign] at h; cases h
    | error fault => rw [hsign] at h; cases h; rfl
  | _ => trivial

end Source

end TokenTrust
