/-
  TokenTrust.Proofs.Acceptance.Verdict — how a check of what a peer presents can end, and what is
  looked at before it ends that way.

  `Token.Judged` and `Assertion.Judged` have one case for each ending. They are stated for any
  verifier, so a verifier may move the clock while it works.
  - `Token.ends_accept`, `Assertion.ends_accept`: a check ends in one of these ways.
  - `Token.judged_late_iff`: under a key, a token is found expired exactly if it names the client
    and a reading of the clock is not before its end: the first one, or, once the signature was
    found good, the second.
-/

import TokenTrust.Proofs.Acceptance.Vouched

namespace TokenTrust

variable {σ : Type} [Clock σ]

/-! ## Tokens -/

inductive Token.Judged (t : Token) (ownId : String) (check : Verifier σ) (s : Session σ) :
    Except TrustError Unit → List Entry → Session σ → Prop where
  | misdirected (elsewhere : t.recipient ≠ some ownId) :
      Judged t ownId check s (.error (.recipientMismatch ownId t.recipient))
        [.event (.wrongRecipient ownId t.recipient t.subject)] s
  | ended {now : Millis} {es : List Entry} {s' : Session σ} (ours : t.recipient = some ownId)
      (looked : (Run.now : Run σ Millis).Ends s now es s') (late : t.isValidAt now = false) :
      Judged t ownId check s (.error (.expired t.subject t.validity.notAfter))
        (es ++ [.event (.receivedExpired t.subject t.validity.notAfter)]) s'
  | forged {now : Millis} {es es' : List Entry} {s₁ s' : Session σ} (ours : t.recipient = some ownId)
      (looked : (Run.now : Run σ Millis).Ends s now es s₁) (intime : t.isValidAt now = true)
      (checked : (t.verify check).Ends s₁ false es' s') :
      Judged t ownId check s (.error (.signatureInvalid t.subject "issuer"))
        (es ++ es' ++ [.event (.receivedForged t.subject t.holder)]) s'
  | endedMeanwhile {now later : Millis} {es es' es'' : List Entry} {s₁ s₂ s' : Session σ}
      (ours : t.recipient = some ownId)
      (looked : (Run.now : Run σ Millis).Ends s now es s₁) (intime : t.isValidAt now = true)
      (checked : (t.verify check).Ends s₁ true es' s₂)
      (relooked : (Run.now : Run σ Millis).Ends s₂ later es'' s') (late : t.isValidAt later = false) :
      Judged t ownId check s (.error (.expired t.subject t.validity.notAfter))
        (es ++ es' ++ es'' ++ [.event (.receivedExpired t.subject t.validity.notAfter)]) s'
  | sound {now later : Millis} {es es' es'' : List Entry} {s₁ s₂ s' : Session σ}
      (ours : t.recipient = some ownId)
      (looked : (Run.now : Run σ Millis).Ends s now es s₁) (intime : t.isValidAt now = true)
      (checked : (t.verify check).Ends s₁ true es' s₂)
      (relooked : (Run.now : Run σ Millis).Ends s₂ later es'' s') (still : t.isValidAt later = true) :
      Judged t ownId check s (.ok ()) (es ++ es' ++ es'') s'

namespace Token

variable {s s' : Session σ} {es : List Entry} {t : Token} {ownId : String} {check : Verifier σ}

omit [Clock σ] in
theorem gives_requireRecipient_iff {u : Unit} :
    (t.requireRecipient ownId).Gives s u es s' ↔ t.recipient = some ownId ∧ es = [] ∧ s' = s := by
  unfold requireRecipient
  split
  · rename_i ours
    simp [ours]
  · rename_i elsewhere
    simp [elsewhere]

omit [Clock σ] in
theorem fails_requireRecipient_iff {e : TrustError} :
    (t.requireRecipient ownId).Fails s e es s' ↔ t.recipient ≠ some ownId ∧
      e = .recipientMismatch ownId t.recipient ∧
      es = [.event (.wrongRecipient ownId t.recipient t.subject)] ∧ s' = s := by
  unfold requireRecipient
  split
  · rename_i ours
    simp [ours]
  · rename_i elsewhere
    simp [elsewhere]

theorem gives_requireUnexpired_iff {u : Unit} : t.requireUnexpired.Gives s u es s' ↔
    ∃ now, (Run.now : Run σ Millis).Ends s now es s' ∧ t.isValidAt now = true := by
  rw [requireUnexpired, Attempt.gives_bind]
  constructor
  · rintro ⟨now, es₁, s₁, es₂, hnow, h, rfl⟩
    split at h
    · rename_i intime
      obtain ⟨-, rfl, rfl⟩ := Attempt.gives_pure.mp h
      exact ⟨now, by simpa using hnow, intime⟩
    · exact absurd h Attempt.gives_refuse
  · rintro ⟨now, hnow, intime⟩
    refine ⟨now, es, s', [], Attempt.gives_now.mpr hnow, ?_, by simp⟩
    rw [if_pos intime]
    exact Attempt.gives_pure.mpr ⟨rfl, rfl, rfl⟩

theorem fails_requireUnexpired {e : TrustError} (h : t.requireUnexpired.Fails s e es s') :
    ∃ now es₁, (Run.now : Run σ Millis).Ends s now es₁ s' ∧ t.isValidAt now = false ∧
      e = .expired t.subject t.validity.notAfter ∧
      es = es₁ ++ [.event (.receivedExpired t.subject t.validity.notAfter)] := by
  rw [requireUnexpired, Attempt.fails_bind] at h
  rcases h with ⟨now, es₁, s₁, es₂, hnow, h, rfl⟩ | h
  · split at h
    · exact absurd h Attempt.fails_pure
    · rename_i late
      obtain ⟨rfl, rfl, rfl⟩ := Attempt.fails_refuse.mp h
      exact ⟨now, es₁, Attempt.gives_now.mp hnow, by simpa using late, rfl, rfl⟩
  · exact absurd h Attempt.fails_now

theorem judged_of_gives {u : Unit} (h : (t.accept ownId check).Gives s u es s') :
    t.Judged ownId check s (.ok ()) es s' := by
  rw [accept, Attempt.gives_bind] at h
  obtain ⟨_, _, _, _, hrecipient, h, rfl⟩ := h
  obtain ⟨ours, rfl, rfl⟩ := gives_requireRecipient_iff.mp hrecipient
  rw [Attempt.gives_bind] at h
  obtain ⟨_, ea, sa, _, hunexpired, h, rfl⟩ := h
  obtain ⟨now, looked, intime⟩ := gives_requireUnexpired_iff.mp hunexpired
  rw [Attempt.gives_bind] at h
  obtain ⟨b, eb, sb, _, hverify, h, rfl⟩ := h
  have checked := Attempt.gives_lift.mp hverify
  cases b with
  | false => simp [Attempt.gives_bind] at h
  | true =>
    rw [if_pos rfl, Attempt.gives_bind] at h
    obtain ⟨_, _, _, ec, hrecipient', h, rfl⟩ := h
    obtain ⟨-, rfl, rfl⟩ := gives_requireRecipient_iff.mp hrecipient'
    obtain ⟨later, relooked, still⟩ := gives_requireUnexpired_iff.mp h
    simpa using Judged.sound ours looked intime checked relooked still

theorem judged_of_fails {e : TrustError} (h : (t.accept ownId check).Fails s e es s') :
    t.Judged ownId check s (.error e) es s' := by
  rw [accept, Attempt.fails_bind] at h
  rcases h with ⟨_, _, _, _, hrecipient, h, rfl⟩ | hrecipient
  · obtain ⟨ours, rfl, rfl⟩ := gives_requireRecipient_iff.mp hrecipient
    rw [Attempt.fails_bind] at h
    rcases h with ⟨_, ea, sa, _, hunexpired, h, rfl⟩ | hunexpired
    · obtain ⟨now, looked, intime⟩ := gives_requireUnexpired_iff.mp hunexpired
      rw [Attempt.fails_bind] at h
      rcases h with ⟨b, eb, sb, _, hverify, h, rfl⟩ | hverify
      · have checked := Attempt.gives_lift.mp hverify
        cases b with
        | false =>
          rw [if_neg Bool.false_ne_true, Attempt.fails_bind] at h
          rcases h with ⟨_, _, _, _, hrefused, -, -⟩ | hrefused
          · exact absurd hrefused Attempt.gives_refuse
          · obtain ⟨rfl, rfl, rfl⟩ := Attempt.fails_refuse.mp hrefused
            simpa using Judged.forged ours looked intime checked
        | true =>
          rw [if_pos rfl, Attempt.fails_bind] at h
          rcases h with ⟨_, _, _, ec, hrecipient', h, rfl⟩ | hrecipient'
          · obtain ⟨-, rfl, rfl⟩ := gives_requireRecipient_iff.mp hrecipient'
            obtain ⟨later, ed, relooked, late, rfl, rfl⟩ := fails_requireUnexpired h
            simpa using Judged.endedMeanwhile ours looked intime checked relooked late
          · exact absurd ours (fails_requireRecipient_iff.mp hrecipient').1
      · exact absurd hverify Attempt.fails_lift
    · obtain ⟨now, ea, looked, late, rfl, rfl⟩ := fails_requireUnexpired hunexpired
      exact .ended ours looked late
  · obtain ⟨elsewhere, rfl, rfl, rfl⟩ := fails_requireRecipient_iff.mp hrecipient
    exact .misdirected elsewhere

theorem ends_accept {r : Except TrustError Unit}
    (h : (ExceptT.run (t.accept ownId check)).Ends s r es s') : t.Judged ownId check s r es s' := by
  cases r with
  | ok u => exact judged_of_gives h
  | error e => exact judged_of_fails h

end Token

/-! ## Tokens under a key -/

theorem Run.readingsOf_now {now : Millis} {s s' : Session σ} {es : List Entry}
    (h : (Run.now : Run σ Millis).Ends s now es s') : readingsOf es = [now] := by
  obtain ⟨-, rfl, -⟩ := Run.ends_now.mp h
  rfl

omit [Clock σ] in
/-- Checking a signature under a key takes no time. -/
theorem KeyPair.verifier_still {k : KeyPair} {bytes : List UInt8} {signature : String} {b : Bool}
    {s s' : Session σ} {es : List Entry} (h : (k.verifier bytes signature).Ends s b es s') :
    readingsOf es = [] ∧ s' = s := by
  unfold verifier at h
  split at h
  · obtain ⟨-, rfl, rfl⟩ := Run.ends_pure.mp h
    exact ⟨rfl, rfl⟩
  · rw [Run.ends_bind] at h
    obtain ⟨_, _, _, _, hlog, h, rfl⟩ := h
    obtain ⟨rfl, rfl⟩ := Run.ends_log.mp hlog
    obtain ⟨-, rfl, rfl⟩ := Run.ends_pure.mp h
    exact ⟨rfl, rfl⟩

namespace Token

variable {s s' : Session σ} {es : List Entry} {t : Token} {ownId : String} {k : KeyPair}

omit [Clock σ] in
theorem verify_still {b : Bool} (h : (t.verify k.verifier).Ends s b es s') :
    readingsOf es = [] ∧ s' = s := by
  unfold verify at h
  split at h
  · exact KeyPair.verifier_still h
  · rw [Run.ends_bind] at h
    obtain ⟨_, _, _, _, hlog, h, rfl⟩ := h
    obtain ⟨rfl, rfl⟩ := Run.ends_log.mp hlog
    obtain ⟨-, rfl, rfl⟩ := Run.ends_pure.mp h
    exact ⟨rfl, rfl⟩

/-- The token is for `ownId`, and has ended at the first instant, or at the second one and carries
the key's signature. -/
def FoundEnded (t : Token) (ownId : String) (k : KeyPair) (instants : List Millis) : Prop :=
  t.recipient = some ownId ∧
    ((∃ now, instants = [now] ∧ t.isValidAt now = false) ∨
      ∃ now later, instants = [now, later] ∧ t.isValidAt now = true ∧ t.isSignedBy k = true ∧
        t.isValidAt later = false)

theorem judged_late_iff {r : Except TrustError Unit} (h : t.Judged ownId k.verifier s r es s') :
    (∃ e, r = .error e ∧ e.isRefreshable = true) ↔ t.FoundEnded ownId k (readingsOf es) := by
  cases h with
  | misdirected elsewhere =>
    simp [FoundEnded, elsewhere, TrustError.isRefreshable]
  | ended ours looked late =>
    simp [FoundEnded, ours, late, Run.readingsOf_now looked, TrustError.isRefreshable]
  | forged ours looked intime checked =>
    simp [FoundEnded, intime, Run.readingsOf_now looked, (verify_still checked).1,
      TrustError.isRefreshable]
  | endedMeanwhile ours looked intime checked relooked late =>
    refine ⟨fun _ => ⟨ours, .inr ⟨_, _, ?_, intime, (ends_verify checked).symm, late⟩⟩,
      fun _ => ⟨_, rfl, rfl⟩⟩
    simp [Run.readingsOf_now looked, Run.readingsOf_now relooked, (verify_still checked).1]
  | sound ours looked intime checked relooked still =>
    simp [FoundEnded, still, Run.readingsOf_now looked, Run.readingsOf_now relooked,
      (verify_still checked).1]

/-- A signed token for `ownId` is accepted before its end. -/
theorem judged_sound {r : Except TrustError Unit} (h : t.Judged ownId k.verifier s r es s')
    (ours : t.recipient = some ownId) (signed : t.isSignedBy k = true)
    (intime : ∀ now ∈ readingsOf es, t.isValidAt now = true) : r = .ok () := by
  cases h with
  | misdirected elsewhere => exact absurd ours elsewhere
  | @ended now _ _ _ looked late =>
    have hnow := intime now (by simp [Run.readingsOf_now looked])
    simp [late] at hnow
  | forged _ looked _ checked =>
    have hsigned := ends_verify checked
    simp [signed] at hsigned
  | @endedMeanwhile _ later _ _ _ _ _ _ _ looked _ checked relooked late =>
    have hlater := intime later (by simp [Run.readingsOf_now relooked])
    simp [late] at hlater
  | sound => rfl

end Token

/-! ## Assertions -/

theorem Assertion.user_eq_ok_iff {a : Assertion} {user : AssertedUser} :
    a.user = .ok user ↔ AssertedUser.codec.parse a.text = .ok user := by
  unfold Assertion.user
  cases AssertedUser.codec.parse a.text with
  | ok u => exact ⟨fun h => congrArg _ (Except.ok.inj h), fun h => congrArg _ (Except.ok.inj h)⟩
  | error fault => exact ⟨nofun, nofun⟩

theorem Assertion.user_eq_error_iff {a : Assertion} {e : TrustError} : a.user = .error e ↔
    ∃ fault, AssertedUser.codec.parse a.text = .error fault ∧ e = .malformed "proxy user token" fault := by
  unfold Assertion.user
  cases AssertedUser.codec.parse a.text with
  | ok u => exact ⟨nofun, fun ⟨_, h, _⟩ => nomatch h⟩
  | error fault =>
    refine ⟨fun h => ⟨fault, rfl, (Except.error.inj h).symm⟩, ?_⟩
    rintro ⟨_, h, rfl⟩
    rw [Except.error.inj h]
    rfl

inductive Assertion.Judged (a : Assertion) (check : Verifier σ) (s : Session σ) :
    Except TrustError AssertedUser → List Entry → Session σ → Prop where
  | forged {es : List Entry} {s' : Session σ} (checked : (a.verify check).Ends s false es s') :
      Judged a check s (.error (.signatureInvalid "proxy principal" "front end"))
        (es ++ [.event .assertionForged]) s'
  | unreadable {e : TrustError} {es : List Entry} {s' : Session σ}
      (checked : (a.verify check).Ends s true es s') (read : a.user = .error e) :
      Judged a check s (.error e) es s'
  | ended {user : AssertedUser} {now : Millis} {es es' : List Entry} {s₁ s' : Session σ}
      (checked : (a.verify check).Ends s true es s₁) (read : a.user = .ok user)
      (looked : (Run.now : Run σ Millis).Ends s₁ now es' s') (late : user.notAfter ≤ now) :
      Judged a check s (.error (.expired user.subject user.notAfter))
        (es ++ es' ++ [.event (.assertionExpired user.subject user.notAfter)]) s'
  | sound {user : AssertedUser} {now : Millis} {es es' : List Entry} {s₁ s' : Session σ}
      (checked : (a.verify check).Ends s true es s₁) (read : a.user = .ok user)
      (looked : (Run.now : Run σ Millis).Ends s₁ now es' s') (intime : now < user.notAfter) :
      Judged a check s (.ok user) (es ++ es') s'

namespace Assertion

variable {s s' : Session σ} {es : List Entry} {a : Assertion} {check : Verifier σ}

theorem ends_accept {r : Except TrustError AssertedUser}
    (h : (ExceptT.run (a.accept check)).Ends s r es s') : a.Judged check s r es s' := by
  rw [accept, Attempt.ends_bind] at h
  rcases h with ⟨b, ea, sa, _, hverify, h, rfl⟩ | ⟨e, -, hverify⟩
  · have checked := Attempt.gives_lift.mp hverify
    cases b with
    | false =>
      rw [if_neg Bool.false_ne_true, Attempt.ends_bind] at h
      rcases h with ⟨_, _, _, _, hrefused, -, -⟩ | ⟨e, rfl, hrefused⟩
      · exact absurd hrefused Attempt.gives_refuse
      · obtain ⟨rfl, rfl, rfl⟩ := Attempt.fails_refuse.mp hrefused
        exact .forged checked
    | true =>
      rw [if_pos rfl, Attempt.ends_bind] at h
      rcases h with ⟨user, eb, sb, _, huser, h, rfl⟩ | ⟨e, rfl, huser⟩
      · obtain ⟨read, rfl, rfl⟩ := Attempt.gives_ofExcept.mp huser
        rw [Attempt.ends_bind] at h
        rcases h with ⟨now, ec, sc, _, hnow, h, rfl⟩ | ⟨e, -, hnow⟩
        · have looked := Attempt.gives_now.mp hnow
          by_cases late : user.notAfter ≤ now
          · rw [if_pos late, Attempt.ends_bind] at h
            rcases h with ⟨_, _, _, _, hrefused, -, -⟩ | ⟨e, rfl, hrefused⟩
            · exact absurd hrefused Attempt.gives_refuse
            · obtain ⟨rfl, rfl, rfl⟩ := Attempt.fails_refuse.mp hrefused
              simpa using Judged.ended checked read looked late
          · rw [if_neg late] at h
            obtain ⟨rfl, rfl, rfl⟩ := Run.ends_pure.mp h
            simpa using Judged.sound checked read looked (Int64.not_le.mp late)
        · exact absurd hnow Attempt.fails_now
      · obtain ⟨read, rfl, rfl⟩ := Attempt.fails_ofExcept.mp huser
        simpa using Judged.unreadable checked read
  · exact absurd hverify Attempt.fails_lift

end Assertion

end TokenTrust
