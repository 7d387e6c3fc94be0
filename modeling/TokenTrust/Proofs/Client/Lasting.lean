/-
  TokenTrust.Proofs.Client.Lasting — what was found good once is good until it expires.

  The checks of tokens and assertions ask two things: who has signed, which never changes, and the
  time.
  - `Source.Trusts.isValid`: a token that a fetch has come back with is valid as long as it lasts.
  - `not_fails_prepare`: an assertion that was let in once is let in as long as it lasts.
-/

import TokenTrust.Proofs.Client.Gate
import TokenTrust.Proofs.Client.Operations

namespace TokenTrust

variable {σ : Type} [Clock σ]

/-! ## Tokens -/

section Trust

variable {s s' : Session σ} {es : List Entry} {t : Token}

def Source.Trusts (source : Source σ) (t : Token) : Prop :=
  ∀ channel app issuer, source = .production channel app issuer → t.isSignedBy issuer = true

theorem Source.unsigned_or_late {issuer : KeyPair} {e : TrustError}
    (h : (checkIssued issuer t).Fails s e es s') :
    t.isSignedBy issuer = false ∨ ∃ now ∈ readingsOf es, t.isValidAt now = false := by
  rw [checkIssued, Attempt.fails_bind] at h
  rcases h with ⟨b, es₁, s₁, es₂, hverify, h, rfl⟩ | hverify
  · have hsigned := Token.ends_verify (Attempt.gives_lift.mp hverify)
    cases b with
    | false => exact .inl hsigned.symm
    | true =>
      rw [if_pos rfl, Attempt.fails_bind] at h
      rcases h with ⟨now, es₃, s₂, es₄, hnow, h, rfl⟩ | hnow
      · refine .inr ⟨now, by simp [Run.readingsOf_now (Attempt.gives_now.mp hnow)], ?_⟩
        by_cases hvalid : t.isValidAt now = true
        · rw [if_pos hvalid] at h
          exact absurd h Attempt.fails_pure
        · exact Bool.eq_false_iff.mpr hvalid
      · exact absurd hnow Attempt.fails_now
  · exact absurd hverify Attempt.fails_lift

/-- A trusted token is valid as long as it lasts. -/
theorem Source.Trusts.isValid {source : Source σ} (h : source.Trusts t) {b : Bool}
    (hends : (source.isValid t).Ends s b es s')
    (hintime : ∀ now ∈ readingsOf es, t.isValidAt now = true) : b = true := by
  cases source with
  | mock | unauthenticated => exact (Run.ends_pure.mp hends).1
  | production channel app issuer =>
    simp only [Source.isValid] at hends
    rw [Run.ends_bind] at hends
    obtain ⟨result, es₁, s₁, es₂, hcheck, hends, rfl⟩ := hends
    cases result with
    | ok _ => exact (Run.ends_pure.mp hends).1
    | error e =>
      rcases unsigned_or_late hcheck with hunsigned | ⟨now, hnow, hlate⟩
      · have hsigned := h channel app issuer rfl
        rw [hunsigned] at hsigned
        cases hsigned
      · have hvalid := hintime now (by simp [hnow])
        rw [hlate] at hvalid
        cases hvalid

/-- A source has vouched for whatever a fetch comes back with. -/
theorem Client.Fetches.trusts {c : Client σ} {key : Cache.Key} {before after : Cache}
    {origin : Option Origin} (h : c.Fetches key before after es (.ok t) origin) : c.source.Trusts t := by
  intro channel app issuer hsource
  cases h with
  | kept _ valid =>
    rw [hsource] at valid
    exact (Source.ends_isValid valid).signed
  | acquired answer =>
    rw [hsource] at answer
    exact (Source.gives_acquire answer).signed

end Trust

/-! ## Assertions -/

namespace Client

section Recognizing

variable {c : Client σ} {f : Fetch} {s s' : Session σ} {es : List Entry}

/-- The client has nothing against the assertion that a token is wanted for, unless its user's time
runs out. -/
def Recognizes (c : Client σ) (w : Wanted) : Prop :=
  ∀ a, w = .user a → ∃ user, a.user = .ok user ∧ (c.settings.useMock = false →
    ∃ k, c.frontEndKey = some k ∧ k.accepts (Text.bytes a.text) a.signature = true)

/-- An instant before the end of the token and, where it counts, of the assertion. -/
def Early (c : Client σ) (w : Wanted) (t : Token) (now : Millis) : Prop :=
  now < t.validity.notAfter ∧ ∀ a user, w = .user a → c.settings.useMock = false →
    a.user = .ok user → now < user.notAfter

theorem recognizes_of_gives_prepare {r : Request × Cache.Parts} (h : (c.prepare f).Gives s r es s') :
    c.Recognizes f.wanted := by
  intro a hwanted
  rw [prepare, hwanted, Attempt.gives_bind] at h
  obtain ⟨user, es₁, s₁, _, huser, -, -⟩ := h
  refine ⟨user, gives_admitAssertion huser, fun hmock => ?_⟩
  rcases ends_admitAssertion hmock huser with ⟨_, -, -, hlet⟩ | ⟨_, herror, -⟩
  · exact hlet.signed
  · cases herror

theorem fails_admitAssertion {a : Assertion} {e : TrustError} (hknown : c.Recognizes (.user a))
    (h : (c.admitAssertion a).Fails s e es s') :
    c.settings.useMock = false ∧
      ∃ user now, a.user = .ok user ∧ now ∈ readingsOf es ∧ user.notAfter ≤ now := by
  obtain ⟨user, huser, hsigned⟩ := hknown a rfl
  cases hmock : c.settings.useMock with
  | true =>
    rw [admitAssertion_mock_eq hmock huser, Attempt.fails_bind] at h
    rcases h with ⟨_, _, _, _, -, h, -⟩ | hlog
    · exact absurd h Attempt.fails_pure
    · exact absurd hlog Attempt.fails_log
  | false =>
    obtain ⟨k, hkey, haccepts⟩ := hsigned hmock
    rw [admitAssertion_eq hmock, hkey, Attempt.fails_bind] at h
    rcases h with ⟨_, _, _, es₂, hrequire, h, rfl⟩ | hrequire
    · obtain ⟨hsome, rfl, rfl⟩ := Attempt.gives_require.mp hrequire
      cases hsome
      cases Assertion.ends_accept h with
      | forged checked =>
        have hfalse := KeyPair.ends_verifier checked
        rw [haccepts] at hfalse
        cases hfalse
      | unreadable _ read =>
        rw [huser] at read
        cases read
      | @ended late now _ _ _ _ _ read looked ended =>
        exact ⟨rfl, late, now, read, by simp [Run.readingsOf_now looked], ended⟩
    · cases (Attempt.fails_require.mp hrequire).1

theorem not_fails_prepareFor {kind : TokenKind} {subject : Subject} {name : String}
    {chain : Option (List String)} {e : TrustError} :
    ¬(c.prepareFor f kind subject name chain).Fails s e es s' :=
  (prepareFor_follows (failsOnly_notes _) c f kind subject name chain).not_fails

/-- What was prepared once can be prepared again early enough. -/
theorem not_fails_prepare {t : Token} {e : TrustError} (hknown : c.Recognizes f.wanted)
    (hearly : ∀ now ∈ readingsOf es, c.Early f.wanted t now) : ¬(c.prepare f).Fails s e es s' := by
  intro h
  unfold prepare at h
  split at h
  · exact not_fails_prepareFor h
  · rename_i a hwanted
    rw [hwanted] at hknown hearly
    rw [Attempt.fails_bind] at h
    rcases h with ⟨_, _, _, _, -, h, -⟩ | h
    · exact not_fails_prepareFor h
    · obtain ⟨hmock, user, now, huser, hnow, hlate⟩ := fails_admitAssertion hknown h
      exact absurd ((hearly now hnow).2 a user rfl hmock huser) (Int64.not_lt.mpr hlate)
  · exact not_fails_prepareFor h

end Recognizing

end Client

end TokenTrust
