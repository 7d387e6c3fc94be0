/-
  TokenTrust.Proofs.Client.Trust — a client in production gives out, keeps and admits only what its
  issuer vouches for.

  Nothing is assumed of the service, of the clock, or of what others put into the cache. The work is
  done by one step: whatever a fetch finds in the cache is judged again (`Fetches.kept`), and
  whatever the service answers is checked before it is kept (`Fetches.acquired`).
-/

import TokenTrust.Proofs.Client.Admission
import TokenTrust.Proofs.Client.Visits

namespace TokenTrust

namespace Client

variable {σ : Type} [Clock σ] {c : Client σ} {channel : Channel σ} {app issuer : KeyPair}

/-- What a fetch in production makes of the cache. -/
theorem fetches_vouched {key : Cache.Key} {before after : Cache} {es : List Entry}
    {answer : Except TrustError Token} {origin : Option Origin}
    (hsource : c.source = .production channel app issuer)
    (h : c.Fetches key before after es answer origin) :
    (∀ t, answer = .ok t → t.Vouched issuer es) ∧
      ∀ e ∈ after.entries, e ∈ before.entries ∨ e.2.Vouched issuer es := by
  cases h with
  | @kept t _ _ _ held valid onRecord rest =>
    rw [hsource] at valid
    have hvouched : t.Vouched issuer es := (Source.ends_isValid valid).mono onRecord
    refine ⟨fun u hu => ?_, fun e he => .inl (rest he)⟩
    cases hu
    exact hvouched
  | @acquired t _ _ _ _ answered onRecord rest =>
    rw [hsource] at answered
    have hvouched : t.Vouched issuer es := (Source.gives_acquire answered).mono onRecord
    refine ⟨fun u hu => ?_, fun e he => ?_⟩
    · cases hu
      exact hvouched
    · rcases rest e he with rfl | ⟨he, -⟩
      · exact .inr hvouched
      · exact .inl he
  | failed rest => exact ⟨fun u hu => by simp at hu, fun e he => .inl (rest he)⟩

theorem step_vouched (hsource : c.source = .production channel app issuer) (v : Visit) (s : Session σ) :
    let x := c.step v s
    (∀ t, x.done.value = .ok t → t.Vouched issuer x.done.entries) ∧
      ∀ e ∈ x.done.session.cache.entries,
        e ∈ x.start.cache.entries ∨ e.2.Vouched issuer x.done.entries := by
  rcases c.step_cases v s with ⟨p, -, hfetches⟩ | ⟨e, he, -, hcache⟩
  · exact fetches_vouched (c := c.during v) hsource hfetches
  · refine ⟨fun t ht => ?_, fun x hx => .inl ?_⟩
    · rw [he] at ht
      cases ht
    · rw [hcache] at hx
      exact hx

/-- In production, a client that has its source from its settings only gives out tokens that its
issuer vouches for, whether they were kept or are new; it puts no other ones into the cache; and
what it is left with when it admits a token is one. -/
theorem production_vouches {setup : Setup σ} {s s' : Session σ} {es : List Entry}
    (hbuilt : setup.build.Gives s c es s') (hown : setup.source = none)
    (hmode : c.source.mode = .production) :
    ∃ issuer, c.issuerKey = some issuer ∧
      (∀ visits start, ∀ x ∈ c.history visits start,
        (∀ t, x.done.value = .ok t → t.Vouched issuer x.done.entries) ∧
        ∀ e ∈ x.done.session.cache.entries,
          e ∈ x.start.cache.entries ∨ e.2.Vouched issuer x.done.entries) ∧
      (c.settings.useMock = false → ∀ t u start es after,
        (c.admitToken t).Ends start (.ok (), u) es after → u.Vouched issuer es) := by
  obtain ⟨-, channel, app, issuer, hissuer, hsource⟩ := Setup.gives_build_production hown hbuilt hmode
  refine ⟨issuer, hissuer, fun visits start x hx => ?_, fun hmock t u start es after h => ?_⟩
  · obtain ⟨v, -, s, rfl⟩ := mem_history hx
    exact step_vouched hsource v s
  · exact (admitToken_production hmock hissuer hsource h).2.1

end Client

namespace Gateway

def good : Token := pass .app "1234" "456" 9000
  "ABdQgZvOVtZoWqOdLjtpyG4XLqwMSg54S+BS3PKGPfBjQFD2X8Ctyu1WtXs86razgitC2XnPVL/1FmPrPzYNDQ=="

/-- Someone has put a token under the gateway's key that nobody has signed. -/
def tampered : Session Scene :=
  session [good] [(.of .app "1234" none none "456", pass .app "1234" "456" 9000 none)]

def errand : Client.Visit where
  fetch := { wanted := .own, target := "456" }
  directory := fun _ => none

/-- The unsigned token is passed over, and the good one is kept for the second errand. -/
theorem fetches_good :
    ((client.history [errand, errand] tampered).map fun x => (x.done.value, x.origin)) =
      [(.ok good, some .acquired), (.ok good, some .kept)] ∧
    ∀ x ∈ client.history [errand, errand] tampered, ∀ t, x.done.value = .ok t →
      t.Vouched issuerKey x.done.entries := by
  obtain ⟨issuer, hissuer, hfetched, -⟩ :=
    Client.production_vouches (built (session [] [])) rfl rfl
  cases hissuer
  exact ⟨by decide +kernel, fun x hx => (hfetched _ _ x hx).1⟩

end Gateway

end TokenTrust
