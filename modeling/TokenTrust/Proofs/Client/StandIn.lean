/-
  TokenTrust.Proofs.Client.StandIn — in mock mode a configured user stands in for one that no header
  names, whatever the user is called and however long an assertion is to last.

  - `gives_assertionOf_mock`: the assertion is the text of `Client.standIn`, and has no signature.
  - `toInt_notAfter_standIn`: its end, where neither the lifetime nor the sum goes past the last instant.
  - `performNoting_neverFails`: in mock mode, a client that makes its tokens up makes one for whoever is
    named.
  - `configured_user_stands_in`: so a request without an assertion is admitted as the configured user's,
    and a token is made up for that user.
-/

import TokenTrust.Proofs.Client.Gate
import TokenTrust.Proofs.Client.MadeUp
import TokenTrust.Proofs.Client.Operations
import TokenTrust.Proofs.Token.Written

namespace TokenTrust

variable {σ : Type}

/-! ## The assertion -/

namespace Client

def standIn (c : Client σ) (now : Millis) : AssertedUser where
  certificate := { subject := c.settings.mockUser }
  issuedBy := Identity.issuer.name
  issuedTo := ""
  notAfter := Millis.after now (Int64.ofInt (min (c.settings.userLifetimeMillis : Int) maxInt64))

theorem toInt_notAfter_standIn (c : Client σ) (now : Millis) : (c.standIn now).notAfter.toInt =
    min (maxInt64 : Int) (now.toInt + min (1000 * c.settings.userLifetime.toNat : Int) maxInt64) := by
  have hleast := now.le_toInt
  have hlifetime : (Int64.ofInt (min (c.settings.userLifetimeMillis : Int) maxInt64)).toInt =
      min (c.settings.userLifetimeMillis : Int) maxInt64 := by
    unfold maxInt64
    exact Int64.toInt_ofInt_of_le (by omega) (by omega)
  simp only [standIn, Millis.toInt_after, hlifetime]
  unfold maxInt64 Settings.userLifetimeMillis
  omega

variable [Clock σ] {c : Client σ} {h : Headers}

theorem ends_mockAssertion (c : Client σ) (s : Session σ) :
    ∃ es s', c.mockAssertion.Ends s ⟨AssertedUser.codec.render (c.standIn s.instant), ""⟩ es s' :=
  ⟨_, _, rfl⟩

theorem gives_assertionOf_mock (hmock : c.settings.useMock = true) (hnone : h.usable = none)
    (s : Session σ) : ∃ es s', (c.assertionOf h).Gives s
      ⟨AssertedUser.codec.render (c.standIn s.instant), ""⟩ es s' := by
  have hends := Run.ends_run h.assertion s
  obtain ⟨hvalue, -, hsession⟩ := Headers.ends_assertion hends
  rw [hvalue, hnone, hsession] at hends
  obtain ⟨es, s', hstandIn⟩ := ends_mockAssertion c s
  refine ⟨(h.assertion.run s).entries ++ es, s', ?_⟩
  rw [assertionOf, Attempt.gives_bind]
  refine ⟨none, _, s, es, Attempt.gives_lift.mpr hends, ?_, rfl⟩
  simp only [hmock, if_true]
  exact Attempt.gives_lift.mpr hstandIn

omit [Clock σ] in
theorem user_standIn (c : Client σ) (now : Millis) (signature : String) :
    Assertion.user ⟨AssertedUser.codec.render (c.standIn now), signature⟩ = .ok (c.standIn now) :=
  Assertion.user_eq_ok_iff.mpr (Json.Codec.parse_render AssertedUser.codec_lawful _)

/-- In mock mode, an assertion that can be read is admitted. -/
theorem gives_admitAssertion_mock (hmock : c.settings.useMock = true) {a : Assertion} {user : AssertedUser}
    (hread : a.user = .ok user) (s : Session σ) :
    (c.admitAssertion a).Gives s user [.event .assertionUnchecked] s := by
  rw [admitAssertion_mock_eq hmock hread, Attempt.gives_bind]
  exact ⟨(), _, s, [], Attempt.gives_log.mpr ⟨rfl, rfl⟩, Attempt.gives_pure.mpr ⟨rfl, rfl, rfl⟩, rfl⟩

end Client

/-! ## The token -/

namespace MockSource

variable [Clock σ] {r : Request} {p : Cache.Parts}

theorem principalOf_neverFails (hspeaks : SpeaksFor r.requester r.subject p) (hkind : r.kind = p.kind) :
    (principalOf r : Attempt σ Principal).Follows neverFails := by
  unfold principalOf
  generalize r.subject = subject at hspeaks
  cases hspeaks with
  | application exclude target =>
    rw [hkind]
    refine .bind (.lift (Run.keeps_failsOnly _ _)) fun notAfter => ?_
    exact .bind (.lift (Run.keeps_failsOnly _ _)) fun _ => .pure _
  | assertion read exclude target =>
    refine .bind (.ofExcept fun e h => ?_) fun user => ?_
    · cases read.symm.trans h
    · exact .bind (.lift (Run.keeps_failsOnly _ _)) fun _ => .pure _
  | token t exclude target => exact .pure _

end MockSource

namespace Client

variable [Clock σ] {c : Client σ} {made : MockSource} {f : Fetch}

theorem prepare_neverFails (hmock : c.settings.useMock = true)
    (hread : ∀ a, f.wanted = .user a → ∃ user, a.user = .ok user) : (c.prepare f).Follows neverFails := by
  unfold prepare
  split
  · exact prepareFor_follows (failsOnly_notes _) c f _ _ _ _
  · rename_i a hwanted
    obtain ⟨user, huser⟩ := hread a hwanted
    have hadmits : (c.admitAssertion a).Follows neverFails := by
      rw [admitAssertion_mock_eq hmock huser]
      exact .bind (.lift (Run.keeps_failsOnly _ _)) fun _ => .pure _
    exact .bind hadmits fun _ => prepareFor_follows (failsOnly_notes _) c f _ _ _ _
  · exact prepareFor_follows (failsOnly_notes _) c f _ _ _ _

theorem performNoting_neverFails (hsource : c.source = .mock made) (hmock : c.settings.useMock = true)
    (hread : ∀ a, f.wanted = .user a → ∃ user, a.user = .ok user) :
    (c.performNoting f).Follows neverFails := by
  refine (prepare_neverFails hmock hread).bind_of_gives fun s (r, p) es s' hprepare => ?_
  obtain ⟨hspeaks, timestamp, hr⟩ := gives_prepare_request hprepare
  rw [← requester_of_gives_prepare hprepare] at hspeaks
  have hprincipal := MockSource.principalOf_neverFails (σ := σ) hspeaks (by rw [hr]; rfl)
  have hacquire : (c.source.acquire r).Follows neverFails := by
    rw [hsource]
    exact made.acquire_follows (failsOnly_notes _) hprincipal
  exact fetchNoting_follows (failsOnly_notes _) hacquire p.key f.policy

/-- With an empty cache, the token is made for what is asked. -/
theorem exists_gives_perform (hsource : c.source = .mock made) (hmock : c.settings.useMock = true)
    (hread : ∀ a, f.wanted = .user a → ∃ user, a.user = .ok user) {s : Session σ}
    (hempty : s.cache.entries = []) :
    ∃ t es s' p, (c.perform f).Gives s t es s' ∧ c.parts f = some p ∧ MadeFor made p t := by
  obtain ⟨⟨t, origin⟩, es, s', hgives⟩ := (performNoting_neverFails hsource hmock hread).exists_gives s
  obtain ⟨p, hp, hgets⟩ := gives_performNoting hsource hgives
  refine ⟨t, es, s', p, ?_, hp, ?_⟩
  · rw [perform_eq, Attempt.Gives, ExceptT.run_map, Run.ends_map]
    exact ⟨.ok (t, origin), hgives, rfl⟩
  · cases hgets with
    | kept held =>
      rw [hempty] at held
      exact absurd held List.not_mem_nil
    | acquired fits => exact fits

/-! ## The configured user -/

/-- In mock mode, a request whose headers hold no assertion is the configured user's: the assertion that
stands in is unsigned, can be read, speaks of just this user, and ends after the configured lifetime or
at the last instant there is. The request is admitted with this assertion, and a client that makes its
tokens up and has none yet makes one for the user, whatever the target. -/
theorem configured_user_stands_in (hmock : c.settings.useMock = true) {h : Headers}
    (hnone : h.usable = none) (s : Session σ) :
    ∃ a user, a.signature = "" ∧ AssertedUser.codec.parse a.text = .ok user ∧
      user.subject = c.settings.mockUser ∧
      user.notAfter.toInt =
        min (maxInt64 : Int) (s.instant.toInt + min (1000 * c.settings.userLifetime.toNat : Int) maxInt64) ∧
      (∃ es s', (c.assertionOf h).Gives s a es s' ∧ callsOf es = [] ∧ s'.cache = s.cache) ∧
      (∃ es s', (c.admitRequest h).Gives s a es s' ∧ callsOf es = [] ∧ s'.cache = s.cache) ∧
      ∀ made, c.source = .mock made → s.cache.entries = [] → ∀ target exclude,
        ∃ t es s', (c.fetchForRequest h target exclude).Gives s t es s' ∧
          t.userId = some c.settings.mockUser ∧ t.validity.issuedFor = some (c.resolve target) := by
  obtain ⟨es, s₁, hgives⟩ := gives_assertionOf_mock (c := c) hmock hnone s
  have hread := user_standIn c s.instant ""
  obtain ⟨hcalls, hcache⟩ := (assertionOf_keeps Conduct.looksOn_watches.notes c h).gives hgives
  refine ⟨_, c.standIn s.instant, rfl, Assertion.user_eq_ok_iff.mp hread, rfl, toInt_notAfter_standIn c _,
    ⟨es, s₁, hgives, hcalls, hcache⟩, ?admitted, ?fetched⟩
  case admitted =>
    have hadmits := gives_admitAssertion_mock hmock hread s₁
    refine ⟨es ++ ([.event .assertionUnchecked] ++ []), s₁, ?_, by simp [hcalls], hcache⟩
    refine Attempt.gives_bind.mpr ⟨_, es, s₁, _, hgives, ?_, rfl⟩
    exact Attempt.gives_bind.mpr ⟨_, _, s₁, [], hadmits, Attempt.gives_pure.mpr ⟨rfl, rfl, rfl⟩, rfl⟩
  case fetched =>
    intro made hsource hempty target exclude
    let f : Fetch := { wanted := .user ⟨AssertedUser.codec.render (c.standIn s.instant), ""⟩, target, exclude }
    have hknown : ∀ a, f.wanted = .user a → ∃ user, a.user = .ok user := by
      rintro a ⟨⟩
      exact ⟨_, hread⟩
    obtain ⟨t, es₂, s₂, p, hfetch, hp, hmade⟩ :=
      exists_gives_perform hsource hmock hknown (s := s₁) (by rw [hcache, hempty])
    have hparts : c.parts f = some ⟨.user, c.settings.mockUser, exclude, none, c.resolve target⟩ := by
      simp only [parts, f, hread]
      rfl
    cases hparts.symm.trans hp
    refine ⟨t, es ++ es₂, s₂, Attempt.gives_bind.mpr ⟨_, es, s₁, es₂, hgives, hfetch, rfl⟩, ?_,
      hmade.issuedFor⟩
    rw [Token.userId, hmade.kind]
    exact congrArg some hmade.subject

end Client

namespace Gateway

/-- The gateway while a user of an odd name stands in for everyone, for as long as can be. -/
def puppeteer : Client Scene := { mimicClient with
  settings := { mimic.settings with
    useMock := true, mockUser := "\"zoë\"\\\u0001", userLifetime := 18446744073709551615 } }

def unsignedHeaders : Headers := [("HTTP_VERIFIED_USER_INFO", [alice.subject])]

theorem zoe_stands_in : ∃ a user, a.signature = "" ∧ AssertedUser.codec.parse a.text = .ok user ∧
    user.subject = "\"zoë\"\\\u0001" ∧ user.notAfter.toInt = maxInt64 ∧
    (∃ es s', (puppeteer.admitRequest unsignedHeaders).Gives (session [] []) a es s') ∧
    ∃ t es s', (puppeteer.fetchForRequest unsignedHeaders "" none).Gives (session [] []) t es s' ∧
      t.userId = some "\"zoë\"\\\u0001" ∧ t.validity.issuedFor = some "1234" := by
  have hnone : unsignedHeaders.usable = none := by decide +kernel
  obtain ⟨a, user, hsignature, hread, hsubject, hend, -, ⟨es, s', hadmits, -⟩, hfetch⟩ :=
    Client.configured_user_stands_in (c := puppeteer) rfl hnone (session [] [])
  exact ⟨a, user, hsignature, hread, hsubject, hend.trans (by decide), ⟨es, s', hadmits⟩,
    hfetch ⟨"1234", Text.labels "S,U"⟩ rfl rfl "" none⟩

end Gateway

end TokenTrust
