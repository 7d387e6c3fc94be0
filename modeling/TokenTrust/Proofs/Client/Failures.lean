/-
  TokenTrust.Proofs.Client.Failures — a fetch that fails leaves the cache to the others.

  Before anything can fail, a fetch has looked into the cache, and so it may have dropped something
  there.
  - `SparesCache`: what is left of the cache nevertheless.
  - `fails_perform`: a fetch that fails puts nothing in, and takes nothing out but a token under its
    own key that it has found stale.
  - `failed_fetch_spares_cache`: so does one for a request.
-/

import Mathlib.Control.Monad.Basic
import TokenTrust.Proofs.Client.CacheUse
import TokenTrust.Proofs.Client.Operations

namespace TokenTrust

variable {σ : Type} [Clock σ]

namespace Client

/-- In the course of a fetch, a lookup has found a token under the key to be of no use. -/
inductive FoundStale (c : Client σ) (key : Cache.Key) (es : List Entry) (before : Cache) : Prop where
  | mk {t : Token} {s₁ s₂ : Session σ} {es₁ : List Entry} (held : before.peek? key = some t)
      (found : s₁.cache = before)
      (lookup : (Cache.findValid key c.source.isValid).Ends s₁ none es₁ s₂) (onRecord : es₁ <:+: es)
      (stale : Cache.Stale key c.source.isValid s₁ t) : FoundStale c key es before

structure SparesCache (c : Client σ) (f : Fetch) (es : List Entry) (before after : Cache) : Prop where
  bypassed : f.policy = .bypass → after = before
  /-- Without a key to look under, the cache was never asked. -/
  keyless : c.parts f = none → after = before
  others : ∀ p, c.parts f = some p → after.others p.key = before.others p.key
  /-- Nothing comes in, and what goes out was found stale under the key. -/
  own : ∀ p, c.parts f = some p → after.entries = before.entries ∨
    f.policy = .use ∧ after.entries = before.others p.key ∧ c.FoundStale p.key es before

variable {c : Client σ} {f : Fetch} {before after : Cache} {s s' : Session σ} {es : List Entry}

theorem sparesCache_of_same (h : after = before) : c.SparesCache f es before after where
  bypassed _ := h
  keyless _ := h
  others _ _ := by rw [h]
  own _ _ := .inl (by rw [h])

theorem SparesCache.mono {es' : List Entry} (h : c.SparesCache f es before after) (hes : es <:+: es') :
    c.SparesCache f es' before after := by
  refine ⟨h.bypassed, h.keyless, h.others, fun p hp => ?_⟩
  rcases h.own p hp with hsame | ⟨used, hentries, held, found, lookup, onRecord, stale⟩
  · exact .inl hsame
  · exact .inr ⟨used, hentries, held, found, lookup, onRecord.trans hes, stale⟩

theorem Unanswered.spares {p : Cache.Parts} (hparts : c.parts f = some p)
    (h : c.Unanswered p.key es before after f.policy) : c.SparesCache f es before after := by
  generalize hpolicy : f.policy = policy at h
  cases h with
  | bypassed same => exact sparesCache_of_same same
  | @looked s₁ _ _ lookup onRecord found missed =>
    have hbypassed : f.policy = .bypass → after = before :=
      fun hbypass => nomatch hpolicy.symm.trans hbypass
    have hkeyless : c.parts f = none → after = before := fun hnone => nomatch hparts.symm.trans hnone
    cases found
    cases missed with
    | absent nothing counted =>
      refine ⟨hbypassed, hkeyless, fun q _ => ?_, fun q _ => .inl ?_⟩ <;> rw [counted]
      · rfl
      · rfl
    | dropped held stale rest =>
      have hentries : after.entries = s₁.cache.others p.key := by
        rw [rest, Cache.dropStale, if_pos held]
        rfl
      refine ⟨hbypassed, hkeyless, fun q hq => ?_, fun q hq => .inr ?_⟩ <;> cases hparts.symm.trans hq
      · rw [Cache.others, hentries]
        simp [Cache.others]
      · exact ⟨hpolicy, hentries, held, rfl, lookup, onRecord, stale⟩

theorem fails_perform {e : TrustError} (h : (c.perform f).Fails s e es s') :
    c.SparesCache f es s.cache s'.cache := by
  rw [perform_eq, Attempt.Fails, ExceptT.run_map, Run.ends_map] at h
  obtain ⟨noted, hnoting, herror⟩ := h
  rcases performNoting_uses hnoting with ⟨p, hparts, huses⟩ | ⟨_, -, hcache⟩
  · cases huses with
    | kept | acquired => cases herror
    | failed unanswered => exact unanswered.spares hparts
  · exact sparesCache_of_same hcache

/-- A fetch that fails, of whatever kind and for whatever reason. One for a request may fail for want
of an assertion, and otherwise is one for the user of the assertion. -/
theorem failed_fetch_spares_cache (c : Client σ) (s s' : Session σ) (e : TrustError)
    (es : List Entry) :
    (∀ f, (c.perform f).Fails s e es s' → c.SparesCache f es s.cache s'.cache) ∧
    ∀ h target exclude, (c.fetchForRequest h target exclude).Fails s e es s' →
      s'.cache = s.cache ∨ ∃ a s₁ es₁, (c.assertionOf h).Gives s a es₁ s₁ ∧
        c.SparesCache ⟨.user a, target, exclude, .use⟩ es s.cache s'.cache := by
  refine ⟨fun f => fails_perform, fun h target exclude hfails => ?_⟩
  have hkeeps := assertionOf_keeps Conduct.keepsCache_watches.notes c h
  rw [fetchForRequest, Attempt.fails_bind] at hfails
  rcases hfails with ⟨a, es₁, s₁, es₂, hassertion, hfetch, rfl⟩ | hassertion
  · have hcache : s₁.cache = s.cache := hkeeps.gives hassertion
    have hspares := fails_perform (f := ⟨.user a, target, exclude, .use⟩) hfetch
    refine .inr ⟨a, s₁, es₁, hassertion, ?_⟩
    rw [← hcache]
    exact hspares.mono (List.suffix_append _ _).isInfix
  · exact .inl (hkeeps.fails hassertion)

end Client

namespace Gateway

/-- A fetch that fails for want of an answer has dropped the expired token, and nothing else. -/
theorem failed_fetch_drops_expired :
    let fetch : Fetch := { wanted := .own, target := "457" }
    let other := (Cache.Key.of .user "alice" none none "456", pass .user "alice" "456" 9000 none)
    let late := (Cache.Key.of .app "1234" none none "457", pass .app "1234" "457" 500 none)
    let stocked := session [] [other, late]
    let o := (ExceptT.run (client.perform fetch)).run stocked
    o.value = .error (.transportFailed "token-issuer" "no answer") ∧
      client.SparesCache fetch o.entries stocked.cache o.session.cache ∧
      o.session.cache =
        { stocked.cache with entries := [other], misses := 1, expiryEvictions := 1 } := by
  intro fetch other late stocked o
  have hvalue : o.value = .error (.transportFailed "token-issuer" "no answer") := by decide +kernel
  have hends := Run.ends_run (ExceptT.run (client.perform fetch)) stocked
  have hfails : (client.perform fetch).Fails stocked (.transportFailed "token-issuer" "no answer")
      o.entries o.session := by
    rw [Attempt.Fails, ← hvalue]
    exact hends
  have hspares := (Client.failed_fetch_spares_cache client stocked _ _ _).1 fetch hfails
  exact ⟨hvalue, hspares, by decide +kernel⟩

end Gateway

end TokenTrust
