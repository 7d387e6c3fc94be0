/-
  TokenTrust.Proofs.Client.CacheUse — what exactly a fetch does to the cache.

  - `Cache.Misses`, `Cache.hit_of_ends_findValid`: what a lookup makes of the cache if its judge leaves
    it alone, as every source does.
  - `Cache.found_of_ends_findValid`: when it finds something.
  - `fetchNoting_uses`, `performNoting_uses`: a fetch does no more than to look its key up, and to put
    under it what it has acquired.
-/

import TokenTrust.Proofs.Cache.Work
import TokenTrust.Proofs.Client.Visits

namespace TokenTrust

variable {σ : Type} [Clock σ]

/-! ## Lookups -/

namespace Cache

variable {key : Key} {judge : Token → Run σ Bool} {s s' : Session σ} {es : List Entry} {t : Token}

inductive Stale (key : Key) (judge : Token → Run σ Bool) (s : Session σ) (t : Token) : Prop where
  | expired (late : t.validity.notAfter ≤ (Clock.read s.world).1)
  | rejected (intime : (Clock.read s.world).1 < t.validity.notAfter)
      (judged : ((judge t).run (s.looking key)).value = false)

inductive Misses (key : Key) (judge : Token → Run σ Bool) (s : Session σ) (after : Cache) : Prop where
  | absent (nothing : s.cache.peek? key = none) (counted : after = s.cache.miss)
  | dropped {t : Token} (held : s.cache.peek? key = some t) (stale : Stale key judge s t)
      (rest : after = (s.cache.dropStale key t).2.miss)

omit [Clock σ] in
/-- Promoting an entry first makes no difference to what is left without it. -/
theorem dropStale_use {c : Cache} (h : c.peek? key = some t) :
    ((c.use key).2.dropStale key t).2 = (c.dropStale key t).2 := by
  have hpeek := (peek?_use c key key).trans h
  rw [dropStale, dropStale, if_pos h, if_pos hpeek, use_of_held h]
  simp [others]

theorem cache_verdict_of_calm (hcalm : ∀ t, (judge t).Keeps .keepsCache) (key : Key) (s : Session σ) :
    ((verdict key judge).run s).session.cache = (s.cache.use key).2 := by
  rw [run_verdict]
  cases s.candidate key with
  | none => rfl
  | some t => exact hcalm t _

theorem stale_of_unanswered (hheld : s.cache.peek? key = some t)
    (h : ((findValid key judge).run s).value = none) : Stale key judge s t := by
  obtain ⟨hvalue, -⟩ := run_findValid key judge s
  by_cases hvalid : t.isValidAt (Clock.read s.world).1 = true
  · have hcandidate := Session.candidate_eq_some_iff.mpr ⟨hheld, hvalid⟩
    refine .rejected (of_decide_eq_true hvalid) (Bool.eq_false_iff.mpr fun hgood => ?_)
    rw [h, run_verdict, hcandidate] at hvalue
    simp only [hgood, hheld, if_true] at hvalue
    cases hvalue
  · exact .expired (Int64.not_lt.mp (of_decide_eq_false (Bool.eq_false_iff.mpr hvalid)))

/-- A lookup whose judge leaves the cache alone. -/
theorem misses_of_ends_findValid (hcalm : ∀ t, (judge t).Keeps .keepsCache)
    (h : (findValid key judge).Ends s none es s') : Misses key judge s s'.cache := by
  obtain ⟨-, hsession⟩ := run_findValid key judge s
  have hverdict := cache_verdict_of_calm hcalm key s
  have hcache : s'.cache =
      (Act.answer key (s.cache.peek? key) none).effect (s.cache.use key).2 := by
    rw [h] at hsession
    rw [← hverdict]
    exact congrArg Session.cache hsession
  cases hheld : s.cache.peek? key with
  | none =>
    rw [hheld, use_of_absent hheld] at hcache
    exact .absent hheld hcache
  | some t =>
    have hdropped : s'.cache = ((s.cache.use key).2.dropStale key t).2.miss := by
      rw [hcache, hheld]
      rfl
    refine .dropped hheld (stale_of_unanswered hheld ?_) (by rw [hdropped, dropStale_use hheld])
    rw [h]

/-- A lookup that finds something leaves it the most recently used entry. -/
theorem hit_of_ends_findValid (hcalm : ∀ t, (judge t).Keeps .keepsCache)
    (h : (findValid key judge).Ends s (some t) es s') :
    s.cache.peek? key = some t ∧ s'.cache = (s.cache.use key).2.hit := by
  obtain ⟨hvalue, hsession⟩ := run_findValid key judge s
  have hverdict := cache_verdict_of_calm hcalm key s
  rw [h] at hvalue hsession
  refine ⟨?_, ?_⟩
  · simp only at hvalue
    split at hvalue
    · exact hvalue.symm
    · cases hvalue
  · rw [← hverdict]
    exact congrArg Session.cache hsession

/-- Both parts of a lookup are on record. -/
theorem entries_findValid (key : Key) (judge : Token → Run σ Bool) (s : Session σ) :
    ∃ es, ((findValid key judge).run s).entries = ((verdict key judge).run s).entries ++ es := by
  rw [findValid_eq_verdict]
  exact ⟨_, rfl⟩

/-- A lookup finds the token that is there, if its judge has nothing against it before it expires. -/
theorem found_of_ends_findValid {found : Option Token} (hheld : s.cache.peek? key = some t)
    (hintime : ∀ now ∈ readingsOf es, t.isValidAt now = true)
    (hjudge : ∀ s₁ b es₁ s₂, (judge t).Ends s₁ b es₁ s₂ →
      (∀ now ∈ readingsOf es₁, t.isValidAt now = true) → b = true)
    (h : (findValid key judge).Ends s found es s') : found = some t := by
  obtain ⟨es₂, hentries⟩ := entries_findValid key judge s
  obtain ⟨hvalue, -⟩ := run_findValid key judge s
  rw [h] at hentries hvalue
  simp only at hentries hvalue
  rw [hentries] at hintime
  have hcandidate : s.candidate key = some t := by
    refine Session.candidate_eq_some_iff.mpr ⟨hheld, hintime _ ?_⟩
    rw [run_verdict]
    cases s.candidate key <;> simp
  have hgood : ((judge t).run (s.looking key)).value = true := by
    refine hjudge _ _ _ _ (Run.ends_run _ _) fun now hnow => hintime now ?_
    simp [run_verdict, hcandidate, hnow]
  rw [run_verdict, hcandidate] at hvalue
  simpa [hgood, hheld] using hvalue

end Cache

/-! ## Fetches -/

namespace Client

variable {c : Client σ} {key : Cache.Key} {policy : CachePolicy} {before after : Cache}
  {s s' : Session σ} {es : List Entry}

/-- What a fetch that the cache does not answer has made of it up to there. -/
inductive Unanswered (c : Client σ) (key : Cache.Key) (es : List Entry) (before after : Cache) :
    CachePolicy → Prop where
  | bypassed (same : after = before) : Unanswered c key es before after .bypass
  | looked {s₁ s₂ : Session σ} {es₁ : List Entry}
      (lookup : (Cache.findValid key c.source.isValid).Ends s₁ none es₁ s₂) (onRecord : es₁ <:+: es)
      (found : s₁.cache = before) (missed : Cache.Misses key c.source.isValid s₁ after) :
      Unanswered c key es before after .use

/-- All that a fetch under a key does to the cache, by how it ends. -/
inductive Uses (c : Client σ) (key : Cache.Key) (policy : CachePolicy) (es : List Entry)
    (before after : Cache) : Except TrustError (Token × Origin) → Prop where
  | kept {t : Token} (allowed : policy = .use) (held : before.peek? key = some t)
      (promoted : after = (before.use key).2.hit) : Uses c key policy es before after (.ok (t, .kept))
  | acquired {t : Token} {between : Cache} (unanswered : c.Unanswered key es before between policy)
      (put : after = (between.put key t).2) : Uses c key policy es before after (.ok (t, .acquired))
  | failed {e : TrustError} (unanswered : c.Unanswered key es before after policy) :
      Uses c key policy es before after (.error e)

theorem Unanswered.mono {es' : List Entry} (h : c.Unanswered key es before after policy)
    (hes : es <:+: es') : c.Unanswered key es' before after policy := by
  cases h with
  | bypassed same => exact .bypassed same
  | looked lookup onRecord found missed => exact .looked lookup (onRecord.trans hes) found missed

theorem Uses.mono {noted : Except TrustError (Token × Origin)} {es' : List Entry}
    (h : c.Uses key policy es before after noted) (hes : es <:+: es') :
    c.Uses key policy es' before after noted := by
  cases h with
  | kept allowed held promoted => exact .kept allowed held promoted
  | acquired unanswered put => exact .acquired (unanswered.mono hes) put
  | failed unanswered => exact .failed (unanswered.mono hes)

theorem isValid_calm (c : Client σ) (t : Token) : (c.source.isValid t).Keeps .keepsCache :=
  Source.isValid_keeps Conduct.keepsCache_watches.notes c.source t

theorem unanswered_of_gives_lookUp (h : (c.lookUp key policy).Gives s none es s') :
    c.Unanswered key es s.cache s'.cache policy := by
  cases policy with
  | bypass =>
    obtain ⟨-, -, rfl⟩ := Attempt.gives_pure.mp h
    exact .bypassed rfl
  | use =>
    have hlookup := Attempt.gives_lift.mp h
    have hmissed := Cache.misses_of_ends_findValid c.isValid_calm hlookup
    exact .looked hlookup (List.infix_refl _) rfl hmissed

theorem not_fails_lookUp {e : TrustError} : ¬(c.lookUp key policy).Fails s e es s' := by
  cases policy with
  | bypass => exact Attempt.fails_pure
  | use => exact Attempt.fails_lift

omit [Clock σ] in
/-- With a kept token in hand, nothing is left to do. -/
theorem ends_kept {t : Token} {noted : Except TrustError (Token × Origin)}
    (h : (ExceptT.run (do
      Attempt.log (.cachedUsed key)
      return (t, .kept) : Attempt σ (Token × Origin))).Ends s noted es s') :
    noted = .ok (t, .kept) ∧ es = [.event (.cachedUsed key)] ∧ s' = s := by
  rw [Attempt.ends_bind] at h
  rcases h with ⟨_, _, s₁, _, hlog, h, rfl⟩ | ⟨e, -, hlog⟩
  · obtain ⟨rfl, rfl⟩ := Attempt.gives_log.mp hlog
    obtain ⟨rfl, rfl, rfl⟩ := Run.ends_pure.mp h
    exact ⟨rfl, rfl, rfl⟩
  · exact absurd hlog Attempt.fails_log

/-- After the lookup only the source is asked, which leaves the cache alone. -/
theorem fetchNoting_uses {r : Request} {noted : Except TrustError (Token × Origin)}
    (h : (ExceptT.run (c.fetchNoting r key policy)).Ends s noted es s') :
    c.Uses key policy es s.cache s'.cache noted := by
  rw [fetchNoting, Attempt.ends_bind] at h
  rcases h with ⟨found, es₁, s₁, es₂, hfound, h, rfl⟩ | ⟨e, -, hfails⟩
  · cases found with
    | some t =>
      obtain ⟨rfl, -, rfl⟩ := ends_kept h
      cases policy with
      | bypass => exact absurd (Attempt.gives_pure.mp hfound).1 (by simp)
      | use =>
        have hlookup := Attempt.gives_lift.mp hfound
        obtain ⟨hheld, hcache⟩ := Cache.hit_of_ends_findValid c.isValid_calm hlookup
        exact .kept rfl hheld hcache
    | none =>
      have hunanswered := (unanswered_of_gives_lookUp hfound).mono (List.prefix_append _ es₂).isInfix
      have hacquire : (c.source.acquire r).Keeps .keepsCache :=
        Source.acquire_keeps Conduct.keepsCache_calls r
      simp only [Attempt.ends_bind] at h
      rcases h with ⟨t, es₃, s₂, es₄, hgives, h, rfl⟩ | ⟨e, rfl, hfails⟩
      · rcases h with ⟨_, es₅, s₃, es₆, hstore, h, rfl⟩ | ⟨e, -, hstore⟩
        · obtain ⟨rfl, rfl, rfl⟩ := Run.ends_pure.mp h
          have hcache : s₂.cache = s₁.cache := hacquire.gives hgives
          refine .acquired hunanswered ?_
          rw [← hcache]
          exact Cache.ends_store (Attempt.gives_lift.mp hstore)
        · exact absurd hstore Attempt.fails_lift
      · have hcache : s'.cache = s₁.cache := hacquire.fails hfails
        rw [hcache]
        exact .failed hunanswered
  · exact absurd hfails not_fails_lookUp

/-- A fetch turns to the cache only under the key of what it asks for. -/
theorem performNoting_uses {f : Fetch} {noted : Except TrustError (Token × Origin)}
    (h : (ExceptT.run (c.performNoting f)).Ends s noted es s') :
    (∃ p, c.parts f = some p ∧ c.Uses p.key f.policy es s.cache s'.cache noted) ∨
      ∃ e, noted = .error e ∧ s'.cache = s.cache := by
  have hkeeps := prepare_keeps Conduct.keepsCache_watches c f
  rw [performNoting, Attempt.ends_bind] at h
  rcases h with ⟨⟨r, p⟩, es₁, s₁, es₂, hprepare, hfetch, rfl⟩ | ⟨e, rfl, hprepare⟩
  · have hcache : s₁.cache = s.cache := hkeeps.gives hprepare
    refine .inl ⟨p, gives_prepare hprepare, ?_⟩
    rw [← hcache]
    exact (fetchNoting_uses hfetch).mono (List.suffix_append _ _).isInfix
  · exact .inr ⟨e, rfl, hkeeps.fails hprepare⟩

/-- A visit is a run of `performNoting`. -/
theorem step_ends (c : Client σ) (v : Visit) (s : Session σ) :
    let x := c.step v s
    ∃ noted, (ExceptT.run ((c.during v).performNoting v.fetch)).Ends x.start noted x.done.entries
        x.done.session ∧
      x.done.value = noted.map Prod.fst ∧ x.origin = noted.toOption.map Prod.snd := by
  have hdone := run_perform (c.during v) v.fetch { s with cache := v.meanwhile s.cache }
  simp only [step, hdone]
  exact ⟨_, Run.ends_run _ _, rfl, rfl⟩

end Client

end TokenTrust
