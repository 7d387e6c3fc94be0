/-
  TokenTrust.Proofs.Client.Reuse — an answer is used again until it expires.

  Once a fetch has got a token, the same fetch gets the same token from the cache, as long as the clock
  stays before the end of the token and of the assertion it was for, and the cache has room for what
  is fetched in between.
  - `performNoting_reuses`: a fetch comes back with the token if the cache still holds it.
  - `step_keptBehind`, `step_keptBehind_other`: which it does, whatever is fetched under a few other
    keys.
  - `relay_reuses`: so this goes on for any number of turns.
  - `answer_is_reused`: and however many of them are the same fetch, there is one acquisition at most.
-/

import TokenTrust.Proofs.Cache.Recency
import TokenTrust.Proofs.Client.CacheUse
import TokenTrust.Proofs.Client.Lasting
import TokenTrust.Proofs.Client.Sharing

namespace TokenTrust

open Cache (Parts KeptBehind)

variable {σ : Type} [Clock σ]

/-! ## The next fetch -/

namespace Client

variable {c : Client σ} {s s' : Session σ} {es : List Entry} {t : Token} {p : Parts}

structure Answered (c : Client σ) (f : Fetch) (p : Parts) (t : Token) : Prop where
  asked : c.parts f = some p
  trusted : c.source.Trusts t
  known : c.Recognizes f.wanted

/-- As long as the cache holds it and it lasts, a fetch under its key comes back with it. -/
theorem fetchNoting_reuses {r : Request} {key : Cache.Key} {noted : Except TrustError (Token × Origin)}
    (htrusted : c.source.Trusts t) (hheld : s.cache.peek? key = some t)
    (hintime : ∀ now ∈ readingsOf es, t.isValidAt now = true)
    (h : (ExceptT.run (c.fetchNoting r key .use)).Ends s noted es s') :
    noted = .ok (t, .kept) ∧ callsOf es = [] := by
  rw [fetchNoting, Attempt.ends_bind] at h
  rcases h with ⟨found, es₁, s₁, es₂, hlookUp, h, rfl⟩ | ⟨e, -, hlookUp⟩
  · have hfound : found = some t :=
      Cache.found_of_ends_findValid hheld (fun now hnow => hintime now (by simp [hnow]))
        (fun _ _ _ _ hvalid => htrusted.isValid hvalid) (Attempt.gives_lift.mp hlookUp)
    have hsilent : callsOf es₁ = [] :=
      (lookUp_keeps Conduct.callsNothing_watches.notes Conduct.callsNothing_recaches.drops c key .use).gives
        hlookUp
    subst hfound
    obtain ⟨rfl, rfl, -⟩ := ends_kept h
    exact ⟨rfl, by simp [hsilent]⟩
  · exact absurd hlookUp not_fails_lookUp

theorem performNoting_reuses {f : Fetch} {noted : Except TrustError (Token × Origin)}
    (h : c.Answered f p t) (hpolicy : f.policy = .use) (hheld : s.cache.peek? p.key = some t)
    (hearly : ∀ now ∈ readingsOf es, c.Early f.wanted t now)
    (hends : (ExceptT.run (c.performNoting f)).Ends s noted es s') :
    noted = .ok (t, .kept) ∧ callsOf es = [] := by
  rw [performNoting, Attempt.ends_bind] at hends
  rcases hends with ⟨⟨r, q⟩, es₁, s₁, es₂, hprepare, hfetch, rfl⟩ | ⟨e, -, hprepare⟩
  · cases (gives_prepare hprepare).symm.trans h.asked
    obtain ⟨hsilent, hcache⟩ := (prepare_keeps Conduct.looksOn_watches c f).gives hprepare
    rw [← hcache] at hheld
    have hintime : ∀ now ∈ readingsOf es₂, t.isValidAt now = true :=
      fun now hnow => decide_eq_true (hearly now (by simp [hnow])).1
    simp only [hpolicy] at hfetch
    obtain ⟨rfl, hsilent'⟩ := fetchNoting_reuses h.trusted hheld hintime hfetch
    exact ⟨rfl, by simp [hsilent, hsilent']⟩
  · exact absurd hprepare (not_fails_prepare h.known hearly)

/-! ## The entry stays -/

section Keeping

variable {key key' : Cache.Key} {keys : List Cache.Key} {policy : CachePolicy} {before after : Cache}

theorem Unanswered.sound (h : c.Unanswered key es before after policy) (hsound : before.Sound) :
    after.Sound ∧ after.capacity = before.capacity := by
  cases h with
  | bypassed same =>
    rw [same]
    exact ⟨hsound, rfl⟩
  | looked _ _ found missed =>
    subst found
    cases missed with
    | absent _ counted =>
      rw [counted]
      exact ⟨hsound.miss, rfl⟩
    | dropped _ _ rest =>
      rw [rest]
      exact ⟨(hsound.dropStale key _).miss, Cache.capacity_dropStale _ _ _⟩

theorem Unanswered.keptBehind (h : c.Unanswered key' es before after policy) (hkey : key' ≠ key)
    (hkept : KeptBehind keys key t before) : KeptBehind keys key t after := by
  cases h with
  | bypassed same => exact same ▸ hkept
  | looked _ _ found missed =>
    subst found
    cases missed with
    | absent _ counted => exact counted ▸ hkept.miss
    | dropped _ _ rest => exact rest ▸ (hkept.dropStale hkey _).miss

/-- After a fetch that comes back with a token, the token is in front of all others. -/
theorem Uses.keptBehind {origin : Origin} (h : c.Uses key policy es before after (.ok (t, origin)))
    (hsound : before.Sound) (hroom : keys.length < before.capacity) : KeptBehind keys key t after := by
  cases h with
  | kept _ held promoted => exact promoted ▸ (Cache.keptBehind_use hsound hroom held).hit
  | acquired unanswered put =>
    obtain ⟨hsound', hcapacity⟩ := unanswered.sound hsound
    exact put ▸ Cache.keptBehind_put hsound' (hcapacity ▸ hroom) key t

/-- Whatever happens in a fetch under another key, the token stays. -/
theorem Uses.keptBehind_other {noted : Except TrustError (Token × Origin)}
    (h : c.Uses key' policy es before after noted) (hmem : key' ∈ keys) (hkey : key' ≠ key)
    (hkept : KeptBehind keys key t before) : KeptBehind keys key t after := by
  cases h with
  | kept _ _ promoted => exact promoted ▸ (hkept.use hmem hkey).hit
  | acquired unanswered put => exact put ▸ (unanswered.keptBehind hkey hkept).put hmem hkey _
  | failed unanswered => exact unanswered.keptBehind hkey hkept

end Keeping

/-! ## Turns -/

section Turns

variable {v : Visit} {keys : List Cache.Key}

theorem answered_of_step (ht : (c.step v s).done.value = .ok t) (hp : c.asked v = some p) :
    (c.during v).Answered v.fetch p t := by
  obtain ⟨noted, hends, hvalue, -⟩ := step_ends c v s
  refine ⟨hp, ?_, ?_⟩
  · rcases c.step_cases v s with ⟨q, -, hfetches⟩ | ⟨e, he, -, -⟩
    · rw [ht] at hfetches
      exact hfetches.trusts
    · cases ht.symm.trans he
  · rw [performNoting, Attempt.ends_bind] at hends
    rcases hends with ⟨r, _, _, _, hprepare, -, -⟩ | ⟨e, herror, -⟩
    · exact recognizes_of_gives_prepare hprepare
    · rw [herror, ht] at hvalue
      cases hvalue

theorem step_keptBehind (ht : (c.step v s).done.value = .ok t) (hp : c.asked v = some p)
    (hsound : (c.step v s).start.cache.Sound)
    (hroom : keys.length < (c.step v s).start.cache.capacity) :
    KeptBehind keys p.key t (c.step v s).done.session.cache := by
  obtain ⟨noted, hends, hvalue, -⟩ := step_ends c v s
  rw [ht] at hvalue
  cases noted with
  | error e => cases hvalue
  | ok noted =>
    obtain ⟨u, origin⟩ := noted
    cases hvalue
    rcases performNoting_uses hends with ⟨q, hq, huses⟩ | ⟨e, herror, -⟩
    · cases hq.symm.trans hp
      exact huses.keptBehind hsound hroom
    · cases herror

theorem step_keptBehind_other (hcalm : v.meanwhile = id)
    (hother : ∀ q, c.asked v = some q → q.key ∈ keys ∧ q.key ≠ p.key)
    (hkept : KeptBehind keys p.key t s.cache) :
    KeptBehind keys p.key t (c.step v s).done.session.cache := by
  have hstart : (c.step v s).start.cache = s.cache := by simp only [step, hcalm, id]
  obtain ⟨noted, hends, -, -⟩ := step_ends c v s
  rw [← hstart] at hkept
  rcases performNoting_uses hends with ⟨q, hq, huses⟩ | ⟨_, -, hcache⟩
  · obtain ⟨hmem, hkey⟩ := hother q hq
    exact huses.keptBehind_other hmem hkey hkept
  · rwa [hcache]

/-- The same again, from the cache if that has the answer. -/
def Visit.again (v : Visit) : Visit where
  fetch := { v.fetch with policy := .use }
  directory := v.directory

/-- What may come in between: the same fetch, or others under the keys `keys`. -/
inductive Between (c : Client σ) (v : Visit) (p : Parts) (keys : List Cache.Key) (turn : Turn σ) :
    Prop where
  | same (client : turn.client = c) (visit : turn.visit = v.again)
  | other (calm : turn.visit.meanwhile = id)
      (elsewhere : ∀ q, turn.asks q → q.key ∈ keys ∧ q.key ≠ p.key)

def Repeats (c : Client σ) (v : Visit) (steps : List (Client σ × Step σ)) (x : Step σ) : Prop :=
  (c, x) ∈ steps ∧ x.visit = v.again

/-- It comes back with `t`, which was in the cache, without asking for a new one or calling the
service. -/
structure Reuses (t : Token) (x : Step σ) : Prop where
  same : x.done.value = .ok t
  kept : x.origin = some .kept
  silent : callsOf x.done.entries = []

theorem step_reuses (h : (c.during v).Answered v.fetch p t) (hkept : KeptBehind keys p.key t s.cache)
    (hearly : ∀ now ∈ readingsOf (c.step v.again s).done.entries, c.Early v.fetch.wanted t now) :
    Reuses t (c.step v.again s) := by
  obtain ⟨noted, hends, hvalue, horigin⟩ := step_ends c v.again s
  have hagain : (c.during v.again).Answered v.again.fetch p t := ⟨h.asked, h.trusted, h.known⟩
  obtain ⟨rfl, hcalls⟩ := performNoting_reuses hagain rfl hkept.peek? hearly hends
  exact ⟨hvalue, horigin, hcalls⟩

/-- One turn, of either kind, leaves the token in the cache. -/
theorem Between.keptBehind {turn : Turn σ} (hturn : c.Between v p keys turn)
    (h : (c.during v).Answered v.fetch p t) (hkept : KeptBehind keys p.key t s.cache)
    (hearly : turn.client = c → turn.visit = v.again →
      ∀ now ∈ readingsOf (c.step v.again s).done.entries, c.Early v.fetch.wanted t now) :
    KeptBehind keys p.key t (turn.client.step turn.visit s).done.session.cache := by
  cases hturn with
  | same client visit =>
    have hreuses := step_reuses h hkept (hearly client visit)
    rw [client, visit]
    exact step_keptBehind hreuses.same h.asked hkept.sound hkept.room
  | other calm elsewhere => exact step_keptBehind_other calm elsewhere hkept

/-- Any number of turns. -/
theorem relay_reuses {turns : List (Turn σ)} (h : (c.during v).Answered v.fetch p t)
    (hkept : KeptBehind keys p.key t s.cache) (hbetween : ∀ turn ∈ turns, c.Between v p keys turn)
    (hearly : ∀ x, c.Repeats v (relay turns s) x → ∀ now ∈ readingsOf x.done.entries,
      c.Early v.fetch.wanted t now) {x : Step σ} (hx : c.Repeats v (relay turns s) x) : Reuses t x := by
  -- on the turns; the token stays where it can be found by the next one
  induction turns generalizing s with
  | nil => exact absurd hx.1 List.not_mem_nil
  | cons turn rest ih =>
    obtain ⟨hmem, hvisit⟩ := hx
    rw [relay] at hmem hearly
    have hfirst : turn.client = c → turn.visit = v.again →
        ∀ now ∈ readingsOf (c.step v.again s).done.entries, c.Early v.fetch.wanted t now := by
      intro hclient hsame
      refine hearly _ ⟨?_, rfl⟩
      rw [hclient, hsame]
      exact List.mem_cons_self
    rcases List.mem_cons.mp hmem with hmem | hmem
    · obtain ⟨rfl, rfl⟩ := Prod.mk.inj hmem
      have hsame : turn.visit = v.again := hvisit
      rw [hsame]
      exact step_reuses h hkept (hfirst rfl hsame)
    · refine ih ((hbetween turn List.mem_cons_self).keptBehind h hkept hfirst)
        (fun later hlater => hbetween later (List.mem_cons_of_mem _ hlater))
        (fun y hy => hearly y ⟨List.mem_cons_of_mem _ hy.1, hy.2⟩) ⟨hmem, hvisit⟩

/-- What is acquired in turns that reuse `t` is under other keys. -/
theorem key_ne_of_mem_acquiredIn {turns : List (Turn σ)}
    (hbetween : ∀ turn ∈ turns, c.Between v p keys turn)
    (hreuses : ∀ x, c.Repeats v (relay turns s) x → Reuses t x) {e : Parts × Token}
    (he : e ∈ acquiredIn (relay turns s)) : e.1.key ≠ p.key := by
  obtain ⟨d, x, hx, hasked, -, hfresh⟩ := mem_acquiredIn he
  obtain ⟨turn, hturn, s', rfl, rfl⟩ := mem_relay hx
  cases hbetween turn hturn with
  | same client visit =>
    subst client
    have hkept := (hreuses _ ⟨hx, visit⟩).kept
    rw [hfresh] at hkept
    cases hkept
  | other _ elsewhere => exact (elsewhere _ hasked).2

/-- A fetch that comes back with `t`, and any turns after it, among them any number of the same fetch.
All that are come back with `t` as well, so that `t` is the only token ever acquired under the key. -/
theorem answer_is_reused {turns : List (Turn σ)} (hsound : (c.step v s).start.cache.Sound)
    (ht : (c.step v s).done.value = .ok t) (hp : c.asked v = some p)
    (hroom : keys.length < (c.step v s).start.cache.capacity)
    (hbetween : ∀ turn ∈ turns, c.Between v p keys turn)
    (hearly : ∀ x, c.Repeats v (relay turns (c.step v s).done.session) x →
      ∀ now ∈ readingsOf x.done.entries, c.Early v.fetch.wanted t now) :
    (∀ x, c.Repeats v (relay turns (c.step v s).done.session) x → Reuses t x) ∧
    ((acquiredIn ((c, c.step v s) :: relay turns (c.step v s).done.session)).filter
      fun e => decide (e.1.key = p.key)).length ≤ 1 := by
  have hkept : KeptBehind keys p.key t (c.step v s).done.session.cache :=
    step_keptBehind ht hp hsound hroom
  have hreuses : ∀ x, c.Repeats v (relay turns (c.step v s).done.session) x → Reuses t x :=
    fun x hx => relay_reuses (answered_of_step ht hp) hkept hbetween hearly hx
  refine ⟨hreuses, ?_⟩
  have hothers : (acquiredIn (relay turns (c.step v s).done.session)).filter
      (fun e => decide (e.1.key = p.key)) = [] := by
    refine List.filter_eq_nil_iff.mpr fun e he => ?_
    simpa using key_ne_of_mem_acquiredIn hbetween hreuses he
  have hfirst : (c.acquisitions [c.step v s]).length ≤ 1 := by
    rw [acquisitions_singleton, Option.length_toList]
    split <;> omega
  rw [acquiredIn, List.flatMap_cons, ← acquiredIn, List.filter_append, hothers, List.append_nil]
  exact Nat.le_trans (List.length_filter_le _ _) hfirst

end Turns

end Client

namespace Gateway

def memberDesk : Client Scene := { memberClient "1234" with frontEndKey := some frontEndKey }

/-- A fetch for Alice, whose assertion ends at 5000, of a token that the service issues until 9000. -/
def alicesVisit : Client.Visit where
  fetch := { wanted := .user asserted, target := "457" }
  directory := fun _ => none

/-- The second application fetches a token of its own, which is made up. -/
def othersTurn : Client.Turn Scene := { turnOf "456" .own with
  client := { memberClient "456" with source := .mock { ownId := "456", labels := .empty } } }

def narrow : Session Scene := { session [] [] with cache := .ofCapacity 2 }

def alicesTurns : List (Client.Turn Scene) :=
  [⟨memberDesk, alicesVisit.again⟩, othersTurn, ⟨memberDesk, alicesVisit.again⟩]

def alicesSteps : List (Client Scene × Client.Step Scene) :=
  Client.relay alicesTurns (memberDesk.step alicesVisit narrow).done.session

def alicesReadings : List Millis := alicesSteps.flatMap fun y => readingsOf y.2.done.entries

theorem alices_steps_run :
    (memberDesk.step alicesVisit narrow).done.value.toOption.map (·.validity.notAfter) = some 9000 ∧
    (memberDesk.step alicesVisit narrow).origin = some .acquired ∧
    alicesSteps.map gotten = [(some "1234", false), (some "456", false), (some "1234", false)] ∧
    alicesReadings.all (fun now => decide (now < 5000)) = true := by
  decide +kernel

theorem asserted_reads : asserted.user = .ok alice := by
  decide +kernel

/-- Alice's token is acquired once, and then found twice in the cache, the second time behind that of
the second application. -/
theorem alices_token_is_reused :
    ∃ t, (memberDesk.step alicesVisit narrow).done.value = .ok t ∧
      alicesSteps.map gotten = [(some "1234", false), (some "456", false), (some "1234", false)] ∧
      ∀ x, memberDesk.Repeats alicesVisit alicesSteps x → Client.Reuses t x := by
  obtain ⟨hend, -, hgotten, hreadings⟩ := alices_steps_run
  obtain ⟨t, ht, hnotAfter⟩ : ∃ t, (memberDesk.step alicesVisit narrow).done.value = .ok t ∧
      t.validity.notAfter = 9000 := by
    generalize (memberDesk.step alicesVisit narrow).done.value = value at hend
    cases value with
    | error e => cases hend
    | ok t => exact ⟨t, rfl, Option.some.inj hend⟩
  have hsound : (memberDesk.step alicesVisit narrow).start.cache.Sound := Cache.sound_ofCapacity 2
  have hasked : memberDesk.asked alicesVisit = some ⟨.user, "alice", none, none, "457"⟩ := by
    decide +kernel
  have hbetween : ∀ turn ∈ alicesTurns, memberDesk.Between alicesVisit
      ⟨.user, "alice", none, none, "457"⟩ [.of .app "456" none none "457"] turn := by
    intro turn hturn
    simp only [alicesTurns, List.mem_cons, List.not_mem_nil, or_false] at hturn
    rcases hturn with rfl | rfl | rfl
    · exact .same rfl rfl
    · refine .other rfl fun q hq => ?_
      cases hq
      decide
    · exact .same rfl rfl
  have hearly : ∀ x, memberDesk.Repeats alicesVisit alicesSteps x →
      ∀ now ∈ readingsOf x.done.entries, memberDesk.Early (.user asserted) t now := by
    intro x hx now hnow
    have hbefore := of_decide_eq_true
      (List.all_eq_true.mp hreadings now (List.mem_flatMap.mpr ⟨_, hx.1, hnow⟩))
    refine ⟨hnotAfter ▸ Int64.lt_trans hbefore (by decide), ?_⟩
    rintro a user ⟨⟩ - huser
    cases asserted_reads.symm.trans huser
    exact hbefore
  exact ⟨t, ht, hgotten, (Client.answer_is_reused hsound ht hasked (by decide) hbetween hearly).1⟩

end Gateway

end TokenTrust
