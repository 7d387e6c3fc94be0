/-
  TokenTrust.Proofs.Cache.Holdings — what a cache holds once it was used.

  - `mem_put`: the only entry that ever comes in is the one that is put, and what was under its key
    goes out.
  - `findValid_keeps`: a lookup only drops entries, and alarms no one.
  - `ends_findValid`: what it finds was there, had not expired, and has passed the judge.
-/

import TokenTrust.Cache.Lookup
import TokenTrust.Proofs.Session.Ending

namespace TokenTrust

/-! ## Operations -/

namespace Cache

variable {c : Cache} {key : Key} {t : Token} {e : Key × Token}

theorem mem_others : e ∈ c.others key ↔ e ∈ c.entries ∧ e.1 ≠ key := by
  simp [others]

theorem mem_of_peek (h : c.peek? key = some t) : (key, t) ∈ c.entries := by
  obtain ⟨l₁, l₂, hl, -⟩ := List.lookup_eq_some_iff.mp h
  rw [hl]
  exact List.mem_append_right _ List.mem_cons_self

theorem mem_of_use (h : (c.use key).1 = some t) : (key, t) ∈ c.entries := by
  unfold use at h
  cases hpeek : c.peek? key with
  | some u =>
    rw [hpeek] at h
    cases h
    exact mem_of_peek hpeek
  | none =>
    rw [hpeek] at h
    cases h

theorem use_subset (c : Cache) (key : Key) : (c.use key).2.entries ⊆ c.entries := by
  intro e he
  unfold use at he
  cases hpeek : c.peek? key with
  | some u =>
    rw [hpeek] at he
    rcases List.mem_cons.mp he with rfl | he
    · exact mem_of_peek hpeek
    · exact (mem_others.mp he).1
  | none =>
    rw [hpeek] at he
    exact he

theorem mem_put (h : e ∈ (c.put key t).2.entries) :
    e = (key, t) ∨ e ∈ c.entries ∧ e.1 ≠ key := by
  have hmem : e ∈ (key, t) :: c.others key := by
    unfold put at h
    simp only at h
    split at h
    · exact h
    · exact List.dropLast_subset _ h
  rcases List.mem_cons.mp hmem with rfl | hmem
  · exact .inl rfl
  · exact .inr (mem_others.mp hmem)

theorem dropStale_subset (c : Cache) (key : Key) (t : Token) :
    (c.dropStale key t).2.entries ⊆ c.entries := by
  intro e he
  unfold dropStale at he
  split at he
  · exact (mem_others.mp he).1
  · exact he

@[simp] theorem entries_hit (c : Cache) : c.hit.entries = c.entries := rfl

@[simp] theorem entries_miss (c : Cache) : c.miss.entries = c.entries := rfl

end Cache

/-! ## Runs -/

variable {σ : Type} {P : Conduct σ} {s s' : Session σ} {es : List Entry}

namespace Conduct

def Recaches (P : Conduct σ) : Prop := ∀ s cache, P.permits s [] { s with cache }

def Drops (P : Conduct σ) : Prop :=
  ∀ s cache, cache.entries ⊆ s.cache.entries → P.permits s [] { s with cache }

theorem Recaches.drops (hP : P.Recaches) : P.Drops := fun s cache _ => hP s cache

theorem callsNothing_recaches : (callsNothing : Conduct σ).Recaches := fun _ _ => rfl

def onlyDrops : Conduct σ where
  permits s _ s' := s'.cache.entries ⊆ s.cache.entries
  nothing _ := List.Subset.refl _
  both h h' := List.Subset.trans h' h

theorem onlyDrops_watches [Clock σ] : (onlyDrops : Conduct σ).Watches :=
  ⟨fun _ _ => List.Subset.refl _, fun _ => List.Subset.refl _⟩

theorem onlyDrops_drops : (onlyDrops : Conduct σ).Drops := fun _ _ h => h

end Conduct

theorem Run.Keeps.cached (hP : P.Drops) {α : Type} {f : Cache → α × Cache}
    (hf : ∀ c, (f c).2.entries ⊆ c.entries) : (Run.cached f : Run σ α).Keeps P :=
  fun s => hP s _ (hf s.cache)

namespace Cache

variable {key : Key} {t : Token}

def answerHit (key : Key) (t : Token) : Run σ (Option Token) := do
  Run.recache hit
  Run.log (.cacheHit key)
  return some t

/-- The end of one that finds a token which must not be used. -/
def answerStale (key : Key) (t : Token) : Run σ (Option Token) := do
  if ← Run.cached (·.dropStale key t) then Run.log (.staleEvicted key)
  Run.recache miss
  return none

def answerMiss (key : Key) : Run σ (Option Token) := do
  Run.recache miss
  Run.log (.cacheMiss key)
  return none

theorem recache_keeps (hP : P.Drops) {f : Cache → Cache} (hf : ∀ c, (f c).entries = c.entries) :
    (Run.recache f : Run σ Unit).Keeps P :=
  .cached hP fun c => by rw [hf c]; exact List.Subset.refl _

theorem answerHit_keeps [Clock σ] (hP : P.Notes) (hdrops : P.Drops) (key : Key) (t : Token) :
    (answerHit key t : Run σ (Option Token)).Keeps P := by
  refine .bind (recache_keeps hdrops entries_hit) fun _ => ?_
  exact .bind (.note hP (by simp [Event.level])) fun _ => .pure _

theorem answerStale_keeps [Clock σ] (hP : P.Notes) (hdrops : P.Drops) (key : Key) (t : Token) :
    (answerStale key t : Run σ (Option Token)).Keeps P := by
  have hmiss : (do Run.recache miss; return none : Run σ (Option Token)).Keeps P :=
    .bind (recache_keeps hdrops entries_miss) fun _ => .pure _
  refine .bind (.cached hdrops fun c => dropStale_subset c key t) fun dropped => ?_
  split
  · exact .bind (.note hP (by simp [Event.level])) fun _ => hmiss
  · exact hmiss

theorem answerMiss_keeps [Clock σ] (hP : P.Notes) (hdrops : P.Drops) (key : Key) :
    (answerMiss key : Run σ (Option Token)).Keeps P := by
  refine .bind (recache_keeps hdrops entries_miss) fun _ => ?_
  exact .bind (.note hP (by simp [Event.level])) fun _ => .pure _

theorem ends_answerHit {found : Option Token} (h : (answerHit key t).Ends s found es s') :
    found = some t := by
  rw [answerHit] at h
  obtain ⟨_, _, _, h⟩ := h.last
  obtain ⟨_, _, _, h⟩ := h.last
  exact (Run.ends_pure.mp h).1

theorem not_ends_answerStale {u : Token} : ¬(answerStale key t).Ends s (some u) es s' := by
  intro h
  have hmiss : ∀ s es s', ¬(do Run.recache miss; return none : Run σ (Option Token)).Ends s
      (some u) es s' := by
    intro s es s' h
    obtain ⟨_, _, _, h⟩ := h.last
    exact absurd (Run.ends_pure.mp h).1 (by simp)
  rw [answerStale] at h
  obtain ⟨dropped, _, _, h⟩ := h.last
  split at h
  · obtain ⟨_, _, _, h⟩ := h.last
    exact hmiss _ _ _ h
  · exact hmiss _ _ _ h

theorem not_ends_answerMiss {u : Token} : ¬(answerMiss key).Ends s (some u) es s' := by
  intro h
  rw [answerMiss] at h
  obtain ⟨_, _, _, h⟩ := h.last
  obtain ⟨_, _, _, h⟩ := h.last
  exact absurd (Run.ends_pure.mp h).1 (by simp)

variable [Clock σ] {valid : Token → Run σ Bool}

theorem findValid_eq (key : Key) (valid : Token → Run σ Bool) : findValid key valid = (do
    let now ← Run.now
    match ← Run.cached (·.use key) with
    | none => answerMiss key
    | some token =>
      if token.isValidAt now then
        if ← valid token then answerHit key token else answerStale key token
      else answerStale key token) := rfl

theorem findValid_keeps (hP : P.Notes) (hdrops : P.Drops) (hvalid : ∀ t, (valid t).Keeps P)
    (key : Key) : (findValid key valid).Keeps P := by
  rw [findValid_eq]
  refine .bind (.now hP) fun now => ?_
  refine .bind (.cached hdrops fun c => use_subset c key) fun found => ?_
  split
  · exact answerMiss_keeps hP hdrops key
  · split
    · refine .bind (hvalid _) fun good => ?_
      split
      · exact answerHit_keeps hP hdrops key _
      · exact answerStale_keeps hP hdrops key _
    · exact answerStale_keeps hP hdrops key _

theorem store_keeps (hP : P.Notes) (hcache : P.Recaches) (key : Key) (t : Token) :
    (store key t : Run σ Unit).Keeps P := by
  refine .bind (fun s => hcache s _) fun evicted => ?_
  split
  · exact .note hP (by simp [Event.level])
  · exact .pure _

theorem ends_findValid (h : (findValid key valid).Ends s (some t) es s') :
    (key, t) ∈ s.cache.entries ∧ ∃ now s₁ es₁ s₂, .reading now ∈ es ∧ t.isValidAt now = true ∧
      (valid t).Ends s₁ true es₁ s₂ ∧ es₁ ⊆ es := by
  rw [findValid_eq, Run.ends_bind] at h
  obtain ⟨now, ea, sa, _, hnow, h, rfl⟩ := h
  rw [Run.ends_bind] at h
  obtain ⟨found, eb, sb, _, huse, h, rfl⟩ := h
  obtain ⟨-, rfl, rfl⟩ := Run.ends_now.mp hnow
  obtain ⟨hfound, rfl, -⟩ := Run.ends_cached.mp huse
  cases found with
  | none => exact absurd h not_ends_answerMiss
  | some token =>
    simp only at h
    by_cases hunexpired : token.isValidAt now = true
    · rw [if_pos hunexpired, Run.ends_bind] at h
      obtain ⟨good, ec, sc, ed, hgood, h, rfl⟩ := h
      cases good with
      | false => exact absurd h not_ends_answerStale
      | true =>
        cases ends_answerHit h
        have hkept := mem_of_use hfound.symm
        exact ⟨hkept, now, _, ec, _, by simp, hunexpired, hgood, fun _ he => by simp [he]⟩
    · rw [if_neg hunexpired] at h
      exact absurd h not_ends_answerStale

omit [Clock σ] in
theorem ends_store {u : Unit} (h : (store key t).Ends s u es s') :
    s'.cache = (s.cache.put key t).2 := by
  rw [store, Run.ends_bind] at h
  obtain ⟨evicted, es₁, s₁, es₂, hput, h, rfl⟩ := h
  obtain ⟨-, -, rfl⟩ := Run.ends_cached.mp hput
  cases evicted with
  | none => rw [(Run.ends_pure.mp h).2.2]
  | some key' => rw [(Run.ends_log.mp h).2]

end Cache

end TokenTrust
