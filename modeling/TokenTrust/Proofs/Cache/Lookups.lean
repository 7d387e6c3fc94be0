/-
  TokenTrust.Proofs.Cache.Lookups — a lookup answers with the latest token, and drops no other one.

  A lookup judges a copy, and its judge may do anything to the cache before it answers.
  - `peek?_effect`: where a token that is under a key after an act comes from.
  - `peek?_replay_iff`: so the tokens in the cache are the latest that were put under their keys, and
    have been there ever since.
  - `lookup_faithful`: a lookup comes back with that token, and then every entry stays, or with none. In
    the second case the one it has found expired or its judge has refused goes, if it is still there,
    and nothing else does.
  - `replaced_token_survives`: a run in which it is no longer there.
-/

import TokenTrust.Proofs.Cache.Work

namespace TokenTrust.Cache

variable {c start : Cache} {key : Key} {t u : Token} {past : List Act}

/-! ## Where a token comes from -/

/-- The act is meant for what is under the key: it puts a token there, or takes away what there is. -/
def Act.Sets (key : Key) (a : Act) : Prop := (∃ u, a = .put key u) ∨ a = .remove key ∨ a = .clear

/-- The latest that was put under a key is `t`; since then nothing was put or removed there, and it has
never left its place. -/
def LatestPut (start : Cache) (past : List Act) (key : Key) (t : Token) : Prop :=
  ∃ older newer, past = older ++ .put key t :: newer ∧ (∀ a ∈ newer, ¬a.Sets key) ∧
    ∀ mid, mid <+: newer → (replay (older ++ .put key t :: mid) start).peek? key = some t

def Traced (start : Cache) (past : List Act) : Prop :=
  ∀ key t, (replay past start).peek? key = some t → LatestPut start past key t

/-- After an act, a token is under a key because it was just put there, or because it was there and
the act was not meant for it. -/
theorem peek?_effect {a : Act} (h : (a.effect c).peek? key = some t) :
    a = .put key t ∨ c.peek? key = some t ∧ ¬a.Sets key := by
  cases a with
  | put key' u =>
    rcases peek?_put h with ⟨rfl, rfl⟩ | ⟨hkey, hheld⟩
    · exact .inl rfl
    · exact .inr ⟨hheld, by simp [Act.Sets, Ne.symm hkey]⟩
  | look key' => exact .inr ⟨(peek?_use c key' key).symm.trans h, by simp [Act.Sets]⟩
  | answer key' held found =>
    refine .inr ⟨?_, by simp [Act.Sets]⟩
    cases found with
    | some _ => exact h
    | none =>
      cases held with
      | none => exact h
      | some u =>
        have hkept : (c.dropStale key' u).2.peek? key = some t := h
        rw [peek?_dropStale] at hkept
        split at hkept
        · cases hkept
        · exact hkept
  | remove key' =>
    have hkept : (c.remove key').2.peek? key = some t := h
    rw [peek?_remove] at hkept
    split at hkept
    · cases hkept
    · rename_i hkey
      exact .inr ⟨hkept, by simp [Act.Sets, Ne.symm hkey]⟩
  | clear => cases h

theorem latestPut_snoc (h : (replay (past ++ [.put key t]) start).peek? key = some t) :
    LatestPut start (past ++ [.put key t]) key t := by
  refine ⟨past, [], rfl, fun _ hmem => absurd hmem List.not_mem_nil, fun mid hmid => ?_⟩
  rwa [List.prefix_nil.mp hmid]

theorem LatestPut.snoc {a : Act} (h : LatestPut start past key t) (hother : ¬a.Sets key)
    (hheld : (replay (past ++ [a]) start).peek? key = some t) :
    LatestPut start (past ++ [a]) key t := by
  obtain ⟨older, newer, rfl, hlatest, hstays⟩ := h
  refine ⟨older, newer ++ [a], by simp, fun b hmem => ?_, fun mid hmid => ?_⟩
  · rcases List.mem_append.mp hmem with hmem | hmem
    · exact hlatest b hmem
    · rw [List.mem_singleton.mp hmem]
      exact hother
  · rcases List.prefix_concat_iff.mp hmid with rfl | hmid
    · simpa using hheld
    · exact hstays mid hmid

theorem Traced.snoc (h : Traced start past) (a : Act) : Traced start (past ++ [a]) := by
  intro key t hheld
  have hact : (a.effect (replay past start)).peek? key = some t := by simpa using hheld
  rcases peek?_effect hact with rfl | ⟨hbefore, hother⟩
  · exact latestPut_snoc hheld
  · exact (h key t hbefore).snoc hother hheld

theorem Traced.append (h : Traced start past) (rest : List Act) : Traced start (past ++ rest) := by
  induction rest generalizing past with
  | nil => simpa using h
  | cons a rest ih =>
    rw [List.append_cons]
    exact ih (h.snoc a)

theorem traced_replay (hempty : start.entries = []) (past : List Act) : Traced start past := by
  have hnothing : Traced start [] := by
    intro key t hheld
    rw [replay_nil, Cache.peek?, hempty] at hheld
    cases hheld
  exact hnothing.append past

/-- What is under a key in a cache that was empty at first. -/
theorem peek?_replay_iff (hempty : start.entries = []) :
    (replay past start).peek? key = some t ↔ LatestPut start past key t := by
  constructor
  · exact traced_replay hempty past key t
  · rintro ⟨older, newer, rfl, -, hstays⟩
    exact hstays newer (List.prefix_refl _)

/-! ## What a lookup drops -/

/-- Only the token that was judged goes, and only if it is what is there. -/
theorem entries_answer (c : Cache) (key : Key) (held : Option Token) :
    ((Act.answer key held none).effect c).entries =
      if held = c.peek? key then c.others key else c.entries := by
  cases held with
  | none =>
    split
    · rename_i hheld
      exact (others_of_absent hheld.symm).symm
    · rfl
  | some t =>
    simp only [Act.effect, entries_miss, dropStale, eq_comm]
    split <;> rfl

/-- What a lookup under a key that answers with nothing makes of the cache its judge has left, after
it has judged `held`. -/
structure Spares (key : Key) (held : Option Token) (before after : Cache) : Prop where
  stale : held = before.peek? key → after.entries = before.others key
  replaced : held ≠ before.peek? key → after.entries = before.entries
  elsewhere : after.others key = before.others key
  atMostOne : before.size ≤ after.size + 1

theorem spares_answer (h : c.Sound) (key : Key) (held : Option Token) :
    Spares key held c ((Act.answer key held none).effect c) := by
  have hentries := entries_answer c key held
  by_cases hheld : held = c.peek? key
  · rw [if_pos hheld] at hentries
    refine ⟨fun _ => hentries, fun hne => absurd hheld hne, ?_, ?_⟩
    · rw [others, hentries]
      simp [others]
    · rw [size, size, hentries]
      cases hpeek : c.peek? key with
      | none => simp [others_of_absent hpeek]
      | some t => exact Nat.le_of_eq (h.length_others hpeek).symm
  · rw [if_neg hheld] at hentries
    refine ⟨fun heq => absurd heq hheld, fun _ => hentries, ?_, ?_⟩
    · rw [others, others, hentries]
    · rw [size, size, hentries]
      exact Nat.le_succ _

/-! ## Any lookup in any work -/

variable {σ α : Type} [Clock σ]

section Judging

variable {judge : Token → Run σ Bool} {s : Session σ}

/-- What is found was a candidate, and the judge has accepted it. -/
theorem candidate_of_found (h : ((findValid key judge).run s).value = some t) :
    s.candidate key = some t ∧ ((judge t).run (s.looking key)).value = true := by
  obtain ⟨hvalue, -⟩ := run_findValid key judge s
  rw [h, run_verdict] at hvalue
  cases hcandidate : s.candidate key with
  | none =>
    rw [hcandidate] at hvalue
    cases hvalue
  | some u =>
    have hheld := (Session.candidate_eq_some_iff.mp hcandidate).1
    simp only [hcandidate, hheld] at hvalue
    split at hvalue
    · rename_i hgood
      cases hvalue
      exact ⟨rfl, hgood⟩
    · cases hvalue

/-- What was there and is not found had expired, or the judge has refused it. -/
theorem stale_of_not_found (h : ((findValid key judge).run s).value = none)
    (hheld : s.cache.peek? key = some t) : t.isValidAt (Clock.read s.world).1 = false ∨
      ((judge t).run (s.looking key)).value = false := by
  obtain ⟨hvalue, -⟩ := run_findValid key judge s
  rw [h, run_verdict, Session.candidate_of_held hheld] at hvalue
  by_cases hvalid : t.isValidAt (Clock.read s.world).1 = true
  · simp only [hvalid, if_true, hheld] at hvalue
    refine .inr (Bool.eq_false_iff.mpr fun hgood => ?_)
    rw [hgood] at hvalue
    cases hvalue
  · exact .inl (Bool.eq_false_iff.mpr hvalid)

/-- Without a candidate, it does not matter who the judge is. -/
theorem run_findValid_of_no_candidate (h : s.candidate key = none)
    (judge judge' : Token → Run σ Bool) :
    (findValid key judge).run s = (findValid key judge').run s := by
  simp only [findValid_eq_verdict, Run.run_bind, run_verdict, h]

end Judging

namespace Lookup

def held (l : Lookup σ) : Option Token := l.start.cache.peek? l.key

def now (l : Lookup σ) : Millis := (Clock.read l.start.world).1

def done (l : Lookup σ) : Outcome σ (Option Token) :=
  (Cache.findValid l.key fun t => (l.judge t).run).run l.start

def untilVerdict (l : Lookup σ) : List Act := l.past ++ Work.judging l.key l.judge l.start

/-- The lookup answers with `t` only if it is the latest that was put, has time left, and has passed
the judge, who does not hear of a token that has none left; every entry that the judge has left then
stays. When the lookup answers with nothing, the token that was there had no time left or has not
passed, and it goes or none does. -/
structure Faithful (l : Lookup σ) (start : Cache) : Prop where
  latest : ∀ t, l.done.value = some t → LatestPut start l.past l.key t
  unexpired : ∀ t, l.done.value = some t → l.now < t.validity.notAfter
  accepted : ∀ t, l.done.value = some t → ((l.judge t).run.run (l.start.looking l.key)).value = true
  unheard : ∀ t, l.held = some t → t.validity.notAfter ≤ l.now →
    ∀ judge, (Cache.findValid l.key judge).run l.start = l.done
  undisturbed : ∀ t, l.done.value = some t →
    l.done.session.cache.entries = (replay l.untilVerdict start).entries
  stale : l.done.value = none → ∀ t, l.held = some t →
    t.validity.notAfter ≤ l.now ∨ ((l.judge t).run.run (l.start.looking l.key)).value = false
  spares : l.done.value = none →
    Spares l.key l.held (replay l.untilVerdict start) l.done.session.cache

/-- A lookup leaves what its answer makes of the cache that its judge has left. -/
theorem cache_done {l : Lookup σ} (hstart : l.start.cache = replay l.past start) :
    l.done.session.cache =
      (Act.answer l.key l.held l.done.value).effect (replay l.untilVerdict start) := by
  obtain ⟨-, hsession⟩ := run_findValid l.key (fun t => (l.judge t).run) l.start
  have hverdict : ((verdict l.key fun t => (l.judge t).run).run l.start).session.cache =
      replay l.untilVerdict start := by
    rw [Work.cache_verdict fun t => (l.judge t).cache_run _, hstart, untilVerdict, replay_append]
  rw [← hverdict, done, hsession]
  rfl

theorem faithful {l : Lookup σ} (hempty : start.entries = []) (hsound : start.Sound)
    (hstart : l.start.cache = replay l.past start) : l.Faithful start := by
  refine ⟨fun t ht => ?_, fun t ht => ?_, fun t ht => (candidate_of_found ht).2,
    fun t ht hexpired judge => ?_, fun t ht => ?_, fun hnone t ht => ?_, fun hnone => ?_⟩
  · have hheld := (Session.candidate_eq_some_iff.mp (candidate_of_found ht).1).1
    rw [hstart, peek?_replay_iff hempty] at hheld
    exact hheld
  · have hvalid := (Session.candidate_eq_some_iff.mp (candidate_of_found ht).1).2
    exact of_decide_eq_true hvalid
  · have hinvalid : t.isValidAt l.now = false := decide_eq_false (Int64.not_lt.mpr hexpired)
    refine run_findValid_of_no_candidate ?_ judge _
    rw [Session.candidate_of_held ht, ← now, hinvalid]
    rfl
  · rw [cache_done hstart, ht]
    rfl
  · rcases stale_of_not_found hnone ht with hinvalid | hrefused
    · exact .inl (Int64.not_lt.mp (of_decide_eq_false hinvalid))
    · exact .inr hrefused
  · rw [cache_done hstart, hnone]
    exact spares_answer (hsound.replay _) l.key l.held

end Lookup

/-- Every lookup in any work on a new cache, whether the work itself makes it or a judge does. -/
theorem lookup_faithful (n : Nat) (w : Work σ α) (world : σ) {l : Lookup σ}
    (hl : l ∈ w.lookups [] ⟨world, .ofCapacity n⟩) :
    l.Faithful (.ofCapacity n) ∧ l.start.cache = replay l.past (.ofCapacity n) ∧
      l.past <+: w.acts ⟨world, .ofCapacity n⟩ := by
  have hnew : (⟨world, .ofCapacity n⟩ : Session σ).cache = replay [] (.ofCapacity n) := rfl
  obtain ⟨hstart, hpast⟩ := Work.start_of_mem_lookups hnew hl
  exact ⟨Lookup.faithful rfl (sound_ofCapacity n) hstart, hstart, hpast⟩

open Cloakroom

theorem evening_looks_up : evening.lookups [] opening ≠ [] :=
  List.ne_nil_of_length_pos (by decide +kernel)

/-- The first lookup finds its ticket bad and leaves the one that has taken its place, which the second
lookup finds. -/
theorem replaced_token_survives :
    ∃ l ∈ evening.lookups [] opening, ∃ l' ∈ evening.lookups [] opening,
      (l.held = some (ticket "first") ∧ l.done.value = none ∧
        l.done.session.cache.entries = [(hook "1", ticket "second")] ∧
        l.Faithful (.ofCapacity 1)) ∧
      l'.done.value = some (ticket "second") ∧ l'.Faithful (.ofCapacity 1) := by
  have hfirst := List.head_mem evening_looks_up
  have hlast := List.getLast_mem evening_looks_up
  refine ⟨_, hfirst, _, hlast, ⟨?_, ?_, ?_, (lookup_faithful 1 evening ⟨1000⟩ hfirst).1⟩, ?_,
    (lookup_faithful 1 evening ⟨1000⟩ hlast).1⟩ <;> decide +kernel

end TokenTrust.Cache
