/-
  TokenTrust.Proofs.Cache.Recency — an entry stays as long as few others are used.

  The entries in front of an entry are those that were used after it. While there are fewer keys for
  them than the cache has room for, it is never the one that has to go.
  - `Behind`, `KeptBehind`: where the entry stands, and whose entries can be in front of it.
  - `keptBehind_use`, `keptBehind_put`: in front of all others at first.
  - `KeptBehind.use`, `KeptBehind.put`, `KeptBehind.dropStale`: and still there after any use of another
    key.
-/

import TokenTrust.Proofs.Cache.Entries

namespace TokenTrust.Cache

variable {keys : List Key} {key key' : Key} {t u : Token} {entries : List (Key × Token)} {c : Cache}

/-! ## Places -/

/-- The token `t` is under `key`, and in front of it there are only entries under `keys`. -/
def Behind (keys : List Key) (key : Key) (t : Token) (entries : List (Key × Token)) : Prop :=
  ∃ front back, entries = front ++ (key, t) :: back ∧ ∀ e ∈ front, e.1 ∈ keys ∧ e.1 ≠ key

theorem behind_head (keys : List Key) (key : Key) (t : Token) (rest : List (Key × Token)) :
    Behind keys key t ((key, t) :: rest) :=
  ⟨[], rest, rfl, fun _ he => absurd he List.not_mem_nil⟩

theorem Behind.cons (h : Behind keys key t entries) (hmem : key' ∈ keys) (hkey : key' ≠ key)
    (u : Token) : Behind keys key t ((key', u) :: entries) := by
  obtain ⟨front, back, rfl, hfront⟩ := h
  refine ⟨(key', u) :: front, back, rfl, fun e he => ?_⟩
  rcases List.mem_cons.mp he with rfl | he
  · exact ⟨hmem, hkey⟩
  · exact hfront e he

theorem Behind.others (h : Behind keys key t c.entries) (hkey : key' ≠ key) :
    Behind keys key t (c.others key') := by
  obtain ⟨front, back, hentries, hfront⟩ := h
  rw [Cache.others, hentries, List.filter_append, List.filter_cons_of_pos (by simpa using hkey.symm)]
  exact ⟨_, _, rfl, fun e he => hfront e (List.mem_filter.mp he).1⟩

/-- Among more entries than can be in front of it, the last one is behind it. -/
theorem Behind.dropLast (h : Behind keys key t entries) (hnodup : (entries.map (·.1)).Nodup)
    (hmany : keys.length + 1 < entries.length) : Behind keys key t entries.dropLast := by
  obtain ⟨front, back, rfl, hfront⟩ := h
  have hfew : front.length ≤ keys.length := by
    have hdistinct : (front.map (·.1)).Nodup := by
      rw [List.map_append, List.nodup_append] at hnodup
      exact hnodup.1
    have hsubset : front.map (·.1) ⊆ keys := by
      intro k hk
      obtain ⟨e, he, rfl⟩ := List.mem_map.mp hk
      exact (hfront e he).1
    simpa using hdistinct.length_le_of_subset hsubset
  have hback : back ≠ [] := by
    rintro rfl
    simp only [List.length_append, List.length_cons, List.length_nil] at hmany
    omega
  refine ⟨front, back.dropLast, ?_, hfront⟩
  rw [List.dropLast_append_cons, List.dropLast_cons_of_ne_nil hback]

/-! ## In a cache -/

/-- The token `t` is under `key`, and there is room for all that may get in front of it. -/
structure KeptBehind (keys : List Key) (key : Key) (t : Token) (c : Cache) : Prop where
  sound : c.Sound
  room : keys.length < c.capacity
  place : Behind keys key t c.entries

theorem KeptBehind.peek? (h : KeptBehind keys key t c) : c.peek? key = some t := by
  obtain ⟨front, back, hentries, hfront⟩ := h.place
  refine List.lookup_eq_some_iff.mpr ⟨front, back, hentries, fun e he => ?_⟩
  simpa using (hfront e he).2.symm

theorem KeptBehind.hit (h : KeptBehind keys key t c) : KeptBehind keys key t c.hit :=
  ⟨h.sound.hit, h.room, h.place⟩

theorem KeptBehind.miss (h : KeptBehind keys key t c) : KeptBehind keys key t c.miss :=
  ⟨h.sound.miss, h.room, h.place⟩

/-- Wherever it is when an entry comes in, it does not have to go. -/
theorem keptBehind_of_front (hsound : c.Sound) (hroom : keys.length < c.capacity)
    (h : Behind keys key t ((key', u) :: c.others key')) : KeptBehind keys key t (c.put key' u).2 := by
  refine ⟨hsound.put key' u, by simpa using hroom, ?_⟩
  unfold Cache.put
  simp only
  split
  · exact h
  · exact h.dropLast (hsound.nodup_front key' u) (by omega)

theorem keptBehind_use (hsound : c.Sound) (hroom : keys.length < c.capacity)
    (h : c.peek? key = some t) : KeptBehind keys key t (c.use key).2 := by
  refine ⟨hsound.use key, by simpa using hroom, ?_⟩
  rw [use_of_held h]
  exact behind_head _ _ _ _

theorem keptBehind_put (hsound : c.Sound) (hroom : keys.length < c.capacity) (key : Key) (t : Token) :
    KeptBehind keys key t (c.put key t).2 := keptBehind_of_front hsound hroom (behind_head _ _ _ _)

theorem KeptBehind.put (h : KeptBehind keys key t c) (hmem : key' ∈ keys) (hkey : key' ≠ key)
    (u : Token) : KeptBehind keys key t (c.put key' u).2 :=
  keptBehind_of_front h.sound h.room ((h.place.others hkey).cons hmem hkey u)

theorem KeptBehind.use (h : KeptBehind keys key t c) (hmem : key' ∈ keys) (hkey : key' ≠ key) :
    KeptBehind keys key t (c.use key').2 := by
  cases hheld : c.peek? key' with
  | none => rwa [use_of_absent hheld]
  | some u =>
    refine ⟨h.sound.use key', by simpa using h.room, ?_⟩
    rw [use_of_held hheld]
    exact (h.place.others hkey).cons hmem hkey u

theorem KeptBehind.dropStale (h : KeptBehind keys key t c) (hkey : key' ≠ key) (u : Token) :
    KeptBehind keys key t (c.dropStale key' u).2 := by
  refine ⟨h.sound.dropStale key' u, by simpa using h.room, ?_⟩
  unfold Cache.dropStale
  split
  · exact h.place.others hkey
  · exact h.place

end TokenTrust.Cache
