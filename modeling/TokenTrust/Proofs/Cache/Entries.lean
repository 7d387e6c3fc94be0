/-
  TokenTrust.Proofs.Cache.Entries — what the operations of a cache do to its entries.

  - `peek?_use`, `peek?_put`, `peek?_remove`, `peek?_dropStale`: what is under a key afterwards.
  - `Sound`: there is one entry a key, and no more of them than there is room for. Every operation
    keeps this up.
-/

import TokenTrust.Cache.Basic

namespace TokenTrust.Cache

variable {c : Cache} {key key' : Key} {t u : Token}

/-! ## Under a key -/

theorem lookup_cons (key key' : Key) (t : Token) (l : List (Key × Token)) :
    List.lookup key' ((key, t) :: l) = if key' = key then some t else l.lookup key' := by
  rw [List.lookup_cons]
  by_cases hkey : key' = key
  · simp [hkey]
  · rw [beq_eq_false_iff_ne.mpr hkey, if_neg hkey]

theorem lookup_others (c : Cache) (key key' : Key) :
    (c.others key).lookup key' = if key' = key then none else c.peek? key' := by
  unfold others peek?
  induction c.entries with
  | nil => simp
  | cons e rest ih =>
    obtain ⟨k, t⟩ := e
    rw [lookup_cons]
    by_cases hk : k = key
    · subst hk
      rw [List.filter_cons_of_neg (by simp), ih]
      split <;> rfl
    · rw [List.filter_cons_of_pos (by simpa using hk), lookup_cons, ih]
      by_cases hkey : key' = k
      · simp [hkey, hk]
      · simp [hkey]

theorem peek?_eq_none_iff : c.peek? key = none ↔ ∀ e ∈ c.entries, e.1 ≠ key := by
  rw [peek?, List.lookup_eq_none_iff]
  simp only [bne_iff_ne, ne_comm]

theorem others_of_absent (h : c.peek? key = none) : c.others key = c.entries :=
  List.filter_eq_self.mpr fun e he => by simpa using peek?_eq_none_iff.mp h e he

theorem use_of_absent (h : c.peek? key = none) : (c.use key).2 = c := by
  simp [use, h]

theorem use_of_held (h : c.peek? key = some t) :
    (c.use key).2 = { c with entries := (key, t) :: c.others key } := by
  simp [use, h]

theorem peek?_use (c : Cache) (key key' : Key) : (c.use key).2.peek? key' = c.peek? key' := by
  cases h : c.peek? key with
  | none => rw [use_of_absent h]
  | some t =>
    rw [use_of_held h, peek?, lookup_cons, lookup_others]
    by_cases hkey : key' = key
    · rw [if_pos hkey, hkey, h]
    · rw [if_neg hkey, if_neg hkey]

theorem peek?_remove (c : Cache) (key key' : Key) :
    (c.remove key).2.peek? key' = if key' = key then none else c.peek? key' := lookup_others c key key'

theorem peek?_dropStale (c : Cache) (key : Key) (t : Token) (key' : Key) :
    (c.dropStale key t).2.peek? key' =
      if key' = key ∧ c.peek? key = some t then none else c.peek? key' := by
  unfold dropStale
  by_cases h : c.peek? key = some t
  · rw [if_pos h]
    exact (lookup_others c key key').trans (by simp [h])
  · simp [h]

theorem peek?_put (h : (c.put key t).2.peek? key' = some u) :
    key' = key ∧ u = t ∨ key' ≠ key ∧ c.peek? key' = some u := by
  have hfound : ((key, t) :: c.others key).lookup key' = some u := by
    unfold put at h
    simp only at h
    split at h
    · exact h
    · exact (List.dropLast_prefix _).lookup_eq_some h
  rw [lookup_cons, lookup_others] at hfound
  by_cases hkey : key' = key
  · rw [if_pos hkey] at hfound
    exact .inl ⟨hkey, (Option.some.inj hfound).symm⟩
  · rw [if_neg hkey, if_neg hkey] at hfound
    exact .inr ⟨hkey, hfound⟩

/-! ## Beside the entries -/

section Rest

variable (c : Cache) (key : Key) (t : Token)

@[simp] theorem capacity_use : (c.use key).2.capacity = c.capacity := by unfold use; split <;> rfl
@[simp] theorem hits_use : (c.use key).2.hits = c.hits := by unfold use; split <;> rfl
@[simp] theorem misses_use : (c.use key).2.misses = c.misses := by unfold use; split <;> rfl

@[simp] theorem capacity_put : (c.put key t).2.capacity = c.capacity := by
  unfold put; dsimp only; split <;> rfl
@[simp] theorem hits_put : (c.put key t).2.hits = c.hits := by unfold put; dsimp only; split <;> rfl
@[simp] theorem misses_put : (c.put key t).2.misses = c.misses := by
  unfold put; dsimp only; split <;> rfl

@[simp] theorem capacity_dropStale : (c.dropStale key t).2.capacity = c.capacity := by
  unfold dropStale; split <;> rfl
@[simp] theorem hits_dropStale : (c.dropStale key t).2.hits = c.hits := by
  unfold dropStale; split <;> rfl
@[simp] theorem misses_dropStale : (c.dropStale key t).2.misses = c.misses := by
  unfold dropStale; split <;> rfl

end Rest

/-! ## Sound caches -/

/-- One entry a key, and no more of them than there is room for. -/
structure Sound (c : Cache) : Prop where
  roomy : 0 < c.capacity
  fits : c.size ≤ c.capacity
  nodup : (c.entries.map (·.1)).Nodup

theorem sound_ofCapacity (n : Nat) : (ofCapacity n).Sound where
  roomy := by simp only [ofCapacity]; omega
  fits := Nat.zero_le _
  nodup := .nil

theorem others_sublist (c : Cache) (key : Key) : (c.others key).Sublist c.entries := List.filter_sublist

theorem fst_ne_of_mem_others {e : Key × Token} (h : e ∈ c.others key) : e.1 ≠ key := by
  simpa using (List.mem_filter.mp h).2

theorem Sound.nodup_others (h : c.Sound) (key : Key) : ((c.others key).map (·.1)).Nodup :=
  h.nodup.sublist ((c.others_sublist key).map _)

/-- With the entry under the key in front, there still is one entry a key. -/
theorem Sound.nodup_front (h : c.Sound) (key : Key) (t : Token) :
    (((key, t) :: c.others key).map (·.1)).Nodup := by
  rw [List.map_cons, List.nodup_cons]
  refine ⟨fun hmem => ?_, h.nodup_others key⟩
  obtain ⟨e, he, hkey⟩ := List.mem_map.mp hmem
  exact fst_ne_of_mem_others he hkey

/-- All entries but one are under other keys. -/
theorem Sound.length_others (h : c.Sound) (hheld : c.peek? key = some t) :
    (c.others key).length + 1 = c.size := by
  have hmem : key ∈ c.entries.map (·.1) := by
    obtain ⟨front, back, hentries, -⟩ := List.lookup_eq_some_iff.mp hheld
    simp [hentries]
  have hone : c.entries.countP (fun e => e.1 == key) = 1 := by
    have hcount := h.nodup.count (a := key)
    rwa [if_pos hmem, List.count_eq_countP, List.countP_map] at hcount
  have hsplit := List.length_eq_countP_add_countP (fun e => e.1 == key) (l := c.entries)
  have hothers : c.entries.countP (fun e => decide ¬(e.1 == key) = true) = (c.others key).length := by
    rw [List.countP_eq_length_filter, others]
    simp
  rw [size, hsplit, hone, hothers, Nat.add_comm]

theorem Sound.hit (h : c.Sound) : c.hit.Sound := ⟨h.roomy, h.fits, h.nodup⟩

theorem Sound.miss (h : c.Sound) : c.miss.Sound := ⟨h.roomy, h.fits, h.nodup⟩

theorem Sound.clear (h : c.Sound) : c.clear.Sound := ⟨h.roomy, Nat.zero_le _, .nil⟩

theorem Sound.remove (h : c.Sound) (key : Key) : (c.remove key).2.Sound :=
  ⟨h.roomy, Nat.le_trans (c.others_sublist key).length_le h.fits, h.nodup_others key⟩

theorem Sound.dropStale (h : c.Sound) (key : Key) (t : Token) : (c.dropStale key t).2.Sound := by
  unfold Cache.dropStale
  split
  · exact ⟨h.roomy, (h.remove key).fits, h.nodup_others key⟩
  · exact h

theorem Sound.use (h : c.Sound) (key : Key) : (c.use key).2.Sound := by
  cases hheld : c.peek? key with
  | none => rwa [use_of_absent hheld]
  | some t =>
    rw [use_of_held hheld]
    exact ⟨h.roomy, Nat.le_trans (Nat.le_of_eq (h.length_others hheld)) h.fits, h.nodup_front key t⟩

theorem Sound.put (h : c.Sound) (key : Key) (t : Token) : (c.put key t).2.Sound := by
  have hroom := h.roomy
  have hfits := h.fits
  have hothers : (c.others key).length ≤ c.size := (c.others_sublist key).length_le
  unfold Cache.put
  simp only
  split
  · rename_i hroomy
    exact ⟨hroom, hroomy, h.nodup_front key t⟩
  · refine ⟨hroom, ?_, (h.nodup_front key t).sublist ((List.dropLast_sublist _).map _)⟩
    simp only [size, List.length_dropLast, List.length_cons]
    omega

end TokenTrust.Cache
