/-
  TokenTrust.Ordered.Map — finite maps with text keys, kept as lists of entries in strictly
  increasing order of their keys. Reading a map from a list of entries keeps the last value given
  for a key, and gives back a map read from its own entries (`OrderedMap.ofList_toList`).
-/

import TokenTrust.Ordered.Set

namespace TokenTrust

variable {β : Type}

def putSorted (k : String) (v : β) : List (String × β) → List (String × β)
  | [] => [(k, v)]
  | (k', v') :: rest =>
    if k < k' then (k, v) :: (k', v') :: rest
    else if k' < k then (k', v') :: putSorted k v rest
    else (k, v) :: rest

theorem fst_mem_putSorted {k : String} {v : β} {l : List (String × β)} {e : String × β} :
    e ∈ putSorted k v l → e = (k, v) ∨ e ∈ l := by
  induction l with
  | nil => simp [putSorted]
  | cons x rest ih =>
    obtain ⟨k', v'⟩ := x
    simp only [putSorted]
    split
    · simp
    · split <;> simp only [List.mem_cons] <;> grind

theorem sorted_putSorted {k : String} {v : β} {l : List (String × β)}
    (h : l.Pairwise (·.1 < ·.1)) : (putSorted k v l).Pairwise (·.1 < ·.1) := by
  induction l with
  | nil => simp [putSorted]
  | cons x rest ih =>
    obtain ⟨k', v'⟩ := x
    rw [List.pairwise_cons] at h
    simp only [putSorted]
    split
    · rename_i hk
      refine List.pairwise_cons.mpr ⟨fun e he => ?_, List.pairwise_cons.mpr h⟩
      rcases List.mem_cons.mp he with rfl | he
      · exact hk
      · exact Std.lt_trans hk (h.1 e he)
    · split
      · rename_i hk
        refine List.pairwise_cons.mpr ⟨fun e he => ?_, ih h.2⟩
        rcases fst_mem_putSorted he with rfl | he
        · exact hk
        · exact h.1 e he
      · have hk := eq_of_not_lt ‹¬k < k'› ‹¬k' < k›
        subst hk
        exact List.pairwise_cons.mpr h

/-- A finite map, as the list of its entries in increasing order of their keys. -/
structure OrderedMap (β : Type) where
  toList : List (String × β)
  sorted : toList.Pairwise (·.1 < ·.1)
  deriving DecidableEq

namespace OrderedMap

def empty : OrderedMap β := ⟨[], .nil⟩

instance : Inhabited (OrderedMap β) := ⟨empty⟩

def get? (m : OrderedMap β) (k : String) : Option β := m.toList.lookup k

def values (m : OrderedMap β) : List β := m.toList.map (·.2)

def insert (m : OrderedMap β) (k : String) (v : β) : OrderedMap β :=
  ⟨putSorted k v m.toList, sorted_putSorted m.sorted⟩

/-- The map of a list of entries; of several entries with one key the last counts. -/
def ofList (l : List (String × β)) : OrderedMap β := l.foldl (fun m e => m.insert e.1 e.2) empty

/-- An entry whose key is greater than all others goes to the end. -/
theorem putSorted_of_lt {k : String} {v : β} {l : List (String × β)} (h : ∀ e ∈ l, e.1 < k) :
    putSorted k v l = l ++ [(k, v)] := by
  induction l with
  | nil => rfl
  | cons x rest ih =>
    obtain ⟨k', v'⟩ := x
    have hk : k' < k := h _ List.mem_cons_self
    have hn : ¬k < k' := fun hlt => Std.lt_irrefl (Std.lt_trans hk hlt)
    simp only [putSorted, if_neg hn, if_pos hk, List.cons_append]
    rw [ih fun e he => h e (List.mem_cons_of_mem _ he)]

theorem ofList_toList (m : OrderedMap β) : ofList m.toList = m := by
  have key : ∀ (l : List (String × β)) (m₀ : OrderedMap β), (m₀.toList ++ l).Pairwise (·.1 < ·.1) →
      (l.foldl (fun m e => m.insert e.1 e.2) m₀).toList = m₀.toList ++ l := by
    intro l
    induction l with
    | nil => intro m₀ _; simp
    | cons e rest ih =>
      intro m₀ h
      have hlt : ∀ x ∈ m₀.toList, x.1 < e.1 := fun x hx =>
        (List.pairwise_append.mp h).2.2 x hx e List.mem_cons_self
      have hput : (m₀.insert e.1 e.2).toList = m₀.toList ++ [e] := putSorted_of_lt hlt
      rw [List.foldl_cons, ih, hput, List.append_assoc]
      · rfl
      · rw [hput, List.append_assoc]; exact h
  have h := key m.toList empty m.sorted
  cases m
  rename_i l hl
  simp only [ofList]
  generalize hf : List.foldl (fun m e => m.insert e.1 e.2) empty l = r at h
  cases r
  simp only [mk.injEq]
  exact h

end OrderedMap

end TokenTrust
