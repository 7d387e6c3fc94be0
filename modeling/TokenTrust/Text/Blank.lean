/-
  TokenTrust.Text.Blank — white space at the ends of a text. A character is blank when it has
  the Unicode property White_Space. A text is its trimmed form with blanks around it, and no other
  text without a blank at either end is (`trim_eq_iff`).
-/

namespace TokenTrust.Text

/-- The Unicode property White_Space. -/
def isBlank (c : Char) : Bool :=
  let n := c.toNat
  (9 ≤ n && n ≤ 13) || n == 0x20 || n == 0x85 || n == 0xA0 || n == 0x1680 ||
    (0x2000 ≤ n && n ≤ 0x200A) || n == 0x2028 || n == 0x2029 || n == 0x202F || n == 0x205F ||
    n == 0x3000

def trimList (cs : List Char) : List Char :=
  ((cs.dropWhile isBlank).reverse.dropWhile isBlank).reverse

def trim (s : String) : String := String.ofList (trimList s.toList)

def allBlank (s : String) : Bool := s.toList.all isBlank

/-- No blank stands at either end. -/
def IsTrimmed (cs : List Char) : Prop :=
  cs.head?.any isBlank = false ∧ cs.getLast?.any isBlank = false

instance (cs : List Char) : Decidable (IsTrimmed cs) := inferInstanceAs (Decidable (_ ∧ _))

/-! ## What trimming leaves -/

section

variable {p : Char → Bool} {cs : List Char}

theorem dropWhile_of_head (h : cs.head?.any p = false) : cs.dropWhile p = cs := by
  cases cs with
  | nil => rfl
  | cons c cs =>
    have hc : p c = false := h
    rw [List.dropWhile_cons, hc, if_neg Bool.false_ne_true]

theorem head?_any_dropWhile (p : Char → Bool) (cs : List Char) :
    (cs.dropWhile p).head?.any p = false := by
  have hhead := List.head?_dropWhile_not p cs
  cases hfirst : (cs.dropWhile p).head? with
  | none => rfl
  | some c =>
    rw [hfirst] at hhead
    exact hhead

theorem dropWhile_of_all (h : cs.all p = true) : cs.dropWhile p = [] := by
  have hdrop : (cs ++ []).dropWhile p = [].dropWhile p :=
    List.dropWhile_append_of_pos (List.all_eq_true.mp h)
  rwa [List.append_nil] at hdrop

end

theorem isTrimmed_trimList (cs : List Char) : IsTrimmed (trimList cs) := by
  constructor
  · -- what is left at the front was at the front before the blanks at the end went
    obtain ⟨gone, hgone⟩ : trimList cs <+: cs.dropWhile isBlank := by
      rw [← List.reverse_suffix, trimList, List.reverse_reverse]
      exact List.dropWhile_suffix _
    have hhead := head?_any_dropWhile isBlank cs
    rw [← hgone] at hhead
    cases htrim : trimList cs with
    | nil => rfl
    | cons c rest =>
      rw [htrim] at hhead
      exact hhead
  · rw [trimList, List.getLast?_reverse]
    exact head?_any_dropWhile isBlank _

theorem trimList_of_isTrimmed {cs : List Char} (h : IsTrimmed cs) : trimList cs = cs := by
  have hlast : cs.reverse.head?.any isBlank = false := by
    rw [List.head?_reverse]
    exact h.2
  rw [trimList, dropWhile_of_head h.1, dropWhile_of_head hlast, List.reverse_reverse]

theorem trimList_trimList (cs : List Char) : trimList (trimList cs) = trimList cs :=
  trimList_of_isTrimmed (isTrimmed_trimList cs)

theorem trim_trim (s : String) : trim (trim s) = trim s := by
  rw [trim, trim, String.toList_ofList, trimList_trimList]

/-! ## Blanks around a text -/

theorem trimList_front {front : List Char} (h : front.all isBlank = true) (cs : List Char) :
    trimList (front ++ cs) = trimList cs := by
  rw [trimList, trimList, List.dropWhile_append_of_pos (List.all_eq_true.mp h)]

theorem trimList_back {back : List Char} (h : back.all isBlank = true) (cs : List Char) :
    trimList (cs ++ back) = trimList cs := by
  rw [trimList, trimList, List.dropWhile_append]
  cases hdrop : cs.dropWhile isBlank with
  | nil => rw [List.isEmpty_nil, if_pos rfl, dropWhile_of_all h]
  | cons c rest =>
    have hblank : ∀ b ∈ back.reverse, isBlank b = true := by
      rw [← List.all_eq_true, List.all_reverse]
      exact h
    rw [List.isEmpty_cons, if_neg Bool.false_ne_true, List.reverse_append,
      List.dropWhile_append_of_pos hblank]

theorem exists_blanks_around (cs : List Char) : ∃ front back,
    front.all isBlank = true ∧ back.all isBlank = true ∧ cs = front ++ trimList cs ++ back := by
  refine ⟨cs.takeWhile isBlank, ((cs.dropWhile isBlank).reverse.takeWhile isBlank).reverse,
    List.all_takeWhile, ?_, ?_⟩
  · rw [List.all_reverse]
    exact List.all_takeWhile
  · rw [trimList, List.append_assoc, ← List.reverse_append, List.takeWhile_append_dropWhile,
      List.reverse_reverse, List.takeWhile_append_dropWhile]

theorem trimList_eq_iff {cs mid : List Char} : trimList cs = mid ↔ IsTrimmed mid ∧
    ∃ front back, front.all isBlank = true ∧ back.all isBlank = true ∧ cs = front ++ mid ++ back := by
  constructor
  · intro htrim
    subst htrim
    exact ⟨isTrimmed_trimList cs, exists_blanks_around cs⟩
  · intro h
    obtain ⟨hmid, front, back, hfront, hback, rfl⟩ := h
    rw [trimList_back hback, trimList_front hfront, trimList_of_isTrimmed hmid]

/-- The first text is the second with blanks around it. -/
def Shows (s t : String) : Prop :=
  ∃ front back, allBlank front = true ∧ allBlank back = true ∧ s = front ++ t ++ back

theorem trim_eq_iff {s t : String} : trim s = t ↔ IsTrimmed t.toList ∧ Shows s t := by
  have htext : trim s = t ↔ trimList s.toList = t.toList := by
    rw [trim, ← String.toList_inj, String.toList_ofList]
  rw [htext, trimList_eq_iff]
  constructor
  · intro h
    obtain ⟨hmid, front, back, hfront, hback, hs⟩ := h
    refine ⟨hmid, String.ofList front, String.ofList back, ?_, ?_, ?_⟩
    · rwa [allBlank, String.toList_ofList]
    · rwa [allBlank, String.toList_ofList]
    · rw [← String.toList_inj, hs]
      simp
  · intro h
    obtain ⟨hmid, front, back, hfront, hback, rfl⟩ := h
    exact ⟨hmid, front.toList, back.toList, hfront, hback, by simp⟩

theorem trim_eq_empty_iff {s : String} : trim s = "" ↔ allBlank s = true := by
  rw [trim_eq_iff]
  constructor
  · intro h
    obtain ⟨-, front, back, hfront, hback, rfl⟩ := h
    rw [allBlank] at hfront hback
    simp [allBlank, hfront, hback]
  · intro h
    exact ⟨by decide, s, "", h, by decide, by simp⟩

end TokenTrust.Text
