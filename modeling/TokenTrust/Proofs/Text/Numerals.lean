/-
  TokenTrust.Proofs.Text.Numerals — signed integers are read back from their decimal texts, so no two
  of them are written alike.
  - `readDigits_toDigits`: the digits of a number within the limit are read as that number.
  - `readInt64_ofInt64`, `ofInt64_inj`: so it is with the sign before them.
-/

import TokenTrust.Text.Numeral

namespace TokenTrust.Text

/-! ## Digits -/

theorem digit?_digitChar : ∀ n < 10, digit? n.digitChar = some n := by decide

/-- The last digit is read last. -/
theorem readDigits_snoc (limit : Nat) (cs : List Char) (c : Char) (n : Nat) :
    readDigits limit n (cs ++ [c]) =
      (readDigits limit n cs).bind fun m => readDigits limit m [c] := by
  induction cs generalizing n with
  | nil => rfl
  | cons d cs ih =>
    simp only [List.cons_append, readDigits]
    split
    · rfl
    · split
      · exact ih _
      · rfl

theorem readDigits_toDigits {limit n : Nat} (h : n ≤ limit) :
    readDigits limit 0 (Nat.toDigits 10 n) = .ok n := by
  induction n using Nat.strongRecOn with
  | _ n ih =>
    by_cases hn : n < 10
    · rw [Nat.toDigits_of_lt_base hn]
      simp [readDigits, digit?_digitChar n hn, h]
    · have hlast : digit? (n % 10).digitChar = some (n % 10) := digit?_digitChar _ (by omega)
      have hsum : n / 10 * 10 + n % 10 = n := by omega
      rw [Nat.toDigits_of_base_le (by decide) (Nat.le_of_not_lt hn), readDigits_snoc,
        ih (n / 10) (by omega) (by omega)]
      simp [Except.bind, readDigits, hlast, hsum, h]

theorem readMagnitude_toDigits {limit n : Nat} (h : n ≤ limit) :
    readMagnitude limit (Nat.toDigits 10 n) = .ok n := by
  rw [← readDigits_toDigits h]
  cases hcs : Nat.toDigits 10 n with
  | nil => exact absurd hcs Nat.toDigits_ne_nil
  | cons c cs => rfl

/-! ## Signed integers -/

theorem toList_ofInt64 (n : Int64) : (ofInt64 n).toList =
    if n.toInt < 0 then '-' :: Nat.toDigits 10 n.toInt.natAbs else Nat.toDigits 10 n.toInt.natAbs := by
  show (Int.repr n.toInt).toList = _
  cases n.toInt with
  | ofNat m => simp [Int.repr, Nat.toList_repr, Int.not_ofNat_neg]
  | negSucc m => simp [Int.repr, Nat.toList_repr, Int.negSucc_lt_zero]

/-- A decimal text starts with a digit, which is no sign. -/
theorem toDigits_unsigned (n : Nat) :
    ∃ c cs, Nat.toDigits 10 n = c :: cs ∧ c ≠ '+' ∧ c ≠ '-' := by
  obtain ⟨c, cs, hcs⟩ := List.exists_cons_of_ne_nil (Nat.toDigits_ne_nil (n := n) (b := 10))
  have hdigit : c.isDigit = true :=
    Nat.isDigit_of_mem_toDigits (by decide) (by decide) (hcs ▸ List.mem_cons_self)
  refine ⟨c, cs, hcs, ?_, ?_⟩
  · rintro rfl
    cases hdigit
  · rintro rfl
    cases hdigit

theorem readInt64_ofInt64 (n : Int64) : readInt64 (ofInt64 n) = .ok n := by
  have hleast : -(maxInt64 + 1) ≤ n.toInt := Int64.le_toInt n
  have hmost : n.toInt ≤ maxInt64 := toInt_maxValue ▸ Int64.toInt_le n
  unfold readInt64
  rw [toList_ofInt64]
  by_cases hneg : n.toInt < 0
  · have habs : -(n.toInt.natAbs : Int) = n.toInt := by omega
    have hread := readMagnitude_toDigits (show n.toInt.natAbs ≤ maxInt64 + 1 by omega)
    rw [if_pos hneg]
    simp only [hread]
    show Except.ok (Int64.ofInt (-(n.toInt.natAbs : Int))) = _
    rw [habs, Int64.ofInt_toInt]
  · have habs : (n.toInt.natAbs : Int) = n.toInt := by omega
    have hread := readMagnitude_toDigits (show n.toInt.natAbs ≤ maxInt64 by omega)
    obtain ⟨c, cs, hcs, hplus, hminus⟩ := toDigits_unsigned n.toInt.natAbs
    rw [if_neg hneg]
    rw [hcs] at hread ⊢
    split
    · exact absurd ‹c :: cs = []› (List.cons_ne_nil c cs)
    · exact absurd (List.cons.inj ‹c :: cs = '+' :: _›).1 hplus
    · exact absurd (List.cons.inj ‹c :: cs = '-' :: _›).1 hminus
    · rw [hread]
      show Except.ok (Int64.ofNat n.toInt.natAbs) = _
      rw [← Int64.ofInt_eq_ofNat, habs, Int64.ofInt_toInt]

theorem ofInt64_inj {m n : Int64} : ofInt64 m = ofInt64 n ↔ m = n := by
  refine ⟨fun h => ?_, congrArg ofInt64⟩
  have hread := readInt64_ofInt64 m
  rw [h, readInt64_ofInt64 n] at hread
  exact (Except.ok.inj hread).symm

end TokenTrust.Text
