/-
  TokenTrust.Proofs.Text.Spelling — the texts that are numerals, and the integers they stand for.

  A numeral is one sign or none, and one or more decimal digits, of which any number may be zeros in
  front. What it stands for is told by the place of each digit, and not by how a reader goes along.
  - `readDigits_eq_ok_iff`: a reader that stops at a limit accepts just the rows of digits that stand
    for no more, however long they are.
  - `readDigits_eq_tooLarge_iff`: and it finds a row too large if the digits in front stand for more.
  - `readUInt64_eq_ok_iff`, `readInt64_eq_ok_iff`: so 64-bit integers are read exactly from their
    numerals.
  - `readUInt64_eq_tooLarge_iff`: and which texts are too large, and not just no numerals.
  - `spells_padded`: the decimal text of an integer is a numeral of it, also with further zeros.
-/

import Mathlib.Algebra.Group.Int.Defs
import Mathlib.Algebra.Group.Nat.Defs
import TokenTrust.Proofs.Text.Numerals

namespace TokenTrust.Text

/-! ## Rows of digits -/

/-- The number that a row of digits stands for: each one counts for a power of ten, by how many follow. -/
def digitsValue : List Char → Nat
  | [] => 0
  | c :: cs => (c.toNat - '0'.toNat) * 10 ^ cs.length + digitsValue cs

structure IsDigits (cs : List Char) : Prop where
  nonempty : cs ≠ []
  digits : ∀ c ∈ cs, c.isDigit = true

variable {limit n m : Nat} {c : Char} {cs : List Char}

theorem readDigits_of_digit (hc : c.isDigit = true) (h : n * 10 + (c.toNat - '0'.toNat) ≤ limit) :
    readDigits limit n (c :: cs) = readDigits limit (n * 10 + (c.toNat - '0'.toNat)) cs := by
  rw [readDigits, digit?, if_pos hc]
  exact if_pos h

theorem readDigits_of_excess (hc : c.isDigit = true) (h : ¬ n * 10 + (c.toNat - '0'.toNat) ≤ limit) :
    readDigits limit n (c :: cs) = .error .tooLarge := by
  rw [readDigits, digit?, if_pos hc]
  exact if_neg h

theorem readDigits_of_other (hc : ¬ c.isDigit = true) :
    readDigits limit n (c :: cs) = .error .badDigit := by
  rw [readDigits, digit?, if_neg hc]

/-- A digit more puts what was read so far one place to the left. -/
theorem value_shift (n d : Nat) (cs : List Char) :
    n * 10 ^ (cs.length + 1) + (d * 10 ^ cs.length + digitsValue cs) =
      (n * 10 + d) * 10 ^ cs.length + digitsValue cs := by
  rw [Nat.add_mul, Nat.mul_assoc, Nat.mul_comm 10, ← Nat.pow_succ, Nat.add_assoc]

/-- The value never shrinks on the way, so it is enough that it is within the limit in the end. -/
theorem readDigits_eq_ok_iff (h : n ≤ limit) : readDigits limit n cs = .ok m ↔
    (∀ c ∈ cs, c.isDigit = true) ∧ m = n * 10 ^ cs.length + digitsValue cs ∧ m ≤ limit := by
  induction cs generalizing n with
  | nil =>
    simp only [readDigits, Except.ok.injEq, List.length_nil, digitsValue]
    constructor
    · intro hread
      exact ⟨by simp, by omega, by omega⟩
    · intro hread
      omega
  | cons c cs ih =>
    rw [List.length_cons, digitsValue, value_shift, List.forall_mem_cons]
    by_cases hc : c.isDigit = true
    · by_cases hle : n * 10 + (c.toNat - '0'.toNat) ≤ limit
      · rw [readDigits_of_digit hc hle, ih hle]
        simp only [hc, true_and]
      · have hgrows : n * 10 + (c.toNat - '0'.toNat) ≤
            (n * 10 + (c.toNat - '0'.toNat)) * 10 ^ cs.length :=
          Nat.le_mul_of_pos_right _ (Nat.pow_pos (by decide))
        rw [readDigits_of_excess hc hle]
        simp only [reduceCtorEq, false_iff]
        omega
    · rw [readDigits_of_other hc]
      simp [hc]

/-- No digits stand for no more than was read before. -/
theorem not_excess_nil (h : n ≤ limit) :
    ¬ limit < n * 10 ^ ([] : List Char).length + digitsValue [] := by
  simp only [List.length_nil, digitsValue]
  omega

/-- The first fault counts: the digits in front stand for too much, whatever comes after them. -/
theorem readDigits_eq_tooLarge_iff (h : n ≤ limit) : readDigits limit n cs = .error .tooLarge ↔
    ∃ front, front <+: cs ∧ (∀ c ∈ front, c.isDigit = true) ∧
      limit < n * 10 ^ front.length + digitsValue front := by
  induction cs generalizing n with
  | nil =>
    simp only [readDigits, reduceCtorEq, false_iff]
    intro hfront
    rcases hfront with ⟨front, hfront, -, hmore⟩
    rw [List.prefix_nil.mp hfront] at hmore
    exact not_excess_nil h hmore
  | cons c cs ih =>
    by_cases hc : c.isDigit = true
    · by_cases hle : n * 10 + (c.toNat - '0'.toNat) ≤ limit
      · rw [readDigits_of_digit hc hle, ih hle]
        constructor
        · intro hfront
          rcases hfront with ⟨front, hfront, hdigits, hmore⟩
          refine ⟨c :: front, List.cons_prefix_cons.mpr ⟨rfl, hfront⟩, ?_, ?_⟩
          · simpa [hc] using hdigits
          · rwa [List.length_cons, digitsValue, value_shift]
        · intro hfront
          rcases hfront with ⟨front, hfront, hdigits, hmore⟩
          cases front with
          | nil => exact absurd hmore (not_excess_nil h)
          | cons d front =>
            obtain ⟨rfl, hrest⟩ := List.cons_prefix_cons.mp hfront
            rw [List.length_cons, digitsValue, value_shift] at hmore
            exact ⟨front, hrest, fun c hc => hdigits c (List.mem_cons_of_mem _ hc), hmore⟩
      · rw [readDigits_of_excess hc hle]
        simp only [true_iff]
        refine ⟨[c], ⟨cs, rfl⟩, by simpa using hc, ?_⟩
        simp only [List.length_singleton, digitsValue, List.length_nil]
        omega
    · rw [readDigits_of_other hc]
      simp only [Except.error.injEq, reduceCtorEq, false_iff]
      intro hfront
      rcases hfront with ⟨front, hfront, hdigits, hmore⟩
      cases front with
      | nil => exact not_excess_nil h hmore
      | cons d front =>
        obtain ⟨rfl, -⟩ := List.cons_prefix_cons.mp hfront
        exact hc (hdigits d List.mem_cons_self)

theorem readMagnitude_eq_ok_iff :
    readMagnitude limit cs = .ok m ↔ IsDigits cs ∧ m = digitsValue cs ∧ m ≤ limit := by
  cases cs with
  | nil =>
    simp only [readMagnitude, reduceCtorEq, false_iff]
    intro hread
    exact hread.1.nonempty rfl
  | cons c cs =>
    show readDigits limit 0 (c :: cs) = .ok m ↔ _
    rw [readDigits_eq_ok_iff (Nat.zero_le _), Nat.zero_mul, Nat.zero_add]
    exact ⟨fun h => ⟨⟨List.cons_ne_nil _ _, h.1⟩, h.2⟩, fun h => ⟨h.1.digits, h.2⟩⟩

/-! ## Numerals -/

/-- The characters are a numeral of a natural number, with a plus in front or without. -/
inductive Counts : List Char → Nat → Prop
  | plain {cs : List Char} : IsDigits cs → Counts cs (digitsValue cs)
  | plus {cs : List Char} : IsDigits cs → Counts ('+' :: cs) (digitsValue cs)

inductive Spells : List Char → Int → Prop
  | unsigned {cs : List Char} {n : Nat} : Counts cs n → Spells cs n
  | minus {cs : List Char} : IsDigits cs → Spells ('-' :: cs) (-digitsValue cs)

theorem not_isDigits_nil : ¬ IsDigits [] := fun h => h.nonempty rfl

/-- Signs are no digits. -/
theorem IsDigits.of_cons (h : IsDigits (c :: cs)) : c ≠ '+' ∧ c ≠ '-' := by
  have hc := h.digits c List.mem_cons_self
  constructor
  · intro hplus
    subst hplus
    cases hc
  · intro hminus
    subst hminus
    cases hc

theorem counts_plus : Counts ('+' :: cs) n ↔ IsDigits cs ∧ n = digitsValue cs := by
  constructor
  · intro h
    cases h with
    | plain hcs => exact absurd rfl hcs.of_cons.1
    | plus hcs => exact ⟨hcs, rfl⟩
  · intro h
    rw [h.2]
    exact .plus h.1

theorem counts_plain (hplain : ∀ ds, cs ≠ '+' :: ds) :
    Counts cs n ↔ IsDigits cs ∧ n = digitsValue cs := by
  constructor
  · intro h
    cases h with
    | plain hcs => exact ⟨hcs, rfl⟩
    | plus => exact absurd rfl (hplain _)
  · intro h
    rw [h.2]
    exact .plain h.1

theorem spells_minus {n : Int} : Spells ('-' :: cs) n ↔ IsDigits cs ∧ n = -digitsValue cs := by
  constructor
  · intro h
    cases h with
    | unsigned hcounts =>
      rw [counts_plain (by simp)] at hcounts
      exact absurd rfl hcounts.1.of_cons.2
    | minus hcs => exact ⟨hcs, rfl⟩
  · intro h
    rw [h.2]
    exact .minus h.1

theorem spells_unsigned {n : Int} (hunsigned : ∀ ds, cs ≠ '-' :: ds) :
    Spells cs n ↔ ∃ m, Counts cs m ∧ n = m := by
  constructor
  · intro h
    cases h with
    | unsigned hcounts => exact ⟨_, hcounts, rfl⟩
    | minus => exact absurd rfl (hunsigned _)
  · intro h
    obtain ⟨m, hcounts, hn⟩ := h
    rw [hn]
    exact .unsigned hcounts

/-! ## Reading numerals -/

section Reading

variable {s : String}

theorem map_eq_ok_iff {ε α β : Type} {f : α → β} {x : Except ε α} {b : β} :
    x.map f = .ok b ↔ ∃ a, x = .ok a ∧ f a = b := by
  cases x <;> simp [Except.map]

theorem map_lifted {ε α : Type} {f : Int → α} {x : Except ε Nat} :
    Except.map f (do return (← x)) = x.map fun n : Nat => f n := by
  cases x <;> rfl

/-- What is read within the bounds of a width is kept as it is. -/
theorem unsigned_eq_ok_iff {n : UInt64} : (readMagnitude maxUInt64 cs).map UInt64.ofNat = .ok n ↔
    IsDigits cs ∧ n.toNat = digitsValue cs := by
  rw [map_eq_ok_iff]
  constructor
  · intro hread
    obtain ⟨m, hread, hn⟩ := hread
    obtain ⟨hcs, hm, hle⟩ := readMagnitude_eq_ok_iff.mp hread
    have hlt : m < UInt64.size := by
      rw [size_eq]
      omega
    rw [← hn, UInt64.toNat_ofNat_of_lt' hlt]
    exact ⟨hcs, hm⟩
  · intro hcs
    have hlt := n.toNat_lt_size
    rw [size_eq] at hlt
    exact ⟨n.toNat, readMagnitude_eq_ok_iff.mpr ⟨hcs.1, hcs.2, by omega⟩, UInt64.ofNat_toNat⟩

theorem nonnegative_eq_ok_iff {n : Int64} : (readMagnitude maxInt64 cs).map Int64.ofNat = .ok n ↔
    IsDigits cs ∧ n.toInt = digitsValue cs := by
  rw [map_eq_ok_iff]
  constructor
  · intro hread
    obtain ⟨m, hread, hn⟩ := hread
    obtain ⟨hcs, hm, hle⟩ := readMagnitude_eq_ok_iff.mp hread
    unfold maxInt64 at hle
    rw [← hn, Int64.toInt_ofNat_of_lt (by omega), hm]
    exact ⟨hcs, rfl⟩
  · intro hcs
    have hmost : n.toInt ≤ maxInt64 := toInt_maxValue ▸ Int64.toInt_le n
    refine ⟨digitsValue cs, readMagnitude_eq_ok_iff.mpr ⟨hcs.1, rfl, by omega⟩, ?_⟩
    rw [← Int64.ofInt_eq_ofNat, ← hcs.2, Int64.ofInt_toInt]

theorem negative_eq_ok_iff {n : Int64} :
    (readMagnitude (maxInt64 + 1) cs).map (fun m : Nat => Int64.ofInt (-m)) = .ok n ↔
      IsDigits cs ∧ n.toInt = -digitsValue cs := by
  rw [map_eq_ok_iff]
  constructor
  · intro hread
    obtain ⟨m, hread, hn⟩ := hread
    obtain ⟨hcs, hm, hle⟩ := readMagnitude_eq_ok_iff.mp hread
    unfold maxInt64 at hle
    rw [← hn, Int64.toInt_ofInt_of_le (by omega) (by omega), hm]
    exact ⟨hcs, rfl⟩
  · intro hcs
    have hleast : -(maxInt64 + 1) ≤ n.toInt := Int64.le_toInt n
    refine ⟨digitsValue cs, readMagnitude_eq_ok_iff.mpr ⟨hcs.1, rfl, by omega⟩, ?_⟩
    rw [← hcs.2, Int64.ofInt_toInt]

theorem readUInt64_eq_ok_iff {n : UInt64} : readUInt64 s = .ok n ↔ Counts s.toList n.toNat := by
  unfold readUInt64
  split
  · rename_i hnil
    rw [hnil, counts_plain (by simp)]
    simp [not_isDigits_nil]
  · rename_i ds hplus
    rw [unsigned_eq_ok_iff, hplus, counts_plus]
  · rename_i hplain
    rw [unsigned_eq_ok_iff, counts_plain hplain]

theorem readInt64_eq_ok_iff {n : Int64} : readInt64 s = .ok n ↔ Spells s.toList n.toInt := by
  unfold readInt64
  split
  · rename_i hnil
    rw [hnil, spells_unsigned (by simp)]
    simp [counts_plain, not_isDigits_nil]
  · rename_i ds hplus
    rw [nonnegative_eq_ok_iff, hplus, spells_unsigned (by simp)]
    simp [counts_plus, and_assoc]
  · rename_i ds hminus
    rw [map_lifted, negative_eq_ok_iff, hminus, spells_minus]
  · rename_i hplus hminus
    rw [nonnegative_eq_ok_iff, spells_unsigned hminus]
    simp [counts_plain hplus, and_assoc]

/-! ## What is wrong with other texts -/

theorem readDigits_ne_empty : readDigits limit n cs ≠ .error .empty := by
  induction cs generalizing n with
  | nil => simp [readDigits]
  | cons c cs ih =>
    by_cases hc : c.isDigit = true
    · by_cases hle : n * 10 + (c.toNat - '0'.toNat) ≤ limit
      · rw [readDigits_of_digit hc hle]
        exact ih
      · simp [readDigits_of_excess hc hle]
    · simp [readDigits_of_other hc]

theorem readMagnitude_ne_empty : readMagnitude limit cs ≠ .error .empty := by
  cases cs with
  | nil => simp [readMagnitude]
  | cons c cs => exact readDigits_ne_empty

theorem readMagnitude_eq_tooLarge_iff : readMagnitude limit cs = .error .tooLarge ↔
    ∃ front, front <+: cs ∧ (∀ c ∈ front, c.isDigit = true) ∧ limit < digitsValue front := by
  have hread : readDigits limit 0 cs = .error .tooLarge ↔ _ :=
    readDigits_eq_tooLarge_iff (Nat.zero_le limit)
  simp only [Nat.zero_mul, Nat.zero_add] at hread
  rw [← hread]
  cases cs with
  | nil => simp [readMagnitude, readDigits]
  | cons c cs => exact Iff.rfl

theorem map_eq_error_iff {ε α β : Type} {f : α → β} {x : Except ε α} {e : ε} :
    x.map f = .error e ↔ x = .error e := by
  cases x <;> simp [Except.map]

def afterPlus : List Char → List Char
  | '+' :: cs => cs
  | cs => cs

/-- The digits that a text starts with, perhaps after a plus, stand for more than 64 bits can hold. -/
def TooLarge (s : String) : Prop := ∃ front, front <+: afterPlus s.toList ∧
  (∀ c ∈ front, c.isDigit = true) ∧ 2 ^ 64 ≤ digitsValue front

theorem afterPlus_plain (hplain : ∀ ds, cs ≠ '+' :: ds) : afterPlus cs = cs := by
  unfold afterPlus
  split
  · exact absurd rfl (hplain _)
  · rfl

theorem readUInt64_eq_tooLarge_iff : readUInt64 s = .error .tooLarge ↔ TooLarge s := by
  have hmagnitude : ∀ ds, (readMagnitude maxUInt64 ds).map UInt64.ofNat = .error .tooLarge ↔
      ∃ front, front <+: ds ∧ (∀ c ∈ front, c.isDigit = true) ∧ 2 ^ 64 ≤ digitsValue front := by
    intro ds
    rw [map_eq_error_iff, readMagnitude_eq_tooLarge_iff]
    exact Iff.rfl
  unfold readUInt64 TooLarge
  split
  · rename_i hnil
    simp [hnil, afterPlus, digitsValue]
  · rename_i ds hplus
    rw [hmagnitude, hplus, afterPlus]
  · rename_i hplain
    rw [hmagnitude, afterPlus_plain hplain]

theorem readUInt64_ne_empty (h : s ≠ "") : readUInt64 s ≠ .error .empty := by
  unfold readUInt64
  split
  · rename_i hnil
    exact absurd (String.toList_eq_nil_iff.mp hnil) h
  · rw [ne_eq, map_eq_error_iff]
    exact readMagnitude_ne_empty
  · rw [ne_eq, map_eq_error_iff]
    exact readMagnitude_ne_empty

end Reading

/-! ## Decimal texts -/

def padded (zeros : Nat) (n : Int64) : String :=
  let digits := List.replicate zeros '0' ++ Nat.toDigits 10 n.toInt.natAbs
  String.ofList (if n.toInt < 0 then '-' :: digits else digits)

theorem padded_zero (n : Int64) : padded 0 n = ofInt64 n := by
  rw [← String.toList_inj, toList_ofInt64]
  simp [padded]

theorem digitsValue_zeros (zeros : Nat) (cs : List Char) :
    digitsValue (List.replicate zeros '0' ++ cs) = digitsValue cs := by
  induction zeros with
  | zero => simp
  | succ zeros ih => simp [List.replicate_succ, digitsValue, ih]

theorem digitsValue_toDigits (n : Nat) : digitsValue (Nat.toDigits 10 n) = n := by
  have hread := (readMagnitude_eq_ok_iff.mp (readMagnitude_toDigits (Nat.le_refl n))).2.1
  exact hread.symm

theorem isDigits_zeros (zeros n : Nat) : IsDigits (List.replicate zeros '0' ++ Nat.toDigits 10 n) := by
  refine ⟨by simp [Nat.toDigits_ne_nil], ?_⟩
  intro c hc
  rcases List.mem_append.mp hc with hzero | hdigit
  · rw [List.eq_of_mem_replicate hzero]
    rfl
  · exact Nat.isDigit_of_mem_toDigits (by decide) (by decide) hdigit

theorem spells_padded (zeros : Nat) (n : Int64) : Spells (padded zeros n).toList n.toInt := by
  have hvalue : digitsValue (List.replicate zeros '0' ++ Nat.toDigits 10 n.toInt.natAbs) =
      n.toInt.natAbs := by
    rw [digitsValue_zeros, digitsValue_toDigits]
  have hdigits := isDigits_zeros zeros n.toInt.natAbs
  rw [padded, String.toList_ofList]
  by_cases hneg : n.toInt < 0
  · rw [if_pos hneg, spells_minus, hvalue]
    exact ⟨hdigits, by omega⟩
  · have habs : n.toInt = (n.toInt.natAbs : Int) := by omega
    have hplain := Counts.plain hdigits
    rw [if_neg hneg, habs]
    rw [hvalue] at hplain
    exact .unsigned hplain

end TokenTrust.Text
