/-
  TokenTrust.Proofs.Json.Scalars — texts, booleans and integers are read back as they were written.

  A value is read back from the front of a text whose rest may follow a value (`Closes`): a reader of
  numbers goes on until it meets a character that belongs to no number. What is written never starts
  with a blank, a closing bracket or the first letter of `null`, so that a list can tell its next item
  from its end, and an optional value one that is there (`opensValue`).
  - `Codec.Restores`, `Codec.Lawful`: this of one value, and of all.
  - `parse_render`, `relayed_eq`: a lawful form reads back the whole text that it has written, however
    often the value travels.
-/

import TokenTrust.Json.Codec

namespace TokenTrust.Json

variable {α : Type}

/-! ## Reading back -/

/-- What may follow a value: nothing, a comma or a closing bracket. -/
def Closes : List Char → Prop
  | [] => True
  | c :: _ => c = ',' ∨ c = ']' ∨ c = '\x7d'

/-- Whether a value, other than `null`, may start with the character. -/
def opensValue (c : Char) : Bool := !isSpace c && c != ']' && c != 'n'

def Codec.Rereads (c : Codec α) (a : α) : Prop :=
  ∀ rest, Closes rest → c.read (c.write a ++ rest) = .ok (a, rest)

/-- The value is read back, and what was written can be told from `null` and from the end of a list. -/
structure Codec.Restores (c : Codec α) (a : α) : Prop where
  opens : ∃ first rest, c.write a = first :: rest ∧ opensValue first = true
  reads : c.Rereads a

def Codec.Lawful (c : Codec α) : Prop := ∀ a, c.Restores a

theorem closes_nil : Closes [] := trivial

theorem skip_of_not_space {c : Char} (h : isSpace c = false) (s : List Char) :
    skip (c :: s) = c :: s := by
  simp [skip, h]

theorem not_space_of_opens {c : Char} (h : opensValue c = true) : isSpace c = false := by
  simp only [opensValue, Bool.and_eq_true, Bool.not_eq_true'] at h
  exact h.1.1

theorem Codec.parse_render {c : Codec α} (h : c.Lawful) (a : α) : c.parse (c.render a) = .ok a := by
  have hread := (h a).reads [] closes_nil
  rw [List.append_nil] at hread
  simp only [parse, render, String.toList_ofList, parseList, hread]
  rfl

/-- A value after it has travelled as text so many times, if it could be read each time. -/
def Codec.relayed (c : Codec α) (a : α) : Nat → Except String α
  | 0 => .ok a
  | n + 1 => (c.relayed a n).bind fun b => c.parse (c.render b)

theorem Codec.relayed_eq {c : Codec α} (h : c.Lawful) (a : α) (n : Nat) : c.relayed a n = .ok a := by
  induction n with
  | zero => rfl
  | succ n ih => simp only [relayed, ih, Except.bind, parse_render h]

/-! ## Texts -/

theorem hexDigit_hexLower : ∀ n < 16, hexDigit? (hexLower n) = some n := by decide

/-- A control character comes back from the four digits of its escape. -/
theorem textFrom_control {c : Char} (h : c.toNat < 0x20) (s : List Char) :
    textFrom .plain
      (['\\', 'u', '0', '0', hexLower (c.toNat / 16), hexLower (c.toNat % 16)] ++ s) =
      (textFrom .plain s).map fun (cs, rest) => (c :: cs, rest) := by
  have hhigh : hexDigit? (hexLower (c.toNat / 16)) = some (c.toNat / 16) :=
    hexDigit_hexLower _ (by omega)
  have hlow : hexDigit? (hexLower (c.toNat % 16)) = some (c.toNat % 16) :=
    hexDigit_hexLower _ (by omega)
  have hzero : hexDigit? '0' = some 0 := rfl
  have hvalue : c.toNat / 16 * 16 + c.toNat % 16 = c.toNat := by omega
  have hunit : unitValue none c.toNat = some (.inl c) := by
    have hlowSurrogate : isLowSurrogate c.toNat = false := by
      simp only [isLowSurrogate, Bool.and_eq_false_iff, decide_eq_false_iff_not]
      omega
    have hhighSurrogate : isHighSurrogate c.toNat = false := by
      simp only [isHighSurrogate, Bool.and_eq_false_iff, decide_eq_false_iff_not]
      omega
    simp [unitValue, hlowSurrogate, hhighSurrogate, Char.ofNat_toNat]
  simp [textFrom, hzero, hhigh, hlow, hvalue, hunit]

theorem textFrom_escapeChar (c : Char) (s : List Char) :
    textFrom .plain (escapeChar c ++ s) =
      (textFrom .plain s).map fun (cs, rest) => (c :: cs, rest) := by
  unfold escapeChar
  split
  · subst_vars; simp [textFrom, escaped?]
  split
  · subst_vars; simp [textFrom, escaped?]
  split
  · subst_vars; simp [textFrom, escaped?]
  split
  · subst_vars; simp [textFrom, escaped?]
  split
  · subst_vars; simp [textFrom, escaped?]
  split
  · subst_vars; simp [textFrom, escaped?]
  split
  · subst_vars; simp [textFrom, escaped?]
  split
  · exact textFrom_control ‹_› s
  · simp [textFrom, *]

theorem textBody_written (t : String) (rest : List Char) :
    textBody (t.toList.flatMap escapeChar ++ '"' :: rest) = .ok (t, rest) := by
  have hchars : ∀ cs : List Char,
      textFrom .plain (cs.flatMap escapeChar ++ '"' :: rest) = .ok (cs, rest) := by
    intro cs
    induction cs with
    | nil => simp [textFrom]
    | cons c cs ih =>
      rw [List.flatMap_cons, List.append_assoc, textFrom_escapeChar, ih]
      rfl
  rw [textBody, hchars]
  simp [Except.map]

theorem writeText_append (t : String) (rest : List Char) :
    writeText t ++ rest = '"' :: (t.toList.flatMap escapeChar ++ '"' :: rest) := by
  simp [writeText]

theorem text_lawful : text.Lawful := fun t =>
  ⟨⟨'"', _, rfl, by decide⟩, fun rest _ => by
    show readText (writeText t ++ rest) = _
    rw [writeText_append, readText, skip_of_not_space (by decide)]
    simp only [if_true, textBody_written]⟩

theorem boolean_lawful : boolean.Lawful := fun b => by
  cases b with
  | true =>
    refine ⟨⟨'t', _, rfl, by decide⟩, fun rest _ => ?_⟩
    simp [boolean, readBoolean, skip, isSpace, word, Except.map]
  | false =>
    refine ⟨⟨'f', _, rfl, by decide⟩, fun rest _ => ?_⟩
    simp [boolean, readBoolean, skip, isSpace, word, Except.map]

/-! ## Integers -/

theorem digitValue_digitChar {n : Nat} (h : n < 10) : digitValue n.digitChar = n := by
  simp [digitValue, Nat.toNat_digitChar_of_lt_ten h]

theorem wholeDigits_snoc (cs : List Char) (c : Char) : wholeDigits (cs ++ [c]) =
    let v := wholeDigits cs
    let next := v.significand * 10 + digitValue c
    if v.exponent = 0 ∧ next ≤ maxUInt64 then ⟨next, 0⟩ else ⟨v.significand, v.exponent + 1⟩ := by
  rw [wholeDigits, List.foldl_append]
  rfl

/-- The digits of a number that fits stand for it. -/
theorem wholeDigits_toDigits {n : Nat} (h : n ≤ maxUInt64) : wholeDigits (Nat.toDigits 10 n) = ⟨n, 0⟩ := by
  induction n using Nat.strongRecOn with
  | _ n ih =>
    by_cases hn : n < 10
    · have hfits : digitValue n.digitChar ≤ maxUInt64 := by rw [digitValue_digitChar hn]; exact h
      rw [Nat.toDigits_of_lt_base hn]
      simp [wholeDigits, digitValue_digitChar hn, h]
    · rw [Nat.toDigits_of_base_le (by decide) (Nat.le_of_not_lt hn), wholeDigits_snoc,
        ih (n / 10) (by omega) (by omega), digitValue_digitChar (Nat.mod_lt n (by decide))]
      have hsum : n / 10 * 10 + n % 10 = n := by omega
      simp [hsum, h]

theorem isDigit_of_mem_toDigits {n : Nat} {c : Char} (h : c ∈ Nat.toDigits 10 n) : c.isDigit = true :=
  Nat.isDigit_of_mem_toDigits (by decide) (by decide) h

/-- Only zero starts with a zero. -/
theorem exists_toDigits {n : Nat} (h : n ≠ 0) :
    ∃ c cs, Nat.toDigits 10 n = c :: cs ∧ c ≠ '0' := by
  induction n using Nat.strongRecOn with
  | _ n ih =>
    by_cases hn : n < 10
    · refine ⟨n.digitChar, [], Nat.toDigits_of_lt_base hn, fun hzero => h ?_⟩
      rw [← digitValue_digitChar hn, hzero]
      rfl
    · obtain ⟨c, cs, hcs, hc⟩ := ih (n / 10) (by omega) (by omega)
      refine ⟨c, cs ++ [(n % 10).digitChar], ?_, hc⟩
      rw [Nat.toDigits_of_base_le (by decide) (Nat.le_of_not_lt hn), hcs]
      rfl

theorem opens_of_isDigit {c : Char} (h : c.isDigit = true) : opensValue c = true := by
  have hne : ∀ d : Char, d.isDigit = false → c ≠ d := by
    rintro d hd rfl
    rw [h] at hd
    cases hd
  simp [opensValue, isSpace, hne]

theorem digits_append {ds rest : List Char} (hds : ∀ c ∈ ds, c.isDigit = true) (hrest : Closes rest) :
    digits (ds ++ rest) = (ds, rest) := by
  have hstop : rest.takeWhile Char.isDigit = [] ∧ rest.dropWhile Char.isDigit = rest := by
    cases rest with
    | nil => exact ⟨rfl, rfl⟩
    | cons c s =>
      rcases hrest with rfl | rfl | rfl <;> exact ⟨rfl, rfl⟩
  rw [digits, List.takeWhile_append_of_pos hds, List.dropWhile_append_of_pos hds, hstop.1, hstop.2,
    List.append_nil]

theorem numberTail_closes {rest : List Char} (hrest : Closes rest) (negative : Bool) (n : Nat) :
    numberTail negative ⟨n, 0⟩ rest =
      if !negative then .ok (.integer n, rest)
      else if 1 ≤ n ∧ n ≤ maxInt64 + 1 then .ok (.integer (-n), rest)
      else .ok (.floating (-n.toUInt64.toFloat), rest) := by
  cases rest with
  | nil => rfl
  | cons c s => rcases hrest with rfl | rfl | rfl <;> rfl

theorem numberFrom_toDigits {n : Nat} {rest : List Char} (hrest : Closes rest) (h : n ≤ maxUInt64)
    (negative : Bool) :
    numberFrom negative (Nat.toDigits 10 n ++ rest) = numberTail negative ⟨n, 0⟩ rest := by
  by_cases hn : n = 0
  · subst hn
    rw [Nat.toDigits_zero]
    cases rest with
    | nil => rfl
    | cons c s => rcases hrest with rfl | rfl | rfl <;> rfl
  · obtain ⟨c, cs, hcs, hc⟩ := exists_toDigits hn
    have hdigit : c.isDigit = true := isDigit_of_mem_toDigits (by rw [hcs]; exact List.mem_cons_self)
    have hall : digits (Nat.toDigits 10 n ++ rest) = (Nat.toDigits 10 n, rest) :=
      digits_append (fun _ => isDigit_of_mem_toDigits) hrest
    rw [hcs, List.cons_append] at hall ⊢
    simp only [numberFrom, if_neg hc, if_pos hdigit, hall]
    rw [← hcs, wholeDigits_toDigits h]

/-- The digits of a written integer, if it is not negative. -/
theorem writeInteger_of_nonneg {n : Int} (h : ¬n < 0) :
    ∃ c cs, Nat.toDigits 10 n.natAbs = c :: cs ∧ writeInteger n = c :: cs ∧ c.isDigit = true := by
  obtain ⟨c, cs, hcs⟩ := List.exists_cons_of_ne_nil (Nat.toDigits_ne_nil (n := n.natAbs) (b := 10))
  refine ⟨c, cs, hcs, ?_, isDigit_of_mem_toDigits (by rw [hcs]; exact List.mem_cons_self)⟩
  rw [writeInteger, if_neg h, hcs]

/-- An integer between the bounds is read back, if they are not wider than those of the signed and
the unsigned integers of 64 bits. -/
theorem readInteger_written {expected : String} {least most n : Int} {rest : List Char}
    (hrest : Closes rest) (hleast : least ≤ n) (hmost : n ≤ most) (hlow : -(maxInt64 + 1) ≤ n)
    (hhigh : n ≤ maxUInt64) :
    readInteger expected least most (writeInteger n ++ rest) = .ok (n, rest) := by
  have hwithin : ∀ faulty : Except Fault (Int × List Char),
      (if least ≤ n ∧ n ≤ most then .ok (n, rest) else faulty) = .ok (n, rest) :=
    fun _ => if_pos ⟨hleast, hmost⟩
  by_cases hneg : n < 0
  · have hnumber : numberFrom true (Nat.toDigits 10 n.natAbs ++ rest) = .ok (.integer n, rest) := by
      have hfits : n.natAbs ≤ maxInt64 + 1 := by omega
      have habs : -(n.natAbs : Int) = n := by omega
      rw [numberFrom_toDigits hrest (by simp only [maxInt64, maxUInt64] at *; omega),
        numberTail_closes hrest]
      simp only [Bool.not_true, Bool.false_eq_true, if_false, habs]
      rw [if_pos ⟨by omega, hfits⟩]
    rw [writeInteger, if_pos hneg, List.cons_append, readInteger, skip_of_not_space (by decide)]
    simp only [if_true, hnumber]
    exact hwithin _
  · have hnumber : numberFrom false (Nat.toDigits 10 n.natAbs ++ rest) = .ok (.integer n, rest) := by
      have habs : (n.natAbs : Int) = n := by omega
      rw [numberFrom_toDigits hrest (by omega), numberTail_closes hrest]
      simp only [Bool.not_false, if_true, habs]
    obtain ⟨c, cs, hcs, hwritten, hdigit⟩ := writeInteger_of_nonneg hneg
    have hminus : c ≠ '-' := by
      rintro rfl
      exact absurd hdigit (by decide)
    rw [hcs, List.cons_append] at hnumber
    rw [hwritten, List.cons_append, readInteger,
      skip_of_not_space (not_space_of_opens (opens_of_isDigit hdigit))]
    simp only [if_neg hminus, if_pos hdigit, hnumber]
    exact hwithin _

theorem int64_lawful : int64.Lawful := fun n => by
  refine ⟨?_, fun rest hrest => ?_⟩
  · show ∃ first rest, writeInteger n.toInt = first :: rest ∧ _
    by_cases hneg : n.toInt < 0
    · exact ⟨'-', _, by rw [writeInteger, if_pos hneg], by decide⟩
    · obtain ⟨c, cs, -, hwritten, hdigit⟩ := writeInteger_of_nonneg hneg
      exact ⟨c, cs, hwritten, opens_of_isDigit hdigit⟩
  · have hleast : -(maxInt64 + 1) ≤ n.toInt := Int64.le_toInt n
    have hmost : n.toInt ≤ maxInt64 := toInt_maxValue ▸ Int64.toInt_le n
    have hhigh : n.toInt ≤ maxUInt64 := by simp only [maxInt64, maxUInt64] at *; omega
    show (readInteger "i64" (-(maxInt64 + 1)) maxInt64 (writeInteger n.toInt ++ rest)).map _ = _
    rw [readInteger_written hrest hleast hmost hleast hhigh]
    simp [Except.map]

theorem uint64_lawful (expected : String) : (uint64 expected).Lawful := fun n => by
  have hleast : ¬(n.toNat : Int) < 0 := by omega
  refine ⟨?_, fun rest hrest => ?_⟩
  · obtain ⟨c, cs, -, hwritten, hdigit⟩ := writeInteger_of_nonneg hleast
    exact ⟨c, cs, hwritten, opens_of_isDigit hdigit⟩
  · have hmost : (n.toNat : Int) ≤ maxUInt64 := by
      have := n.toNat_lt
      simp only [maxUInt64] at *
      omega
    show (readInteger expected 0 maxUInt64 (writeInteger n.toNat ++ rest)).map _ = _
    rw [readInteger_written hrest (by omega) hmost (by simp only [maxInt64]; omega) hmost]
    simp [Except.map]

end TokenTrust.Json
