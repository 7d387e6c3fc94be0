/-
  TokenTrust.Proofs.Json.Containers — lists, sets and maps are read back as they were written.

  After its first item, what is left of a list is a comma and a value for each further item, and the
  bracket; so is what is left of an object, with keys. Each loop is followed over that text, by
  induction on the items.
  - `list_lawful`, `map_lawful`: the forms of lists and maps are lawful.
  - `listedSet_lawful`: so is that of sets, with their members in any order and however often.
  - `Takes`: how the members of an object turn a draft into another one, whatever the draft is.
-/

import TokenTrust.Proofs.Json.Scalars

namespace TokenTrust.Json

variable {α β δ : Type}

/-! ## Text between brackets -/

theorem joined_cons (sep : Char) (a : List Char) (rest : List (List Char)) :
    joined sep (a :: rest) = a ++ rest.flatMap (sep :: ·) := by
  induction rest generalizing a with
  | nil => simp [joined]
  | cons b rest ih => simp [joined, ih]

theorem closes_further (l : List α) (written : α → List Char) {close : Char}
    (hclose : close = ']' ∨ close = '\x7d') (rest : List Char) :
    Closes (l.flatMap (fun a => ',' :: written a) ++ close :: rest) := by
  cases l with
  | nil => exact .inr hclose
  | cons a l => exact .inl rfl

theorem length_le_further (l : List α) (written : α → List Char) :
    l.length ≤ (l.flatMap fun a => ',' :: written a).length := by
  induction l with
  | nil => simp
  | cons a l ih =>
    simp only [List.length_append, List.length_cons, List.flatMap_cons] at *
    omega

/-! ## Lists -/

section Lists

variable {c : Codec α} {l : List α}

theorem nextItem_written {first : Char} (hfirst : opensValue first = true) (s : List Char) :
    nextItem true (first :: s) = .ok (true, first :: s) ∧
      nextItem false (',' :: first :: s) = .ok (true, first :: s) := by
  have hspace := not_space_of_opens hfirst
  have hbracket : first ≠ ']' := by
    rintro rfl
    exact absurd hfirst (by decide)
  constructor
  · simp [nextItem, skip_of_not_space hspace, hbracket]
  · have hcomma : isSpace ',' = false := by decide
    simp [nextItem, skip_of_not_space hcomma, skip_of_not_space hspace, hbracket]

theorem items_further (hl : ∀ a ∈ l, c.Restores a) {fuel : Nat} (hfuel : l.length < fuel)
    (rest : List Char) :
    items c.read fuel false (l.flatMap (fun a => ',' :: c.write a) ++ ']' :: rest) = .ok (l, rest) := by
  induction l generalizing fuel with
  | nil =>
    obtain ⟨fuel, rfl⟩ : ∃ n, fuel = n + 1 := ⟨fuel - 1, by omega⟩
    rfl
  | cons a l ih =>
    obtain ⟨fuel, rfl⟩ : ∃ n, fuel = n + 1 := ⟨fuel - 1, by simp at hfuel; omega⟩
    obtain ⟨first, cs, hwrite, hfirst⟩ := (hl a List.mem_cons_self).opens
    have hread := (hl a List.mem_cons_self).reads _ (closes_further l c.write (.inl rfl) rest)
    have hothers := ih (fun b hb => hl b (List.mem_cons_of_mem _ hb)) (Nat.lt_of_succ_lt_succ hfuel)
    rw [hwrite, List.cons_append] at hread
    simp only [items, List.flatMap_cons, List.append_assoc, List.cons_append, hwrite,
      (nextItem_written hfirst _).2]
    simp only [bind, Except.bind, if_true, hread, hothers]

theorem readList_written (hl : ∀ a ∈ l, c.Restores a) (rest : List Char) :
    readList c.read (writeList c.write l ++ rest) = .ok (l, rest) := by
  have hbracket : isSpace '[' = false := by decide
  simp only [writeList, List.cons_append, List.append_assoc, List.nil_append, readList,
    skip_of_not_space hbracket, if_true]
  cases l with
  | nil => rfl
  | cons a l =>
    obtain ⟨first, cs, hwrite, hfirst⟩ := (hl a List.mem_cons_self).opens
    have hread := (hl a List.mem_cons_self).reads _ (closes_further l c.write (.inl rfl) rest)
    have hothers : ∀ {fuel}, l.length < fuel → items c.read fuel false _ = .ok (l, rest) :=
      fun hfuel => items_further (fun b hb => hl b (List.mem_cons_of_mem _ hb)) hfuel rest
    have hfuel := length_le_further l c.write
    rw [List.map_cons, joined_cons, List.append_assoc, List.flatMap_map]
    rw [hwrite, List.cons_append] at hread ⊢
    rw [items, (nextItem_written hfirst _).1]
    simp only [bind, Except.bind, if_true, hread]
    rw [hothers (by simp only [List.length_cons, List.length_append] at *; omega)]
    rfl

theorem opens_writeList (write : α → List Char) (l : List α) :
    ∃ first rest, writeList write l = first :: rest ∧ opensValue first = true :=
  ⟨'[', _, rfl, by decide⟩

theorem list_lawful (h : c.Lawful) : (list c).Lawful := fun l =>
  ⟨opens_writeList c.write l, fun rest _ => readList_written (fun a _ => h a) rest⟩

end Lists

/-! ## Sets -/

/-- A way to list the members of sets, in any order and with any repetitions. -/
structure Listing (α : Type) [LT α] where
  list : OrderedSet α → List α
  mem_list : ∀ s a, a ∈ list s ↔ a ∈ s

section Sets

variable [LT α]

def Listing.inOrder : Listing α := ⟨OrderedSet.toList, fun _ _ => Iff.rfl⟩

variable [DecidableLT α] [LE α] [Std.IsLinearOrder α] [Std.LawfulOrderLT α] {c : Codec α}

/-- The form of sets that lists their members another way. -/
def listedSet (l : Listing α) (c : Codec α) : Codec (OrderedSet α) :=
  { set c with write := fun s => writeList c.write (l.list s) }

theorem listedSet_lawful (l : Listing α) (h : c.Lawful) : (listedSet l c).Lawful := fun s => by
  have hset : OrderedSet.ofList (l.list s) = s :=
    OrderedSet.ext fun a => OrderedSet.mem_ofList.trans (l.mem_list s a)
  refine ⟨opens_writeList c.write (l.list s), fun rest _ => ?_⟩
  show (readList c.read (writeList c.write (l.list s) ++ rest)).map _ = _
  rw [readList_written fun a _ => h a]
  simp only [Except.map, hset]

end Sets

/-! ## Members of objects -/

/-- Members of an object, one after the other, turn a draft into another one. -/
inductive Takes (member : String → δ → Reader δ) : List (String × List Char) → δ → δ → Prop where
  | none (d : δ) : Takes member [] d d
  | one {key : String} {value : List Char} {ms : List (String × List Char)} {d d' d'' : δ}
      (reads : ∀ rest, Closes rest → member key d (':' :: (value ++ rest)) = .ok (d', rest))
      (others : Takes member ms d' d'') : Takes member ((key, value) :: ms) d d''

def memberText (m : String × List Char) : List Char := writeText m.1 ++ ':' :: m.2

theorem memberText_append (key : String) (value rest : List Char) : memberText (key, value) ++ rest =
    '"' :: (key.toList.flatMap escapeChar ++ '"' :: ':' :: (value ++ rest)) := by
  simp [memberText, writeText]

theorem nextMember_written (s : List Char) : nextMember true ('"' :: s) = .ok (true, s) ∧
    nextMember false (',' :: '"' :: s) = .ok (true, s) := by
  have hquote : isSpace '"' = false := by decide
  have hcomma : isSpace ',' = false := by decide
  constructor
  · simp [nextMember, skip_of_not_space hquote]
  · simp [nextMember, skip_of_not_space hcomma, skip_of_not_space hquote]

theorem writeObject_append (ms : List (String × List Char)) (rest : List Char) :
    writeObject ms ++ rest = '\x7b' :: (joined ',' (ms.map memberText) ++ '\x7d' :: rest) := by
  simp only [writeObject, List.cons_append, List.append_assoc, List.nil_append]
  rfl

section Members

variable {member : String → δ → Reader δ} {ms : List (String × List Char)} {d d' : δ}

theorem Takes.further (h : Takes member ms d d') {fuel : Nat} (hfuel : ms.length < fuel)
    (rest : List Char) :
    members member fuel false d (ms.flatMap (fun m => ',' :: memberText m) ++ '\x7d' :: rest) =
      .ok (d', rest) := by
  induction h generalizing fuel with
  | none d =>
    obtain ⟨fuel, rfl⟩ : ∃ n, fuel = n + 1 := ⟨fuel - 1, by omega⟩
    rfl
  | @one key value ms d d' d'' reads _ ih =>
    obtain ⟨fuel, rfl⟩ : ∃ n, fuel = n + 1 := ⟨fuel - 1, by simp at hfuel; omega⟩
    have hread := reads _ (closes_further ms memberText (.inr rfl) rest)
    have hothers := ih (Nat.lt_of_succ_lt_succ hfuel)
    simp only [members, List.flatMap_cons, List.append_assoc, List.cons_append, memberText_append,
      (nextMember_written _).2]
    simp only [bind, Except.bind, if_true, textBody_written, hread, hothers]

/-- The members of a written object are taken one after the other. -/
theorem Takes.members_written (h : Takes member ms d d') (rest : List Char) :
    let s := joined ',' (ms.map memberText) ++ '\x7d' :: rest
    members member (s.length + 1) true d s = .ok (d', rest) := by
  cases h with
  | none => rfl
  | @one key value ms _ d' _ reads others =>
    have hread := reads _ (closes_further ms memberText (.inr rfl) rest)
    have hfuel := length_le_further ms memberText
    simp only [List.map_cons, joined_cons, List.append_assoc, List.flatMap_map]
    simp only [memberText_append]
    rw [members, (nextMember_written _).1]
    simp only [bind, Except.bind, if_true, textBody_written, hread]
    refine others.further ?_ rest
    simp only [List.length_cons, List.length_append] at *
    omega

theorem opens_writeObject (ms : List (String × List Char)) :
    ∃ first rest, writeObject ms = first :: rest ∧ opensValue first = true :=
  ⟨'\x7b', _, rfl, by decide⟩

theorem colon_written (s : List Char) : colon (':' :: s) = .ok s := by
  have hcolon : isSpace ':' = false := by decide
  simp [colon, skip_of_not_space hcolon]

end Members

def readEntry (c : Codec β) (key : String) (m : OrderedMap β) : Reader (OrderedMap β) := fun s => do
  let s ← colon s
  let (v, s) ← c.read s
  .ok (m.insert key v, s)

theorem read_map (c : Codec β) (s : List Char) : (map c).read ('\x7b' :: s) =
    (members (readEntry c) (s.length + 1) true .empty s).mapError (·.settle afterObject) := by
  have hbrace : isSpace '\x7b' = false := by decide
  rw [map]
  simp only [skip_of_not_space hbrace, if_true]
  rfl

theorem map_lawful {c : Codec β} (h : c.Lawful) : (map c).Lawful := fun m => by
  refine ⟨opens_writeObject _, fun rest _ => ?_⟩
  have htakes : ∀ (l : List (String × β)) (m₀ : OrderedMap β),
      Takes (readEntry c) (l.map fun e => (e.1, c.write e.2)) m₀
        (l.foldl (fun m e => m.insert e.1 e.2) m₀) := by
    intro l
    induction l with
    | nil => exact fun m₀ => .none m₀
    | cons e l ih =>
      refine fun m₀ => .one (fun rest hrest => ?_) (ih _)
      rw [readEntry, colon_written]
      simp only [bind, Except.bind, (h e.2).reads rest hrest]
  have hmembers := (htakes m.toList .empty).members_written rest
  show (map c).read (writeObject _ ++ rest) = _
  rw [writeObject_append, read_map, hmembers, ← OrderedMap.ofList, OrderedMap.ofList_toList]
  rfl

end TokenTrust.Json
