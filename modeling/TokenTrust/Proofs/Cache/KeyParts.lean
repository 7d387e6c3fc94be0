/-
  TokenTrust.Proofs.Cache.KeyParts — which requests share a key of the cache.

  A key joins five parts with `partMark`, and the items of a part that is a list with `itemMark`;
  the texts inside are written as they are. So a key tells the parts apart only where the texts
  hold no marks of their own:
  - `key_eq_iff`: as long as no `partMark` stands before the target, two keys are equal exactly if
    kind, subject and target are, and the labels and hops are when they are cut at their item marks
    (a list of no items counts as one empty item).
  - `same_of_key_eq`: so requests whose texts hold no mark and whose items are not empty
    (`Plain`) share a key only if they ask for the same.
  - `exists_other_of_broken`: a `partMark` before the target always makes the key that of another
    request too.
-/

import TokenTrust.Cache.Key

namespace TokenTrust.Cache

open Key (partMark itemMark joinedBy)

/-- What a key is made of. -/
structure Parts where
  kind : TokenKind
  subject : String
  exclude : Option (OrderedSet String)
  chain : Option (List String)
  target : String
  deriving DecidableEq

namespace Parts

def key (p : Parts) : Key := .of p.kind p.subject p.exclude p.chain p.target

def labels (p : Parts) : List String := p.exclude.elim [] (·.toList)

def hops (p : Parts) : List String := p.chain.getD []

/-- Two requests ask for the same: excluding nothing is excluding the empty set, and no chain is
the empty one. -/
def Same (p q : Parts) : Prop :=
  p.kind = q.kind ∧ p.subject = q.subject ∧ p.exclude.getD .empty = q.exclude.getD .empty ∧
    p.chain.getD [] = q.chain.getD [] ∧ p.target = q.target

instance (p q : Parts) : Decidable (p.Same q) := inferInstanceAs (Decidable (_ ∧ _))

/-- No part before the target holds the mark that ends it. -/
def Unbroken (p : Parts) : Prop :=
  partMark ∉ p.subject.toList ∧ (∀ l ∈ p.labels, partMark ∉ l.toList) ∧
    ∀ h ∈ p.hops, partMark ∉ h.toList

/-- No text before the target holds a mark, and no item of a list is empty. -/
structure Plain (p : Parts) : Prop where
  subject : partMark ∉ p.subject.toList
  label : ∀ l ∈ p.labels, partMark ∉ l.toList ∧ itemMark ∉ l.toList ∧ l ≠ ""
  hop : ∀ h ∈ p.hops, partMark ∉ h.toList ∧ itemMark ∉ h.toList ∧ h ≠ ""

theorem Plain.unbroken {p : Parts} (h : p.Plain) : p.Unbroken :=
  ⟨h.subject, fun l hl => (h.label l hl).1, fun l hl => (h.hop l hl).1⟩

theorem labels_eq (p : Parts) : p.labels = (p.exclude.getD .empty).toList := by
  unfold labels
  cases p.exclude <;> rfl

theorem same_iff {p q : Parts} : p.Same q ↔
    p.kind = q.kind ∧ p.subject = q.subject ∧ p.labels = q.labels ∧ p.hops = q.hops ∧
      p.target = q.target := by
  have hlabels : p.labels = q.labels ↔ p.exclude.getD .empty = q.exclude.getD .empty := by
    rw [labels_eq, labels_eq]
    refine ⟨fun h => ?_, fun h => by rw [h]⟩
    exact OrderedSet.ext fun a => by rw [← OrderedSet.mem_toList, h, OrderedSet.mem_toList]
  rw [hlabels]
  rfl

end Parts

/-! ## The text of a list of items -/

def itemText (items : List String) : List Char := [itemMark].intercalate (items.map String.toList)

/-- The items cut at the marks that they hold themselves. No items are one empty piece. -/
def pieces : List String → List (List Char)
  | [] => [[]]
  | item :: rest => (item :: rest).flatMap fun i => i.toList.splitOn itemMark

theorem splitOn_itemText (items : List String) : (itemText items).splitOn itemMark = pieces items := by
  induction items with
  | nil => rfl
  | cons a rest ih =>
    cases rest with
    | nil => simp [itemText, pieces]
    | cons b rest =>
      have hjoin : itemText (a :: b :: rest) = a.toList ++ itemMark :: itemText (b :: rest) := by
        simp [itemText, List.intercalate_cons_cons]
      rw [hjoin, List.splitOn_append_cons_self, ih]
      simp [pieces]

/-- Two lists are written alike exactly if they have the same pieces. -/
theorem itemText_eq_iff {a b : List String} : itemText a = itemText b ↔ pieces a = pieces b := by
  rw [← splitOn_itemText, ← splitOn_itemText]
  refine ⟨fun h => by rw [h], fun h => ?_⟩
  have hjoin : ∀ l, [itemMark].intercalate ((itemText l).splitOn itemMark) = itemText l :=
    fun l => List.intercalate_splitOn itemMark
  rw [← hjoin a, h, hjoin b]

/-- The first mark of a text is where it is cut. -/
theorem append_mark_inj {c : Char} {a b r s : List Char} (ha : c ∉ a) (hb : c ∉ b) :
    a ++ c :: r = b ++ c :: s ↔ a = b ∧ r = s := by
  refine ⟨fun h => ?_, fun ⟨hab, hrs⟩ => by rw [hab, hrs]⟩
  have hcut := congrArg (List.splitOn c) h
  rw [List.splitOn_append_cons_self_of_not_mem ha, List.splitOn_append_cons_self_of_not_mem hb,
    List.cons.injEq] at hcut
  obtain ⟨rfl, -⟩ := hcut
  exact ⟨rfl, (List.cons.inj (List.append_cancel_left h)).2⟩

theorem mem_itemText {c : Char} (hc : c ≠ itemMark) (items : List String) :
    c ∈ itemText items ↔ ∃ i ∈ items, c ∈ i.toList := by
  induction items with
  | nil => simp [itemText]
  | cons a rest ih =>
    cases rest with
    | nil => simp [itemText]
    | cons b rest =>
      have hjoin : itemText (a :: b :: rest) = a.toList ++ itemMark :: itemText (b :: rest) := by
        simp [itemText, List.intercalate_cons_cons]
      rw [hjoin, List.mem_append, List.mem_cons, ih]
      simp [hc]

/-- Items without marks are their own pieces. -/
theorem pieces_of_unmarked {items : List String} (hne : items ≠ [])
    (h : ∀ i ∈ items, itemMark ∉ i.toList) : pieces items = items.map String.toList := by
  rw [← splitOn_itemText]
  refine List.splitOn_intercalate itemMark (fun l hl => ?_) (by simpa using hne)
  obtain ⟨i, hi, rfl⟩ := List.mem_map.mp hl
  exact h i hi

theorem eq_of_pieces_eq {a b : List String} (ha : ∀ i ∈ a, itemMark ∉ i.toList ∧ i ≠ "")
    (hb : ∀ i ∈ b, itemMark ∉ i.toList ∧ i ≠ "") (h : pieces a = pieces b) : a = b := by
  -- a list of items that are not empty is not one empty piece
  have hblank : ∀ l : List String, (∀ i ∈ l, itemMark ∉ i.toList ∧ i ≠ "") →
      pieces l = [[]] → l = [] := by
    intro l hl hp
    cases l with
    | nil => rfl
    | cons i rest =>
      rw [pieces_of_unmarked (List.cons_ne_nil i rest) fun j hj => (hl j hj).1, List.map_cons] at hp
      have hi := (List.cons.inj hp).1
      exact absurd (String.toList_inj.mp (hi.trans String.toList_empty.symm))
        (hl i List.mem_cons_self).2
  by_cases ea : a = []
  · subst ea
    exact (hblank b hb h.symm).symm
  by_cases eb : b = []
  · subst eb
    exact hblank a ha h
  rw [pieces_of_unmarked ea fun i hi => (ha i hi).1,
    pieces_of_unmarked eb fun i hi => (hb i hi).1] at h
  exact (List.map_inj_right fun _ _ => String.toList_inj.mp).mp h

/-! ## The text of a key -/

namespace Parts

theorem key_inj {k l : Key} : k.text.toList = l.text.toList ↔ k = l := by
  cases k
  cases l
  rw [String.toList_inj, Key.mk.injEq]

theorem toList_key (p : Parts) : p.key.text.toList =
    p.kind.name.toList ++ partMark :: (p.subject.toList ++ partMark :: (itemText p.labels ++
      partMark :: (itemText p.hops ++ partMark :: p.target.toList))) := by
  simp [key, Key.of, joinedBy, itemText, labels, hops, String.toList_intercalate]

theorem key_eq_of_same {p q : Parts} (h : p.Same q) : p.key = q.key := by
  obtain ⟨hkind, hsubject, hlabels, hhops, htarget⟩ := same_iff.mp h
  rw [← key_inj, toList_key, toList_key, hkind, hsubject, hlabels, hhops, htarget]

theorem partMark_notMem_name (k : TokenKind) : partMark ∉ k.name.toList := by
  cases k <;> decide

theorem name_inj {k l : TokenKind} (h : k.name = l.name) : k = l := by
  cases k <;> cases l <;> first | rfl | exact absurd h (by decide)

theorem partMark_notMem_itemText {items : List String} (h : ∀ i ∈ items, partMark ∉ i.toList) :
    partMark ∉ itemText items := by
  rw [mem_itemText (by decide)]
  rintro ⟨i, hi, hmem⟩
  exact h i hi hmem

/-- What a key tells of the request behind it. -/
theorem key_eq_iff {p q : Parts} (hp : p.Unbroken) (hq : q.Unbroken) : p.key = q.key ↔
    p.kind = q.kind ∧ p.subject = q.subject ∧ pieces p.labels = pieces q.labels ∧
      pieces p.hops = pieces q.hops ∧ p.target = q.target := by
  -- each mark that stands between two parts is the first one left
  rw [← key_inj, toList_key, toList_key,
    append_mark_inj (partMark_notMem_name _) (partMark_notMem_name _),
    append_mark_inj hp.1 hq.1,
    append_mark_inj (partMark_notMem_itemText hp.2.1) (partMark_notMem_itemText hq.2.1),
    append_mark_inj (partMark_notMem_itemText hp.2.2) (partMark_notMem_itemText hq.2.2),
    String.toList_inj, String.toList_inj, String.toList_inj, itemText_eq_iff, itemText_eq_iff]
  have hkind : p.kind.name = q.kind.name ↔ p.kind = q.kind := ⟨name_inj, congrArg _⟩
  rw [hkind]

/-- Plain requests with one key ask for the same. -/
theorem same_of_key_eq {p q : Parts} (hp : p.Plain) (hq : q.Plain) (h : p.key = q.key) :
    p.Same q := by
  obtain ⟨hkind, hsubject, hlabels, hhops, htarget⟩ := (key_eq_iff hp.unbroken hq.unbroken).mp h
  refine same_iff.mpr ⟨hkind, hsubject, ?_, ?_, htarget⟩
  · exact eq_of_pieces_eq (fun l hl => (hp.label l hl).2) (fun l hl => (hq.label l hl).2) hlabels
  · exact eq_of_pieces_eq (fun l hl => (hp.hop l hl).2) (fun l hl => (hq.hop l hl).2) hhops

/-! ## Broken requests -/

def oneLabel (l : String) : OrderedSet String := ⟨[l], List.pairwise_singleton _ _⟩

/-- A target that takes up more text is another one. -/
theorem not_same_of_longer {p q : Parts} {left : List Char}
    (h : q.target.toList = left ++ partMark :: p.target.toList) : ¬p.Same q := by
  intro hsame
  have hlen := congrArg (List.length ∘ String.toList) hsame.2.2.2.2
  simp only [Function.comp, h, List.length_append, List.length_cons] at hlen
  omega

/-- What stands after a stray mark can be read as the next part: such a request shares its key with
one that has other parts. -/
theorem exists_other_of_broken {p : Parts} (h : ¬p.Unbroken) :
    ∃ q : Parts, ¬p.Same q ∧ q.key = p.key := by
  -- in each case the target of the other request takes up what is left over
  by_cases hs : partMark ∈ p.subject.toList
  · obtain ⟨u, v, huv⟩ := List.append_of_mem hs
    refine ⟨⟨p.kind, .ofList u, some (oneLabel (.ofList v)), some [.ofList (itemText p.labels)],
      .ofList (itemText p.hops ++ partMark :: p.target.toList)⟩,
      not_same_of_longer String.toList_ofList, key_inj.mp ?_⟩
    simp [toList_key, labels, hops, oneLabel, itemText, huv]
  by_cases hl : partMark ∈ itemText p.labels
  · obtain ⟨u, v, huv⟩ := List.append_of_mem hl
    refine ⟨⟨p.kind, p.subject, some (oneLabel (.ofList u)), some [.ofList v],
      .ofList (itemText p.hops ++ partMark :: p.target.toList)⟩,
      not_same_of_longer String.toList_ofList, key_inj.mp ?_⟩
    rw [toList_key, toList_key, huv]
    simp [labels, hops, oneLabel, itemText]
  by_cases hh : partMark ∈ itemText p.hops
  · obtain ⟨u, v, huv⟩ := List.append_of_mem hh
    refine ⟨⟨p.kind, p.subject, p.exclude, some [.ofList u],
      .ofList (v ++ partMark :: p.target.toList)⟩,
      not_same_of_longer String.toList_ofList, key_inj.mp ?_⟩
    rw [toList_key, toList_key, huv]
    simp [labels, hops, itemText]
  · rw [mem_itemText (by decide)] at hl hh
    exact absurd ⟨hs, fun l hl' hm => hl ⟨l, hl', hm⟩, fun i hi hm => hh ⟨i, hi, hm⟩⟩ h

/-- Among requests without a stray mark, keys are as good as the requests exactly if lists with the
same pieces are the same. -/
theorem key_faithful_iff {p q : Parts} (hp : p.Unbroken) (hq : q.Unbroken) :
    (p.key = q.key ↔ p.Same q) ↔
      (p.kind = q.kind → p.subject = q.subject → p.target = q.target →
        pieces p.labels = pieces q.labels → pieces p.hops = pieces q.hops →
        p.labels = q.labels ∧ p.hops = q.hops) := by
  rw [key_eq_iff hp hq, same_iff]
  constructor
  · intro h hkind hsubject htarget hlabels hhops
    obtain ⟨-, -, hl, hh, -⟩ := h.mp ⟨hkind, hsubject, hlabels, hhops, htarget⟩
    exact ⟨hl, hh⟩
  · intro h
    constructor
    · rintro ⟨hkind, hsubject, hlabels, hhops, htarget⟩
      obtain ⟨hl, hh⟩ := h hkind hsubject htarget hlabels hhops
      exact ⟨hkind, hsubject, hl, hh, htarget⟩
    · rintro ⟨hkind, hsubject, hl, hh, htarget⟩
      exact ⟨hkind, hsubject, by rw [hl], by rw [hh], htarget⟩

/-- When a key tells two requests apart: always if both are plain; without a stray mark exactly if
lists with the same pieces are the same; and with one, never from every other request. -/
theorem key_separates (p q : Parts) :
    (p.Plain → q.Plain → (p.key = q.key ↔ p.Same q)) ∧
    (p.Unbroken → q.Unbroken → ((p.key = q.key ↔ p.Same q) ↔
      (p.kind = q.kind → p.subject = q.subject → p.target = q.target →
        pieces p.labels = pieces q.labels → pieces p.hops = pieces q.hops →
        p.labels = q.labels ∧ p.hops = q.hops))) ∧
    (¬p.Unbroken → ∃ r : Parts, ¬p.Same r ∧ r.key = p.key) :=
  ⟨fun hp hq => ⟨same_of_key_eq hp hq, key_eq_of_same⟩, key_faithful_iff, exists_other_of_broken⟩

/-- A label is not taken for a hop. -/
theorem key_separates_label_hop :
    (Parts.mk .user "alice" (some (oneLabel "a")) none "456").key ≠
      (Parts.mk .user "alice" none (some ["a"]) "456").key := by
  have hp : (Parts.mk .user "alice" (some (oneLabel "a")) none "456").Plain :=
    ⟨by decide, by decide +kernel, by decide⟩
  have hq : (Parts.mk .user "alice" none (some ["a"]) "456").Plain :=
    ⟨by decide, by decide, by decide +kernel⟩
  intro h
  have hsame := ((key_separates _ _).1 hp hq).mp h
  exact absurd hsame (by decide +kernel)

/-- A mark in a subject reads as the end of it. -/
theorem key_shared_by_marked_subject :
    ¬((Parts.mk .user "alice\x1f" none none "456").key =
        (Parts.mk .user "alice" none none "\x1f456").key ↔
      (Parts.mk .user "alice\x1f" none none "456").Same ⟨.user, "alice", none, none, "\x1f456"⟩) := by
  decide +kernel

/-- Excluding the empty label alone is taken for excluding nothing. -/
example : (Parts.mk .user "alice" (some (oneLabel "")) none "456").key =
    (Parts.mk .user "alice" none none "456").key := by decide +kernel

end Parts

end TokenTrust.Cache
