/-
  TokenTrust.Proofs.Text.Labels — which labels a text lists.

  Between the commas of a text stand labels with any blanks around them, or blanks alone. What the text
  says is the set of these labels; their order, how often they stand there and the blanks say nothing.
  - `labels_eq_iff`: a text is read as a set of labels exactly if it lists that set.
  - `labels_settled`: so whatever text is read, its labels can be listed, and their list is read as the
    same set.
-/

import TokenTrust.Text.Listed

namespace TokenTrust.Text

variable {s p l : String} {ps : List String} {ls : OrderedSet String}

/-! ## Between the commas -/

theorem pieces_eq_splitOn (sep : Char) (cs : List Char) : pieces sep cs = cs.splitOn sep := by
  induction cs with
  | nil => rfl
  | cons c cs ih =>
    obtain ⟨first, rest, hsplit⟩ := List.exists_cons_of_ne_nil (List.splitOn_ne_nil sep cs)
    rw [pieces, ih, List.splitOn_cons_eq_if_modifyHead, hsplit]
    cases c == sep with
    | true => rfl
    | false => rfl

theorem notMem_of_mem_splitOn {sep : Char} {cs piece : List Char} (h : piece ∈ cs.splitOn sep) :
    sep ∉ piece := by
  induction cs generalizing piece with
  | nil =>
    rw [List.splitOn_nil, List.mem_singleton] at h
    subst h
    exact List.not_mem_nil
  | cons c cs ih =>
    obtain ⟨first, rest, hsplit⟩ := List.exists_cons_of_ne_nil (List.splitOn_ne_nil sep cs)
    rw [List.splitOn_cons_eq_if_modifyHead, hsplit] at h
    rw [hsplit] at ih
    by_cases hc : c = sep
    · rw [if_pos (beq_iff_eq.mpr hc)] at h
      rcases List.mem_cons.mp h with rfl | hlater
      · exact List.not_mem_nil
      · exact ih hlater
    · rw [if_neg (mt beq_iff_eq.mp hc), List.modifyHead_cons] at h
      rcases List.mem_cons.mp h with rfl | hlater
      · rw [List.mem_cons, not_or]
        exact ⟨Ne.symm hc, ih List.mem_cons_self⟩
      · exact ih (List.mem_cons_of_mem first hlater)

def places (s : String) : List String := (pieces ',' s.toList).map String.ofList

theorem comma_notMem_of_mem_places (h : p ∈ places s) : ',' ∉ p.toList := by
  rw [places, pieces_eq_splitOn, List.mem_map] at h
  obtain ⟨piece, hpiece, rfl⟩ := h
  rw [String.toList_ofList]
  exact notMem_of_mem_splitOn hpiece

theorem intercalate_places (s : String) : ",".intercalate (places s) = s := by
  have htexts : (places s).map String.toList = s.toList.splitOn ',' := by
    rw [places, pieces_eq_splitOn, List.map_map]
    exact List.map_id'' (fun piece => String.toList_ofList) _
  rw [← String.toList_inj, String.toList_intercalate, htexts]
  exact List.intercalate_splitOn ','

theorem places_intercalate (hne : ps ≠ []) (h : ∀ p ∈ ps, ',' ∉ p.toList) :
    places (",".intercalate ps) = ps := by
  have hpieces : ∀ piece ∈ ps.map String.toList, ',' ∉ piece := List.forall_mem_map.mpr h
  have hsplit : ([','].intercalate (ps.map String.toList)).splitOn ',' = ps.map String.toList :=
    List.splitOn_intercalate ',' hpieces (by simpa using hne)
  have hcomma : ",".toList = [','] := rfl
  rw [places, pieces_eq_splitOn, String.toList_intercalate, hcomma, hsplit, List.map_map]
  exact List.map_id'' (fun p => String.ofList_toList) _

theorem mem_labels : l ∈ labels s ↔ l ≠ "" ∧ ∃ p ∈ places s, trim p = l := by
  rw [labels, OrderedSet.mem_ofList, places]
  simp only [List.mem_map, List.mem_filter, decide_eq_true_eq, trim]
  constructor
  · intro h
    obtain ⟨_, ⟨⟨piece, hpiece, rfl⟩, hne⟩, rfl⟩ := h
    refine ⟨mt String.ofList_eq_empty_iff.mp hne, String.ofList piece, ⟨piece, hpiece, rfl⟩, ?_⟩
    rw [String.toList_ofList]
  · intro h
    obtain ⟨hne, _, ⟨piece, hpiece, rfl⟩, rfl⟩ := h
    rw [String.toList_ofList] at hne ⊢
    exact ⟨trimList piece, ⟨⟨piece, hpiece, rfl⟩, mt String.ofList_eq_empty_iff.mpr hne⟩, rfl⟩

theorem mem_labels_intercalate (h : ∀ p ∈ ps, ',' ∉ p.toList) :
    l ∈ labels (",".intercalate ps) ↔ l ≠ "" ∧ ∃ p ∈ ps, trim p = l := by
  rw [mem_labels]
  by_cases hne : ps = []
  · -- with nothing to join, one empty text is read
    have hplaces : places (",".intercalate []) = [""] := rfl
    have hempty : trim "" = "" := rfl
    rw [hne, hplaces]
    simp [hempty, eq_comm]
  · rw [places_intercalate hne h]

/-! ## Lists of labels -/

structure IsLabel (l : String) : Prop where
  nonempty : l ≠ ""
  unbroken : ',' ∉ l.toList
  trimmed : IsTrimmed l.toList

/-- Each of the texts is a label of the set with blanks around it, or blank, and there is one for each
label. -/
structure Lists (ps : List String) (ls : OrderedSet String) : Prop where
  each : ∀ p ∈ ps, allBlank p = true ∨ ∃ l ∈ ls, Shows p l
  all : ∀ l ∈ ls, ∃ p ∈ ps, Shows p l

theorem comma_notMem_of_allBlank (h : allBlank p = true) : ',' ∉ p.toList := by
  intro hcomma
  have hblank := List.all_eq_true.mp h ',' hcomma
  exact absurd hblank (by decide)

theorem comma_notMem_of_shows (hl : ',' ∉ l.toList) (h : Shows p l) : ',' ∉ p.toList := by
  obtain ⟨front, back, hfront, hback, rfl⟩ := h
  simp only [String.toList_append, List.mem_append, not_or]
  exact ⟨⟨comma_notMem_of_allBlank hfront, hl⟩, comma_notMem_of_allBlank hback⟩

theorem Lists.comma_notMem (hls : ∀ l ∈ ls, IsLabel l) (h : Lists ps ls) :
    ∀ p ∈ ps, ',' ∉ p.toList := by
  intro p hp
  rcases h.each p hp with hblank | ⟨l, hl, hshows⟩
  · exact comma_notMem_of_allBlank hblank
  · exact comma_notMem_of_shows (hls l hl).unbroken hshows

theorem Lists.labels_eq (hls : ∀ l ∈ ls, IsLabel l) (h : Lists ps ls) :
    labels (",".intercalate ps) = ls := by
  have hread : ∀ l ∈ ls, ∀ p, Shows p l → trim p = l := by
    intro l hl p hshows
    exact trim_eq_iff.mpr ⟨(hls l hl).trimmed, hshows⟩
  apply OrderedSet.ext
  intro l
  rw [mem_labels_intercalate (h.comma_notMem hls)]
  constructor
  · intro hl
    obtain ⟨hne, p, hp, htrim⟩ := hl
    rcases h.each p hp with hblank | ⟨l', hl', hshows⟩
    · exact absurd (htrim.symm.trans (trim_eq_empty_iff.mpr hblank)) hne
    · rwa [← htrim, hread l' hl' p hshows]
  · intro hl
    obtain ⟨p, hp, hshows⟩ := h.all l hl
    exact ⟨(hls l hl).nonempty, p, hp, hread l hl p hshows⟩

/-! ## The labels of any text -/

theorem isLabel_of_mem_labels (h : l ∈ labels s) : IsLabel l := by
  obtain ⟨hne, p, hp, htrim⟩ := mem_labels.mp h
  obtain ⟨htrimmed, front, back, -, -, rfl⟩ := trim_eq_iff.mp htrim
  refine ⟨hne, fun hcomma => comma_notMem_of_mem_places hp ?_, htrimmed⟩
  simp [hcomma]

theorem lists_places (s : String) : Lists (places s) (labels s) := by
  constructor
  · intro p hp
    by_cases hne : trim p = ""
    · exact .inl (trim_eq_empty_iff.mp hne)
    · exact .inr ⟨trim p, mem_labels.mpr ⟨hne, p, hp, rfl⟩, (trim_eq_iff.mp rfl).2⟩
  · intro l hl
    obtain ⟨-, p, hp, htrim⟩ := mem_labels.mp hl
    exact ⟨p, hp, (trim_eq_iff.mp htrim).2⟩

theorem labels_eq_iff : labels s = ls ↔
    (∀ l ∈ ls, IsLabel l) ∧ ∃ ps, s = ",".intercalate ps ∧ Lists ps ls := by
  constructor
  · intro hread
    subst hread
    exact ⟨fun l => isLabel_of_mem_labels, places s, (intercalate_places s).symm, lists_places s⟩
  · intro h
    obtain ⟨hls, ps, rfl, hlists⟩ := h
    exact hlists.labels_eq hls

theorem shows_self (l : String) : Shows l l := ⟨"", "", rfl, rfl, by simp⟩

theorem lists_toList (ls : OrderedSet String) : Lists ls.toList ls :=
  ⟨fun l hl => .inr ⟨l, hl, shows_self l⟩, fun l hl => ⟨l, hl, shows_self l⟩⟩

/-- A text is read as a set exactly if the set has labels only and the text lists them, in any order,
each once or more, with any blanks around them and any blank places in between. Whatever text is read,
the set has labels only, and they are read as the same set when they are listed with commas alone. -/
theorem labels_settled (s : String) (ls : OrderedSet String) :
    (labels s = ls ↔ (∀ l ∈ ls, IsLabel l) ∧ ∃ ps, s = ",".intercalate ps ∧ Lists ps ls) ∧
    (∀ l ∈ labels s, IsLabel l) ∧
    labels (",".intercalate (labels s).toList) = labels s := by
  have hclean : ∀ l ∈ labels s, IsLabel l := fun l => isLabel_of_mem_labels
  exact ⟨labels_eq_iff, hclean, (lists_toList (labels s)).labels_eq hclean⟩

/-- Three labels out of order, one of them twice and one with a blank inside, and two blank places. -/
theorem scattered_labels_read :
    let named := OrderedSet.ofList ["top secret", "TS", "U"]
    (∀ l ∈ named, IsLabel l) ∧ Lists ["\u3000U", "TS ", "", " \t", "top secret", "U\n"] named ∧
      labels "\u3000U,TS ,, \t,top secret,U\n" = named := by
  intro named
  have hnamed : ∀ l, l ∈ named ↔ l ∈ ["top secret", "TS", "U"] := fun l => OrderedSet.mem_ofList
  have hlabel : ∀ l ∈ named, IsLabel l := by
    simp only [hnamed, List.forall_mem_cons]
    exact ⟨⟨by decide, by decide, by decide⟩, ⟨by decide, by decide, by decide⟩,
      ⟨by decide, by decide, by decide⟩, List.forall_mem_nil _⟩
  have hu : Shows "\u3000U" "U" := ⟨"\u3000", "", by decide, by decide, by decide⟩
  have hts : Shows "TS " "TS" := ⟨"", " ", by decide, by decide, by decide⟩
  have hlast : Shows "U\n" "U" := ⟨"", "\n", by decide, by decide, by decide⟩
  have hlists : Lists ["\u3000U", "TS ", "", " \t", "top secret", "U\n"] named := by
    constructor
    · simp only [hnamed, List.forall_mem_cons]
      exact ⟨.inr ⟨"U", by decide, hu⟩, .inr ⟨"TS", by decide, hts⟩, .inl (by decide), .inl (by decide),
        .inr ⟨"top secret", by decide, shows_self _⟩, .inr ⟨"U", by decide, hlast⟩,
        List.forall_mem_nil _⟩
    · simp only [hnamed, List.forall_mem_cons]
      exact ⟨⟨"top secret", by decide, shows_self _⟩, ⟨"TS ", by decide, hts⟩,
        ⟨"\u3000U", by decide, hu⟩, List.forall_mem_nil _⟩
  exact ⟨hlabel, hlists, (labels_settled _ named).1.mpr ⟨hlabel, _, by decide, hlists⟩⟩

end TokenTrust.Text
