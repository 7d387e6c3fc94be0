/-
  TokenTrust.Proofs.Signing.Regrouping — whether the holder of a token is an administrator, as far as
  its signature tells.

  Projects and groups are signed as one text, without a mark between them, so that a token may be given
  other projects and groups of the same text under the signature that it has.
  - `signedBytes_withGroups`: that is all that the signature asks of them.
  - `namesAdmins_of_holdsAdmins`, `exists_holdsAdmins`: some map of a text makes an administrator exactly
    if the text names the internal project and, behind it, its group of administrators, with nothing
    around them that the order of groups and of projects forbids (`NamesAdmins`).
  - `Token.admin_settled`: a token stays what it is if its text names none, or if the other map cuts the
    text where its own does. If the text names some, another map makes it what it is not.
-/

import TokenTrust.Proofs.Acceptance.Vouched
import TokenTrust.Proofs.Client.Built
import TokenTrust.Proofs.Signing.Coverage

namespace TokenTrust

open Token (internalProject adminGroup)

/-! ## The order of texts -/

namespace Text

theorem chars_lt_append_of_lt : ∀ {u v : List Char}, u < v → ∀ w, u < v ++ w := by
  intro u
  induction u with
  | nil =>
    intro v h w
    cases v with
    | nil => exact absurd h (List.not_lt_nil _)
    | cons y v => exact List.nil_lt_cons _ _
  | cons x u ih =>
    intro v h w
    cases v with
    | nil => exact absurd h (List.not_lt_nil _)
    | cons y v =>
      rcases List.cons_lt_cons_iff.mp h with hxy | ⟨rfl, huv⟩
      · exact List.cons_lt_cons_iff.mpr (.inl hxy)
      · exact List.cons_lt_cons_iff.mpr (.inr ⟨rfl, ih huv w⟩)

theorem lt_append_of_lt {s t : String} (h : s < t) (u : String) : s < t ++ u := by
  show s.toList < (t ++ u).toList
  rw [String.toList_append]
  exact chars_lt_append_of_lt h _

/-- What is added starts with no greater character than `c`, and so falls behind all of `w`. -/
theorem append_lt_of_small {c : Char} {v : List Char} (hv : ∀ e ∈ v.head?, ¬c < e) :
    ∀ (u w : List Char), (∀ d ∈ w, c < d) → u < w → u ++ v < w := by
  intro u
  induction u with
  | nil =>
    intro w hw h
    cases w with
    | nil => exact absurd h (List.not_lt_nil _)
    | cons d w =>
      cases v with
      | nil => exact h
      | cons e v =>
        have hed : e < d :=
          Std.lt_of_le_of_lt (Std.not_lt.mp (hv e rfl)) (hw d List.mem_cons_self)
        exact List.cons_lt_cons_iff.mpr (.inl hed)
  | cons x u ih =>
    intro w hw h
    cases w with
    | nil => exact absurd h (List.not_lt_nil _)
    | cons d w =>
      rcases List.cons_lt_cons_iff.mp h with hxd | ⟨rfl, huw⟩
      · exact List.cons_lt_cons_iff.mpr (.inl hxd)
      · exact List.cons_lt_cons_iff.mpr
          (.inr ⟨rfl, ih w (fun e he => hw e (List.mem_cons_of_mem _ he)) huw⟩)

/-- Below a word whose first character is its least, texts stay when they are joined. -/
theorem append_lt_word {c : Char} {w u v : List Char} (hw : ∀ d ∈ w, c < d) (hu : u < c :: w)
    (hv : v < c :: w) : u ++ v < c :: w := by
  cases u with
  | nil => exact hv
  | cons x u =>
    rcases List.cons_lt_cons_iff.mp hu with hxc | ⟨rfl, huw⟩
    · exact List.cons_lt_cons_iff.mpr (.inl hxc)
    · refine List.cons_lt_cons_iff.mpr (.inr ⟨rfl, append_lt_of_small (fun e he hlt => ?_) u w hw huw⟩)
      cases v with
      | nil => cases he
      | cons y v =>
        cases he
        rcases List.cons_lt_cons_iff.mp hv with hlt' | ⟨rfl, -⟩
        · exact Std.lt_irrefl (Std.lt_trans hlt hlt')
        · exact Std.lt_irrefl hlt

end Text

theorem join_lt_adminGroup {groups : List String} (h : ∀ g ∈ groups, g < adminGroup) :
    String.join groups < adminGroup := by
  induction groups with
  | nil => decide
  | cons g groups ih =>
    have hrest := ih fun g' hg' => h g' (List.mem_cons_of_mem _ hg')
    have hword : (['d', 'm', 'i', 'n', 's'].all fun d => decide ('a' < d)) = true := by decide
    show (String.join (g :: groups)).toList < _
    rw [String.join_cons, String.toList_append]
    exact Text.append_lt_word (c := 'a') (fun d hd => of_decide_eq_true (List.all_eq_true.mp hword d hd))
      (h g List.mem_cons_self) hrest

/-! ## Texts of projects and groups -/

theorem groupText_eq (m : OrderedMap (List String)) {before after : List (String × List String)}
    {project : String} {groups : List String} (h : m.toList = before ++ (project, groups) :: after) :
    groupText m = String.join (before.map projectText) ++ project ++ String.join (sortTexts groups) ++
      String.join (after.map projectText) := by
  simp only [groupText, projectText, h, List.map_append, List.map_cons, String.join_append,
    String.join_cons, String.append_assoc]

/-- The internal project's administrators are a group of the map. -/
def HoldsAdmins (m : OrderedMap (List String)) : Prop :=
  ∃ groups, m.get? internalProject = some groups ∧ adminGroup ∈ groups

theorem Token.isAdmin_iff {t : Token} : t.isAdmin = true ↔ HoldsAdmins t.projectGroups := by
  unfold isAdmin HoldsAdmins
  cases t.projectGroups.get? internalProject with
  | none => simp
  | some groups => simp

/-- The text can be cut into the internal project and its administrators, with groups before these
that are not greater, and behind them either nothing or what may follow the project. -/
def NamesAdmins (text : String) : Prop :=
  ∃ before between after : String,
    text = before ++ internalProject ++ between ++ adminGroup ++ after ∧
      between ≤ adminGroup ∧ (after = "" ∨ internalProject < after)

/-- What stands behind the administrators: their project's greater groups, or greater projects. -/
theorem empty_or_lt_after {groups : List String} {projects : List (String × List String)}
    (hgroups : ∀ g ∈ groups, adminGroup ≤ g) (hprojects : ∀ e ∈ projects, internalProject < e.1) :
    let after := String.join groups ++ String.join (projects.map projectText)
    after = "" ∨ internalProject < after := by
  have hlt : internalProject < adminGroup := by decide
  cases groups with
  | cons g groups =>
    right
    rw [String.join_cons, String.append_assoc]
    exact Text.lt_append_of_lt (Std.lt_of_lt_of_le hlt (hgroups g List.mem_cons_self)) _
  | nil =>
    cases projects with
    | nil => exact .inl rfl
    | cons e projects =>
      right
      rw [String.join_nil, String.empty_append, List.map_cons, String.join_cons, projectText,
        String.append_assoc]
      exact Text.lt_append_of_lt (hprojects e List.mem_cons_self) _

theorem namesAdmins_of_holdsAdmins {m : OrderedMap (List String)} (h : HoldsAdmins m) :
    NamesAdmins (groupText m) := by
  obtain ⟨groups, hget, hmem⟩ := h
  obtain ⟨before, after, hm, -⟩ := List.lookup_eq_some_iff.mp hget
  -- the first of the administrators among the sorted groups: those before it are smaller
  obtain ⟨smaller, greater, hsorted, hfirst⟩ :=
    List.eq_append_cons_of_mem ((sortTexts_perm groups).mem_iff.mpr hmem)
  obtain ⟨-, hgreater, hsmaller⟩ := List.pairwise_append.mp (hsorted ▸ sortTexts_sorted groups)
  obtain ⟨-, hafter, -⟩ := List.pairwise_append.mp (hm ▸ m.sorted)
  refine ⟨String.join (before.map projectText), String.join smaller,
    String.join greater ++ String.join (after.map projectText), ?_, ?_, ?_⟩
  · rw [groupText_eq m hm, hsorted, String.join_append, String.join_cons]
    simp only [String.append_assoc]
  · refine Std.le_of_lt (join_lt_adminGroup fun g hg => ?_)
    have hle := hsmaller g hg adminGroup List.mem_cons_self
    exact Std.lt_of_le_of_ne hle fun heq => hfirst (heq ▸ hg)
  · exact empty_or_lt_after (List.pairwise_cons.mp hgreater).1 (List.pairwise_cons.mp hafter).1

/-- Each text is that of a map without administrators: all of it is a group of the project with the
empty name. -/
theorem exists_not_holdsAdmins (text : String) : ∃ m, groupText m = text ∧ ¬HoldsAdmins m := by
  refine ⟨⟨[("", [text])], List.pairwise_singleton _ _⟩, ?_, ?_⟩
  · simp [groupText, projectText, sortTexts_of_sorted (List.pairwise_singleton _ text)]
  · rintro ⟨groups, hget, -⟩
    cases hget

theorem exists_holdsAdmins {text : String} (h : NamesAdmins text) :
    ∃ m, groupText m = text ∧ HoldsAdmins m := by
  obtain ⟨before, between, after, rfl, hbetween, hafter⟩ := h
  have hgroups : sortTexts [between, adminGroup] = [between, adminGroup] :=
    sortTexts_of_sorted (List.pairwise_pair.mpr hbetween)
  have hbefore : sortTexts [before] = [before] := sortTexts_of_sorted (List.pairwise_singleton _ _)
  have hempty : "" < internalProject := by decide
  rcases hafter with rfl | hafter
  · refine ⟨⟨[("", [before]), (internalProject, [between, adminGroup])],
      List.pairwise_pair.mpr hempty⟩, ?_, ?_⟩
    · simp [groupText, projectText, hgroups, hbefore, String.append_assoc]
    · exact ⟨_, rfl, by simp⟩
  · refine ⟨⟨[("", [before]), (internalProject, [between, adminGroup]), (after, [])], ?_⟩, ?_, ?_⟩
    · refine .cons ?_ (List.pairwise_pair.mpr hafter)
      exact List.forall_mem_cons.mpr
        ⟨hempty, List.forall_mem_singleton.mpr (Std.lt_trans hempty hafter)⟩
    · have hnone : sortTexts [] = [] := sortTexts_of_sorted .nil
      simp [groupText, projectText, hgroups, hbefore, hnone, String.append_assoc]
    · exact ⟨_, rfl, by simp⟩

/-! ## Where a text is cut -/

def projectCuts (e : String × List String) : Nat × List Nat :=
  (e.1.length, (sortTexts e.2).map String.length)

def cuts (m : OrderedMap (List String)) : List (Nat × List Nat) := m.toList.map projectCuts

theorem append_inj_of_length {s t u v : String} (hlength : s.length = t.length)
    (h : s ++ u = t ++ v) : s = t ∧ u = v := by
  have hlists := congrArg String.toList h
  rw [String.toList_append, String.toList_append] at hlists
  have hcut := List.append_inj hlists (by rwa [String.length_toList, String.length_toList])
  exact ⟨String.toList_inj.mp hcut.1, String.toList_inj.mp hcut.2⟩

theorem join_append_inj {ss ts : List String} {u v : String}
    (hlengths : ss.map String.length = ts.map String.length)
    (h : String.join ss ++ u = String.join ts ++ v) : ss = ts ∧ u = v := by
  induction ss generalizing ts with
  | nil =>
    cases ts with
    | nil => exact ⟨rfl, (String.append_right_inj _).mp h⟩
    | cons t ts => cases hlengths
  | cons s ss ih =>
    cases ts with
    | nil => cases hlengths
    | cons t ts =>
      obtain ⟨hfirst, hothers⟩ := List.cons.inj hlengths
      rw [String.join_cons, String.join_cons, String.append_assoc, String.append_assoc] at h
      obtain ⟨rfl, hrest⟩ := append_inj_of_length hfirst h
      obtain ⟨rfl, hend⟩ := ih hothers hrest
      exact ⟨rfl, hend⟩

theorem project_of_cuts {e f : String × List String} {u v : String} (hcuts : projectCuts e = projectCuts f)
    (h : projectText e ++ u = projectText f ++ v) : (e.1 = f.1 ∧ e.2.Perm f.2) ∧ u = v := by
  obtain ⟨hproject, hgroups⟩ := Prod.mk.inj hcuts
  rw [projectText, projectText, String.append_assoc, String.append_assoc] at h
  obtain ⟨hsame, hrest⟩ := append_inj_of_length hproject h
  obtain ⟨hsorted, hend⟩ := join_append_inj hgroups hrest
  exact ⟨⟨hsame, (sortTexts_perm e.2).symm.trans (hsorted ▸ sortTexts_perm f.2)⟩, hend⟩

theorem projects_of_cuts {l l' : List (String × List String)}
    (hcuts : l.map projectCuts = l'.map projectCuts)
    (htext : String.join (l.map projectText) = String.join (l'.map projectText)) :
    List.Forall₂ (fun e f => e.1 = f.1 ∧ e.2.Perm f.2) l l' := by
  induction l generalizing l' with
  | nil =>
    cases l' with
    | nil => exact .nil
    | cons f l' => cases hcuts
  | cons e l ih =>
    cases l' with
    | nil => cases hcuts
    | cons f l' =>
      obtain ⟨hfirst, hothers⟩ := List.cons.inj hcuts
      rw [List.map_cons, List.map_cons, String.join_cons, String.join_cons] at htext
      obtain ⟨hproject, hrest⟩ := project_of_cuts hfirst htext
      exact .cons hproject (ih hothers hrest)

/-- Maps of one text that cut it in the same places are the same. -/
theorem sameGroups_of_cuts {m n : OrderedMap (List String)} (htext : groupText m = groupText n)
    (hcuts : cuts m = cuts n) : SameGroups m n := projects_of_cuts hcuts htext

theorem SameGroups.holdsAdmins_iff {m n : OrderedMap (List String)} (h : SameGroups m n) :
    HoldsAdmins m ↔ HoldsAdmins n := by
  unfold HoldsAdmins OrderedMap.get?
  unfold SameGroups at h
  generalize m.toList = l, n.toList = l' at h ⊢
  induction h with
  | nil => exact Iff.rfl
  | @cons e f l l' hef _ ih =>
    obtain ⟨project, groups⟩ := e
    obtain ⟨_, groups'⟩ := f
    obtain ⟨rfl, hperm⟩ := hef
    rw [List.lookup_cons, List.lookup_cons]
    cases internalProject == project with
    | true => simp [hperm.mem_iff]
    | false => exact ih

/-! ## Tokens -/

namespace Token

def withGroups (t : Token) (m : OrderedMap (List String)) : Token := { t with projectGroups := m }

theorem agree_withGroups (t : Token) (m : OrderedMap (List String)) (i : Item) (hi : i ≠ .projectGroups) :
    i.Agree (t.withGroups m) t := by
  cases i with
  | projectGroups => exact absurd rfl hi
  | communities => exact Item.agree_refl t .communities
  | _ => rfl

theorem signedBytes_withGroups {t : Token} {m : OrderedMap (List String)} :
    (t.withGroups m).signedBytes = t.signedBytes ↔ groupText m = groupText t.projectGroups := by
  have others : ∀ j : Item, j ≠ .projectGroups → j.text (t.withGroups m) = j.text t :=
    fun j hj => Item.text_eq_of_agree (agree_withGroups t m j hj)
  unfold signedBytes
  rw [Text.bytes_inj, canonical_eq, canonical_eq]
  constructor
  · intro h
    by_contra hne
    exact Text.join_ne_of_differ Item.nodup_order (Item.mem_order .projectGroups) others hne h
  · intro h
    refine congrArg String.join (List.map_congr_left fun j _ => ?_)
    by_cases hj : j = .projectGroups
    · subst hj
      exact h
    · exact others j hj

/-- Other projects and groups that leave the signed bytes as they are leave an administrator one, and
nobody else, if the text of the token's own names none, or if they cut it in the same places. A text
that names some has a map that makes the token what it is not. -/
theorem admin_settled (t : Token) :
    (∀ m, (t.withGroups m).signedBytes = t.signedBytes →
      ¬NamesAdmins (groupText t.projectGroups) ∨ cuts m = cuts t.projectGroups →
      (t.withGroups m).isAdmin = t.isAdmin) ∧
    (NamesAdmins (groupText t.projectGroups) →
      ∃ m, (t.withGroups m).signedBytes = t.signedBytes ∧ (t.withGroups m).isAdmin ≠ t.isAdmin) := by
  constructor
  · intro m hbytes hsafe
    have htext := signedBytes_withGroups.mp hbytes
    rw [Bool.eq_iff_iff, isAdmin_iff, isAdmin_iff]
    rcases hsafe with hnone | hcuts
    · have hnone' : ¬NamesAdmins (groupText m) := htext ▸ hnone
      exact iff_of_false (mt namesAdmins_of_holdsAdmins hnone') (mt namesAdmins_of_holdsAdmins hnone)
    · exact (sameGroups_of_cuts htext hcuts).holdsAdmins_iff
  · intro hnames
    -- the text is that of a map with administrators, and of one without
    by_cases hadmin : HoldsAdmins t.projectGroups
    · obtain ⟨m, htext, hm⟩ := exists_not_holdsAdmins (groupText t.projectGroups)
      refine ⟨m, signedBytes_withGroups.mpr htext, fun h => hm ?_⟩
      exact isAdmin_iff.mp (h.trans (isAdmin_iff.mpr hadmin))
    · obtain ⟨m, htext, hm⟩ := exists_holdsAdmins hnames
      refine ⟨m, signedBytes_withGroups.mpr htext, fun h => hadmin ?_⟩
      exact isAdmin_iff.mp (h.symm.trans (isAdmin_iff.mpr hm))

end Token

namespace Gateway

def clerk (project : String) (groups : List String) (signature : Option String) : Token :=
  { pass .user "alice" "456" 9000 signature with
    projectGroups := ⟨[(project, groups)], List.pairwise_singleton _ _⟩ }

/-- A group's first letter goes to the project, and nobody becomes an administrator. -/
theorem clerk_settled :
    ((clerk "north" ["ab"] none).withGroups (clerk "northa" ["b"] none).projectGroups).signedBytes =
      (clerk "north" ["ab"] none).signedBytes ∧
    ((clerk "north" ["ab"] none).withGroups (clerk "northa" ["b"] none).projectGroups).isAdmin =
      (clerk "north" ["ab"] none).isAdmin := by
  have hbytes : ((clerk "north" ["ab"] none).withGroups
      (clerk "northa" ["b"] none).projectGroups).signedBytes = (clerk "north" ["ab"] none).signedBytes :=
    Token.signedBytes_withGroups.mpr (by decide +kernel)
  have hnone : ¬NamesAdmins (groupText (clerk "north" ["ab"] none).projectGroups) := by
    rintro ⟨before, between, after, htext, -⟩
    have hlength := congrArg String.length htext
    have hshort : (groupText (clerk "north" ["ab"] none).projectGroups).length = 7 := by decide +kernel
    have hproject : internalProject.length = 12 := by decide
    simp only [String.length_append, hshort, hproject] at hlength
    omega
  exact ⟨hbytes, (Token.admin_settled _).1 _ hbytes (.inl hnone)⟩

def signedClerk : Token := clerk internalProject ["adm", "ins"]
  "WS717tiFFvAbkt8c6uuxXJQxLDw3M+37aCw/zB9OjslVyaFy4EcmliwA/+DiDy0NRbu/8cUjlm/M96ZaW4PlAw=="

/-- The names of the two groups together are that of the administrators, and the issuer's signature
is as good for one as for the other. -/
theorem clerk_made_admin :
    let promoted := signedClerk.withGroups (clerk internalProject ["admins"] none).projectGroups
    promoted.signedBytes = signedClerk.signedBytes ∧
      signedClerk.isSignedBy issuerKey = true ∧ promoted.isSignedBy issuerKey = true ∧
      signedClerk.isAdmin = false ∧ promoted.isAdmin = true := by
  have hsorted : sortTexts ["adm", "ins"] = ["adm", "ins"] := sortTexts_of_sorted (by decide)
  have hbytes : (signedClerk.withGroups
      (clerk internalProject ["admins"] none).projectGroups).signedBytes = signedClerk.signedBytes := by
    refine Token.signedBytes_withGroups.mpr ?_
    show String.join [internalProject ++ String.join (sortTexts ["admins"])] =
      String.join [internalProject ++ String.join (sortTexts ["adm", "ins"])]
    rw [hsorted]
    decide +kernel
  have hpromoted : (signedClerk.withGroups
      (clerk internalProject ["admins"] none).projectGroups).isSignedBy issuerKey = true := by
    decide +kernel
  refine ⟨hbytes, ?_, hpromoted, by decide +kernel, by decide +kernel⟩
  show issuerKey.accepts signedClerk.signedBytes _ = true
  rw [← hbytes]
  exact hpromoted

end Gateway

end TokenTrust
