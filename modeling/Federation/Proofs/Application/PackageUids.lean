import Federation.Resolver

/-!
# Uids of packages

A package is published under a uid that is made from its name, and a host that depends on the name asks the registry for
a uid that is made from it too. The host leaves a name alone that is a qualified uid already, the package does not: its
name always becomes one segment. So the two agree just when the name is not qualified (`qualifyUid_iff_published`). For
a qualified name the letters and digits are counted: those of the name are in the first segment of the published uid,
and a context adds its own.
-/

namespace Federation

/-! ### Letters and digits of a segment -/

namespace Text

theorem isAlphanum_toLower {c : Char} (h : c.isAlphanum = true) : c.toLower.isAlphanum = true := by
  unfold Char.toLower
  split
  · -- a capital letter becomes a small one
    rename_i hcapital
    refine Bool.or_eq_true_iff.2 (.inl (Bool.or_eq_true_iff.2 (.inr (Bool.and_eq_true_iff.2 ⟨?_, ?_⟩)))) <;>
      refine decide_eq_true ?_ <;> grind
  · exact h

theorem countP_hyphenate (b : Bool) (s : List Char) :
    (hyphenate b s).countP Char.isAlphanum = s.countP Char.isAlphanum := by
  fun_induction hyphenate b s with
  | case1 => rfl
  | case2 b c r hc ih => simp [hc, isAlphanum_toLower hc, ih]
  | case3 c r hc ih => simp [hc, ih]
  | case4 b c r hc hb ih => simp [hc, ih]

theorem mem_hyphenate {b : Bool} {s : List Char} {c : Char} (h : c ∈ hyphenate b s) :
    c.isAlphanum = true ∨ c = '-' := by
  fun_induction hyphenate b s with
  | case1 => cases h
  | case2 b d r hd ih =>
    rcases List.mem_cons.1 h with rfl | h
    · exact .inl (isAlphanum_toLower hd)
    · exact ih h
  | case3 d r hd ih => exact ih h
  | case4 b d r hd hb ih =>
    rcases List.mem_cons.1 h with rfl | h
    · exact .inr rfl
    · exact ih h

theorem countP_dropWhile {p q : Char → Bool} (h : ∀ c, q c = true → p c = false) (s : List Char) :
    (s.dropWhile q).countP p = s.countP p := by
  induction s with
  | nil => rfl
  | cons c r ih =>
    rw [List.dropWhile_cons]
    split
    · rename_i hc
      rw [ih, List.countP_cons_of_neg (by simp [h c hc])]
    · rfl

theorem countP_dropHyphens (s : List Char) : (dropHyphens s).countP Char.isAlphanum = s.countP Char.isAlphanum := by
  have hhyphen : ∀ c, (c == '-') = true → c.isAlphanum = false := by
    intro c hc
    rw [beq_iff_eq.1 hc]
    rfl
  rw [dropHyphens, dropEndWhile, List.countP_reverse, countP_dropWhile hhyphen, List.countP_reverse,
    countP_dropWhile hhyphen]

theorem mem_of_mem_dropHyphens {s : List Char} {c : Char} (h : c ∈ dropHyphens s) : c ∈ s := by
  have hfront : c ∈ (s.dropWhile (· == '-')).reverse := (List.dropWhile_suffix _).mem (List.mem_reverse.1 h)
  exact (List.dropWhile_suffix _).mem (List.mem_reverse.1 hfront)

theorem getLast_dropHyphens {s : List Char} (h : dropHyphens s ≠ []) : (dropHyphens s).getLast h ≠ '-' := by
  have hne : (s.dropWhile (· == '-')).reverse.dropWhile (· == '-') ≠ [] := List.reverse_ne_nil_iff.1 h
  have hhead := List.head_dropWhile_not (· == '-') hne
  have hlast : (dropHyphens s).getLast h = ((s.dropWhile (· == '-')).reverse.dropWhile (· == '-')).head hne :=
    List.getLast_reverse _
  rw [hlast]
  exact beq_eq_false_iff_ne.1 hhead

end Text

theorem countP_uidSegment (s : String) :
    (uidSegment s).toList.countP Char.isAlphanum = s.toList.countP Char.isAlphanum := by
  rw [uidSegment, String.toList_ofList, Text.countP_dropHyphens, Text.countP_hyphenate]

theorem countP_uidSegment_pos {s : String} (h : uidSegment s ≠ "") :
    0 < (uidSegment s).toList.countP Char.isAlphanum := by
  have hne : Text.dropHyphens (Text.hyphenate false s.toList) ≠ [] := fun hnil => h (by rw [uidSegment, hnil])
  rw [uidSegment, String.toList_ofList]
  -- the last character is no hyphen, so it is a letter or a digit
  have hmem := List.getLast_mem hne
  refine List.countP_pos_iff.2 ⟨_, hmem, ?_⟩
  exact (Text.mem_hyphenate (Text.mem_of_mem_dropHyphens hmem)).resolve_right (Text.getLast_dropHyphens hne)

/-! ### The two uids -/

variable {c : AppContext} {name package segment uid : String}

namespace AppContext

theorem toList_uidOf (c : AppContext) (segment : String) :
    (c.uidOf segment).toList = segment.toList ++ '.' :: (c.project.toList ++ '.' :: c.org.toList) := by
  simp [uidOf, toString]

theorem uidForPackage_eq_ok : c.uidForPackage package = .ok uid ↔
    uidSegment package ≠ "" ∧ c.uidOf (uidSegment package) = uid := by
  unfold uidForPackage
  by_cases hempty : uidSegment package = "" <;> simp [hempty]

theorem pieces_uidOf (c : AppContext) (segment : String) :
    Text.pieces (· == '.') (c.uidOf segment).toList = Text.pieces (· == '.') segment.toList ++
      (Text.pieces (· == '.') c.project.toList ++ Text.pieces (· == '.') c.org.toList) := by
  have hcut (s t : List Char) : Text.pieces (· == '.') (s ++ '.' :: t) =
      Text.pieces (· == '.') s ++ Text.pieces (· == '.') t := Text.pieces_append_cons rfl s t
  rw [toList_uidOf, hcut, hcut]

theorem ne_empty_of_isFullyQualified (h : isFullyQualified (c.uidOf segment) = true) :
    c.project ≠ "" ∧ c.org ≠ "" := by
  have hall : ∀ s ∈ Text.pieces (· == '.') (c.uidOf segment).toList, s ≠ [] := by
    simpa [isFullyQualified] using ((Bool.and_eq_true _ _).mp h).2
  rw [pieces_uidOf] at hall
  constructor <;> intro hempty <;> refine hall [] ?_ rfl <;> simp [hempty, Text.pieces]

/-- Only a context without letters and digits makes of a name that name itself. -/
theorem countP_eq_zero_of_uidOf_eq (h : c.uidOf (uidSegment name) = name) :
    c.project.toList.countP Char.isAlphanum = 0 ∧ c.org.toList.countP Char.isAlphanum = 0 := by
  have hcount : (c.uidOf (uidSegment name)).toList.countP Char.isAlphanum = name.toList.countP Char.isAlphanum := by
    rw [h]
  have hpoint : Char.isAlphanum '.' = false := rfl
  simp only [toList_uidOf, List.countP_append, List.countP_cons, hpoint, Bool.false_eq_true, if_false,
    countP_uidSegment] at hcount
  omega

theorem uidOf_ne_of_isFullyQualified {org project : String} (h : isFullyQualified name = true) :
    (ofNames org project).uidOf (uidSegment name) ≠ name := by
  intro heq
  have hcount := (countP_eq_zero_of_uidOf_eq heq).1
  have hproject : uidSegment project ≠ "" := (ne_empty_of_isFullyQualified (heq.symm ▸ h)).1
  exact absurd hcount (Nat.ne_of_gt (countP_uidSegment_pos hproject))

end AppContext

/-- A uid that is qualified is that uid itself, or was made in a context. -/
theorem qualifyUid_eq_ok {context : Option AppContext} : qualifyUid name context = .ok uid ↔
    (isFullyQualified name = true ∧ name = uid) ∨
    (isFullyQualified name = false ∧ ∃ c, context = some c ∧ uidSegment name ≠ "" ∧
      c.uidOf (uidSegment name) = uid) := by
  unfold qualifyUid
  cases isFullyQualified name with
  | true => simp
  | false =>
    cases context with
    | none => simp
    | some c => by_cases hempty : uidSegment name = "" <;> simp [hempty]

theorem qualifyUid_of_isFullyQualified (h : isFullyQualified uid = true) (context : Option AppContext) :
    qualifyUid uid context = .ok uid := by
  unfold qualifyUid
  rw [if_pos h]

theorem qualifyUid_of_short (h : isFullyQualified name = false) (hpublished : c.uidForPackage name = .ok uid) :
    qualifyUid name (some c) = .ok uid := by
  obtain ⟨hsegment, huid⟩ := AppContext.uidForPackage_eq_ok.1 hpublished
  simp [qualifyUid, h, hsegment, huid]

theorem Descriptor.plan_of_needsRegistry {d : Descriptor} {context : Option AppContext} (hneeds : d.needsRegistry = true)
    (huid : qualifyUid d.applicationUid context = .ok uid) (token : AuthToken) :
    d.plan context (.ok token) = .ask uid (requestedVersion d.version) token.value := by
  obtain ⟨hhome, hliteral⟩ := (Bool.and_eq_true _ _).mp hneeds
  rw [plan, hhome, (Bool.not_eq_true' _).mp hliteral, huid]
  rfl

/-- Let a package be published in a context. A host in that context that depends on its name asks the registry for the
published uid if the name is not a qualified uid, and for the name itself if it is; this is never the published uid in
a context that was made from names, nor in any other that has a letter or a digit. -/
theorem qualifyUid_iff_published (c : AppContext) (name uid : String) (h : c.uidForPackage name = .ok uid) :
    (isFullyQualified name = false → qualifyUid name (some c) = .ok uid) ∧
    (isFullyQualified name = true → qualifyUid name (some c) = .ok name ∧
      (name = uid → ∀ x ∈ c.project.toList ++ c.org.toList, x.isAlphanum = false)) ∧
    (∀ org project, c = .ofNames org project →
      (qualifyUid name (some c) = .ok uid ↔ isFullyQualified name = false)) ∧
    ∀ (d : Descriptor) (token : AuthToken), d.needsRegistry = true → d.applicationUid = name →
      d.plan (some c) (.ok token) =
        .ask (if isFullyQualified name then name else uid) (requestedVersion d.version) token.value := by
  have huid := (AppContext.uidForPackage_eq_ok.1 h).2
  refine ⟨fun hshort => qualifyUid_of_short hshort h, fun hfull => ⟨qualifyUid_of_isFullyQualified hfull _, ?_⟩,
    fun org project hc => ⟨fun hagree => ?_, fun hshort => qualifyUid_of_short hshort h⟩, fun d token hneeds hd => ?_⟩
  · rintro rfl
    obtain ⟨hproject, horg⟩ := AppContext.countP_eq_zero_of_uidOf_eq huid
    have hnone : ∀ x ∈ c.project.toList ++ c.org.toList, ¬ x.isAlphanum = true :=
      List.countP_eq_zero.1 (by rw [List.countP_append, hproject, horg])
    exact fun x hx => Bool.not_eq_true _ ▸ hnone x hx
  · refine Bool.eq_false_iff.2 fun hfull => ?_
    rw [qualifyUid_of_isFullyQualified hfull] at hagree
    cases hagree
    subst hc
    exact AppContext.uidOf_ne_of_isFullyQualified hfull huid
  · refine Descriptor.plan_of_needsRegistry hneeds ?_ token
    rw [hd]
    cases hfull : isFullyQualified name with
    | true => exact qualifyUid_of_isFullyQualified hfull _
    | false => exact qualifyUid_of_short hfull h

/-- A scoped name with a point is short, and found as it is published. -/
theorem qualifyUid_iff_published_of_scoped :
    let c := AppContext.ofNames "Acme" "shop"
    c.uidForPackage "@acme/cart.ui" = .ok "acme-cart-ui.shop.acme" ∧
    qualifyUid "@acme/cart.ui" (some c) = .ok "acme-cart-ui.shop.acme" := by
  intro c
  have h : c.uidForPackage "@acme/cart.ui" = .ok "acme-cart-ui.shop.acme" := by rfl
  exact ⟨h, (qualifyUid_iff_published c _ _ h).1 (by decide)⟩

/-- A name with two points is taken for a qualified uid by those who depend on it, and is published under another. -/
theorem dotted_package_not_found :
    let c := AppContext.ofNames "acme" "shop"
    c.uidForPackage "cart.ui.react" = .ok "cart-ui-react.shop.acme" ∧
    qualifyUid "cart.ui.react" (some c) = .ok "cart.ui.react" ∧
    qualifyUid "cart.ui.react" (some c) ≠ c.uidForPackage "cart.ui.react" := by
  intro c
  have hpublished : c.uidForPackage "cart.ui.react" = .ok "cart-ui-react.shop.acme" := by rfl
  have hasked : qualifyUid "cart.ui.react" (some c) = .ok "cart.ui.react" := by rfl
  refine ⟨hpublished, hasked, fun hsame => ?_⟩
  rw [hpublished, hasked] at hsame
  exact absurd (Except.ok.inj hsame) (by decide)

end Federation
