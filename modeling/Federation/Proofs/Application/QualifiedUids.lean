import Federation.Proofs.Application.PackageUids

/-!
# Uids made in a context

A uid that is made from a name has three parts: what is left of the name, of the project and of the organization when
each was brought into the form of a segment. No part has a point in it, so the uid is qualified unless one of them is
empty. Only the name is looked at when the uid is made; the context may have been made from texts of which nothing is
left, and then what is called the qualified uid is none (`isFullyQualified_made_iff`).
-/

namespace Federation

/-- Whether a text has a letter or a digit, so that it leaves something for a uid. -/
def IsUsable (s : String) : Prop := ∃ c ∈ s.toList, c.isAlphanum = true

variable {c : AppContext} {name org project s uid : String}

/-! ### Segments -/

theorem uidSegment_ne_empty_iff : uidSegment s ≠ "" ↔ IsUsable s := by
  rw [IsUsable, ← List.countP_pos_iff, ← countP_uidSegment]
  refine ⟨countP_uidSegment_pos, fun hpos hempty => ?_⟩
  rw [hempty] at hpos
  exact absurd hpos (by decide)

theorem point_not_mem_uidSegment (s : String) : ∀ x ∈ (uidSegment s).toList, (x == '.') = false := by
  intro x hx
  rw [uidSegment, String.toList_ofList] at hx
  rcases Text.mem_hyphenate (Text.mem_of_mem_dropHyphens hx) with halnum | rfl
  · refine beq_eq_false_iff_ne.2 ?_
    rintro rfl
    exact absurd halnum (by decide)
  · rfl

theorem pieces_uidSegment (s : String) : Text.pieces (· == '.') (uidSegment s).toList = [(uidSegment s).toList] :=
  Text.pieces_of_free (point_not_mem_uidSegment s)

namespace AppContext

theorem isFullyQualified_uidOf_iff (name org project : String) :
    isFullyQualified ((ofNames org project).uidOf (uidSegment name)) = true ↔
      IsUsable name ∧ IsUsable project ∧ IsUsable org := by
  have hpieces : Text.pieces (· == '.') ((ofNames org project).uidOf (uidSegment name)).toList =
      [(uidSegment name).toList, (uidSegment project).toList, (uidSegment org).toList] := by
    rw [pieces_uidOf, ofNames, pieces_uidSegment, pieces_uidSegment, pieces_uidSegment]
    rfl
  rw [isFullyQualified, hpieces, ← uidSegment_ne_empty_iff, ← uidSegment_ne_empty_iff, ← uidSegment_ne_empty_iff]
  simp

theorem exists_uidForPackage_iff : (∃ uid, c.uidForPackage name = .ok uid) ↔ IsUsable name := by
  simp [uidForPackage_eq_ok, uidSegment_ne_empty_iff]

end AppContext

/-! ### Qualified uids -/

theorem qualifyUid_none_of_short (h : isFullyQualified uid = false) :
    qualifyUid uid none = .error (.missingOrgProject uid) := by
  unfold qualifyUid
  rw [h]
  rfl

/-- A uid is qualified just when qualifying it, in any context or in none, leaves it as it is. -/
theorem isFullyQualified_iff_fixed : isFullyQualified uid = true ↔ ∀ context, qualifyUid uid context = .ok uid := by
  refine ⟨qualifyUid_of_isFullyQualified, fun hfixed => ?_⟩
  cases hfull : isFullyQualified uid with
  | true => rfl
  | false => cases (qualifyUid_none_of_short hfull).symm.trans (hfixed none)

/-- Let a context be made from an organization and a project. A uid is made in it of every name that is qualified or has
a letter or a digit, and of every package with a letter or a digit. The uid is a qualified one if the name was, or if
project and organization have a letter or a digit each, and in no other case; and the qualified uids are those that stay
the same when they are qualified again. -/
theorem isFullyQualified_made_iff (name org project : String) :
    let c := AppContext.ofNames org project
    ((∃ uid, qualifyUid name (some c) = .ok uid) ↔ isFullyQualified name = true ∨ IsUsable name) ∧
    ((∃ uid, c.uidForPackage name = .ok uid) ↔ IsUsable name) ∧
    (∀ uid, qualifyUid name (some c) = .ok uid →
      (isFullyQualified uid = true ↔ isFullyQualified name = true ∨ IsUsable project ∧ IsUsable org)) ∧
    (∀ uid, c.uidForPackage name = .ok uid → (isFullyQualified uid = true ↔ IsUsable project ∧ IsUsable org)) ∧
    ∀ uid, isFullyQualified uid = true ↔ ∀ context, qualifyUid uid context = .ok uid := by
  intro c
  refine ⟨?_, AppContext.exists_uidForPackage_iff, fun uid huid => ?_, fun uid huid => ?_,
    fun _ => isFullyQualified_iff_fixed⟩
  · simp only [qualifyUid_eq_ok, uidSegment_ne_empty_iff]
    cases isFullyQualified name <;> simp
  · rcases qualifyUid_eq_ok.1 huid with ⟨hfull, rfl⟩ | ⟨hshort, -, ⟨⟩, hsegment, rfl⟩
    · exact iff_of_true hfull (.inl hfull)
    · rw [AppContext.isFullyQualified_uidOf_iff, hshort]
      simp [uidSegment_ne_empty_iff.1 hsegment]
  · obtain ⟨hsegment, rfl⟩ := AppContext.uidForPackage_eq_ok.1 huid
    rw [AppContext.isFullyQualified_uidOf_iff]
    exact and_iff_right (uidSegment_ne_empty_iff.1 hsegment)

/-- A scoped name is qualified in a context whose parts were written with capitals and a blank. -/
theorem isFullyQualified_made_of_scoped :
    let c := AppContext.ofNames "Acme" "Web Shop"
    let uid := "acme-cart.web-shop.acme"
    qualifyUid "@acme/Cart" (some c) = .ok uid ∧ c.uidForPackage "@acme/Cart" = .ok uid ∧
    isFullyQualified uid = true ∧ ∀ context, qualifyUid uid context = .ok uid := by
  intro c uid
  have hasked : qualifyUid "@acme/Cart" (some c) = .ok uid := by rfl
  have hpublished : c.uidForPackage "@acme/Cart" = .ok uid := by rfl
  obtain ⟨-, -, hqualified, -, hfixed⟩ := isFullyQualified_made_iff "@acme/Cart" "Acme" "Web Shop"
  have hproject : IsUsable "Web Shop" := ⟨'W', by decide, by decide⟩
  have horg : IsUsable "Acme" := ⟨'A', by decide, by decide⟩
  have hfull := (hqualified uid hasked).2 (.inr ⟨hproject, horg⟩)
  exact ⟨hasked, hpublished, hfull, (hfixed uid).1 hfull⟩

/-- Nothing is left of an organization that is written in other letters, and the uid that is made with it is none. -/
theorem unqualified_uid_made :
    let c := AppContext.ofNames "日本" "shop"
    qualifyUid "cart" (some c) = .ok "cart.shop." ∧ c.uidForPackage "cart" = .ok "cart.shop." ∧
    isFullyQualified "cart.shop." = false ∧ qualifyUid "cart.shop." (some c) = .ok "cart-shop.shop." ∧
    (qualifyUid "cart.shop." none).toOption = none :=
  ⟨rfl, rfl, rfl, rfl, rfl⟩

end Federation
