import Federation.Proofs.Dependency.Collection
import Federation.Resolver

/-!
# Placeholders that the workspace does not know

A resolver gives back what it does not know, so that the registry has the last word. That comes true for
`workspace:*`, which is never cut apart (`describe_workspaceAny`). A catalog reference that comes back is cut at its
first colon like any other specifier, and then `catalog` is taken for a registry of that name
(`registry_parse_of_catalog`): nobody is asked for such a dependency.
-/

namespace Federation

variable {σ : Type} {platform : Option String} {versions : VersionResolver σ} {key name placeholder : String} {s : σ}

/-! ### The two kinds -/

theorem catalogName?_eq_some : catalogName? placeholder = some name ↔
    placeholder.toList = catalogPrefix.toList ++ name.toList := by
  rw [catalogName?, Option.map_eq_some_iff]
  constructor
  · rintro ⟨r, hr, rfl⟩
    rw [Text.dropPrefix?_eq_some.1 hr, String.toList_ofList]
  · intro h
    exact ⟨name.toList, Text.dropPrefix?_eq_some.2 h, String.ofList_toList⟩

theorem isPlaceholder_iff : isPlaceholder placeholder = true ↔
    placeholder = workspaceAny ∨ ∃ name, catalogName? placeholder = some name := by
  rw [isPlaceholder, Bool.or_eq_true, beq_iff_eq, Option.isSome_iff_exists]

theorem catalogName?_workspaceAny : catalogName? workspaceAny = none := by decide

theorem not_isLiteralUrl_of_catalog (h : catalogName? placeholder = some name) : isLiteralUrl placeholder = false := by
  rw [isLiteralUrl, catalogName?_eq_some.1 h]
  rfl

/-! ### What they are described as -/

namespace Descriptor

/-- A specifier that means the workspace stays whole. -/
theorem parse_workspaceAny (key : String) : parse key workspaceAny = ⟨key, homeRegistry, key, workspaceAny⟩ := rfl

/-- The registry is asked for a package of the workspace. -/
theorem needsRegistry_workspaceAny (key : String) :
    (⟨key, homeRegistry, key, workspaceAny⟩ : Descriptor).needsRegistry = true := by
  show (homeRegistry == homeRegistry && !isLiteralUrl workspaceAny) = true
  decide

/-- A catalog reference is cut like any specifier, behind the name of its kind. -/
theorem registry_parse_of_catalog (key : String) (h : catalogName? placeholder = some name) :
    (parse key placeholder).registry = "catalog" := by
  have hany : (placeholder == workspaceAny) = false := by
    refine beq_eq_false_iff_ne.2 fun he => ?_
    rw [he, catalogName?_workspaceAny] at h
    cases h
  have hcut : Text.splitFirst ':' placeholder.toList = some ("catalog".toList, name.toList) := by
    have hcolon : ':' ∉ "catalog".toList := by decide
    rw [catalogName?_eq_some.1 h]
    exact Text.splitFirst_append hcolon name.toList
  have hsplit : splitRegistry placeholder = ("catalog", name) := by
    rw [splitRegistry, hany, not_isLiteralUrl_of_catalog h, Bool.or_false, if_neg Bool.false_ne_true, hcut]
    exact congrArg (Prod.mk _) String.ofList_toList
  rw [parse, hsplit]

/-- Nobody is asked for a dependency of a registry called `catalog`. -/
theorem plan_of_catalog {d : Descriptor} (h : d.registry = "catalog") (context : Option AppContext)
    (token : Except Error AuthToken) : d.plan context token = .skip := by
  have hhome : d.isHome = false := by rw [isHome, h]; rfl
  rw [plan, hhome]
  rfl

end Descriptor

theorem describe_workspaceAny (hkept : ((versions key workspaceAny).run s).1 = workspaceAny) :
    ((describe versions key workspaceAny).run s).1 = ⟨key, homeRegistry, key, workspaceAny⟩ := by
  rw [describe_of_no_catalog catalogName?_workspaceAny, Descriptor.parse_workspaceAny]
  show (⟨key, homeRegistry, key, ((versions key workspaceAny).run s).1⟩ : Descriptor) = _
  rw [hkept]

theorem registry_describe_of_catalog (hcatalog : catalogName? placeholder = some name)
    (hkept : ((versions key placeholder).run s).1 = placeholder) :
    ((describe versions key placeholder).run s).1.registry = "catalog" := by
  obtain ⟨version, hd⟩ := describeParsed_run versions (.parse key ((versions key placeholder).run s).1)
    ((versions key placeholder).run s).2
  rw [describe_of_catalog hcatalog]
  refine (congrArg Descriptor.registry hd).trans ?_
  rw [hkept]
  exact Descriptor.registry_parse_of_catalog key hcatalog

/-- Let no other entry of a table be faulty, let a placeholder be selected for a key, and let the resolver give it back
when it is asked for it. Then the table is collected, with one descriptor at the place of the entry. It is one of the
home registry, with the key for uid and the placeholder for version, just when the placeholder means the workspace, and
just then the registry has to be asked for it. In the other case it is skipped, whatever the context and the token. -/
theorem unresolved_placeholder_kept_iff (versions : VersionResolver σ) (platform : Option String)
    (before after : List (String × Json)) (key : String) (v : Json) (placeholder : String) (s : σ)
    (hrest : ∀ e ∈ before ++ after, ∃ o, selectEntry platform e.1 e.2 = .ok o)
    (hselected : selectEntry platform key v = .ok (some placeholder)) (hplaceholder : isPlaceholder placeholder = true)
    (hkept : ((versions key placeholder).run ((collectEntries platform versions before).run s).2).1 = placeholder) :
    ∃ ds d ds', ((collectDescriptors (.object (before ++ (key, v) :: after)) platform versions).run s).1 =
        .ok (ds ++ d :: ds') ∧
      ((collectEntries platform versions before).run s).1 = .ok ds ∧ d.key = key ∧
      (d = ⟨key, homeRegistry, key, placeholder⟩ ↔ placeholder = workspaceAny) ∧
      (d.needsRegistry = true ↔ placeholder = workspaceAny) ∧
      (placeholder ≠ workspaceAny → ∀ context token, d.plan context token = .skip) := by
  obtain ⟨ss, hss⟩ := exists_selections fun e he => hrest e (List.mem_append_left _ he)
  obtain ⟨ss', hss'⟩ := exists_selections fun e he => hrest e (List.mem_append_right _ he)
  have hall : selections platform (before ++ (key, v) :: after) = .ok (ss ++ (key, placeholder) :: ss') :=
    selections_append hss (selections_cons_eq_ok.2 ⟨some placeholder, ss', hselected, hss', rfl⟩)
  rw [collectEntries_of_selections hss] at hkept ⊢
  obtain ⟨s₁, hs₁⟩ : ∃ s₁, ((describeAll versions ss).run s).2 = s₁ := ⟨_, rfl⟩
  replace hkept : ((versions key placeholder).run s₁).1 = placeholder := hs₁ ▸ hkept
  have hcollected : ((collectDescriptors (.object (before ++ (key, v) :: after)) platform versions).run s).1 =
      .ok (((describeAll versions ss).run s).1 ++ ((describe versions key placeholder).run s₁).1 ::
        ((describeAll versions ss').run ((describe versions key placeholder).run s₁).2).1) := by
    rw [collectDescriptors, collectEntries_of_selections hall]
    refine congrArg Except.ok ((describeAll_append_run ..).trans ?_)
    rw [describeAll_cons, hs₁]
    rfl
  refine ⟨_, _, _, hcollected, rfl, key_describe .., ?_⟩
  rcases isPlaceholder_iff.1 hplaceholder with rfl | ⟨name, hname⟩
  · rw [describe_workspaceAny hkept]
    exact ⟨iff_of_true rfl rfl, iff_of_true (Descriptor.needsRegistry_workspaceAny key) rfl, fun hne => absurd rfl hne⟩
  · have hregistry := registry_describe_of_catalog hname hkept
    have hne : placeholder ≠ workspaceAny := by
      intro he
      rw [he, catalogName?_workspaceAny] at hname
      cases hname
    refine ⟨iff_of_false (fun hd => ?_) hne, iff_of_false (fun hneeds => ?_) hne,
      fun _ context token => Descriptor.plan_of_catalog hregistry context token⟩
    · rw [hd] at hregistry
      exact absurd (show homeRegistry = "catalog" from hregistry) (by decide)
    · rw [Descriptor.needsRegistry, Descriptor.isHome, hregistry] at hneeds
      cases hneeds

/-- A package of the workspace that the resolver does not know, behind another dependency. -/
theorem unresolved_placeholder_kept_of_orders :
    let es : List (String × Json) := [("cart", .string "zephyr:cart@beta"), ("orders", .string "workspace:*")]
    ((collectDescriptors (.object es) none passThrough).run ()).1 =
      .ok [⟨"cart", "zephyr", "cart", "beta"⟩, ⟨"orders", "zephyr", "orders", "workspace:*"⟩] ∧
    ∃ ds d ds', ((collectDescriptors (.object es) none passThrough).run ()).1 = .ok (ds ++ d :: ds') ∧
      (d = ⟨"orders", homeRegistry, "orders", "workspace:*"⟩ ↔ "workspace:*" = workspaceAny) := by
  have hrest : ∀ e ∈ [("cart", Json.string "zephyr:cart@beta")] ++ [], ∃ o, selectEntry none e.1 e.2 = .ok o := by
    intro e he
    cases List.mem_singleton.1 he
    exact ⟨_, rfl⟩
  obtain ⟨ds, d, ds', hcollected, -, -, hd, -⟩ := unresolved_placeholder_kept_iff passThrough none
    [("cart", .string "zephyr:cart@beta")] [] "orders" (.string "workspace:*") "workspace:*" () hrest rfl rfl rfl
  exact ⟨rfl, ds, d, ds', hcollected, hd⟩

/-- The resolver gives a catalog reference back, and the descriptor is one of a registry called `catalog`: its version
is not the reference, and the registry is not asked. -/
theorem catalog_reference_lost :
    let reference := "catalog:frontend"
    isPlaceholder reference = true ∧ ((passThrough "react" reference).run ()).1 = reference ∧
    ((collectDescriptors (.object [("react", .string reference)]) none passThrough).run ()).1 =
      .ok [⟨"react", "catalog", "react", "frontend"⟩] ∧
    (⟨"react", "catalog", "react", "frontend"⟩ : Descriptor) ≠ ⟨"react", homeRegistry, "react", reference⟩ := by
  exact ⟨rfl, rfl, rfl, by decide⟩

end Federation
