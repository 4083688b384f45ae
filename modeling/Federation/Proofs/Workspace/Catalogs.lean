import Federation.Proofs.Dependency.Placeholders
import Federation.Proofs.Dependency.Specifiers
import Federation.Proofs.Workspace.Histories

/-!
# References to catalogs

A reference to a catalog may be a whole specifier, or the version in one that names registry and uid. The first is
replaced before it is parsed and by its key, the second afterwards and by the uid that was parsed. Under a key that is
also the uid both come to the range that the configuration holds (`describe_bare`, `describe_full`), if the range can
stand as a version: one with a colon or an `@` would be cut apart, were it replaced before.

Each of the two asks the workspace once, so that it has read the same afterwards, and the whole table is collected alike
(`catalog_reference_alike`).
-/

namespace Federation

/-! ### Ranges of a configuration -/

/-- The range that a configuration holds for a package under a name. The default catalog goes by no name or by its own,
and is written in two places; the one at the top goes first. -/
inductive WorkspaceConfig.Holds (c : WorkspaceConfig) (package range : String) : (name : String) → Prop
  | top {name : String} (isDefault : name = "" ∨ name = defaultCatalog) (here : c.catalog.get? package = some range) :
    Holds c package range name
  | listed {name : String} {m : KeyMap String} (isDefault : name = "" ∨ name = defaultCatalog)
    (missing : c.catalog.get? package = none) (catalog : c.catalogs.get? defaultCatalog = some m)
    (here : m.get? package = some range) : Holds c package range name
  | named {name : String} {m : KeyMap String} (other : ¬(name = "" ∨ name = defaultCatalog))
    (catalog : c.catalogs.get? name = some m) (here : m.get? package = some range) : Holds c package range name

theorem WorkspaceConfig.catalogRange?_eq_some {c : WorkspaceConfig} {name package range : String} :
    c.catalogRange? name package = some range ↔ c.Holds package range name := by
  have hempty : name.isEmpty = true ↔ name = "" := String.isEmpty_iff
  rw [catalogRange?]
  by_cases hdefault : name = "" ∨ name = defaultCatalog
  · have hname : (if name.isEmpty = true then defaultCatalog else name) = defaultCatalog := by
      rcases hdefault with rfl | rfl <;> rfl
    rw [hname, beq_self_eq_true, if_pos rfl, Option.or_eq_some_iff]
    constructor
    · rintro (here | ⟨missing, hnamed⟩)
      · exact .top hdefault here
      · obtain ⟨m, catalog, here⟩ := Option.bind_eq_some_iff.1 hnamed
        exact .listed hdefault missing catalog here
    · rintro (⟨-, here⟩ | ⟨-, missing, catalog, here⟩ | ⟨other, -, -⟩)
      · exact .inl here
      · exact .inr ⟨missing, Option.bind_eq_some_iff.2 ⟨_, catalog, here⟩⟩
      · exact absurd hdefault other
  · obtain ⟨hne, hother⟩ := not_or.1 hdefault
    rw [if_neg (mt hempty.1 hne), beq_eq_false_iff_ne.2 hother, if_neg Bool.false_ne_true]
    constructor
    · intro hnamed
      obtain ⟨m, catalog, here⟩ := Option.bind_eq_some_iff.1 hnamed
      exact .named hdefault catalog here
    · rintro (⟨isDefault, -⟩ | ⟨isDefault, -, -, -⟩ | ⟨-, catalog, here⟩)
      · exact absurd isDefault hdefault
      · exact absurd isDefault hdefault
      · exact Option.bind_eq_some_iff.2 ⟨_, catalog, here⟩

namespace Workspace

variable {d : Disk} {cwd : Location} {w : Workspace} {c : WorkspaceConfig} {platform : Option String}
  {key name range reference specifier : String} {es es' : List (String × Json)} {v v' : Json}

/-! ### What a question leaves of the configuration -/

/-- The configuration that a workspace has read, or would read now. -/
def configHeld (d : Disk) (cwd : Location) (w : Workspace) : Option WorkspaceConfig :=
  w.config.getD (configOf d cwd w.root)

theorem configHeld_withConfig : (w.withConfig d cwd).configHeld d cwd = w.configHeld d cwd := rfl

theorem configHeld_getPackages : ((getPackages d cwd).run w).2.configHeld d cwd = w.configHeld d cwd := by
  obtain ⟨root, config, packages⟩ := w
  cases packages with
  | some ps => rfl
  | none => cases config <;> rfl

theorem run_resolveCatalog (p r : String) : (resolveCatalog d cwd p r).run w =
    (((w.configHeld d cwd).bind (·.catalogRange? ((catalogName? r).getD r) p)).getD r, w.withConfig d cwd) := by
  show ((((getConfig d cwd).run w).1.bind (·.catalogRange? _ p)).getD r, ((getConfig d cwd).run w).2) = _
  rw [run_getConfig]
  rfl

theorem configHeld_versions (p r : String) : ((versions d cwd p r).run w).2.configHeld d cwd = w.configHeld d cwd := by
  unfold versions
  split
  · exact configHeld_getPackages
  · split
    · rw [run_resolveCatalog]
      exact configHeld_withConfig
    · rfl

theorem configHeld_describe (key specifier : String) :
    ((describe (versions d cwd) key specifier).run w).2.configHeld d cwd = w.configHeld d cwd := by
  have hparsed (p : Descriptor) (w : Workspace) :
      ((describeParsed (versions d cwd) p).run w).2.configHeld d cwd = w.configHeld d cwd := by
    unfold describeParsed
    split
    · exact configHeld_versions p.applicationUid p.version
    · rfl
  cases h : catalogName? specifier with
  | none =>
    rw [describe_of_no_catalog h]
    exact hparsed _ w
  | some name =>
    rw [describe_of_catalog h, StateT.run_bind]
    exact (hparsed (.parse key ((versions d cwd key specifier).run w).1) _).trans (configHeld_versions key specifier)

theorem configHeld_collectEntries (es : List (String × Json)) :
    ((collectEntries platform (versions d cwd) es).run w).2.configHeld d cwd = w.configHeld d cwd := by
  induction es generalizing w with
  | nil => rfl
  | cons e es ih =>
    obtain ⟨k, x⟩ := e
    rw [collectEntries]
    cases selectEntry platform k x with
    | error y => rfl
    | ok o =>
      cases o with
      | none => exact ih
      | some selected => exact ih.trans (configHeld_describe k selected)

theorem run_versions_of_catalog (h : catalogName? reference = some name) (p : String) :
    (versions d cwd p reference).run w =
      (((w.configHeld d cwd).bind (·.catalogRange? name p)).getD reference, w.withConfig d cwd) := by
  have hany : (reference == workspaceAny) = false := by
    refine beq_eq_false_iff_ne.2 fun he => ?_
    rw [he, catalogName?_workspaceAny] at h
    cases h
  rw [versions, hany, h]
  refine (run_resolveCatalog p reference).trans ?_
  rw [h]
  rfl

/-! ### The two references -/

/-- A text without colon and `@` is a version, and stands for nothing else. -/
theorem describeParsed_range (versions : VersionResolver Workspace) (key : String) (hcolon : ':' ∉ range.toList)
    (hat : '@' ∉ range.toList) :
    describeParsed versions (.parse key range) = pure ⟨key, homeRegistry, key, range⟩ := by
  have hparse : Descriptor.parse key range = ⟨key, homeRegistry, key, range⟩ := by
    rw [Descriptor.parse_eq, Descriptor.splitRegistry_of_no_colon hcolon,
      (Descriptor.NamesVersion.bare hat).splitVersion_eq]
  have hversion : isPlaceholder range = false := by
    refine Bool.eq_false_iff.2 fun h => hcolon ?_
    rcases isPlaceholder_iff.1 h with rfl | ⟨name, hname⟩
    · decide
    · rw [catalogName?_eq_some.1 hname]
      exact List.mem_append_left _ (by decide)
  rw [hparse, describeParsed, hversion]
  rfl

theorem catalogName?_append (name : String) : catalogName? (catalogPrefix ++ name) = some name :=
  catalogName?_eq_some.2 String.toList_append

theorem run_versions_of_held (hconfig : w.configHeld d cwd = some c) (hheld : c.Holds key range name) :
    (versions d cwd key (catalogPrefix ++ name)).run w = (range, w.withConfig d cwd) := by
  rw [run_versions_of_catalog (catalogName?_append name) key, hconfig, Option.bind_some,
    WorkspaceConfig.catalogRange?_eq_some.2 hheld, Option.getD_some]

theorem describe_bare (hconfig : w.configHeld d cwd = some c) (hheld : c.Holds key range name)
    (hcolon : ':' ∉ range.toList) (hat : '@' ∉ range.toList) :
    (describe (versions d cwd) key (catalogPrefix ++ name)).run w =
      (⟨key, homeRegistry, key, range⟩, w.withConfig d cwd) := by
  have hasked := run_versions_of_held hconfig hheld
  rw [describe_of_catalog (catalogName?_append name), StateT.run_bind, hasked]
  show (describeParsed (versions d cwd) (.parse key range)).run (w.withConfig d cwd) = _
  rw [describeParsed_range _ key hcolon hat]
  rfl

/-- The last `@` is the one behind the uid, which is the key also if the key is empty. -/
theorem parse_full_catalog (key : String) (hname : '@' ∉ name.toList) :
    Descriptor.parse key (homeRegistry ++ ":" ++ key ++ "@" ++ (catalogPrefix ++ name)) =
      ⟨key, homeRegistry, key, catalogPrefix ++ name⟩ := by
  have hversion : '@' ∉ (catalogPrefix ++ name).toList := by
    rw [String.toList_append, List.mem_append, not_or]
    exact ⟨by decide, hname⟩
  have hliteral : isLiteralUrl (homeRegistry ++ ":" ++ key ++ "@" ++ (catalogPrefix ++ name)) = false := by
    simp only [isLiteralUrl, String.toList_append, List.append_assoc]
    rfl
  by_cases hkey : key = ""
  · have htext : homeRegistry ++ ":" ++ key ++ "@" ++ (catalogPrefix ++ name) =
        homeRegistry ++ ":" ++ ("@" ++ (catalogPrefix ++ name)) := by
      rw [hkey, String.append_empty, String.append_assoc]
    rw [htext] at hliteral ⊢
    have hany : homeRegistry ++ ":" ++ ("@" ++ (catalogPrefix ++ name)) ≠ workspaceAny := by
      have hcut : (homeRegistry ++ ":" ++ ("@" ++ (catalogPrefix ++ name))).toList ≠ workspaceAny.toList := by
        simp only [String.toList_append, List.append_assoc]
        exact fun h => absurd (List.cons.inj h).1 (by decide)
      exact mt (congrArg String.toList) hcut
    exact (Descriptor.parse_eq_iff hliteral).2 ⟨rfl, _, .named (by decide) hany, .tagged hversion⟩
  · exact Descriptor.parse_full key (by decide) hkey hversion hliteral

theorem describe_full (hconfig : w.configHeld d cwd = some c) (hheld : c.Holds key range name)
    (hname : '@' ∉ name.toList) :
    (describe (versions d cwd) key (homeRegistry ++ ":" ++ key ++ "@" ++ (catalogPrefix ++ name))).run w =
      (⟨key, homeRegistry, key, range⟩, w.withConfig d cwd) := by
  have hno : catalogName? (homeRegistry ++ ":" ++ key ++ "@" ++ (catalogPrefix ++ name)) = none := by
    simp only [catalogName?, String.toList_append, List.append_assoc]
    rfl
  have hplaceholder : isPlaceholder (catalogPrefix ++ name) = true :=
    isPlaceholder_iff.2 (.inr ⟨name, catalogName?_append name⟩)
  have hasked := run_versions_of_held hconfig hheld
  rw [describe_of_no_catalog hno, parse_full_catalog key hname, describeParsed, hplaceholder]
  show ((⟨key, homeRegistry, key, ((versions d cwd key (catalogPrefix ++ name)).run w).1⟩ : Descriptor),
    ((versions d cwd key (catalogPrefix ++ name)).run w).2) = _
  rw [hasked]

/-- Entries that are described alike in every state with the same configuration can take each other's place. -/
theorem run_collectEntries_congr (hselected : selectEntry platform key v = .ok (some specifier))
    (hselected' : selectEntry platform key v' = .ok (some reference))
    (halike : ∀ w', w'.configHeld d cwd = w.configHeld d cwd →
      (describe (versions d cwd) key specifier).run w' = (describe (versions d cwd) key reference).run w') :
    (collectEntries platform (versions d cwd) (es ++ (key, v) :: es')).run w =
      (collectEntries platform (versions d cwd) (es ++ (key, v') :: es')).run w := by
  induction es generalizing w with
  | nil =>
    rw [List.nil_append, List.nil_append, collectEntries, collectEntries, hselected, hselected']
    have hdescribed := halike w rfl
    dsimp only
    rw [StateT.run_bind, StateT.run_bind, hdescribed]
  | cons e es ih =>
    obtain ⟨k, x⟩ := e
    rw [List.cons_append, List.cons_append, collectEntries, collectEntries]
    cases selectEntry platform k x with
    | error y => rfl
    | ok o =>
      cases o with
      | none => exact ih halike
      | some selected =>
        have hrest := ih (w := ((describe (versions d cwd) k selected).run w).2) fun w' hw' =>
          halike w' (hw'.trans (configHeld_describe k selected))
        let d₀ := ((describe (versions d cwd) k selected).run w).1
        exact congrArg (fun p : Except Error (List Descriptor) × Workspace => (p.1.map (d₀ :: ·), p.2)) hrest

/-- Let a configuration hold a range for a key under the name of a catalog, and let the range have neither colon nor
`@`. Then it makes no difference whether the key stands with a reference to that catalog, or with the home registry, the
key itself as uid and the reference as version, on whatever platforms and whatever the rest of the table is: the same is
collected and the same is read. If no other entry is faulty, the descriptor under the key is that of the range, behind
those of the entries before it. -/
theorem catalog_reference_alike (d : Disk) (cwd : Location) (w : Workspace) (c : WorkspaceConfig)
    (platform : Option String) (before after : List (String × Json)) (key name range : String) (v v' : Json)
    (hconfig : w.configHeld d cwd = some c) (hheld : c.Holds key range name)
    (hcolon : ':' ∉ range.toList) (hat : '@' ∉ range.toList) (hname : '@' ∉ name.toList)
    (hbare : selectEntry platform key v = .ok (some (catalogPrefix ++ name)))
    (hfull : selectEntry platform key v' =
      .ok (some (homeRegistry ++ ":" ++ key ++ "@" ++ (catalogPrefix ++ name)))) :
    let collect (v : Json) :=
      (collectDescriptors (.object (before ++ (key, v) :: after)) platform (versions d cwd)).run w
    collect v = collect v' ∧
    ((∀ e ∈ before ++ after, ∃ o, selectEntry platform e.1 e.2 = .ok o) → ∃ ds w' ds',
      (collectDescriptors (.object before) platform (versions d cwd)).run w = (.ok ds, w') ∧
      ((collectDescriptors (.object after) platform (versions d cwd)).run (w'.withConfig d cwd)).1 = .ok ds' ∧
      (collect v).1 = .ok (ds ++ ⟨key, homeRegistry, key, range⟩ :: ds')) := by
  refine ⟨run_collectEntries_congr hbare hfull fun w' hw' => ?_, fun hrest => ?_⟩
  · have hconfig' := hw'.trans hconfig
    rw [describe_bare hconfig' hheld hcolon hat, describe_full hconfig' hheld hname]
  · obtain ⟨ds, ds', hbefore, hafter, hcollected⟩ := exists_collectEntries_append hrest hbare
    have hconfig' : ((collectEntries platform (versions d cwd) before).run w).2.configHeld d cwd = some c :=
      (configHeld_collectEntries before).trans hconfig
    rw [describe_bare hconfig' hheld hcolon hat] at hafter hcollected
    exact ⟨ds, _, ds', Prod.ext hbefore rfl, hafter, hcollected⟩

/-- A workspace with two catalogs for a scoped package. -/
def frontendDisk : Disk :=
  ⟨[(["shop".toList], .directory), (["shop".toList, workspaceFile.toList],
    .file "catalog:\n  '@acme/cart': ^2.0.0\ncatalogs:\n  next:\n    '@acme/cart': ^3.1.0\n".toUTF8)]⟩

/-- The key and the specifier have an `@` of their own, and the catalog at the top is passed over. -/
theorem catalog_reference_alike_of_scoped :
    let collect (specifier : String) :=
      ((collectDescriptors (.object [("@acme/cart", .string specifier)]) none (versions frontendDisk [])).run
        (atRoot "/shop".toList)).1
    (∃ c, (atRoot "/shop".toList).configHeld frontendDisk [] = some c ∧ c.Holds "@acme/cart" "^3.1.0" "next") ∧
    collect "catalog:next" = .ok [⟨"@acme/cart", "zephyr", "@acme/cart", "^3.1.0"⟩] ∧
    collect "zephyr:@acme/cart@catalog:next" = .ok [⟨"@acme/cart", "zephyr", "@acme/cart", "^3.1.0"⟩] := by
  intro collect
  have hrange : ((atRoot "/shop".toList).configHeld frontendDisk []).bind
      (·.catalogRange? "next" "@acme/cart") = some "^3.1.0" := by decide +kernel
  obtain ⟨c, hconfig, hheld⟩ := Option.bind_eq_some_iff.1 hrange
  replace hheld := WorkspaceConfig.catalogRange?_eq_some.1 hheld
  have hbare : selectEntry none "@acme/cart" (.string "catalog:next") =
      .ok (some (catalogPrefix ++ "next")) := congrArg (fun t => Except.ok (some t)) (by decide)
  have hfull : selectEntry none "@acme/cart" (.string "zephyr:@acme/cart@catalog:next") =
      .ok (some (homeRegistry ++ ":" ++ "@acme/cart" ++ "@" ++ (catalogPrefix ++ "next"))) :=
    congrArg (fun t => Except.ok (some t)) (by decide)
  obtain ⟨halike, hcollected⟩ := catalog_reference_alike frontendDisk [] (atRoot "/shop".toList) c none [] []
    "@acme/cart" "next" "^3.1.0" _ _ hconfig hheld (by decide) (by decide) (by decide) hbare hfull
  obtain ⟨ds, w', ds', hds, hds', hcollected⟩ := hcollected nofun
  cases hds
  cases hds'
  exact ⟨⟨c, hconfig, hheld⟩, hcollected, (congrArg Prod.fst halike).symm.trans hcollected⟩

end Workspace

end Federation
