import Federation.Resolver

/-!
# The grammar of specifiers

A specifier names a registry, a uid and a version, and may leave out the first two. `NamesRegistry` and `NamesVersion`
are its grammar, in the two cuts that are made: at the first colon, and in what is left at the last `@`. What is parsed
is what the grammar says and nothing else (`parse_iff_grammar`), so a full specifier reads back as it was written.

A URL is protected from the first cut only. It stays whole just when it has no `@` (`parse_literalUrl_iff`); one with an
`@`, as package servers have in their paths, is taken for a uid and a version of the home registry.
-/

namespace Federation.Descriptor

variable {key specifier registry reference uid version : String} {d : Descriptor}

/-- How a specifier names its registry, and what is left of it. -/
inductive NamesRegistry : (specifier registry reference : String) → Prop
  /-- The home registry needs no name. -/
  | home {specifier : String} (unnamed : specifier = workspaceAny ∨ ':' ∉ specifier.toList) :
    NamesRegistry specifier homeRegistry specifier
  | named {registry reference : String} (first : ':' ∉ registry.toList)
    (notAny : registry ++ ":" ++ reference ≠ workspaceAny) :
    NamesRegistry (registry ++ ":" ++ reference) registry reference

/-- How what is left names uid and version, under a key. -/
inductive NamesVersion (key : String) : (reference uid version : String) → Prop
  /-- A version alone; the key is the uid. -/
  | bare {version : String} (last : '@' ∉ version.toList) : NamesVersion key version key version
  /-- A version behind an `@` that nothing stands before. -/
  | tagged {version : String} (last : '@' ∉ version.toList) : NamesVersion key ("@" ++ version) key version
  | full {uid version : String} (named : uid ≠ "") (last : '@' ∉ version.toList) :
    NamesVersion key (uid ++ "@" ++ version) uid version

/-! ### The first colon -/

theorem splitRegistry_of_literal (h : isLiteralUrl specifier = true) :
    splitRegistry specifier = (homeRegistry, specifier) := by
  rw [splitRegistry, h, Bool.or_true, if_pos rfl]

theorem splitRegistry_of_no_colon (hfirst : ':' ∉ specifier.toList) :
    splitRegistry specifier = (homeRegistry, specifier) := by
  simp [splitRegistry, Text.splitFirst_eq_none.2 hfirst]

theorem splitRegistry_of_colon {r s : List Char} (h : isLiteralUrl specifier = false) (hany : specifier ≠ workspaceAny)
    (hcut : Text.splitFirst ':' specifier.toList = some (r, s)) :
    splitRegistry specifier = (String.ofList r, String.ofList s) := by
  simp [splitRegistry, h, hany, hcut]

theorem namesRegistry_splitRegistry (h : isLiteralUrl specifier = false) :
    NamesRegistry specifier (splitRegistry specifier).1 (splitRegistry specifier).2 := by
  by_cases hany : specifier = workspaceAny
  · rw [hany]
    exact .home (.inl rfl)
  · cases hcut : Text.splitFirst ':' specifier.toList with
    | none =>
      have hfirst := Text.splitFirst_eq_none.1 hcut
      rw [splitRegistry_of_no_colon hfirst]
      exact .home (.inr hfirst)
    | some parts =>
      obtain ⟨r, s⟩ := parts
      obtain ⟨htext, hfirst⟩ := Text.splitFirst_eq_some hcut
      rw [splitRegistry_of_colon h hany hcut]
      have hspecifier : specifier = String.ofList r ++ ":" ++ String.ofList s := by
        rw [← String.toList_inj, htext]
        simp
      have hnamed : NamesRegistry (String.ofList r ++ ":" ++ String.ofList s) (String.ofList r) (String.ofList s) :=
        .named (by rwa [String.toList_ofList]) (hspecifier ▸ hany)
      exact hspecifier ▸ hnamed

theorem NamesRegistry.splitRegistry_eq (h : isLiteralUrl specifier = false)
    (hnames : NamesRegistry specifier registry reference) : splitRegistry specifier = (registry, reference) := by
  cases hnames with
  | home unnamed =>
    rcases unnamed with rfl | hfirst
    · rfl
    · exact splitRegistry_of_no_colon hfirst
  | named first notAny =>
    have htext : (registry ++ ":" ++ reference).toList = registry.toList ++ ':' :: reference.toList := by simp
    have hcut := htext ▸ Text.splitFirst_append first reference.toList
    rw [splitRegistry_of_colon h notAny hcut, String.ofList_toList, String.ofList_toList]

/-! ### The last `@` -/

theorem namesVersion_splitVersion (key reference : String) :
    NamesVersion key reference (splitVersion key reference).1 (splitVersion key reference).2 := by
  rw [splitVersion]
  cases hcut : Text.splitLast '@' reference.toList with
  | none => exact .bare (Text.splitLast_eq_none.1 hcut)
  | some parts =>
    obtain ⟨u, v⟩ := parts
    obtain ⟨htext, hlast⟩ := Text.splitLast_eq_some hcut
    have hreference : reference = String.ofList u ++ "@" ++ String.ofList v := by
      rw [← String.toList_inj, htext]
      simp
    replace hlast : '@' ∉ (String.ofList v).toList := by rwa [String.toList_ofList]
    cases u with
    | nil =>
      have htagged : reference = "@" ++ String.ofList v := hreference.trans (by simp)
      exact htagged ▸ .tagged hlast
    | cons c u =>
      have hnamed : String.ofList (c :: u) ≠ "" := by simp
      exact hreference ▸ .full hnamed hlast

theorem NamesVersion.splitVersion_eq (hnames : NamesVersion key reference uid version) :
    splitVersion key reference = (uid, version) := by
  cases hnames with
  | bare last => rw [splitVersion, Text.splitLast_eq_none.2 last]
  | tagged last =>
    have htext : ("@" ++ version).toList = [] ++ '@' :: version.toList := by simp
    rw [splitVersion, htext, Text.splitLast_append [] last]
    simp only [String.ofList_toList]
  | full named last =>
    have htext : (uid ++ "@" ++ version).toList = uid.toList ++ '@' :: version.toList := by simp
    have hne : uid.toList ≠ [] := by simpa using named
    obtain ⟨c, u, hu⟩ := List.exists_cons_of_ne_nil hne
    rw [splitVersion, htext, Text.splitLast_append uid.toList last, hu]
    simp only [← hu, String.ofList_toList]

theorem NamesVersion.at_not_mem (hnames : NamesVersion key reference uid version) : '@' ∉ version.toList := by
  cases hnames <;> assumption

/-! ### Specifiers -/

theorem parse_eq (key specifier : String) : parse key specifier =
    ⟨key, (splitRegistry specifier).1, (splitVersion key (splitRegistry specifier).2).1,
      (splitVersion key (splitRegistry specifier).2).2⟩ := rfl

/-- Nothing but what the grammar says is read from a specifier that is no URL, and all that it says. -/
theorem parse_eq_iff (h : isLiteralUrl specifier = false) : parse key specifier = d ↔
    d.key = key ∧ ∃ reference, NamesRegistry specifier d.registry reference ∧
      NamesVersion key reference d.applicationUid d.version := by
  constructor
  · rintro rfl
    exact ⟨rfl, _, namesRegistry_splitRegistry h, namesVersion_splitVersion key _⟩
  · rintro ⟨hkey, reference, hregistry, hversion⟩
    rw [parse_eq, hregistry.splitRegistry_eq h, hversion.splitVersion_eq, ← hkey]

theorem parse_of_literal (key : String) (h : isLiteralUrl specifier = true) : parse key specifier =
    ⟨key, homeRegistry, (splitVersion key specifier).1, (splitVersion key specifier).2⟩ := by
  rw [parse_eq, splitRegistry_of_literal h]

theorem parse_full (key : String) (first : ':' ∉ registry.toList) (named : uid ≠ "") (last : '@' ∉ version.toList)
    (h : isLiteralUrl (registry ++ ":" ++ uid ++ "@" ++ version) = false) :
    parse key (registry ++ ":" ++ uid ++ "@" ++ version) = ⟨key, registry, uid, version⟩ := by
  have htext : registry ++ ":" ++ uid ++ "@" ++ version = registry ++ ":" ++ (uid ++ "@" ++ version) := by
    simp only [String.append_assoc]
  rw [htext] at h ⊢
  have hany : registry ++ ":" ++ (uid ++ "@" ++ version) ≠ workspaceAny := by
    -- what means the workspace has no `@`
    intro hany
    have hat : '@' ∈ (registry ++ ":" ++ (uid ++ "@" ++ version)).toList := by simp
    rw [hany] at hat
    exact absurd hat (by decide)
  exact (parse_eq_iff h).2 ⟨rfl, _, .named first hany, .full named last⟩

/-- What is read from a specifier that is no URL is what the grammar says, for each way to write one; its version never
has an `@`. In turn, a specifier that names registry, uid and version reads back as these, under every key. -/
theorem parse_iff_grammar :
    (∀ key specifier, isLiteralUrl specifier = false → '@' ∉ (parse key specifier).version.toList ∧
      ∀ d : Descriptor, parse key specifier = d ↔ d.key = key ∧ ∃ reference,
        NamesRegistry specifier d.registry reference ∧ NamesVersion key reference d.applicationUid d.version) ∧
    ∀ key registry uid version : String, ':' ∉ registry.toList → uid ≠ "" → '@' ∉ version.toList →
      isLiteralUrl (registry ++ ":" ++ uid ++ "@" ++ version) = false →
      parse key (registry ++ ":" ++ uid ++ "@" ++ version) = ⟨key, registry, uid, version⟩ := by
  refine ⟨fun key specifier h => ⟨?_, fun d => parse_eq_iff h⟩, fun key registry uid version => parse_full key⟩
  exact (namesVersion_splitVersion key (splitRegistry specifier).2).at_not_mem

/-- A scoped name behind a registry, and an `@` with a version behind it. -/
theorem parse_iff_grammar_of_scoped :
    isLiteralUrl "zephyr:@org/@scope/app@beta" = false ∧
    '@' ∉ (parse "local-name" "zephyr:@org/@scope/app@beta").version.toList ∧
    parse "local-name" "zephyr:@org/@scope/app@beta" = ⟨"local-name", "zephyr", "@org/@scope/app", "beta"⟩ := by
  have h : isLiteralUrl "zephyr:@org/@scope/app@beta" = false := by decide
  exact ⟨h, (parse_iff_grammar.1 "local-name" _ h).1,
    parse_iff_grammar.2 "local-name" "zephyr" "@org/@scope/app" "beta" (by decide) (by decide) (by decide) h⟩

/-! ### URLs -/

theorem not_isLiteralUrl_tagged (version : String) : isLiteralUrl ("@" ++ version) = false := by
  rw [isLiteralUrl, String.toList_append]
  rfl

theorem exists_cut_of_literal (key : String) (h : isLiteralUrl specifier = true) (hat : '@' ∈ specifier.toList) :
    ∃ uid version, specifier = uid ++ "@" ++ version ∧ uid ≠ "" ∧ '@' ∉ version.toList ∧
      parse key specifier = ⟨key, homeRegistry, uid, version⟩ := by
  rw [parse_of_literal key h]
  have hnames := namesVersion_splitVersion key specifier
  generalize splitVersion key specifier = parts at hnames ⊢
  obtain ⟨uid, version⟩ := parts
  cases hnames with
  | bare last => exact absurd hat last
  | tagged last =>
    -- no URL begins with an `@`
    rw [not_isLiteralUrl_tagged] at h
    cases h
  | full named last => exact ⟨uid, version, rfl, named, last, rfl⟩

theorem plan_of_literal (hhome : d.isHome = true) (hliteral : isLiteralUrl d.version = true)
    (context : Option AppContext) (token : Except Error AuthToken) :
    d.plan context token = .settled d.directRemote := by
  rw [plan, hhome, hliteral]
  rfl

/-- A URL is read as one, under the key and of the home registry, just when it has no `@`; it then becomes a remote
without the registry. A URL with an `@` is cut at the last one, and the registry is asked unless what stands behind is
a URL again. -/
theorem parse_literalUrl_iff (key url : String) (h : isLiteralUrl url = true) :
    (parse key url = ⟨key, homeRegistry, key, url⟩ ↔ '@' ∉ url.toList) ∧
    ('@' ∉ url.toList → (parse key url).needsRegistry = false ∧
      ∀ context token, (parse key url).plan context token = .settled (parse key url).directRemote) ∧
    ('@' ∈ url.toList → ∃ uid version, url = uid ++ "@" ++ version ∧ uid ≠ "" ∧ '@' ∉ version.toList ∧
      parse key url = ⟨key, homeRegistry, uid, version⟩ ∧
      (parse key url).needsRegistry = !isLiteralUrl version) := by
  have hwhole (hat : '@' ∉ url.toList) : parse key url = ⟨key, homeRegistry, key, url⟩ := by
    rw [parse_of_literal key h, (NamesVersion.bare hat).splitVersion_eq]
  refine ⟨⟨fun hparse hat => ?_, hwhole⟩, fun hat => ?_, fun hat => ?_⟩
  · obtain ⟨uid, version, -, -, hlast, hcut⟩ := exists_cut_of_literal key h hat
    rw [hparse] at hcut
    cases hcut
    exact hlast hat
  · rw [hwhole hat]
    refine ⟨?_, plan_of_literal rfl h⟩
    show (homeRegistry == homeRegistry && !isLiteralUrl url) = false
    rw [h]
    rfl
  · obtain ⟨uid, version, hurl, hnamed, hlast, hcut⟩ := exists_cut_of_literal key h hat
    refine ⟨uid, version, hurl, hnamed, hlast, hcut, ?_⟩
    rw [hcut]
    rfl

/-- The URL of an entry, and the one of a server that takes a version in the path. -/
theorem parse_literalUrl_iff_of_cart :
    isLiteralUrl "https://cdn.acme.dev/cart/entry.js" = true ∧
    parse "cart" "https://cdn.acme.dev/cart/entry.js" =
      ⟨"cart", homeRegistry, "cart", "https://cdn.acme.dev/cart/entry.js"⟩ ∧
    isLiteralUrl "//cdn.acme.dev/cart@1.2.0/entry.js" = true ∧
    parse "cart" "//cdn.acme.dev/cart@1.2.0/entry.js" ≠
      ⟨"cart", homeRegistry, "cart", "//cdn.acme.dev/cart@1.2.0/entry.js"⟩ := by
  refine ⟨by decide, (parse_literalUrl_iff _ _ (by decide)).1.2 (by decide), by decide, fun hparse => ?_⟩
  exact absurd ((parse_literalUrl_iff _ _ (by decide)).1.1 hparse) (by decide)

/-- The entry of a package on a server with scoped names and versions in its paths: it is taken for a version
`1.2.0/dist/entry.js`, which the registry is asked for under a URL as uid. -/
theorem literalUrl_cut :
    let url := "https://cdn.acme.dev/npm/@acme/cart@1.2.0/dist/entry.js"
    let d := parse "cart" url
    isLiteralUrl url = true ∧ d ≠ ⟨"cart", homeRegistry, "cart", url⟩ ∧
    d = ⟨"cart", "zephyr", "https://cdn.acme.dev/npm/@acme/cart", "1.2.0/dist/entry.js"⟩ ∧
    d.needsRegistry = true ∧
    d.plan none (.ok ⟨"secret", .explicit⟩) =
      .ask "https://cdn.acme.dev/npm/@acme/cart" "1.2.0/dist/entry.js" "secret" := by
  exact ⟨by decide, by decide, by decide, by decide, rfl⟩

end Federation.Descriptor
