import Mathlib.Data.List.Nodup
import Federation.Proofs.CommandLine.Builds
import Federation.Proofs.Dependency.Collection
import Federation.Proofs.Json.Members
import Federation.Proofs.Resolver.Outcomes

/-!
# What a build writes

The manifest of a build accounts for every entry of the dependency table. `Account` says how: each key with a specifier
for the platform has one descriptor, and so has no other; each descriptor comes to an outcome, which the registry has a
part in; and the manifest holds the remotes of those that did not fail, under their keys, and nothing else. What is read
back from the file is that manifest (`manifest_of_build`).
-/

namespace Federation.CommandLine

variable {σ : Type} {transport : Transport (StateM σ)} {s : Surroundings} {c : ResolveCommand} {p : Preparation} {t : σ}
  {rs : List Remote} {ds : List Descriptor} {es : List (String × Json)} {ss : List (String × String)}
  {workdir : List Char} {platform : Option String} {package : Json}

/-! ### Collecting -/

theorem collectDescriptors_eq_ok {versions : VersionResolver σ} {table : Json}
    (h : ((collectDescriptors table platform versions).run t).1 = .ok ds) :
    ∃ es ss, table = .object es ∧ selections platform es = .ok ss ∧ ds = ((describeAll versions ss).run t).1 := by
  cases table with
  | object es =>
    rw [collectDescriptors] at h
    cases hss : selections platform es with
    | error e =>
      rw [collectEntries_of_fault hss] at h
      cases h
    | ok ss =>
      rw [collectEntries_of_selections hss] at h
      cases h
      exact ⟨es, ss, rfl, hss, rfl⟩
  | null | bool | number | string | array => cases h

theorem collect_eq_ok (h : collect s workdir platform package = .ok ds) :
    ∃ es ss, (package.member? dependencyTable).getD (.object []) = .object es ∧ selections platform es = .ok ss ∧
      ds = ((describeAll (Workspace.versions s.disk s.cwd) ss).run (Workspace.discover s.disk s.cwd workdir)).1 :=
  collectDescriptors_eq_ok h

/-- The dependency table of a package that was read has different keys. -/
theorem nodup_table {path : String} (h : readPackage s path = .ok package)
    (htable : (package.member? dependencyTable).getD (.object []) = .object es) : (es.map (·.1)).Nodup := by
  obtain ⟨text, -, hparse⟩ := bind_eq_ok.1 h
  cases hmember : package.member? dependencyTable with
  | none =>
    rw [hmember] at htable
    cases htable
    exact List.nodup_nil
  | some table =>
    rw [hmember] at htable
    cases htable
    cases hread : Json.parse? text with
    | none => rw [hread] at hparse; cases hparse
    | some x =>
      rw [hread] at hparse
      cases hparse
      exact Json.nodup_of_member hread hmember

/-! ### Accounts -/

/-- How the manifest `m` accounts for the entries `es` of the dependency table, where each descriptor comes to its
outcome. -/
structure Account (transport : Transport (StateM σ)) (c : ResolveCommand) (p : Preparation)
    (es : List (String × Json)) (outcome : Descriptor → Outcome) (m : Manifest) : Prop where
  /-- No key has two descriptors. -/
  distinct : (p.descriptors.map (·.key)).Nodup
  keys : ∀ key, (∃ d ∈ p.descriptors, d.key = key) ↔
    ∃ v specifier, (key, v) ∈ es ∧ selectEntry c.platform key v = .ok (some specifier)
  becomes : ∃ token, ∀ d ∈ p.descriptors,
    d.Becomes transport p.resolver.config.apiBase p.context token (outcome d)
  foreign : ∀ d ∈ p.descriptors, d.isHome = false → outcome d = .ok none
  home : ∀ d ∈ p.descriptors, d.isHome = true →
    (∃ e, outcome d = .error e) ∨ ∃ x, x.name = d.key ∧ outcome d = .ok (some x)
  strict : c.allowPartial = false → ∀ d ∈ p.descriptors, d.isHome = true → ∃ x, outcome d = .ok (some x)
  manifest : ∀ name entry, m.dependencies.get? name = some entry ↔
    ∃ d ∈ p.descriptors, d.key = name ∧ ∃ x, outcome d = .ok (some x) ∧ entry.applicationUid = x.applicationUid ∧
      entry.remoteEntryUrl = x.remoteEntryUrl ∧ entry.publicPath = x.publicPath ∧ entry.version = x.version
  /-- A registry that answers by the request alone gives each descriptor what it gives to it on its own. -/
  alone : ∀ single : Transport Id, transport = single.lift → ∀ d ∈ p.descriptors,
    p.resolver.alone single p.context none d = (outcome d).map Option.toList

/-- What is resolved is accounted for in the manifest of it. -/
theorem account_ofRemotes (hes : (es.map (·.1)).Nodup) (hss : selections c.platform es = .ok ss)
    (hkeys : p.descriptors.map (·.key) = ss.map (·.1)) (hcontext : p.resolver.context = none)
    (h : (resolution transport t c p).1 = .ok rs) (uid timestamp version : String) :
    ∃ outcome, Account transport c p es outcome (.ofRemotes uid timestamp version rs) := by
  have hdistinct : (p.descriptors.map (·.key)).Nodup := hkeys ▸ (keys_selections hss).nodup hes
  have hfound : p.resolver.contextOr p.context = p.context := by rw [RemoteResolver.contextOr, hcontext]; rfl
  obtain ⟨os, hos, hstrict, rfl⟩ := RemoteResolver.exists_outcomes h
  obtain ⟨outcome, rfl, hall⟩ := Outcome.exists_function hos (List.Nodup.of_map _ hdistinct)
  have hname (d : Descriptor) (hd : d ∈ p.descriptors) (x : Remote) (hx : outcome d = .ok (some x)) :
      x.name = d.key := by
    rcases (hall d hd).cases with ⟨-, ho⟩ | ⟨-, e, ho⟩ | ⟨-, y, hy, ho⟩ <;> rw [ho] at hx <;> cases hx
    exact hy
  refine ⟨outcome, hdistinct, fun key => ?_, ⟨_, hfound ▸ hall⟩, fun d hd hforeign => ?_, fun d hd hhome => ?_,
    fun hpartial d hd hhome => ?_, fun name entry => ?_, ?_⟩
  · have hmem : (∃ d ∈ p.descriptors, d.key = key) ↔ key ∈ p.descriptors.map (·.key) := List.mem_map.symm
    rw [hmem, hkeys, List.mem_map]
    constructor
    · rintro ⟨⟨k, specifier⟩, he, rfl⟩
      obtain ⟨v, hv⟩ := (mem_selections hss).1 he
      exact ⟨v, specifier, hv⟩
    · rintro ⟨v, specifier, hv⟩
      exact ⟨(key, specifier), (mem_selections hss).2 ⟨v, hv⟩, rfl⟩
  · rcases (hall d hd).cases with ⟨-, ho⟩ | ⟨hhome, -⟩ | ⟨hhome, -⟩
    · exact ho
    · cases hforeign.symm.trans hhome
    · cases hforeign.symm.trans hhome
  · rcases (hall d hd).cases with ⟨hforeign, -⟩ | ⟨-, he⟩ | ⟨-, hx⟩
    · cases hhome.symm.trans hforeign
    · exact .inl he
    · exact .inr hx
  · have hok : (outcome d).error? = none :=
      hstrict (by rw [hpartial]; rfl) _ (List.mem_map_of_mem hd)
    rcases (hall d hd).cases with ⟨hforeign, -⟩ | ⟨-, e, he⟩ | ⟨-, x, -, hx⟩
    · cases hhome.symm.trans hforeign
    · rw [he] at hok
      cases hok
    · exact ⟨x, hx⟩
  · rw [Manifest.get?_ofRemotes ((Outcome.names_sublist hname).nodup hdistinct)]
    simp only [ManifestDependency.ofRemote_eq_iff]
    constructor
    · rintro ⟨x, hx, rfl, hentry⟩
      obtain ⟨d, hd, ho⟩ := Outcome.mem_leniently_map.1 hx
      exact ⟨d, hd, (hname d hd x ho).symm, x, ho, hentry⟩
    · rintro ⟨d, hd, rfl, x, ho, hentry⟩
      exact ⟨x, Outcome.mem_leniently_map.2 ⟨d, hd, ho⟩, hname d hd x ho, hentry⟩
  · rintro single rfl d hd
    exact RemoteResolver.becomes_lift hd (hall d hd)

theorem readText?_of_readOctets? {d : Disk} {cwd : Location} {path : List Char} {text : String}
    (h : d.readOctets? cwd path = some text.toUTF8) : d.readText? cwd path = some text := by
  rw [Disk.readText?, h]
  exact fromUTF8?_toUTF8 text

/-- A build that succeeds has written a manifest that accounts for the dependency table of its package. -/
theorem manifest_of_build {σ : Type} (transport : Transport (StateM σ)) (setbacks : ManifestFile.Setbacks)
    (s : Surroundings) (c : ResolveCommand) (t : σ) (text : String) (d : Disk)
    (h : ((runResolve transport setbacks s c).run t).1 = (.printed text, d)) :
    ∃ p es ss outcome m, prepare s c = .ok p ∧
      (p.package.member? dependencyTable).getD (.object []) = .object es ∧ selections c.platform es = .ok ss ∧
      p.descriptors = ((describeAll (Workspace.versions s.disk s.cwd) ss).run
        (Workspace.discover s.disk s.cwd (directoryOf c.packageFile))).1 ∧
      Account transport c p es outcome m ∧
      ∃ document, d.readText? s.cwd (ManifestFile.inDirectory c.output p.resolver.config.manifestFileName).path =
        some document ∧ (JsonSyntax.parse? document.toList).bind Manifest.ofSyntax? = some m := by
  rcases runResolve_cases h with ⟨message, hreport, -⟩ | ⟨p, rs, uid, hp, hrs, hreport, hd⟩
  · cases hreport
  · obtain ⟨hpackage, hcollect, -, -, hresolver, -⟩ := prepare_eq_ok.1 hp
    obtain ⟨es, ss, htable, hss, hds⟩ := collect_eq_ok hcollect
    have hkeys : p.descriptors.map (·.key) = ss.map (·.1) := by rw [hds, keys_describeAll]
    obtain ⟨outcome, haccount⟩ := account_ofRemotes (nodup_table hpackage htable) hss hkeys
      (congrArg RemoteResolver.context hresolver) hrs uid s.timestamp Manifest.formatVersion
    have hwritten : ((manifestFile c p.resolver.config).writeAmid setbacks s.cwd
        (.ofRemotes uid s.timestamp Manifest.formatVersion rs) s.disk).1 = none := by
      cases hw : ((manifestFile c p.resolver.config).writeAmid setbacks s.cwd
        (.ofRemotes uid s.timestamp Manifest.formatVersion rs) s.disk).1 with
      | none => rfl
      | some e =>
        rw [hw] at hreport
        cases hreport
    have hwrite := ManifestFile.write_of_writeAmid (Prod.ext hwritten hd.symm)
    refine ⟨p, es, ss, outcome, _, hp, htable, hss, hds, haccount, _,
      readText?_of_readOctets? (ManifestFile.readOctets?_write hwrite), ?_⟩
    rw [Manifest.parse?_document, Option.bind_some, Manifest.ofSyntax?_toSyntax]

/-! ### A shop -/

def shopTable : List (String × Json) :=
  [("cart", .string "https://cdn.acme.dev/cart/entry.js"), ("ui", .string "npm:design-system@2.0.0")]

/-- A package with a remote of the home registry and one of another. -/
def shopPackage : Json := .object [(dependencyTable, .object shopTable)]

def shop : Surroundings :=
  ⟨⟨[("ZE_APP_ORG", "acme"), ("ZE_APP_PROJECT", "shop")]⟩,
    ⟨[(["package.json".toList], .file shopPackage.pretty.toUTF8)]⟩, [], fun _ => .unavailable, "2026-01-01T00:00:00Z"⟩

def shopBuild : ResolveCommand := ⟨"package.json", some "host.shop.acme", none, false, none, "dist"⟩

def shopDescriptors : List Descriptor :=
  [⟨"cart", homeRegistry, "cart", "https://cdn.acme.dev/cart/entry.js"⟩, ⟨"ui", "npm", "design-system", "2.0.0"⟩]

def shopPreparation : Preparation :=
  ⟨shopPackage, shopDescriptors, ⟨.default, shop.environment, none⟩, some ⟨"acme", "shop"⟩⟩

theorem readPackage_shop : readPackage shop "package.json" = .ok shopPackage := by
  have hreads : Json.ReadsAs 0 shopPackage (.object [(some dependencyTable,
      .object (shopTable.map fun e => (some e.1, .string e.2.text?)))]) :=
    .object (.cons ⟨rfl, .object (.cons (.string ..) (.cons (.string ..) .nil))⟩ .nil)
  refine readPackage_of_text (readText?_of_readOctets? rfl : _ = some shopPackage.pretty) ?_
  rw [Json.parse?, hreads.parse?_pretty]
  rfl

theorem prepare_shop : prepare shop shopBuild = .ok shopPreparation := by
  have hcollect : collect shop (directoryOf shopBuild.packageFile) none shopPackage = .ok shopDescriptors :=
    eq_ok_of_toOption (by decide +kernel)
  have hconfig : readConfig shop none = .ok .default := eq_ok_of_toOption (by decide +kernel)
  have hvalid : Config.default.validate = .ok () := eq_ok_of_toOption (by decide +kernel)
  have hcontext : some ⟨"acme", "shop"⟩ =
      AppContext.discover? shop.environment shop.origin shop.disk shop.cwd (directoryOf shopBuild.packageFile) := by
    decide +kernel
  exact prepare_eq_ok.2 ⟨readPackage_shop, hcollect, hconfig, hvalid, rfl, hcontext⟩

def shopRemote : Remote :=
  ⟨"cart", "cart", "https://cdn.acme.dev/cart/entry.js", "https://cdn.acme.dev/cart/",
    "https://cdn.acme.dev/cart/entry.js"⟩

theorem runResolve_shop :
    ∃ text d, ((runResolve noServer (fun _ => none) shop shopBuild).run ()).1 = (.printed text, d) := by
  have hrs : (resolution noServer () shopBuild shopPreparation).1 = .ok [shopRemote] :=
    eq_ok_of_toOption (by decide +kernel)
  rw [runResolve_run, prepare_shop]
  dsimp only
  rw [hrs]
  show ∃ text d, publish (fun _ => none) shop shopBuild _ [shopRemote] = (.printed text, d)
  rw [publish_of_uid rfl, config_resolution]
  exact ⟨_, _, rfl⟩

/-- The shop is built with its own remote, and the other registry's is left to that. -/
theorem manifest_of_build_of_shop :
    ∃ text d, ((runResolve noServer (fun _ => none) shop shopBuild).run ()).1 = (.printed text, d) ∧
      ∃ document m, d.readText? [] "dist/zephyr-manifest.json".toList = some document ∧
        (JsonSyntax.parse? document.toList).bind Manifest.ofSyntax? = some m ∧
        ∀ name entry, m.dependencies.get? name = some entry ↔ name = "cart" ∧ entry = ⟨"cart",
          "https://cdn.acme.dev/cart/entry.js", "https://cdn.acme.dev/cart/", "https://cdn.acme.dev/cart/entry.js"⟩ := by
  obtain ⟨text, d, h⟩ := runResolve_shop
  obtain ⟨p, es, ss, outcome, m, hp, -, -, -, haccount, document, hread, hparse⟩ :=
    manifest_of_build noServer (fun _ => none) shop shopBuild () text d h
  cases hp.symm.trans prepare_shop
  have hcart : shopDescriptors.head (List.cons_ne_nil _ _) ∈ shopPreparation.descriptors := List.mem_cons_self
  obtain ⟨x, ho⟩ := haccount.strict rfl _ hcart rfl
  have halone := haccount.alone (fun _ => none) rfl _ hcart
  have hx : x = shopRemote := by
    have hdirect : shopPreparation.resolver.alone (fun _ => none) shopPreparation.context none
      (shopDescriptors.head (List.cons_ne_nil _ _)) = .ok [shopRemote] := eq_ok_of_toOption (by decide +kernel)
    rw [hdirect, ho] at halone
    exact (List.singleton_inj.1 (Except.ok.inj halone)).symm
  refine ⟨text, d, h, document, m, hread, hparse, fun name entry => (haccount.manifest name entry).trans ⟨?_, ?_⟩⟩
  · rintro ⟨c, hc, rfl, remote, hremote, huid, hurl, hpath, hversion⟩
    rcases List.mem_cons.1 hc with rfl | hui
    · cases hremote.symm.trans ho
      subst hx
      exact ⟨rfl, (ManifestDependency.ofRemote_eq_iff.2 ⟨huid, hurl, hpath, hversion⟩).symm⟩
    · obtain rfl := List.mem_singleton.1 hui
      cases hremote.symm.trans (haccount.foreign _ hc rfl)
  · rintro ⟨rfl, rfl⟩
    subst hx
    exact ⟨_, hcart, rfl, _, ho, rfl, rfl, rfl, rfl⟩

end Federation.CommandLine
