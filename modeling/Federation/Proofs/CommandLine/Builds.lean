import Federation.CommandLine.Run
import Federation.Proofs.Manifest.Faults
import Federation.Proofs.Manifest.Writes
import Federation.Proofs.Resolver.Remotes

/-!
# Builds

A build goes through three stages: it reads all that resolving needs (`prepare_eq_ok`), it resolves, and it publishes.
The disk stays as it is until the last one, and there only the write of the manifest touches it (`publish_cases`). So
a build fails with the disk as it was, or it got as far as this write (`runResolve_cases`). Whatever fails, be it a
step of the write that nothing on the disk stood in the way of, the manifest of the build before is left alone
(`failed_build_keeps_manifest`).
-/

namespace Federation.CommandLine

theorem bind_eq_ok {ε α β : Type} {x : Except ε α} {f : α → Except ε β} {b : β} :
    x >>= f = .ok b ↔ ∃ a, x = .ok a ∧ f a = .ok b := by
  cases x with
  | error e => exact iff_of_false nofun nofun
  | ok a => exact ⟨fun h => ⟨a, rfl, h⟩, fun ⟨_, ha, h⟩ => by cases ha; exact h⟩

theorem lift_eq_ok {α : Type} {x : Except Error α} {a : α} : lift x = .ok a ↔ x = .ok a := by
  cases x <;> simp [lift]

theorem ofConfig_eq_ok {config : Config} {environment : Environment} {r : RemoteResolver} :
    RemoteResolver.ofConfig config environment = .ok r ↔
      config.validate = .ok () ∧ r = ⟨config, environment, none⟩ := by
  unfold RemoteResolver.ofConfig
  rw [bind_eq_ok]
  constructor
  · rintro ⟨u, hvalid, hr⟩
    cases hr
    exact ⟨hvalid, rfl⟩
  · rintro ⟨hvalid, rfl⟩
    exact ⟨(), hvalid, rfl⟩

variable {s : Surroundings} {c : ResolveCommand} {p : Preparation}

theorem readPackage_of_text {path text : String} {package : Json}
    (h : s.disk.readText? s.cwd path.toList = some text) (hparse : Json.parse? text = some package) :
    readPackage s path = .ok package := by
  rw [readPackage, h]
  show orFail _ (Json.parse? text) = _
  rw [hparse]
  rfl

theorem prepare_eq_ok : prepare s c = .ok p ↔
    readPackage s c.packageFile = .ok p.package ∧
    collect s (directoryOf c.packageFile) c.platform p.package = .ok p.descriptors ∧
    readConfig s c.config = .ok p.resolver.config ∧ p.resolver.config.validate = .ok () ∧
    p.resolver = ⟨p.resolver.config, s.environment, none⟩ ∧
    p.context = AppContext.discover? s.environment s.origin s.disk s.cwd (directoryOf c.packageFile) := by
  unfold prepare
  simp only [bind_eq_ok, lift_eq_ok, ofConfig_eq_ok, pure, Except.pure, Except.ok.injEq]
  constructor
  · rintro ⟨package, hpackage, ds, hds, config, hconfig, r, ⟨hvalid, rfl⟩, rfl⟩
    exact ⟨hpackage, hds, hconfig, hvalid, rfl, rfl⟩
  · obtain ⟨package, ds, r, context⟩ := p
    rintro ⟨hpackage, hds, hconfig, hvalid, hr, rfl⟩
    exact ⟨package, hpackage, ds, hds, r.config, hconfig, r, ⟨hvalid, hr⟩, rfl⟩

/-! ### Stages -/

variable {σ : Type} {transport : Transport (StateM σ)} {setbacks : ManifestFile.Setbacks} {t : σ} {report : Report}
  {d : Disk} {message : String}

/-- What a build resolves, with the resolver after it. -/
def resolution (transport : Transport (StateM σ)) (t : σ) (c : ResolveCommand) (p : Preparation) :
    Except Error (List Remote) × RemoteResolver :=
  ((p.resolver.resolve transport p.context ⟨!c.allowPartial, none⟩ p.descriptors).run t).1

theorem config_resolution : (resolution transport t c p).2.config = p.resolver.config := by
  show (if _ then p.resolver.remember p.context else p.resolver).config = _
  split <;> rfl

/-- The file in which a build leaves its manifest. -/
def manifestFile (c : ResolveCommand) (config : Config) : ManifestFile :=
  .inDirectory c.output config.manifestFileName

theorem runResolve_run (transport : Transport (StateM σ)) (setbacks : ManifestFile.Setbacks) (s : Surroundings)
    (c : ResolveCommand) (t : σ) :
    ((runResolve transport setbacks s c).run t).1 = match prepare s c with
      | .error e => (.failed e, s.disk)
      | .ok p => match lift (resolution transport t c p).1 with
        | .error e => (.failed e, s.disk)
        | .ok rs => publish setbacks s c { p with resolver := (resolution transport t c p).2 } rs := by
  unfold runResolve
  cases prepare s c with
  | error e => rfl
  | ok p =>
    let publishing : StateM σ (Report × Disk) := match lift (resolution transport t c p).1 with
      | .error e => pure (.failed e, s.disk)
      | .ok rs => pure (publish setbacks s c { p with resolver := (resolution transport t c p).2 } rs)
    show (publishing.run _).1 = _
    dsimp only [publishing]
    cases lift (resolution transport t c p).1 <;> rfl

/-- The report on a write. -/
def reportOf (f : ManifestFile) : Option Error → Report
  | none => .printed (String.ofList f.path ++ "\n")
  | some e => .failed e.display

/-- Of what is published under a uid, the write decides. -/
theorem publish_of_uid {rs : List Remote} {uid : String}
    (h : hostUid c p.package (p.resolver.contextOr p.context) = .ok uid) :
    let f := manifestFile c p.resolver.config
    let written := f.writeAmid setbacks s.cwd (.ofRemotes uid s.timestamp Manifest.formatVersion rs) s.disk
    publish setbacks s c p rs = (reportOf f written.1, written.2) := by
  unfold publish
  rw [h]
  dsimp only [manifestFile]
  split <;> rename_i hwritten <;> rw [hwritten] <;> rfl

/-- Without a uid nothing is written. -/
theorem publish_cases {rs : List Remote} (h : publish setbacks s c p rs = (report, d)) :
    (∃ message, report = .failed message ∧ d = s.disk) ∨
    ∃ uid, let f := manifestFile c p.resolver.config
      let written := f.writeAmid setbacks s.cwd (.ofRemotes uid s.timestamp Manifest.formatVersion rs) s.disk
      report = reportOf f written.1 ∧ d = written.2 := by
  cases huid : hostUid c p.package (p.resolver.contextOr p.context) with
  | error e =>
    rw [publish, huid] at h
    cases h
    exact .inl ⟨_, rfl, rfl⟩
  | ok uid =>
    rw [publish_of_uid huid] at h
    cases h
    exact .inr ⟨uid, rfl, rfl⟩

/-- A build fails with the disk as it was, or comes to the write of its manifest, which then decides. -/
theorem runResolve_cases (h : ((runResolve transport setbacks s c).run t).1 = (report, d)) :
    (∃ message, report = .failed message ∧ d = s.disk) ∨
    ∃ p rs uid, prepare s c = .ok p ∧ (resolution transport t c p).1 = .ok rs ∧
      let f := manifestFile c p.resolver.config
      let written := f.writeAmid setbacks s.cwd (.ofRemotes uid s.timestamp Manifest.formatVersion rs) s.disk
      report = reportOf f written.1 ∧ d = written.2 := by
  rw [runResolve_run] at h
  cases hp : prepare s c with
  | error e =>
    rw [hp] at h
    cases h
    exact .inl ⟨e, rfl, rfl⟩
  | ok p =>
    rw [hp] at h
    dsimp only at h
    cases hrs : lift (resolution transport t c p).1 with
    | error e =>
      rw [hrs] at h
      cases h
      exact .inl ⟨e, rfl, rfl⟩
    | ok rs =>
      rw [hrs] at h
      rcases publish_cases h with hfailed | ⟨uid, hpublished⟩
      · exact .inl hfailed
      · rw [config_resolution] at hpublished
        exact .inr ⟨p, rs, uid, rfl, lift_eq_ok.1 hrs, hpublished⟩

theorem reportOf_eq_failed {f : ManifestFile} {o : Option Error} (h : reportOf f o = .failed message) :
    ∃ e, o = some e := by
  cases o with
  | none => cases h
  | some e => exact ⟨e, rfl⟩

/-- Whatever makes a build fail, the manifest of the build before is left alone: if the settings cannot be read, so that
it is not known where the manifest lies, the disk stays as it was, and else the file at its place has not changed. Any
step of the write may fail for whatever reason. The write itself changes the manifest only if it succeeds. -/
theorem failed_build_keeps_manifest {σ : Type} (transport : Transport (StateM σ)) (setbacks : ManifestFile.Setbacks)
    (s : Surroundings) (c : ResolveCommand) (t : σ) (message : String) (d : Disk) (hs : s.disk.IsTree)
    (h : ((runResolve transport setbacks s c).run t).1 = (.failed message, d)) :
    (∀ e, readConfig s c.config = .error e → d = s.disk) ∧
    (∀ config, readConfig s c.config = .ok config →
      (ManifestFile.inDirectory c.output config.manifestFileName).Untouched s.cwd s.disk d) ∧
    ∀ (setbacks : ManifestFile.Setbacks) (f : ManifestFile) (cwd : Location) (m : Manifest) (d d' : Disk) (e : Error),
      d.IsTree → f.writeAmid setbacks cwd m d = (some e, d') → f.Untouched cwd d d' := by
  have hwrite {setbacks : ManifestFile.Setbacks} {f : ManifestFile} {cwd : Location} {m : Manifest} {d d' : Disk}
      {e : Error} (hd : d.IsTree) (hw : f.writeAmid setbacks cwd m d = (some e, d')) : f.Untouched cwd d d' :=
    ManifestFile.untouched_writeAmid hd hw
  rcases runResolve_cases h with ⟨-, -, rfl⟩ | ⟨p, rs, uid, hp, -, hreport, hd⟩
  · exact ⟨fun _ _ => rfl, fun _ _ => .refl hs, fun _ _ _ _ _ _ _ => hwrite⟩
  · have hconfig := (prepare_eq_ok.1 hp).2.2.1
    refine ⟨fun e he => ?_, fun config hok => ?_, fun _ _ _ _ _ _ _ => hwrite⟩
    · cases hconfig.symm.trans he
    · cases hconfig.symm.trans hok
      obtain ⟨e, he⟩ := reportOf_eq_failed hreport.symm
      exact hwrite hs (Prod.ext he hd.symm)

/-- A package without dependencies, beside the manifest of an earlier build. -/
def earlierDisk : Disk :=
  ⟨[(["package.json".toList], .file "\x7b\x7d".toUTF8), (["dist".toList], .directory),
    (["dist".toList, "zephyr-manifest.json".toList], .file "earlier".toUTF8)]⟩

def plainBuild : ResolveCommand := ⟨"package.json", some "host.shop.acme", none, false, none, "dist"⟩

/-- A network without a server. -/
def noServer : Transport (StateM Unit) := fun _ => pure none

def besideEarlier : Surroundings := ⟨⟨[]⟩, earlierDisk, [], fun _ => .unavailable, "2026-01-01T00:00:00Z"⟩

/-- The disk is full when three octets of the temporary file are written. -/
def fullDisk : ManifestFile.Setbacks
  | .fillTemporary _ => some 3
  | _ => none

/-- The whole document is in the temporary file, which must not be moved. -/
def noMove : ManifestFile.Setbacks
  | .moveIntoPlace => some 0
  | _ => none

theorem isTree_earlierDisk : earlierDisk.IsTree := by
  refine Disk.IsTree.of_nodes fun e he => ?_
  simp only [earlierDisk, List.mem_cons, List.not_mem_nil, or_false] at he
  rcases he with rfl | rfl | rfl <;> rfl

theorem readPackage_besideEarlier : readPackage besideEarlier "package.json" = .ok (.object []) := by
  have hread : besideEarlier.disk.readText? [] "package.json".toList = some "\x7b\x7d" :=
    fromUTF8?_toUTF8 "\x7b\x7d"
  exact readPackage_of_text hread rfl

theorem prepare_besideEarlier :
    ∃ p, prepare besideEarlier plainBuild = .ok p ∧ p.descriptors = [] ∧ p.resolver.config = .default := by
  let context := AppContext.discover? ⟨[]⟩ (fun _ => .unavailable) earlierDisk [] ['.']
  have hconfig : readConfig besideEarlier none = .ok .default := eq_ok_of_toOption (by decide +kernel)
  have hvalid : Config.default.validate = .ok () := eq_ok_of_toOption (by decide +kernel)
  exact ⟨⟨.object [], [], ⟨.default, ⟨[]⟩, none⟩, context⟩,
    prepare_eq_ok.2 ⟨readPackage_besideEarlier, rfl, hconfig, hvalid, rfl, rfl⟩, rfl, rfl⟩

/-- Of a build that writes a manifest, the write decides. -/
theorem runResolve_besideEarlier (setbacks : ManifestFile.Setbacks) :
    let f := ManifestFile.inDirectory "dist" "zephyr-manifest.json"
    let written := f.writeAmid setbacks [] (.ofRemotes "host.shop.acme" "2026-01-01T00:00:00Z" Manifest.formatVersion [])
      earlierDisk
    ((runResolve noServer setbacks besideEarlier plainBuild).run ()).1 = (reportOf f written.1, written.2) := by
  obtain ⟨p, hp, hds, hconfig⟩ := prepare_besideEarlier
  have hrs : (resolution noServer () plainBuild p).1 = .ok [] := by
    rw [resolution, hds]
    rfl
  rw [runResolve_run, hp]
  dsimp only
  rw [hrs]
  show publish setbacks besideEarlier plainBuild _ [] = _
  rw [publish_of_uid rfl, config_resolution, hconfig]
  rfl

/-- The write of the temporary file breaks off, or the file cannot be moved over the manifest that is there. -/
theorem failed_build_keeps_manifest_of_setbacks :
    (∃ message d, ((runResolve noServer fullDisk besideEarlier plainBuild).run ()).1 = (.failed message, d) ∧
      (d.readOctets? [] "dist/zephyr-manifest.json.tmp".toList).map (·.size) = some 3 ∧
      d.readOctets? [] "dist/zephyr-manifest.json".toList = some "earlier".toUTF8) ∧
    ∃ message d, ((runResolve noServer noMove besideEarlier plainBuild).run ()).1 = (.failed message, d) ∧
      (d.readOctets? [] "dist/zephyr-manifest.json.tmp".toList).isSome = true ∧
      d.readOctets? [] "dist/zephyr-manifest.json".toList = some "earlier".toUTF8 := by
  obtain ⟨p, hp, -, hconfig⟩ := prepare_besideEarlier
  have hconfig : readConfig besideEarlier none = .ok .default := hconfig ▸ (prepare_eq_ok.1 hp).2.2.1
  have hfull := runResolve_besideEarlier fullDisk
  have hmove := runResolve_besideEarlier noMove
  obtain ⟨-, hkept, -⟩ := failed_build_keeps_manifest noServer fullDisk besideEarlier plainBuild () _ _
    isTree_earlierDisk hfull
  obtain ⟨-, hkept', -⟩ := failed_build_keeps_manifest noServer noMove besideEarlier plainBuild () _ _
    isTree_earlierDisk hmove
  exact ⟨⟨_, _, hfull, by decide +kernel, (hkept .default hconfig).readable _ rfl⟩,
    ⟨_, _, hmove, by decide +kernel, (hkept' .default hconfig).readable _ rfl⟩⟩

end Federation.CommandLine
