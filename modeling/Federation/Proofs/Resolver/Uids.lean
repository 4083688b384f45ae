import Federation.Dependency
import Federation.Proofs.Application.PackageUids
import Federation.Proofs.Manifest.Faults
import Federation.Proofs.Resolver.Remotes

/-!
# Uids of remotes

A remote whose URL is written in the table keeps the uid of its dependency, and one that the registry was asked for
gets the uid in the answer, or the qualified one that was asked for. A qualified uid is never blank, but nobody looks
at the other two: `uid_blank_iff` says that these are the ways, and the only ones, in which a remote gets a blank uid.
Its host is built and written all the same, and no application can load the manifest (`manifest_unloadable`).
-/

namespace Federation

/-! ### Qualified uids -/

theorem isBlank_of_mem {s : String} {c : Char} (hc : c ∈ s.toList) (h : isBlankChar c = false) : isBlank s = false := by
  rw [isBlank, Text.isBlank, List.all_eq_false]
  exact ⟨c, hc, by simp [h]⟩

theorem isBlank_of_isFullyQualified {uid : String} (h : isFullyQualified uid = true) : isBlank uid = false := by
  have hpoint : '.' ∈ uid.toList := by
    by_contra hno
    have hfree : ∀ c ∈ uid.toList, (c == '.') = false := fun c hc => beq_eq_false_iff_ne.2 fun he => hno (he ▸ hc)
    simp [isFullyQualified, Text.pieces_of_free hfree] at h
  exact isBlank_of_mem hpoint (by decide)

theorem AppContext.isBlank_uidOf (c : AppContext) (segment : String) : isBlank (c.uidOf segment) = false := by
  have hpoint : '.' ∈ (c.uidOf segment).toList := by simp [uidOf, toString]
  exact isBlank_of_mem hpoint (by decide)

/-- A uid that the registry is asked for is not blank. -/
theorem isBlank_of_qualifyUid {uid full : String} {context : Option AppContext}
    (h : qualifyUid uid context = .ok full) : isBlank full = false := by
  rcases qualifyUid_eq_ok.1 h with ⟨hfull, rfl⟩ | ⟨-, c, -, -, rfl⟩
  · exact isBlank_of_isFullyQualified hfull
  · exact c.isBlank_uidOf _

/-! ### Uids that are taken over -/

/-- What leaves the remote of a dependency without a uid, with what the registry answers if it is asked: the version is
a URL and the dependency has no uid itself, or the registry names a blank one. -/
def Descriptor.Unnamed (answer : Except Error Resolution) (d : Descriptor) : Prop :=
  if isLiteralUrl d.version then isBlank d.applicationUid = true
  else ∃ a u, answer = .ok a ∧ a.applicationUid = some u ∧ isBlank u = true

theorem Descriptor.Yields.isBlank_iff {d : Descriptor} {context : Option AppContext} {answer : Except Error Resolution}
    {x : Remote} (h : d.Yields context answer x) : isBlank x.applicationUid = true ↔ d.Unnamed answer := by
  unfold Unnamed
  cases h with
  | direct _ hliteral hremote =>
    obtain ⟨u, -, rfl⟩ := directRemote_eq_ok.1 hremote
    rw [if_pos hliteral]
  | asked _ hliteral uid hqualified a hanswer hremote =>
    obtain ⟨raw, entry, path, -, -, -, rfl⟩ := Resolution.toRemote_eq_ok.1 hremote
    rw [if_neg (Bool.not_eq_true _ ▸ hliteral), hanswer]
    cases huid : a.applicationUid with
    | none => simp [huid, isBlank_of_qualifyUid hqualified]
    | some u => simp [huid]

namespace RemoteResolver

/-- The uid of a resolved remote is blank just when the dependency that yields it is `Unnamed` by the answer that the
registry gave for it. If none is blank, no manifest of the remotes lacks the uid of a dependency, and neither the loader
of its file nor an application that fetches it refuses it for that. -/
theorem uid_blank_iff {σ : Type} (transport : Transport (StateM σ)) (found : Option AppContext)
    (options : ResolveOptions) (ds : List Descriptor) (r : RemoteResolver) (s : σ) (rs : List Remote)
    (h : ((r.resolve transport found options ds).run s).1.1 = .ok rs) :
    (∀ x ∈ rs, ∃ d ∈ ds, ∃ token s',
      let answer := (((d.plan (r.contextOr found) token).inquiry transport r.config.apiBase).run s').1
      d.Yields (r.contextOr found) answer x ∧ (isBlank x.applicationUid = true ↔ d.Unnamed answer)) ∧
    ((∀ x ∈ rs, isBlank x.applicationUid = false) → ∀ uid timestamp version,
      let m := Manifest.ofRemotes uid timestamp version rs
      (∀ name, m.validate ≠ .error (.missingDependencyUid name)) ∧
      (∀ url name, Manifest.ofFetched url m.document ≠ .error (.invalid url (.missingDependencyUid name))) ∧
      ∀ (f : ManifestFile) (cwd : Location) (disk : Disk), disk.readOctets? cwd f.path = some m.document.toUTF8 →
        m.document.toUTF8.size ≤ ManifestFile.maxOctets →
        f.load cwd disk = .ok m ∨ ∃ e : ManifestError, (∀ name, e ≠ .missingDependencyUid name) ∧
          f.load cwd disk = .error (.manifestInvalid e.message)) := by
  refine ⟨fun x hx => ?_, fun hnamed uid timestamp version => ?_⟩
  · obtain ⟨d, hd, token, s', hyields⟩ := yields_of_mem_resolve h hx
    exact ⟨d, hd, token, s', hyields, hyields.isBlank_iff⟩
  · intro m
    have hvalid (name : String) : m.validate ≠ .error (.missingDependencyUid name) :=
      Manifest.validate_ofRemotes_ne hnamed
    refine ⟨hvalid, fun url name => ?_, fun f cwd disk hfile hsize => ?_⟩
    · rw [Manifest.ofFetched_document]
      cases hm : m.validate with
      | ok => exact nofun
      | error e =>
        intro he
        cases he
        exact hvalid name hm
    · rw [ManifestFile.load_document hfile hsize]
      cases hm : m.validate with
      | ok => exact .inl rfl
      | error e => exact .inr ⟨e, fun name he => hvalid name (he ▸ hm), rfl⟩

/-- A registry that answers every question with the same uid. -/
def namingRegistry (uid : String) : Transport (StateM Unit) := fun _ =>
  let body := "\x7b\"value\":\x7b\"application_uid\":\"" ++ uid ++
    "\",\"remote_entry_url\":\"https://cdn.acme.dev/cart/entry.js\"\x7d\x7d"
  pure (some ⟨200, body.toList.map fun c => UInt8.ofNat c.toNat⟩)

/-- What a host resolves whose table has one entry. -/
def resolveEntry (registry : Transport (StateM Unit)) (key specifier : String) : Option (List Remote) := do
  let r : RemoteResolver := ⟨Config.default, ⟨[]⟩, none⟩
  let ds ← ((collectDescriptors (.object [(key, .string specifier)]) none passThrough).run ()).1.toOption
  ((r.resolve registry none ⟨true, some "secret"⟩ ds).run ()).1.1.toOption

theorem uid_blank_iff_of_cart :
    let r : RemoteResolver := ⟨Config.default, ⟨[]⟩, none⟩
    let ds : List Descriptor := [.parse "cart" "cart.shop.acme@1.0.0"]
    let rs : List Remote :=
      [⟨"cart", "cart.shop.acme", "https://cdn.acme.dev/cart/entry.js", "https://cdn.acme.dev/cart/", "1.0.0"⟩]
    ((r.resolve (namingRegistry "cart.shop.acme") none ⟨true, some "secret"⟩ ds).run ()).1.1 = .ok rs ∧
    ∀ name, (Manifest.ofRemotes "host.shop.acme" "" "1.0.0" rs).validate ≠ .error (.missingDependencyUid name) := by
  intro r ds rs
  have h : ((r.resolve (namingRegistry "cart.shop.acme") none ⟨true, some "secret"⟩ ds).run ()).1.1 = .ok rs :=
    eq_ok_of_toOption (by decide +kernel)
  have hnamed : ∀ x ∈ rs, isBlank x.applicationUid = false := by decide +kernel
  exact ⟨h, ((uid_blank_iff _ none _ ds r () rs h).2 hnamed "host.shop.acme" "" "1.0.0").1⟩

/-- A blank key with a URL, and a registry that names a blank uid: both hosts are built, and their manifests refused. -/
theorem manifest_unloadable :
    (resolveEntry (namingRegistry "cart.shop.acme") " " "https://ads.acme.dev/x.js").map
        (fun rs => (Manifest.ofRemotes "host.shop.acme" "" "1.0.0" rs).validate) =
      some (.error (.missingDependencyUid " ")) ∧
    (resolveEntry (namingRegistry "") "cart" "cart.shop.acme@1.0.0").map
        (fun rs => (Manifest.ofRemotes "host.shop.acme" "" "1.0.0" rs).validate) =
      some (.error (.missingDependencyUid "cart")) := by
  decide +kernel

end RemoteResolver

end Federation
