import Federation.Manifest.Fetch
import Federation.Proofs.Manifest.RoundTrip
import Federation.Proofs.Manifest.Writes

/-!
# Faults of manifests

A manifest is built and written without a look at its faults. They show when it is read: whoever reads its document,
from a file or from a URL, finds exactly the fault of the manifest. A manifest of remotes lacks the uid of a
dependency only if one of the remotes has none.

A file is loaded only up to a size, which the writer does not look at either. So what was written is loaded again just
when it is valid and not too large, and is refused as invalid otherwise (`load_write`).
-/

namespace Federation

namespace ManifestDependency

theorem fault?_eq_missingDependencyUid {d : ManifestDependency} {key name : String}
    (h : d.fault? key = some (.missingDependencyUid name)) : key = name ∧ isBlank d.applicationUid = true := by
  unfold fault? at h
  split at h
  · rename_i hblank
    cases h
    exact ⟨rfl, hblank⟩
  · split at h <;> cases h

end ManifestDependency

namespace Manifest
variable {m : Manifest} {uid timestamp version name : String} {rs : List Remote}

theorem fault?_of_validate {e : ManifestError} (h : m.validate = .error e) : m.fault? = some e := by
  unfold validate at h
  split at h
  · rename_i he
    cases h
    exact he
  · cases h

/-- The fault is found at an entry of that name. -/
theorem exists_of_missingDependencyUid (h : m.validate = .error (.missingDependencyUid name)) :
    ∃ e ∈ m.dependencies.entries, e.1 = name ∧ isBlank e.2.applicationUid = true := by
  have hfault := fault?_of_validate h
  unfold fault? at hfault
  split at hfault
  · cases hfault
  · obtain ⟨e, he, hfault⟩ := List.exists_of_findSome?_eq_some hfault
    exact ⟨e, he, ManifestDependency.fault?_eq_missingDependencyUid hfault⟩

theorem exists_remote_of_mem {e : String × ManifestDependency}
    (h : e ∈ (ofRemotes uid timestamp version rs).dependencies.entries) : ∃ x ∈ rs, (x.name, .ofRemote x) = e :=
  List.mem_map.1 (KeyMap.mem_of_mem_ofList h)

theorem validate_ofRemotes_ne (h : ∀ x ∈ rs, isBlank x.applicationUid = false) :
    (ofRemotes uid timestamp version rs).validate ≠ .error (.missingDependencyUid name) := by
  intro hfault
  obtain ⟨e, he, -, hblank⟩ := exists_of_missingDependencyUid hfault
  obtain ⟨x, hx, rfl⟩ := exists_remote_of_mem he
  cases hblank.symm.trans (h x hx)

/-- A document that is fetched is taken for its manifest, or found invalid for its fault. -/
theorem ofFetched_document (url : String) (m : Manifest) :
    ofFetched url m.document = match m.validate with
      | .ok () => .ok m
      | .error e => .error (.invalid url e) := by
  rw [ofFetched, ofDocument_document]
  cases m.validate <;> rfl

end Manifest

theorem fromUTF8?_toUTF8 (s : String) : String.fromUTF8? s.toUTF8 = some s := by
  simp only [String.fromUTF8?, String.toUTF8_eq_toByteArray, dif_pos s.isValidUTF8]
  rfl

/-- A document that lies in a file is loaded as its manifest, or refused for its fault, unless it is too large. -/
theorem ManifestFile.load_document {f : ManifestFile} {cwd : Location} {d : Disk} {m : Manifest}
    (h : d.readOctets? cwd f.path = some m.document.toUTF8) (hsize : m.document.toUTF8.size ≤ maxOctets) :
    f.load cwd d = match m.validate with
      | .ok () => .ok m
      | .error e => .error (.manifestInvalid e.message) := by
  unfold Disk.readOctets? at h
  split at h
  · rename_i l bytes hfound
    cases h
    rw [load, hfound]
    dsimp only
    rw [if_neg (Nat.not_lt.2 hsize), fromUTF8?_toUTF8]
    dsimp only
    rw [Manifest.ofDocument_document]
    cases m.validate <;> rfl
  · cases h

/-! ### Files that were written -/

namespace ManifestFile

/-- Of a file that is too large nothing is read but its size. -/
theorem load_of_large {f : ManifestFile} {cwd : Location} {d : Disk} {b : ByteArray}
    (h : d.readOctets? cwd f.path = some b) (hsize : maxOctets < b.size) :
    f.load cwd d = .error (.manifestInvalid ("Manifest " ++ shown f.path ++ " too large (max 1MB)")) := by
  obtain ⟨l, hl⟩ := Disk.readOctets?_eq_some.1 h
  rw [load, hl]
  dsimp only
  rw [if_pos hsize]

/-- A manifest that was written is loaded again just when it is valid and its document has at most a million octets. It
is refused as invalid otherwise: for its size, or else for its fault. -/
theorem load_write (f : ManifestFile) (cwd : Location) (m : Manifest) (d d' : Disk)
    (h : f.write cwd m d = (none, d')) :
    (f.load cwd d' = .ok m ↔ m.validate = .ok () ∧ m.document.utf8ByteSize ≤ 1000000) ∧
    (¬(m.validate = .ok () ∧ m.document.utf8ByteSize ≤ 1000000) →
      ∃ why, f.load cwd d' = .error (.manifestInvalid why) ∧
        if 1000000 < m.document.utf8ByteSize then why = "Manifest " ++ shown f.path ++ " too large (max 1MB)"
        else ∃ e, m.validate = .error e ∧ why = e.message) := by
  have hread : d'.readOctets? cwd f.path = some m.document.toUTF8 := readOctets?_write h
  have hsize : m.document.toUTF8.size = m.document.utf8ByteSize := rfl
  by_cases hlarge : 1000000 < m.document.utf8ByteSize
  · have hload := load_of_large hread (hsize ▸ hlarge)
    refine ⟨?_, fun _ => ⟨_, hload, by rw [if_pos hlarge]⟩⟩
    rw [hload]
    exact iff_of_false nofun fun hok => absurd hok.2 (Nat.not_le.2 hlarge)
  · have hload := load_document hread (hsize ▸ Nat.not_lt.1 hlarge)
    cases hvalid : m.validate with
    | ok =>
      rw [hvalid] at hload
      exact ⟨iff_of_true hload ⟨rfl, Nat.not_lt.1 hlarge⟩, fun hno => absurd ⟨rfl, Nat.not_lt.1 hlarge⟩ hno⟩
    | error e =>
      rw [hvalid] at hload
      refine ⟨?_, fun _ => ⟨_, hload, by rw [if_neg hlarge]; exact ⟨e, rfl, rfl⟩⟩⟩
      rw [hload]
      exact iff_of_false nofun fun hok => nomatch hok.1

/-- A host without a uid is written like any other, and cannot be loaded. -/
theorem load_write_of_two :
    let f := inDirectory "dist" "zephyr-manifest.json"
    let named : Manifest := ⟨"1.0.0", "", "höst.shop.acme", .empty⟩
    let unnamed : Manifest := ⟨"1.0.0", "", " ", .empty⟩
    (f.write [] named .empty).1 = none ∧ f.load [] (f.write [] named .empty).2 = .ok named ∧
    (f.write [] unnamed .empty).1 = none ∧
      ∃ why, f.load [] (f.write [] unnamed .empty).2 = .error (.manifestInvalid why) := by
  intro f named unnamed
  have hnamed : (f.write [] named .empty).1 = none := Option.isNone_iff_eq_none.1 (by decide +kernel)
  have hunnamed : (f.write [] unnamed .empty).1 = none := Option.isNone_iff_eq_none.1 (by decide +kernel)
  have hvalid : named.validate = .ok () ∧ named.document.utf8ByteSize ≤ 1000000 := by decide +kernel
  have hinvalid : ¬(unnamed.validate = .ok () ∧ unnamed.document.utf8ByteSize ≤ 1000000) := by decide +kernel
  refine ⟨hnamed, (load_write f [] named .empty _ (Prod.ext hnamed rfl)).1.2 hvalid, hunnamed, ?_⟩
  obtain ⟨why, hwhy, -⟩ := (load_write f [] unnamed .empty _ (Prod.ext hunnamed rfl)).2 hinvalid
  exact ⟨why, hwhy⟩

end ManifestFile

end Federation
