import Federation.Manifest.Document
import Federation.Proofs.Json.RoundTrip

/-!
# Manifests that are written and read again

`Manifest.toSyntax` is the syntax of the document of a manifest: that is what reading its text comes to
(`parse?_document`), and its fields are those of the manifest (`ofSyntax?_toSyntax`). Reading a manifest file does
nothing else before it validates, so a document is read as its manifest, or refused for the manifest's own fault.
-/

namespace Federation

open JsonSyntax

namespace ManifestDependency

/-- The syntax in which an entry is written. -/
def toSyntax (d : ManifestDependency) : JsonSyntax :=
  .object [(some "application_uid", .string (some d.applicationUid)),
    (some "remote_entry_url", .string (some d.remoteEntryUrl)), (some "public_path", .string (some d.publicPath)),
    (some "version", .string (some d.version))]

theorem readsAs_toSyntax (level : Nat) (d : ManifestDependency) : Json.ReadsAs level d.toJson d.toSyntax :=
  .object (.cons (.string ..) (.cons (.string ..) (.cons (.string ..) (.cons (.string ..) .nil))))

@[simp] theorem ofSyntax?_toSyntax (d : ManifestDependency) : ofSyntax? d.toSyntax = some d := rfl

end ManifestDependency

namespace Manifest

/-- The syntax in which a manifest is written. -/
def toSyntax (m : Manifest) : JsonSyntax :=
  .object [(some "version", .string (some m.version)), (some "timestamp", .string (some m.timestamp)),
    (some "application_uid", .string (some m.applicationUid)),
    (some "dependencies", .object (m.dependencies.entries.map fun e => (some e.1, e.2.toSyntax)))]

theorem readsAs_toSyntax (m : Manifest) : Json.ReadsAs 0 m.toJson m.toSyntax := by
  have hdeps : Json.ReadsAs 1 (.object (m.dependencies.entries.map fun e => (e.1, e.2.toJson)))
      (.object (m.dependencies.entries.map fun e => (some e.1, e.2.toSyntax))) := by
    refine .object ?_
    rw [List.forall₂_map_left_iff, List.forall₂_map_right_iff, List.forall₂_same]
    exact fun e _ => ⟨rfl, e.2.readsAs_toSyntax _⟩
  exact .object (.cons (.string ..) (.cons (.string ..) (.cons (.string ..) (.cons ⟨rfl, hdeps⟩ .nil))))

/-- The text of a manifest file is read as the syntax of the manifest. -/
theorem parse?_document (m : Manifest) : JsonSyntax.parse? m.document.toList = some m.toSyntax :=
  m.readsAs_toSyntax.parse?_pretty

theorem dependenciesOfSyntax?_entries (deps : KeyMap ManifestDependency) :
    dependenciesOfSyntax? (.object (deps.entries.map fun e => (some e.1, e.2.toSyntax))) = some deps := by
  have hentries : (deps.entries.map fun e => (some e.1, e.2.toSyntax)).mapM
      (fun m => do pure (← m.1, ← ManifestDependency.ofSyntax? m.2)) = some deps.entries := by
    induction deps.entries with
    | nil => rfl
    | cons e es ih => rw [List.map_cons, List.mapM_cons, ih]; rfl
  rw [dependenciesOfSyntax?, hentries]
  exact congrArg some deps.ofList_entries

theorem ofSyntax?_toSyntax (m : Manifest) : ofSyntax? m.toSyntax = some m := by
  have hdeps := dependenciesOfSyntax?_entries m.dependencies
  show (dependenciesOfSyntax? (.object _)).bind (fun deps => some (⟨_, _, _, deps⟩ : Manifest)) = some m
  rw [hdeps]
  rfl

/-- A text is read as a manifest: first without looking for faults, then looking for them. -/
theorem ofDocument_eq (s : String) :
    ofDocument s = match (JsonSyntax.parse? s.toList).bind ofSyntax? with
      | none => .error .json
      | some m => m.validate.map fun _ => m := by
  unfold ofDocument
  cases (JsonSyntax.parse? s.toList).bind ofSyntax? with
  | none => rfl
  | some m => cases h : m.validate <;> simp [h, Except.map]

theorem ofDocument_document (m : Manifest) : ofDocument m.document = m.validate.map fun _ => m := by
  rw [ofDocument_eq, parse?_document, Option.bind_some, ofSyntax?_toSyntax]

theorem document_injective : Function.Injective document := by
  intro m m' h
  have hsyntax : some m.toSyntax = some m'.toSyntax := by rw [← parse?_document, h, parse?_document]
  have hread := congrArg ofSyntax? (Option.some.inj hsyntax)
  rw [ofSyntax?_toSyntax, ofSyntax?_toSyntax] at hread
  exact Option.some.inj hread

theorem validate_of_ofDocument {t : String} {m : Manifest} (h : ofDocument t = .ok m) : m.validate = .ok () := by
  rw [ofDocument_eq] at h
  split at h
  · cases h
  · rename_i m' _
    cases hv : m'.validate with
    | error e =>
      rw [hv] at h
      cases h
    | ok u =>
      rw [hv] at h
      cases h
      exact hv

/-- The document of a manifest is read as that manifest when it is valid, and is refused for its fault when it is
not. So no two manifests have the same document; and a text that is read as a manifest can be replaced by the
manifest's document, which is read as the same manifest and comes out of it again. -/
theorem document_round_trip :
    (∀ m : Manifest, ofDocument m.document =
      match m.validate with
      | .ok () => .ok m
      | .error e => .error e) ∧
    Function.Injective document ∧
    ∀ (t : String) (m : Manifest), ofDocument t = .ok m →
      ofDocument m.document = .ok m ∧ (ofDocument m.document).map document = .ok m.document := by
  refine ⟨fun m => ?_, document_injective, fun t m h => ?_⟩
  · rw [ofDocument_document]
    cases m.validate <;> rfl
  · have hread : ofDocument m.document = .ok m := by rw [ofDocument_document, validate_of_ofDocument h]; rfl
    exact ⟨hread, by rw [hread]; rfl⟩

end Manifest

end Federation
