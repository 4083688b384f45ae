import Federation.Proofs.Resolver.Remotes

/-!
# Blank fields of a resolution

A field that the registry leaves blank should count as one that it leaves out. The default URL and the public path are
read that way. The other three fields are not: a blank entry URL is taken before the default one and found to be blank
only then, and a blank uid or version is taken over as it is. `toRemote_withoutBlanks_iff` says that these are the ways,
and the only ones, in which a blank makes a difference.
-/

namespace Federation

namespace Resolution

/-- The resolution with its blank fields left out. -/
def withoutBlanks (r : Resolution) : Resolution :=
  ⟨visible? r.applicationUid, visible? r.remoteEntryUrl, visible? r.defaultUrl, visible? r.publicPath,
    visible? r.version⟩

/-- A blank entry URL stands before a default one that is not blank. -/
def HidesDefault (r : Resolution) : Prop :=
  (∃ s, r.remoteEntryUrl = some s ∧ isBlank s = true) ∧ ∃ s, r.defaultUrl = some s ∧ isBlank s = false

/-- A field is blank, and not by chance the text that would be taken if it were missing. -/
def KeepsBlank (field : Option String) (requested : String) : Prop :=
  ∃ s, field = some s ∧ isBlank s = true ∧ s ≠ requested

variable {a b r : Resolution} {field : Option String} {requested s name uid version raw : String} {x : Remote}

/-! ### Fields -/

theorem visible?_of_blank (h : isBlank s = true) : visible? (some s) = none := by
  simp [visible?, h]

theorem visible?_of_visible (h : isBlank s = false) : visible? (some s) = some s := by
  simp [visible?, h]

theorem visible?_visible? (field : Option String) : visible? (visible? field) = visible? field := by
  simp [visible?, Option.filter_filter]

theorem getD_visible?_iff : field.getD requested = (visible? field).getD requested ↔ ¬ KeepsBlank field requested := by
  cases field with
  | none => simp [visible?, KeepsBlank]
  | some s =>
    cases h : isBlank s with
    | false => simp [visible?_of_visible h, KeepsBlank, h]
    | true => simp [visible?_of_blank h, KeepsBlank, h]

/-! ### What a remote is made from -/

/-- Two resolutions with one entry URL and one public path make the same of it, but for uid and version. -/
theorem toRemote_eq_map
    (hentry : visible? (a.remoteEntryUrl.or a.defaultUrl) = visible? (b.remoteEntryUrl.or b.defaultUrl))
    (hpath : visible? a.publicPath = visible? b.publicPath) :
    a.toRemote name uid version = (b.toRemote name uid version).map fun x =>
      { x with applicationUid := a.applicationUid.getD uid, version := a.version.getD version } := by
  have hfrom (entry : Url) : publicPathFrom uid entry a.publicPath = publicPathFrom uid entry b.publicPath := by
    rw [publicPathFrom, hpath, publicPathFrom]
  unfold toRemote
  rw [hentry]
  cases visible? (b.remoteEntryUrl.or b.defaultUrl) with
  | none => rfl
  | some raw =>
    cases hraw : absoluteUrl? raw with
    | none => simp only [hraw]; rfl
    | some entry =>
      simp only [hraw, hfrom]
      cases publicPathFrom uid entry b.publicPath <;> rfl

/-- Of a resolution with an entry URL it is never said that it has none. -/
theorem toRemote_ne_missing (h : visible? (r.remoteEntryUrl.or r.defaultUrl) = some raw) :
    r.toRemote name uid version ≠ .error (.invalidResolution uid "no remote_entry_url") := by
  -- the other complaints begin with other characters
  have hwhy {why : String} (hhead : why.toList.head? ≠ some 'n') :
      (Except.error (.invalidResolution uid why) : Except Error Remote) ≠
        .error (.invalidResolution uid "no remote_entry_url") := by
    rintro ⟨⟩
    exact hhead (by decide)
  unfold toRemote publicPathFrom
  rw [h]
  cases hraw : absoluteUrl? raw with
  | none =>
    simp only [hraw]
    exact hwhy (by simp [toString])
  | some entry =>
    simp only [hraw]
    cases visible? r.publicPath with
    | none => exact nofun
    | some p =>
      cases hjoin : entry.join (withProtocol p) with
      | ok u =>
        simp only [hjoin]
        exact nofun
      | error e =>
        simp only [hjoin]
        exact hwhy (by simp [toString])

/-! ### Entry URLs -/

theorem entry_of_hidesDefault (h : r.HidesDefault) :
    visible? (r.remoteEntryUrl.or r.defaultUrl) = none ∧
    ∃ raw, visible? (r.withoutBlanks.remoteEntryUrl.or r.withoutBlanks.defaultUrl) = some raw := by
  obtain ⟨⟨s, hs, hblank⟩, t, ht, hvisible⟩ := h
  refine ⟨?_, t, ?_⟩
  · rw [hs, Option.some_or, visible?_of_blank hblank]
  · rw [withoutBlanks, hs, ht]
    simp only [visible?_of_blank hblank, visible?_of_visible hvisible, Option.none_or]

theorem entry_of_not_hidesDefault (h : ¬ r.HidesDefault) :
    visible? (r.remoteEntryUrl.or r.defaultUrl) =
      visible? (r.withoutBlanks.remoteEntryUrl.or r.withoutBlanks.defaultUrl) := by
  show _ = visible? ((visible? r.remoteEntryUrl).or (visible? r.defaultUrl))
  cases hentry : r.remoteEntryUrl with
  | none => exact (visible?_visible? r.defaultUrl).symm
  | some s =>
    cases hs : isBlank s with
    | false => simp only [visible?_of_visible hs, Option.some_or]
    | true =>
      -- then the default URL is missing or blank too
      have hdefault : visible? r.defaultUrl = none := by
        refine Option.filter_eq_none_iff.2 fun t ht hvisible => h ⟨⟨s, hentry, hs⟩, t, ht, ?_⟩
        simpa using hvisible
      rw [Option.some_or, visible?_of_blank hs, hdefault]
      rfl

/-! ### Blanks against missing fields -/

/-- Blank fields count as missing ones unless a blank entry URL hides the default one, or a remote is made and its uid
or version is a blank one that was not asked for. In the first case the resolution is refused; otherwise the remote is
the one that is made without the blanks, but for those two fields. -/
theorem toRemote_withoutBlanks_iff (r : Resolution) (name uid version : String) :
    (r.toRemote name uid version = r.withoutBlanks.toRemote name uid version ↔
      ¬ r.HidesDefault ∧ ∀ x, r.toRemote name uid version = .ok x →
        ¬ KeepsBlank r.applicationUid uid ∧ ¬ KeepsBlank r.version version) ∧
    (r.HidesDefault → r.toRemote name uid version = .error (.invalidResolution uid "no remote_entry_url")) ∧
    (¬ r.HidesDefault → r.toRemote name uid version = (r.withoutBlanks.toRemote name uid version).map fun x =>
      { x with applicationUid := r.applicationUid.getD uid, version := r.version.getD version }) := by
  have hrefused : r.HidesDefault → r.toRemote name uid version =
      .error (.invalidResolution uid "no remote_entry_url") := by
    intro hhides
    unfold toRemote
    rw [(entry_of_hidesDefault hhides).1]
  have hmade : ¬ r.HidesDefault → r.toRemote name uid version = (r.withoutBlanks.toRemote name uid version).map fun x =>
      { x with applicationUid := r.applicationUid.getD uid, version := r.version.getD version } := fun hshows =>
    toRemote_eq_map (entry_of_not_hidesDefault hshows) (visible?_visible? r.publicPath).symm
  refine ⟨?_, hrefused, hmade⟩
  by_cases hhides : r.HidesDefault
  · obtain ⟨raw, hraw⟩ := (entry_of_hidesDefault hhides).2
    refine iff_of_false (fun hsame => ?_) fun h => h.1 hhides
    exact toRemote_ne_missing hraw (hsame.symm.trans (hrefused hhides))
  · rw [hmade hhides]
    cases hbare : r.withoutBlanks.toRemote name uid version with
    | error e => exact iff_of_true rfl ⟨hhides, nofun⟩
    | ok x =>
      obtain ⟨raw, entry, path, -, -, -, rfl⟩ := toRemote_eq_ok.1 hbare
      rw [← getD_visible?_iff, ← getD_visible?_iff]
      simp [Except.map, hhides, withoutBlanks]

/-- A blank public path and a blank default URL are as good as none. -/
theorem toRemote_withoutBlanks_of_path :
    let r : Resolution := ⟨none, some "//cdn.acme.dev/cart/7/remoteEntry.js", some " ", some "\t", some "1.2.7"⟩
    ¬ r.HidesDefault ∧ ¬ KeepsBlank r.applicationUid "cart.shop.acme" ∧ ¬ KeepsBlank r.version "^1.2.0" ∧
    r.toRemote "cart" "cart.shop.acme" "^1.2.0" = r.withoutBlanks.toRemote "cart" "cart.shop.acme" "^1.2.0" := by
  intro r
  have hshows : ¬ r.HidesDefault := by simp [HidesDefault, r, isBlank, Text.isBlank, isBlankChar]
  have huid : ¬ KeepsBlank r.applicationUid "cart.shop.acme" := by simp [KeepsBlank, r]
  have hversion : ¬ KeepsBlank r.version "^1.2.0" := by simp [KeepsBlank, r, isBlank, Text.isBlank, isBlankChar]
  exact ⟨hshows, huid, hversion,
    (toRemote_withoutBlanks_iff r "cart" "cart.shop.acme" "^1.2.0").1.2 ⟨hshows, fun _ _ => ⟨huid, hversion⟩⟩⟩

/-- A blank entry URL hides the default one, and a blank uid and version are taken over. -/
theorem blank_fields_kept :
    let hidden : Resolution := ⟨none, some "", some "https://cart.acme.dev/remoteEntry.js", none, none⟩
    let blank : Resolution := ⟨some "", some "https://cart.acme.dev/remoteEntry.js", none, none, some " "⟩
    let remote? (r : Resolution) : Option Remote := (r.toRemote "cart" "cart.shop.acme" "1.0.0").toOption
    let remote (uid version : String) : Remote :=
      ⟨"cart", uid, "https://cart.acme.dev/remoteEntry.js", "https://cart.acme.dev/", version⟩
    remote? hidden = none ∧ remote? hidden.withoutBlanks = some (remote "cart.shop.acme" "1.0.0") ∧
    remote? blank = some (remote "" " ") ∧ remote? blank.withoutBlanks = some (remote "cart.shop.acme" "1.0.0") := by
  decide +kernel

end Resolution

end Federation
