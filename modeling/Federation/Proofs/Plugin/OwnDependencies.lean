import Federation.Proofs.Plugin.Tables

/-!
# Whose dependency a remote gets

Of the declared remotes of one name a request rewrites the first, and a plugin without a table gives it the
dependency of the last one that the manifest has. Both are the same remote as long as names and aliases do not
meet. Where they do, the first remote gets the entry URL of another remote's dependency, unless both stand for the
same one: see `own_dependency_iff` and `entry_of_another_remote`.
-/

namespace Federation

namespace Manifest
variable {m : Manifest} {key : String}

def SameNames (m m' : Manifest) : Prop := ∀ n, m.dependencies.contains n = m'.dependencies.contains n

theorem exists_entryUrl? (h : m.dependencies.contains key = true) (overrides : SessionOverrides) :
    ∃ url, m.entryUrl? overrides key = some url := by
  obtain ⟨d, hd⟩ := Option.isSome_iff_exists.1 h
  exact ⟨_, by rw [entryUrl?, hd, Option.map_some]⟩

/-- The manifest with another entry URL, and nothing else, for a dependency. -/
def withUrl (m : Manifest) (key url : String) : Manifest :=
  { m with dependencies := m.dependencies.insert key ⟨"", url, "", ""⟩ }

theorem sameNames_withUrl (h : m.dependencies.contains key = true) (url : String) :
    (m.withUrl key url).SameNames m := by
  intro n
  by_cases hn : n = key
  · subst hn
    rw [h, withUrl, KeyMap.contains, KeyMap.get?_insert, if_pos rfl, Option.isSome_some]
  · rw [withUrl, KeyMap.contains, KeyMap.get?_insert, if_neg hn, KeyMap.contains]

theorem entryUrl?_withUrl (m : Manifest) (key url k : String) :
    (m.withUrl key url).entryUrl? .empty k =
      if k = key then some (withoutVersionPrefix url) else m.entryUrl? .empty k := by
  rw [entryUrl?, withUrl, KeyMap.get?_insert]
  split <;> simp [entryUrl?]

end Manifest

namespace ModuleRequest
variable {overrides : SessionOverrides} {m m' : Manifest} {r : ModuleRequest} {d : RemoteDeclaration} {key : String}

/-- The declared remotes of the name that is asked for, in order. -/
def candidates (r : ModuleRequest) : List RemoteDeclaration := r.remotes.filter (·.isCalled r.remoteName)

/-- The dependency of the first of them, which is the remote that is rewritten. -/
def ownKey? (r : ModuleRequest) (m : Manifest) : Option String := r.candidates.head?.bind (·.dependencyKey? m)

/-- The dependency of the last of them that the manifest has. -/
def lastKey? (r : ModuleRequest) (m : Manifest) : Option String :=
  (r.candidates.filterMap (·.dependencyKey? m)).getLast?

theorem dependencyKey?_of_sameNames (h : m.SameNames m') (d : RemoteDeclaration) :
    d.dependencyKey? m = d.dependencyKey? m' := RemoteDeclaration.dependencyKey?_congr fun n _ => h n

theorem ownKey?_congr (h : m.SameNames m') : r.ownKey? m = r.ownKey? m' := by
  rw [ownKey?, ownKey?, funext (dependencyKey?_of_sameNames h)]

theorem lastKey?_congr (h : m.SameNames m') : r.lastKey? m = r.lastKey? m' := by
  rw [lastKey?, lastKey?, funext (dependencyKey?_of_sameNames h)]

theorem contains_of_ownKey? (h : r.ownKey? m = some key) : m.dependencies.contains key = true := by
  obtain ⟨d, -, hd⟩ := Option.bind_eq_some_iff.1 h
  exact RemoteDeclaration.contains_of_dependencyKey? hd

theorem contains_of_lastKey? (h : r.lastKey? m = some key) : m.dependencies.contains key = true := by
  obtain ⟨d, -, hd⟩ := List.mem_filterMap.1 (List.mem_of_getLast? h)
  exact RemoteDeclaration.contains_of_dependencyKey? hd

theorem exists_first (h : r.candidates.head? = some d) :
    ∃ before after, r.remotes = before ++ d :: after ∧ (∀ x ∈ before, x.isCalled r.remoteName = false) ∧
      d.isCalled r.remoteName = true := by
  rw [candidates, List.head?_filter] at h
  obtain ⟨hd, before, after, hr, hbefore⟩ := List.find?_eq_some_iff_append.1 h
  exact ⟨before, after, hr, fun x hx => by simpa using hbefore x hx, hd⟩

theorem withEntry_injective (h : r.candidates.head? = some d) : Function.Injective (r.withEntry r.remoteName) := by
  obtain ⟨before, after, hr, hbefore, hd⟩ := exists_first h
  intro u v huv
  rw [withEntry_of_first hr hbefore hd, withEntry_of_first hr hbefore hd] at huv
  simpa using huv

theorem withEntry_entry (h : r.candidates.head? = some d) : r.withEntry r.remoteName d.entry = r := by
  obtain ⟨before, after, hr, hbefore, hd⟩ := exists_first h
  rw [withEntry_of_first hr hbefore hd, ← hr]

theorem redirect_fresh (overrides : SessionOverrides) (m : Manifest) (h : r.remoteName ≠ "") :
    (RequestPlugin.fresh.redirect overrides (some m) r).1 = r.withDependency overrides m (r.lastKey? m) := by
  rw [RequestPlugin.redirect_eq _ _ _ (RequestPlugin.needsManifest_iff.2 h)]
  exact congrArg (r.withDependency overrides m) (RemoteTable.get?_ofRemotes m r.remotes r.remoteName)

/-- A dependency that is not the remote's own can move without the remote's own doing so. -/
theorem exists_moved (h : r.lastKey? m ≠ r.ownKey? m) : ∃ m', m'.SameNames m ∧
    r.withDependency .empty m' (r.lastKey? m') ≠ r.withDependency .empty m' (r.ownKey? m') := by
  cases hfirst : r.candidates.head? with
  | none => simp [lastKey?, ownKey?, List.head?_eq_none_iff.1 hfirst] at h
  | some d =>
    cases hlast : r.lastKey? m with
    | none =>
      -- the first remote is among those whose dependencies count, so it has none
      have hd : d.dependencyKey? m = none := by
        have hnone := List.getLast?_eq_none_iff.1 hlast
        rw [List.filterMap_eq_nil_iff] at hnone
        exact hnone d (List.mem_of_head? hfirst)
      simp [hlast, ownKey?, hfirst, hd] at h
    | some key =>
      have hkey := contains_of_lastKey? hlast
      -- what the remote's own dependency gives it, wherever the other one lies
      obtain ⟨own, hown⟩ : ∃ own, ∀ url, r.withDependency .empty (m.withUrl key url) (r.ownKey? m) =
          r.withEntry r.remoteName own := by
        cases hk : r.ownKey? m with
        | none => exact ⟨d.entry, fun url => (withEntry_entry hfirst).symm⟩
        | some k =>
          obtain ⟨u, hu⟩ := Manifest.exists_entryUrl? (contains_of_ownKey? hk) .empty
          have hne : k ≠ key := by
            rintro rfl
            exact h (hlast.trans hk.symm)
          refine ⟨u, fun url => withDependency_some ?_⟩
          rw [Manifest.entryUrl?_withUrl, if_neg hne, hu]
      obtain ⟨url, hurl⟩ : ∃ url, withoutVersionPrefix url ≠ own := by
        by_cases ha : withoutVersionPrefix "https://a" = own
        · exact ⟨"https://b", ha ▸ by decide⟩
        · exact ⟨_, ha⟩
      have hsame := Manifest.sameNames_withUrl hkey url
      have hmoved : (m.withUrl key url).entryUrl? .empty key = some (withoutVersionPrefix url) := by
        rw [Manifest.entryUrl?_withUrl, if_pos rfl]
      refine ⟨m.withUrl key url, hsame, ?_⟩
      rw [lastKey?_congr hsame, ownKey?_congr hsame, hown, hlast, withDependency_some hmoved]
      exact (withEntry_injective hfirst).ne hurl

/-- A plugin without a table gives the first remote of a name the dependency of the last one that the manifest
has. That is what the first remote's own dependency gives it, whatever the URLs and overrides are, if and only if the
two dependencies are the same. -/
theorem own_dependency_iff (r : ModuleRequest) (m : Manifest) (hname : r.remoteName ≠ "") :
    (∀ overrides, (RequestPlugin.fresh.redirect overrides (some m) r).1 = r.withDependency overrides m (r.lastKey? m)) ∧
    ((∀ overrides m', m'.SameNames m →
      (RequestPlugin.fresh.redirect overrides (some m') r).1 = r.withDependency overrides m' (r.ownKey? m')) ↔
        r.lastKey? m = r.ownKey? m) := by
  refine ⟨fun overrides => redirect_fresh overrides m hname, fun h => ?_, fun h overrides m' hm => ?_⟩
  · by_contra hne
    obtain ⟨m', hm, hmoved⟩ := exists_moved hne
    exact hmoved ((redirect_fresh .empty m' hname).symm.trans (h .empty m' hm))
  · rw [redirect_fresh overrides m' hname, lastKey?_congr hm, h, ownKey?_congr hm]

def shop : Manifest :=
  ⟨"1.0.0", "2026-01-01T00:00:00Z", "host.shop.acme",
    (KeyMap.empty.insert "cart" ⟨"cart.shop.acme", "cart@https://cdn.acme.dev/cart/entry.js", "", "1.0.0"⟩).insert
      "nav" ⟨"nav.shop.acme", "https://cdn.acme.dev/nav/entry.js", "", "1.0.0"⟩⟩

/-- A request for a module of `cart`, which is also the alias of another remote. -/
def cartRequest (other : String) : ModuleRequest :=
  ⟨"cart/Button", [⟨"cart", none, "http://localhost:3001/entry.js"⟩, ⟨other, some "cart", "http://localhost:3002/entry.js"⟩]⟩

/-- The names meet, but the manifest has no `basket`, so that both remotes stand for `cart`. -/
theorem own_dependency_of_basket :
    (cartRequest "basket").remoteName ≠ "" ∧ (cartRequest "basket").lastKey? shop = (cartRequest "basket").ownKey? shop ∧
    (RequestPlugin.fresh.redirect .empty (some shop) (cartRequest "basket")).1.remotes.map (·.entry) =
      ["https://cdn.acme.dev/cart/entry.js", "http://localhost:3002/entry.js"] := by
  have hname : (cartRequest "basket").remoteName ≠ "" := by decide
  have hkeys : (cartRequest "basket").lastKey? shop = (cartRequest "basket").ownKey? shop := by decide
  refine ⟨hname, hkeys, ?_⟩
  rw [(own_dependency_iff (cartRequest "basket") shop hname).2.2 hkeys .empty shop fun _ => rfl]
  decide

/-- The manifest has `cart` and `nav`, and `cart` gets the entry URL of `nav`. -/
theorem entry_of_another_remote :
    (cartRequest "nav").ownKey? shop = some "cart" ∧
    (RequestPlugin.fresh.redirect .empty (some shop) (cartRequest "nav")).1.remotes.map (·.entry) =
      ["https://cdn.acme.dev/nav/entry.js", "http://localhost:3002/entry.js"] ∧
    (RequestPlugin.fresh.redirect .empty (some shop) (cartRequest "nav")).1 ≠
      (cartRequest "nav").withDependency .empty shop ((cartRequest "nav").ownKey? shop) := by
  exact ⟨by decide, by decide, by decide⟩

end ModuleRequest

end Federation
