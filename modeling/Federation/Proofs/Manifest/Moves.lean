import Mathlib.Data.List.Sort
import Federation.Manifest.Changes

/-!
# Which remotes moved

The changes between two manifests are exactly the remotes that both have, under different entry URLs, each once and in
the order of their names (`changes_account`). A list in strict order is known by its elements, so the way back has the
same changes, turned round. And a remote that moved between two manifests moved on the way from one to the other,
whichever manifests lie between, as long as all of them have it (`exists_moves_of_chain`).
-/

namespace Federation

/-- The change on the way back, to the manifest that was the old one. -/
def RemoteChange.back (c : RemoteChange) (old : Manifest) : RemoteChange := ⟨c.remoteName, c.newUrl, c.oldUrl, old⟩

namespace Manifest
variable {old mid new : Manifest} {name : String} {c : RemoteChange}

/-- The entry URL that a manifest records of a dependency. -/
def recordedUrl? (m : Manifest) (name : String) : Option String := (m.dependencies.get? name).map (·.remoteEntryUrl)

/-- A change says of a remote that both manifests have under which URLs they have it, and these are not the same. -/
structure Moved (old new : Manifest) (c : RemoteChange) : Prop where
  before : old.recordedUrl? c.remoteName = some c.oldUrl
  after : new.recordedUrl? c.remoteName = some c.newUrl
  apart : c.oldUrl ≠ c.newUrl
  manifest : c.manifest = new

/-- A remote is reported as moved. -/
def Moves (old new : Manifest) (name : String) : Prop := ∃ c ∈ old.changes new, c.remoteName = name

/-! ### The changes one by one -/

theorem changeOf_eq_some {d : ManifestDependency} : changeOf old new name d = some c ↔
    old.recordedUrl? name = some c.oldUrl ∧ d.remoteEntryUrl = c.newUrl ∧ c.oldUrl ≠ c.newUrl ∧ c.remoteName = name ∧
      c.manifest = new := by
  unfold changeOf recordedUrl?
  cases old.dependencies.get? name with
  | none => exact iff_of_false nofun nofun
  | some before =>
    show (if before.remoteEntryUrl = d.remoteEntryUrl then none else some _) = some c ↔ _
    obtain ⟨n, oldUrl, newUrl, m⟩ := c
    constructor
    · intro h
      split at h
      · cases h
      · rename_i hapart
        cases h
        exact ⟨rfl, rfl, hapart, rfl, rfl⟩
    · rintro ⟨hbefore, hafter, hapart, rfl, rfl⟩
      cases Option.some.inj hbefore
      cases hafter
      exact if_neg hapart

/-- The names of the remotes that moved increase. -/
theorem remoteName_lt_of_changes (old new : Manifest) :
    (old.changes new).Pairwise fun a b => a.remoteName < b.remoteName := by
  refine new.dependencies.sorted.filterMap _ fun a b hab c hc c' hc' => ?_
  rw [(changeOf_eq_some.1 hc).2.2.2.1, (changeOf_eq_some.1 hc').2.2.2.1]
  exact hab

theorem mem_changes : c ∈ old.changes new ↔ old.Moved new c := by
  rw [changes, List.mem_filterMap]
  constructor
  · rintro ⟨⟨name, d⟩, he, hc⟩
    obtain ⟨hbefore, hurl, hapart, rfl, hmanifest⟩ := changeOf_eq_some.1 hc
    refine ⟨hbefore, ?_, hapart, hmanifest⟩
    rw [recordedUrl?, KeyMap.get?_of_mem he, ← hurl]
    rfl
  · intro h
    obtain ⟨d, hd, hurl⟩ := Option.map_eq_some_iff.1 h.after
    exact ⟨(c.remoteName, d), KeyMap.mem_of_get? hd, changeOf_eq_some.2 ⟨h.before, hurl, h.apart, rfl, h.manifest⟩⟩

theorem moves_iff : old.Moves new name ↔
    ∃ u v, old.recordedUrl? name = some u ∧ new.recordedUrl? name = some v ∧ u ≠ v := by
  constructor
  · rintro ⟨c, hc, rfl⟩
    have hmoved := mem_changes.1 hc
    exact ⟨c.oldUrl, c.newUrl, hmoved.before, hmoved.after, hmoved.apart⟩
  · rintro ⟨u, v, hu, hv, hne⟩
    exact ⟨⟨name, u, v, new⟩, mem_changes.2 ⟨hu, hv, hne, rfl⟩, rfl⟩

/-! ### There and back -/

theorem changes_self (m : Manifest) : m.changes m = [] := by
  refine List.eq_nil_iff_forall_not_mem.2 fun c hc => ?_
  have hmoved := mem_changes.1 hc
  exact hmoved.apart (Option.some.inj (hmoved.before.symm.trans hmoved.after))

theorem Moved.back (h : old.Moved new c) : new.Moved old (c.back old) := ⟨h.after, h.before, h.apart.symm, rfl⟩

theorem changes_back (old new : Manifest) : new.changes old = (old.changes new).map (·.back old) := by
  have : Std.Antisymm fun a b : RemoteChange => a.remoteName < b.remoteName :=
    ⟨fun _ _ h h' => absurd (String.lt_trans h h') (String.lt_irrefl _)⟩
  have : Std.Irrefl fun a b : RemoteChange => a.remoteName < b.remoteName := ⟨fun _ => String.lt_irrefl _⟩
  have hback : ((old.changes new).map (·.back old)).Pairwise fun a b => a.remoteName < b.remoteName :=
    List.pairwise_map.2 (remoteName_lt_of_changes old new)
  refine (remoteName_lt_of_changes new old).eq_of_mem_iff hback fun c => ?_
  rw [List.mem_map]
  constructor
  · intro hc
    have hmoved := mem_changes.1 hc
    refine ⟨c.back new, mem_changes.2 hmoved.back, ?_⟩
    rw [← hmoved.manifest]
    rfl
  · rintro ⟨d, hd, rfl⟩
    exact mem_changes.2 (mem_changes.1 hd).back

/-! ### Over manifests between -/

/-- Where a manifest between two has a remote, its URL cannot be both the old and the new one. -/
theorem moves_of_between (hmid : (mid.recordedUrl? name).isSome) (h : old.Moves new name) :
    old.Moves mid name ∨ mid.Moves new name := by
  obtain ⟨u, v, hu, hv, hne⟩ := moves_iff.1 h
  obtain ⟨w, hw⟩ := Option.isSome_iff_exists.1 hmid
  by_cases huw : u = w
  · exact .inr (moves_iff.2 ⟨w, v, hw, hv, huw ▸ hne⟩)
  · exact .inl (moves_iff.2 ⟨u, w, hu, hw, huw⟩)

/-- A chain of manifests loses no move of a remote that all of them have. -/
theorem exists_moves_of_chain {ms : List Manifest} (hall : ∀ m ∈ ms, (m.recordedUrl? name).isSome)
    (h : old.Moves new name) :
    ∃ front a b rest, old :: (ms ++ [new]) = front ++ a :: b :: rest ∧ a.Moves b name := by
  induction ms generalizing old with
  | nil => exact ⟨[], old, new, [], rfl, h⟩
  | cons m ms ih =>
    have ⟨hm, hms⟩ := List.forall_mem_cons.1 hall
    rcases moves_of_between hm h with h | h
    · exact ⟨[], old, m, ms ++ [new], rfl, h⟩
    · obtain ⟨front, a, b, rest, hchain, hab⟩ := ih hms h
      exact ⟨old :: front, a, b, rest, congrArg (old :: ·) hchain, hab⟩

/-- The changes are the remotes that both manifests have under different URLs, with these URLs, once each and in the
order of their names. Between a manifest and itself there are none, on the way back they are the same with the URLs
exchanged, and what moved between two manifests moved on the way over a third one that has all remotes of both. -/
theorem changes_account (old new : Manifest) :
    (∀ c, c ∈ old.changes new ↔ old.Moved new c) ∧
    ((old.changes new).Pairwise fun a b => a.remoteName < b.remoteName) ∧
    old.changes old = [] ∧
    new.changes old = (old.changes new).map (·.back old) ∧
    ∀ mid : Manifest,
      (∀ name, (old.recordedUrl? name).isSome → (new.recordedUrl? name).isSome → (mid.recordedUrl? name).isSome) →
        ∀ name, old.Moves new name → old.Moves mid name ∨ mid.Moves new name := by
  refine ⟨fun c => mem_changes, remoteName_lt_of_changes old new, changes_self old, changes_back old new,
    fun mid hcommon name hmoves => ?_⟩
  obtain ⟨u, v, hu, hv, -⟩ := moves_iff.1 hmoves
  have hmid : (mid.recordedUrl? name).isSome :=
    hcommon name (Option.isSome_iff_exists.2 ⟨u, hu⟩) (Option.isSome_iff_exists.2 ⟨v, hv⟩)
  exact moves_of_between hmid hmoves

/-- A remote that moved on the second half of the way; another one moved there and back, and so has not moved. -/
theorem changes_account_over_detour :
    let at_ (url : String) : ManifestDependency := ⟨"cart.shop.acme", url, "", "1.0.0"⟩
    let holding (es : List (String × ManifestDependency)) : Manifest := ⟨"1.0.0", "", "host.shop.acme", .ofList es⟩
    let old := holding [("nav", at_ "a"), ("cart", at_ "a"), ("gone", at_ "a")]
    let mid := holding [("nav", at_ "b"), ("cart", at_ "a")]
    let new := holding [("nav", at_ "a"), ("cart", at_ "b"), ("come", at_ "b")]
    (old.Moves mid "cart" ∨ mid.Moves new "cart") ∧ old.changes new = [⟨"cart", "a", "b", new⟩] ∧
      old.changes mid = [⟨"nav", "a", "b", mid⟩] := by
  intro at_ holding old mid new
  have hcart : old.changes new = [⟨"cart", "a", "b", new⟩] := by decide +kernel
  refine ⟨(changes_account old new).2.2.2.2 mid (fun name => ?_) "cart" ⟨_, hcart ▸ List.mem_singleton_self _, rfl⟩,
    hcart, by decide +kernel⟩
  simp only [recordedUrl?, Option.isSome_map, old, mid, new, holding, KeyMap.ofList, List.foldl_cons, List.foldl_nil,
    KeyMap.get?_insert, KeyMap.get?_empty]
  split_ifs <;> simp_all

end Manifest

end Federation
