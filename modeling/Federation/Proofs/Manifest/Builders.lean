import Mathlib.Data.List.Basic
import Mathlib.Data.List.Induction
import Federation.Manifest.Builder

/-!
# What a builder makes of its remotes

Of all that was resolved a manifest keeps, under each name, what came last: looking a name up in it is looking through
the list from its end (`remote?_ofRemotes`). How the list was cut into parts cannot be seen in it. A manifest is also
known by the list of its remotes, which brings back the same dependencies (`dependencies_ofRemotes_remotes`).
-/

namespace Federation

/-- A remote behind which no other of its name was resolved. -/
def Remote.IsLast (r : Remote) (rs : List Remote) : Prop :=
  ∃ before after, rs = before ++ r :: after ∧ ∀ x ∈ after, x.name ≠ r.name

theorem Remote.isLast_iff {r : Remote} {rs : List Remote} :
    r.IsLast rs ↔ rs.reverse.find? (·.name = r.name) = some r := by
  simp only [List.find?_eq_some_iff_append, decide_true, true_and, Bool.not_eq_true', decide_eq_false_iff_not]
  constructor
  · rintro ⟨before, after, rfl, hafter⟩
    exact ⟨after.reverse, before.reverse, by simp, fun x hx => hafter x (List.mem_reverse.1 hx)⟩
  · rintro ⟨after, before, hrs, hafter⟩
    exact ⟨before.reverse, after.reverse, by simpa using congrArg List.reverse hrs,
      fun x hx => hafter x (List.mem_reverse.1 hx)⟩

namespace KeyMap
variable {α : Type}

theorem ofList_concat (es : List (String × α)) (e : String × α) : ofList (es ++ [e]) = (ofList es).insert e.1 e.2 := by
  rw [ofList, List.foldl_append]
  rfl

theorem mem_keys {m : KeyMap α} {k : String} : k ∈ m.keys ↔ ∃ v, m.get? k = some v := by
  rw [keys, List.mem_map]
  constructor
  · rintro ⟨⟨_, v⟩, he, rfl⟩
    exact ⟨v, get?_of_mem he⟩
  · rintro ⟨v, hv⟩
    exact ⟨(k, v), mem_of_get? hv, rfl⟩

end KeyMap

namespace Manifest
variable {m : Manifest} {r : Remote} {rs : List Remote} {uid timestamp version name : String}

/-! ### Dependencies and remotes -/

/-- A dependency is what a remote is without its name. -/
theorem get?_dependencies (m : Manifest) (name : String) :
    m.dependencies.get? name = (m.remote? name).map .ofRemote := by
  rw [remote?, Option.map_map]
  exact Option.map_id'.symm

theorem mem_keys_dependencies : name ∈ m.dependencies.keys ↔ ∃ r, m.remote? name = some r := by
  rw [KeyMap.mem_keys, get?_dependencies, ← Option.isSome_iff_exists, ← Option.isSome_iff_exists, Option.isSome_map]

theorem name_of_remote? (h : m.remote? name = some r) : r.name = name := by
  obtain ⟨d, -, rfl⟩ := Option.map_eq_some_iff.1 h
  rfl

theorem mem_remotes : r ∈ m.remotes ↔ m.remote? r.name = some r := by
  rw [remotes, List.mem_map]
  constructor
  · rintro ⟨⟨name, d⟩, he, rfl⟩
    exact congrArg _ (KeyMap.get?_of_mem he)
  · intro h
    obtain ⟨d, hd, hr⟩ := Option.map_eq_some_iff.1 h
    exact ⟨(r.name, d), KeyMap.mem_of_get? hd, hr⟩

/-- The names of the remotes increase. -/
theorem name_lt_of_remotes (m : Manifest) : m.remotes.Pairwise fun a b => a.name < b.name :=
  List.pairwise_map.2 m.dependencies.sorted

/-- The remotes of a manifest make its dependencies again. -/
theorem dependencies_ofRemotes_remotes (m : Manifest) :
    (ofRemotes uid timestamp version m.remotes).dependencies = m.dependencies := by
  rw [ofRemotes, remotes, List.map_map]
  exact (congrArg KeyMap.ofList (List.map_id' _)).trans m.dependencies.ofList_entries

/-! ### The last remote of a name -/

theorem remote?_ofRemotes (rs : List Remote) :
    (ofRemotes uid timestamp version rs).remote? name = rs.reverse.find? (·.name = name) := by
  induction rs using List.reverseRecOn with
  | nil => rfl
  | append_singleton rs r ih =>
    rw [remote?, ofRemotes] at ih ⊢
    rw [List.map_append, List.map_singleton, KeyMap.ofList_concat, KeyMap.get?_insert, List.reverse_append,
      List.reverse_singleton, List.singleton_append, List.find?_cons]
    by_cases hname : r.name = name
    · subst hname
      rw [if_pos rfl, decide_eq_true rfl]
      rfl
    · rw [if_neg (Ne.symm hname), decide_eq_false hname, ih]

theorem remote?_ofRemotes_eq_some :
    (ofRemotes uid timestamp version rs).remote? name = some r ↔ r.IsLast rs ∧ r.name = name := by
  rw [Remote.isLast_iff]
  constructor
  · intro h
    obtain rfl := name_of_remote? h
    exact ⟨(remote?_ofRemotes rs).symm.trans h, rfl⟩
  · rintro ⟨h, rfl⟩
    exact (remote?_ofRemotes rs).trans h

theorem remote?_ofRemotes_eq_none :
    (ofRemotes uid timestamp version rs).remote? name = none ↔ ∀ r ∈ rs, r.name ≠ name := by
  simp [remote?_ofRemotes]

end Manifest

namespace ManifestBuilder

theorem foldl_remotes (b : ManifestBuilder) (rss : List (List Remote)) :
    rss.foldl remotes b = b.remotes rss.flatten := by
  induction rss generalizing b with
  | nil => simp [remotes]
  | cons rs rss ih => simp [ih, remotes]

/-- A manifest depends only on the list of all remotes that a builder was given, whichever builder it is (a new one has
none yet) and in whichever parts they came. Its dependencies are the names in this list, each with what the last remote
of the name has. These remotes are listed once each in the order of their names, found by them and nothing else is, and
to build from them again makes the same dependencies. -/
theorem build_lasts (b : ManifestBuilder) (rss : List (List Remote)) :
    let m := (rss.foldl remotes b).build
    let rs := b.resolved ++ rss.flatten
    m = (b.remotes rss.flatten).build ∧
    (∀ name, name ∈ m.dependencies.keys ↔ ∃ r ∈ rs, r.name = name) ∧
    (∀ name d, m.dependencies.get? name = some d ↔ ∃ r : Remote, r.IsLast rs ∧ r.name = name ∧
      d.applicationUid = r.applicationUid ∧ d.remoteEntryUrl = r.remoteEntryUrl ∧ d.publicPath = r.publicPath ∧
      d.version = r.version) ∧
    (m.remotes.Pairwise fun r s => r.name < s.name) ∧
    (∀ r, r ∈ m.remotes ↔ r.IsLast rs) ∧
    (∀ name r, m.remote? name = some r ↔ r.IsLast rs ∧ r.name = name) ∧
    (∀ name, m.remote? name = none ↔ ∀ r ∈ rs, r.name ≠ name) ∧
    ∀ uid now, ((new uid now).remotes m.remotes).build.dependencies = m.dependencies := by
  intro m rs
  have hm : m = .ofRemotes b.applicationUid b.timestamp.text b.version rs :=
    congrArg build (foldl_remotes b rss)
  have hsome (name : String) (r : Remote) : m.remote? name = some r ↔ r.IsLast rs ∧ r.name = name := by
    rw [hm]
    exact Manifest.remote?_ofRemotes_eq_some
  have hnone (name : String) : m.remote? name = none ↔ ∀ r ∈ rs, r.name ≠ name := by
    rw [hm]
    exact Manifest.remote?_ofRemotes_eq_none
  refine ⟨congrArg build (foldl_remotes b rss), fun name => ?_, fun name d => ?_, Manifest.name_lt_of_remotes m,
    fun r => ?_, hsome, hnone, fun uid now => ?_⟩
  · rw [Manifest.mem_keys_dependencies, ← Option.ne_none_iff_exists', ne_eq, hnone]
    push Not
    rfl
  · rw [Manifest.get?_dependencies, Option.map_eq_some_iff]
    refine exists_congr fun r => ?_
    rw [hsome, ManifestDependency.ofRemote_eq_iff, and_assoc]
  · rw [Manifest.mem_remotes, hsome, and_iff_left rfl]
  · exact Manifest.dependencies_ofRemotes_remotes m

/-- Of two resolutions in two parts, the later one stays. -/
example :
    let cart (version : String) : Remote := ⟨"cart", "cart.shop.acme", "", "", version⟩
    let m := ([[cart "1.0.0"], [cart "1.1.0"]].foldl remotes (new "host.shop.acme" ⟨0, 0⟩)).build
    m.remotes = [cart "1.1.0"] := by decide +kernel

end ManifestBuilder

end Federation
