import Mathlib.Data.List.Forall2
import Federation.Proofs.Dependency.Collection

/-!
# Faults of dependency tables

Nothing but the table and the platform decides whether a table is collected: it must be an object, each of its values
must be a declaration (a specifier, or an object of specifiers), and an object of specifiers needs a platform to choose
from it. `Fault` names the error of a table that is not so, which is that of its first faulty entry.

A value that has no specifier for the platform is passed over. It hides no fault that stands behind it, and it leaves no
descriptor: the descriptors stand against the other entries, in order (`collectDescriptors_account`).
-/

namespace Federation

/-- The values that may stand under a key: a specifier, or specifiers by platform. -/
inductive Json.IsDeclaration : Json → Prop
  | scalar (specifier : String) : IsDeclaration (.string specifier)
  | perPlatform {ms : List (String × Json)} (texts : ∀ m ∈ ms, ∃ t, m.2 = .string t) : IsDeclaration (.object ms)

/-- Whether a declaration has a specifier for a platform. -/
def Json.specifies (platform : Option String) : Json → Bool
  | .string _ => true
  | .object ms => platform.any fun p => ms.any (·.1 == p)
  | _ => false

namespace DependencyTable

/-- What is wrong with an entry: its value, or that a platform is missing. -/
inductive EntryFault (platform : Option String) (e : String × Json) : Error → Prop
  | value (undeclared : ¬e.2.IsDeclaration) : EntryFault platform e (.invalidDependencyValue e.1 e.2)
  | platform {ms : List (String × Json)} (object : e.2 = .object ms) (declared : e.2.IsDeclaration)
    (missing : platform = none) : EntryFault platform e (.platformRequired e.1)

/-- What is wrong with a table, with the key that is to blame. -/
inductive Fault (platform : Option String) : Json → String → Error → Prop
  | table {v : Json} (notObject : ∀ es, v ≠ .object es) :
    Fault platform v dependencyTable (.invalidDependencyValue dependencyTable v)
  | entry {before after : List (String × Json)} {e : String × Json} {x : Error}
    (first : ∀ b ∈ before, ∀ y, ¬EntryFault platform b y) (fault : EntryFault platform e x) :
    Fault platform (.object (before ++ e :: after)) e.1 x

/-- A descriptor of what an entry has for a platform, as the resolver described it in some state. -/
structure Describes {σ : Type} (platform : Option String) (versions : VersionResolver σ) (e : String × Json)
    (d : Descriptor) : Prop where
  key_eq : d.key = e.1
  described : ∃ specifier s, selectEntry platform e.1 e.2 = .ok (some specifier) ∧
    d = ((describe versions e.1 specifier).run s).1

end DependencyTable

open DependencyTable

variable {σ : Type} {platform : Option String} {versions : VersionResolver σ} {es ms : List (String × Json)}
  {e : String × Json} {v : Json} {ts : List (String × String)} {ss : List (String × String)}
  {ds : List Descriptor} {x : Error} {key : String} {o : Option String} {s : σ}

/-! ### One entry -/

theorem KeyMap.isSome_get?_ofList {α : Type} (es : List (String × α)) (k : String) :
    ((ofList es).get? k).isSome = es.any (·.1 == k) := by
  have hfold (m : KeyMap α) : ((es.foldl (fun m e => m.insert e.1 e.2) m).get? k).isSome =
      (es.any (·.1 == k) || (m.get? k).isSome) := by
    induction es generalizing m with
    | nil => rfl
    | cons e es ih =>
      rw [List.foldl_cons, ih, get?_insert, List.any_cons]
      by_cases hk : k = e.1
      · simp [hk]
      · simp [hk, beq_eq_false_iff_ne.2 (Ne.symm hk)]
  rw [ofList, hfold, get?_empty, Option.isSome_none, Bool.or_false]

theorem DependencyValue.texts?_eq_some : texts? ms = some ts ↔ ms = ts.map fun t => (t.1, .string t.2) := by
  induction ms generalizing ts with
  | nil => cases ts <;> simp [texts?]
  | cons m ms ih =>
    obtain ⟨k, v⟩ := m
    constructor
    · intro h
      obtain ⟨t, ht, h⟩ := Option.bind_eq_some_iff.1 h
      obtain ⟨ts', hts', h⟩ := Option.bind_eq_some_iff.1 h
      cases h
      cases v with
      | string t' =>
        cases ht
        rw [ih.1 hts', List.map_cons]
      | null | bool | number | array | object => cases ht
    · intro h
      cases ts with
      | nil => cases h
      | cons t ts =>
        obtain ⟨hm, hms⟩ := List.cons.inj h
        cases hm
        rw [texts?, ih.2 hms]
        rfl

theorem DependencyValue.exists_texts?_iff : (∃ ts, texts? ms = some ts) ↔ (Json.object ms).IsDeclaration := by
  constructor
  · rintro ⟨ts, hts⟩
    refine .perPlatform fun m hm => ?_
    rw [texts?_eq_some.1 hts] at hm
    obtain ⟨t, -, rfl⟩ := List.mem_map.1 hm
    exact ⟨t.2, rfl⟩
  · intro h
    cases h with
    | perPlatform texts =>
      induction ms with
      | nil => exact ⟨[], rfl⟩
      | cons m ms ih =>
        obtain ⟨⟨t, ht⟩, hms⟩ := List.forall_mem_cons.1 texts
        obtain ⟨ts, hts⟩ := ih hms
        refine ⟨(m.1, t) :: ts, texts?_eq_some.2 ?_⟩
        rw [List.map_cons, ← texts?_eq_some.1 hts, ← ht]

/-- An entry is selected from, or it is faulty; what is selected is there just when the value specifies it. -/
theorem selectEntry_cases (platform : Option String) (e : String × Json) :
    (∃ o, selectEntry platform e.1 e.2 = .ok o ∧ o.isSome = e.2.specifies platform ∧
      ∀ x, ¬EntryFault platform e x) ∨
    ∃ x, selectEntry platform e.1 e.2 = .error x ∧ ∀ y, EntryFault platform e y ↔ y = x := by
  obtain ⟨key, v⟩ := e
  have hvalue (hv : ¬v.IsDeclaration) (y : Error) :
      EntryFault platform (key, v) y ↔ y = .invalidDependencyValue key v := by
    constructor
    · rintro (_ | ⟨-, hdeclared, -⟩)
      · rfl
      · exact absurd hdeclared hv
    · rintro rfl
      exact .value hv
  cases v with
  | string specifier =>
    refine .inl ⟨some specifier, rfl, rfl, ?_⟩
    rintro x (hv | ⟨hobject, -, -⟩)
    · exact hv (.scalar specifier)
    · cases hobject
  | object ms =>
    cases hts : DependencyValue.texts? ms with
    | none =>
      refine .inr ⟨.invalidDependencyValue key (.object ms), ?_, hvalue fun hv => ?_⟩
      · simp only [selectEntry, DependencyValue.ofJson, hts]
        rfl
      · obtain ⟨ts, hts'⟩ := DependencyValue.exists_texts?_iff.2 hv
        cases hts.symm.trans hts'
    | some ts =>
      have hdeclared := DependencyValue.exists_texts?_iff.1 ⟨ts, hts⟩
      have hselect : selectEntry platform key (.object ms) =
          (DependencyValue.perPlatform (KeyMap.ofList ts)).select key platform := by
        simp only [selectEntry, DependencyValue.ofJson, hts]
        rfl
      cases platform with
      | none =>
        refine .inr ⟨.platformRequired key, hselect, fun y => ⟨?_, ?_⟩⟩
        · rintro (hv | ⟨-, -, -⟩)
          · exact absurd hdeclared hv
          · rfl
        · rintro rfl
          exact .platform rfl hdeclared rfl
      | some p =>
        refine .inl ⟨(KeyMap.ofList ts).get? p, hselect, ?_, ?_⟩
        · rw [KeyMap.isSome_get?_ofList, DependencyValue.texts?_eq_some.1 hts, Json.specifies, Option.any_some,
            List.any_map]
          rfl
        · rintro x (hv | ⟨-, -, hmissing⟩)
          · exact hv hdeclared
          · cases hmissing
  | null | bool | number | array => exact .inr ⟨_, rfl, hvalue fun h => by cases h⟩

theorem entryFault_iff : EntryFault platform e x ↔ selectEntry platform e.1 e.2 = .error x := by
  rcases selectEntry_cases platform e with ⟨o, ho, -, hsound⟩ | ⟨y, hy, hfault⟩
  · rw [ho]
    exact iff_of_false (hsound x) nofun
  · rw [hy, hfault x]
    exact ⟨fun h => h ▸ rfl, fun h => (Except.error.inj h).symm⟩

theorem specifies_of_selectEntry (h : selectEntry platform e.1 e.2 = .ok o) : e.2.specifies platform = o.isSome := by
  rcases selectEntry_cases platform e with ⟨o', ho, hsome, -⟩ | ⟨y, hy, -⟩
  · cases ho.symm.trans h
    exact hsome.symm
  · cases hy.symm.trans h

/-- The two ways in which an entry can be at fault. -/
theorem exists_entryFault_iff : (∃ x, EntryFault platform e x) ↔
    ¬e.2.IsDeclaration ∨ ((∃ ms, e.2 = .object ms) ∧ platform = none) := by
  constructor
  · rintro ⟨x, hv | ⟨hobject, -, hmissing⟩⟩
    · exact .inl hv
    · exact .inr ⟨⟨_, hobject⟩, hmissing⟩
  · rintro (hv | ⟨⟨ms, hobject⟩, hmissing⟩)
    · exact ⟨_, .value hv⟩
    · by_cases hdeclared : e.2.IsDeclaration
      · exact ⟨_, .platform hobject hdeclared hmissing⟩
      · exact ⟨_, .value hdeclared⟩

/-! ### All entries -/

/-- The first faulty entry decides the error, whatever the entries before it have for the platform. -/
theorem selections_eq_error : selections platform es = .error x ↔ ∃ before e after, es = before ++ e :: after ∧
    (∀ b ∈ before, ∀ y, ¬EntryFault platform b y) ∧ EntryFault platform e x := by
  induction es with
  | nil =>
    refine iff_of_false (fun h => by cases h) ?_
    rintro ⟨before, e, after, h, -⟩
    simp at h
  | cons e es ih =>
    rw [selections]
    cases he : selectEntry platform e.1 e.2 with
    | error y =>
      constructor
      · intro h
        cases h
        exact ⟨[], e, es, rfl, fun b hb => absurd hb List.not_mem_nil, entryFault_iff.2 he⟩
      · rintro ⟨before, e', after, h, hfirst, hfault⟩
        cases before with
        | nil =>
          obtain ⟨rfl, -⟩ := List.cons.inj h
          cases he.symm.trans (entryFault_iff.1 hfault)
          rfl
        | cons b before =>
          obtain ⟨rfl, -⟩ := List.cons.inj h
          exact absurd (entryFault_iff.2 he) (hfirst e List.mem_cons_self y)
    | ok o =>
      have hsound (y : Error) : ¬EntryFault platform e y := fun hfault => by
        cases he.symm.trans (entryFault_iff.1 hfault)
      have hrest : (do let ss ← selections platform es; pure ((o.map (e.1, ·)).toList ++ ss)) = .error x ↔
          selections platform es = .error x := by
        cases selections platform es with
        | error y => exact Iff.rfl
        | ok ss => exact iff_of_false (fun h => by cases h) (fun h => by cases h)
      refine hrest.trans (ih.trans ⟨?_, ?_⟩)
      · rintro ⟨before, e', after, rfl, hfirst, hfault⟩
        exact ⟨e :: before, e', after, rfl, List.forall_mem_cons.2 ⟨hsound, hfirst⟩, hfault⟩
      · rintro ⟨before, e', after, h, hfirst, hfault⟩
        cases before with
        | nil =>
          obtain ⟨rfl, -⟩ := List.cons.inj h
          exact absurd hfault (hsound x)
        | cons b before =>
          obtain ⟨rfl, rfl⟩ := List.cons.inj h
          exact ⟨before, e', after, rfl, (List.forall_mem_cons.1 hfirst).2, hfault⟩

theorem exists_selectEntry (h : selections platform es = .ok ss) :
    ∀ e ∈ es, ∃ o, selectEntry platform e.1 e.2 = .ok o := by
  induction es generalizing ss with
  | nil => exact nofun
  | cons e es ih =>
    obtain ⟨o, ss₀, ho, hss, -⟩ := selections_cons_eq_ok.1 h
    exact List.forall_mem_cons.2 ⟨⟨o, ho⟩, ih hss⟩

theorem exists_selections_error : (∃ x, selections platform es = .error x) ↔
    ∃ e ∈ es, ∃ x, EntryFault platform e x := by
  constructor
  · rintro ⟨x, h⟩
    obtain ⟨before, e, after, rfl, -, hfault⟩ := selections_eq_error.1 h
    exact ⟨e, List.mem_append_right _ List.mem_cons_self, x, hfault⟩
  · rintro ⟨e, he, x, hfault⟩
    cases hss : selections platform es with
    | error y => exact ⟨y, rfl⟩
    | ok ss =>
      obtain ⟨o, ho⟩ := exists_selectEntry hss e he
      cases ho.symm.trans (entryFault_iff.1 hfault)

/-- Each specified entry has its descriptor, at its place among the descriptors. -/
theorem forall₂_collectEntries (h : ((collectEntries platform versions es).run s).1 = .ok ds) :
    List.Forall₂ (Describes platform versions) (es.filter (·.2.specifies platform)) ds := by
  induction es generalizing s ds with
  | nil =>
    cases h
    exact .nil
  | cons e es ih =>
    obtain ⟨key, v⟩ := e
    rw [collectEntries] at h
    cases he : selectEntry platform key v with
    | error y =>
      rw [he] at h
      cases h
    | ok o =>
      rw [he] at h
      have hspecifies := specifies_of_selectEntry (e := (key, v)) he
      cases o with
      | none =>
        rw [List.filter_cons_of_neg (by simp [hspecifies])]
        exact ih h
      | some specifier =>
        rw [List.filter_cons_of_pos (by simp [hspecifies])]
        obtain ⟨ds', hds', rfl⟩ : ∃ ds', ((collectEntries platform versions es).run
            ((describe versions key specifier).run s).2).1 = .ok ds' ∧
            ((describe versions key specifier).run s).1 :: ds' = ds := by
          change Except.map _ ((collectEntries platform versions es).run
            ((describe versions key specifier).run s).2).1 = .ok ds at h
          cases hrest : ((collectEntries platform versions es).run ((describe versions key specifier).run s).2).1 with
          | error y =>
            rw [hrest] at h
            cases h
          | ok ds' =>
            rw [hrest] at h
            exact ⟨ds', rfl, Except.ok.inj h⟩
        exact .cons ⟨key_describe versions key specifier s, specifier, s, he, rfl⟩ (ih hds')

/-! ### Tables -/

theorem collectEntries_eq_error : ((collectEntries platform versions es).run s).1 = .error x ↔
    selections platform es = .error x := by
  cases hss : selections platform es with
  | error y =>
    rw [collectEntries_of_fault hss, Except.error.injEq, Except.error.injEq]
  | ok ss =>
    rw [collectEntries_of_selections hss]
    exact iff_of_false nofun nofun

theorem collectDescriptors_eq_error : ((collectDescriptors v platform versions).run s).1 = .error x ↔
    ∃ key, Fault platform v key x := by
  by_cases hv : ∃ es, v = .object es
  · obtain ⟨es, rfl⟩ := hv
    refine collectEntries_eq_error.trans (selections_eq_error.trans ⟨?_, ?_⟩)
    · rintro ⟨before, e, after, rfl, hfirst, hfault⟩
      exact ⟨e.1, .entry hfirst hfault⟩
    · rintro ⟨key, hfault⟩
      cases hfault with
      | table notObject => exact absurd rfl (notObject es)
      | entry first fault => exact ⟨_, _, _, rfl, first, fault⟩
  · have hnot : ∀ es, v ≠ .object es := not_exists.1 hv
    have hresult : ((collectDescriptors v platform versions).run s).1 =
        .error (.invalidDependencyValue dependencyTable v) := by
      cases v with
      | object es => exact absurd rfl (hnot es)
      | null | bool | number | string | array => rfl
    rw [hresult]
    constructor
    · intro h
      cases h
      exact ⟨dependencyTable, .table hnot⟩
    · rintro ⟨key, hfault⟩
      cases hfault with
      | table => rfl
      | entry => exact absurd rfl (hnot _)

/-- The text of the error begins with the key that is to blame. -/
theorem DependencyTable.Fault.message (h : Fault platform v key x) :
    ∃ rest, x.message = "Dependency '" ++ key ++ "' " ++ rest := by
  have hcut (key rest : String) {tail said : String} (hsaid : said = "' " ++ tail) :
      "Dependency '" ++ key ++ said ++ rest = "Dependency '" ++ key ++ "' " ++ (tail ++ rest) := by
    rw [hsaid]
    simp only [String.append_assoc]
  have hvalue (key : String) (v : Json) : ∃ rest,
      (Error.invalidDependencyValue key v).message = "Dependency '" ++ key ++ "' " ++ rest :=
    ⟨_, hcut key v.render (by decide : _ = "' " ++ "must be a string or a platform map, got ")⟩
  have hplatform (key : String) : ∃ rest,
      (Error.platformRequired key).message = "Dependency '" ++ key ++ "' " ++ rest :=
    ⟨_, (String.append_empty ..).symm.trans
      (hcut key "" (by decide : _ = "' " ++ "is declared per platform but no target platform was given"))⟩
  cases h with
  | table => exact hvalue ..
  | entry _ fault =>
    cases fault with
    | value => exact hvalue ..
    | platform => exact hplatform ..

/-- A table is collected just when it is an object whose values are declarations and there is a platform if one of them
goes by platforms. Otherwise the error is that of the table or of its first faulty entry, and its text names the key.
What is collected stands against the entries that have something for the platform, one descriptor for each, in order and
under its key. -/
theorem collectDescriptors_account (table : Json) (platform : Option String) (versions : VersionResolver σ) (s : σ) :
    let result := ((collectDescriptors table platform versions).run s).1
    ((∃ x, result = .error x) ↔ (∀ es, table ≠ .object es) ∨ ∃ es, table = .object es ∧ ∃ e ∈ es,
      ¬e.2.IsDeclaration ∨ ((∃ ms, e.2 = .object ms) ∧ platform = none)) ∧
    (∀ x, result = .error x ↔ ∃ key rest, Fault platform table key x ∧
      x.message = "Dependency '" ++ key ++ "' " ++ rest) ∧
    ∀ ds, result = .ok ds → ∃ es, table = .object es ∧
      List.Forall₂ (Describes platform versions) (es.filter (·.2.specifies platform)) ds := by
  refine ⟨?_, fun x => ?_, fun ds h => ?_⟩
  · by_cases hobject : ∃ es, table = .object es
    · obtain ⟨es, rfl⟩ := hobject
      have hfails : (∃ x, ((collectDescriptors (.object es) platform versions).run s).1 = .error x) ↔
          ∃ e ∈ es, ∃ x, EntryFault platform e x :=
        (exists_congr fun x => collectEntries_eq_error).trans exists_selections_error
      rw [hfails]
      simp only [exists_entryFault_iff]
      constructor
      · exact fun h => .inr ⟨es, rfl, h⟩
      · rintro (hnot | ⟨es', he, h⟩)
        · exact absurd rfl (hnot es)
        · cases he
          exact h
    · have hnot := not_exists.1 hobject
      exact iff_of_true ⟨_, collectDescriptors_eq_error.2 ⟨_, .table hnot⟩⟩ (.inl hnot)
  · rw [collectDescriptors_eq_error]
    constructor
    · rintro ⟨key, hfault⟩
      obtain ⟨rest, hrest⟩ := hfault.message
      exact ⟨key, rest, hfault, hrest⟩
    · rintro ⟨key, rest, hfault, -⟩
      exact ⟨key, hfault⟩
  · cases table with
    | object es => exact ⟨es, rfl, forall₂_collectEntries h⟩
    | null | bool | number | string | array => cases h

/-- An application for two platforms. -/
def mobileTable : List (String × Json) :=
  [("camera", .object [("ios", .string "zephyr:camera-ios@1.0.0"), ("android", .string "zephyr:camera@1.0.0")]),
    ("maps", .object [("android", .string "2.0.0")]), ("cart", .string "^1.0.0")]

/-- On one platform there are no maps; without a platform the first entry is to blame. -/
theorem collectDescriptors_account_of_mobile :
    ((collectDescriptors (.object mobileTable) (some "ios") passThrough).run ()).1 =
      .ok [⟨"camera", "zephyr", "camera-ios", "1.0.0"⟩, ⟨"cart", "zephyr", "cart", "^1.0.0"⟩] ∧
    List.Forall₂ (Describes (some "ios") passThrough) [mobileTable.head (by decide), ("cart", .string "^1.0.0")]
      [⟨"camera", "zephyr", "camera-ios", "1.0.0"⟩, ⟨"cart", "zephyr", "cart", "^1.0.0"⟩] ∧
    ((collectDescriptors (.object mobileTable) none passThrough).run ()).1 = .error (.platformRequired "camera") := by
  have h : ((collectDescriptors (.object mobileTable) (some "ios") passThrough).run ()).1 =
      .ok [⟨"camera", "zephyr", "camera-ios", "1.0.0"⟩, ⟨"cart", "zephyr", "cart", "^1.0.0"⟩] := rfl
  obtain ⟨es, hes, hall⟩ := (collectDescriptors_account (.object mobileTable) (some "ios") passThrough ()).2.2 _ h
  cases hes
  exact ⟨h, hall, rfl⟩

end Federation
