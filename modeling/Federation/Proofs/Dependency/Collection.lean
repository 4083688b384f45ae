import Federation.Dependency

/-!
# What a table of dependencies comes to

Collecting a table has two parts that do not mix. Which entries have a specifier for the platform, and whether one of
them is faulty, depends on the table alone (`selections`); what each specifier is described as depends on the resolver
and on its memory (`describeAll`). `collectEntries_of_selections` puts the two together: a table without a faulty entry
is collected, and gives one descriptor for each selected specifier, in the order of the table and under its key.
-/

namespace Federation

/-- The specifiers of a table for a platform, with their keys; the first faulty entry decides the error. -/
def selections (platform : Option String) : List (String × Json) → Except Error (List (String × String))
  | [] => .ok []
  | e :: es => do
    let o ← selectEntry platform e.1 e.2
    let ss ← selections platform es
    pure ((o.map (e.1, ·)).toList ++ ss)

variable {σ : Type} {platform : Option String} {versions : VersionResolver σ} {es es' : List (String × Json)}
  {e : String × Json} {ss ss' : List (String × String)} {key specifier : String} {s : σ}

theorem selections_cons_eq_ok : selections platform (e :: es) = .ok ss ↔ ∃ o ss₀,
    selectEntry platform e.1 e.2 = .ok o ∧ selections platform es = .ok ss₀ ∧ (o.map (e.1, ·)).toList ++ ss₀ = ss := by
  rw [selections]
  cases selectEntry platform e.1 e.2 with
  | error x => simp [bind, Except.bind]
  | ok o => cases selections platform es <;> simp [bind, Except.bind, pure, Except.pure]

/-- A table is selected from as soon as none of its entries is faulty. -/
theorem exists_selections (h : ∀ e ∈ es, ∃ o, selectEntry platform e.1 e.2 = .ok o) :
    ∃ ss, selections platform es = .ok ss := by
  induction es with
  | nil => exact ⟨[], rfl⟩
  | cons e es ih =>
    obtain ⟨ss, hss⟩ := ih fun e' he' => h e' (List.mem_cons_of_mem _ he')
    obtain ⟨o, ho⟩ := h e List.mem_cons_self
    exact ⟨_, selections_cons_eq_ok.2 ⟨o, ss, ho, hss, rfl⟩⟩

theorem selections_append (h : selections platform es = .ok ss) (h' : selections platform es' = .ok ss') :
    selections platform (es ++ es') = .ok (ss ++ ss') := by
  induction es generalizing ss with
  | nil =>
    cases h
    exact h'
  | cons e es ih =>
    obtain ⟨o, ss₀, ho, hss, rfl⟩ := selections_cons_eq_ok.1 h
    exact selections_cons_eq_ok.2 ⟨o, ss₀ ++ ss', ho, ih hss, (List.append_assoc ..).symm⟩

/-- The selected specifiers are those that the table has for the platform. -/
theorem mem_selections (h : selections platform es = .ok ss) :
    (key, specifier) ∈ ss ↔ ∃ v, (key, v) ∈ es ∧ selectEntry platform key v = .ok (some specifier) := by
  induction es generalizing ss with
  | nil =>
    cases h
    simp
  | cons e es ih =>
    obtain ⟨o, ss₀, ho, hss, rfl⟩ := selections_cons_eq_ok.1 h
    have hhead : (key, specifier) ∈ (o.map (e.1, ·)).toList ↔
        (key, e.2) = e ∧ selectEntry platform key e.2 = .ok (some specifier) := by
      obtain ⟨k, v⟩ := e
      cases o with
      | none =>
        simp only [Option.map_none, Option.toList_none, List.not_mem_nil, false_iff]
        rintro ⟨he, hs⟩
        cases he
        cases ho.symm.trans hs
      | some specifier₀ =>
        rw [Option.map_some, Option.toList_some, List.mem_singleton]
        constructor
        · intro he
          cases he
          exact ⟨rfl, ho⟩
        · rintro ⟨he, hs⟩
          cases he
          cases ho.symm.trans hs
          rfl
    rw [List.mem_append, hhead, ih hss]
    constructor
    · rintro (⟨he, hs⟩ | ⟨v, hv, hs⟩)
      · exact ⟨e.2, he ▸ List.mem_cons_self, hs⟩
      · exact ⟨v, List.mem_cons_of_mem _ hv, hs⟩
    · rintro ⟨v, hv, hs⟩
      rcases List.mem_cons.1 hv with rfl | hv
      · exact .inl ⟨rfl, hs⟩
      · exact .inr ⟨v, hv, hs⟩

/-- Their keys are keys of the table, in its order. -/
theorem keys_selections (h : selections platform es = .ok ss) : (ss.map (·.1)).Sublist (es.map (·.1)) := by
  induction es generalizing ss with
  | nil =>
    cases h
    exact .slnil
  | cons e es ih =>
    obtain ⟨o, ss₀, -, hss, rfl⟩ := selections_cons_eq_ok.1 h
    cases o with
    | none => exact (ih hss).cons e.1
    | some specifier => exact (ih hss).cons_cons e.1

/-! ### Describing -/

/-- The descriptors of selected specifiers, one after another. -/
def describeAll (versions : VersionResolver σ) (ss : List (String × String)) : StateM σ (List Descriptor) :=
  ss.mapM fun e => describe versions e.1 e.2

/-- What a specifier is described as once catalog references are replaced. -/
def describeParsed (versions : VersionResolver σ) (d : Descriptor) : StateM σ Descriptor :=
  if isPlaceholder d.version then do
    let version ← versions d.applicationUid d.version
    pure { d with version }
  else pure d

theorem describe_of_catalog {name : String} (h : catalogName? specifier = some name) :
    describe versions key specifier =
      (versions key specifier >>= fun replaced => describeParsed versions (.parse key replaced)) := by
  rw [describe, h]
  rfl

theorem describe_of_no_catalog (h : catalogName? specifier = none) :
    describe versions key specifier = describeParsed versions (.parse key specifier) := by
  rw [describe, h]
  rfl

theorem describeParsed_run (versions : VersionResolver σ) (d : Descriptor) (s : σ) : ∃ version,
    ((describeParsed versions d).run s).1 = { d with version } := by
  unfold describeParsed
  split
  · exact ⟨_, rfl⟩
  · exact ⟨d.version, rfl⟩

theorem key_describe (versions : VersionResolver σ) (key specifier : String) (s : σ) :
    ((describe versions key specifier).run s).1.key = key := by
  cases h : catalogName? specifier with
  | none =>
    obtain ⟨version, hd⟩ := describeParsed_run versions (.parse key specifier) s
    rw [describe_of_no_catalog h, hd]
    rfl
  | some name =>
    obtain ⟨version, hd⟩ := describeParsed_run versions (.parse key ((versions key specifier).run s).1)
      ((versions key specifier).run s).2
    rw [describe_of_catalog h]
    exact congrArg Descriptor.key hd

theorem describeAll_cons (versions : VersionResolver σ) (e : String × String) (ss : List (String × String)) :
    describeAll versions (e :: ss) =
      (do let d ← describe versions e.1 e.2; let ds ← describeAll versions ss; pure (d :: ds)) :=
  List.mapM_cons

theorem keys_describeAll (ss : List (String × String)) (s : σ) :
    (((describeAll versions ss).run s).1).map (·.key) = ss.map (·.1) := by
  induction ss generalizing s with
  | nil => rfl
  | cons e ss ih =>
    rw [describeAll_cons, List.map_cons, ← ih ((describe versions e.1 e.2).run s).2]
    exact congrArg (· :: _) (key_describe versions e.1 e.2 s)

theorem describeAll_append_run (ss ss' : List (String × String)) (s : σ) :
    ((describeAll versions (ss ++ ss')).run s).1 =
      ((describeAll versions ss).run s).1 ++
        ((describeAll versions ss').run ((describeAll versions ss).run s).2).1 := by
  rw [describeAll, List.mapM_append]
  rfl

/-! ### Collecting -/

theorem collectEntries_of_selections (h : selections platform es = .ok ss) :
    collectEntries platform versions es = Except.ok <$> describeAll versions ss := by
  induction es generalizing ss with
  | nil =>
    cases h
    rfl
  | cons e es ih =>
    obtain ⟨k, v⟩ := e
    obtain ⟨o, ss₀, ho, hss, rfl⟩ := selections_cons_eq_ok.1 h
    rw [collectEntries, ho]
    cases o with
    | none => exact ih hss
    | some specifier =>
      dsimp only
      rw [ih hss]
      exact (describeAll_cons versions (k, specifier) ss₀) ▸ rfl

/-- A faulty entry fails the whole, with the error of the first one. -/
theorem collectEntries_of_fault {x : Error} (h : selections platform es = .error x) :
    ((collectEntries platform versions es).run s).1 = .error x := by
  induction es generalizing s with
  | nil => cases h
  | cons e es ih =>
    obtain ⟨k, v⟩ := e
    rw [selections] at h
    rw [collectEntries]
    cases ho : selectEntry platform k v with
    | error y =>
      rw [ho] at h
      cases h
      rfl
    | ok o =>
      rw [ho] at h
      cases hes : selections platform es with
      | ok ss₀ =>
        rw [hes] at h
        cases h
      | error y =>
        rw [hes] at h
        cases h
        cases o with
        | none => exact ih hes
        | some specifier => exact congrArg (Except.map _) (ih hes (s := ((describe versions k specifier).run s).2))

/-- The descriptor of a selected specifier stands between those of the entries before and behind it. -/
theorem exists_collectEntries_append {v : Json} (hrest : ∀ e ∈ es ++ es', ∃ o, selectEntry platform e.1 e.2 = .ok o)
    (hselected : selectEntry platform key v = .ok (some specifier)) :
    let before := (collectEntries platform versions es).run s
    let described := (describe versions key specifier).run before.2
    ∃ ds ds', before.1 = .ok ds ∧ ((collectEntries platform versions es').run described.2).1 = .ok ds' ∧
      ((collectEntries platform versions (es ++ (key, v) :: es')).run s).1 = .ok (ds ++ described.1 :: ds') := by
  obtain ⟨ss, hss⟩ := exists_selections fun e he => hrest e (List.mem_append_left _ he)
  obtain ⟨ss', hss'⟩ := exists_selections fun e he => hrest e (List.mem_append_right _ he)
  have hall : selections platform (es ++ (key, v) :: es') = .ok (ss ++ (key, specifier) :: ss') :=
    selections_append hss (selections_cons_eq_ok.2 ⟨some specifier, ss', hselected, hss', rfl⟩)
  rw [collectEntries_of_selections hss, collectEntries_of_selections hss', collectEntries_of_selections hall]
  refine ⟨_, _, rfl, rfl, congrArg Except.ok ((describeAll_append_run ..).trans ?_)⟩
  rw [describeAll_cons]
  rfl

end Federation
