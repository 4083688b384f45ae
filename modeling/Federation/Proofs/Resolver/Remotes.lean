import Federation.Proofs.Resolver.Gathering

/-!
# Where remotes come from

A remote that a resolution answers comes from one of its dependencies, in one of two ways: the version of the
dependency is its URL, or the registry was asked for the qualified uid and answered with a resolution.
`Descriptor.Yields` lists them, and `yields_of_mem_resolve` says that there is no other way, whatever the registry
does: it may answer the same question differently each time, since its transport may keep a state.
-/

namespace Federation

/-- The ways in which a dependency becomes a remote, for a host in a context, with what the registry answers if it is
asked. -/
inductive Descriptor.Yields (context : Option AppContext) (answer : Except Error Resolution) (d : Descriptor)
    (x : Remote) : Prop
  | direct (home : d.isHome = true) (literal : isLiteralUrl d.version = true) (remote : d.directRemote = .ok x)
  | asked (home : d.isHome = true) (literal : isLiteralUrl d.version = false) (uid : String)
      (qualified : qualifyUid d.applicationUid context = .ok uid) (a : Resolution) (answered : answer = .ok a)
      (remote : a.toRemote d.key uid (requestedVersion d.version) = .ok x)

namespace ResolutionPlan
variable {m : Type → Type} [Monad m]

/-- What the registry is asked and answers, for a plan that asks it. -/
def inquiry (transport : Transport m) (base : String) : ResolutionPlan → m (Except Error Resolution)
  | ask uid version token => Registry.resolve transport base token uid version
  | skip | settled _ => pure (.error .missingAuthToken)

/-- The outcome of a plan, if it is known what the registry answers when it is asked. -/
def outcomeWith (answer : Except Error Resolution) (key : String) : ResolutionPlan → Outcome
  | skip => .ok none
  | settled o => o.map some
  | ask uid version _ => answer.bind fun a => (a.toRemote key uid version).map some

theorem carryOut_eq [LawfulMonad m] (transport : Transport m) (base key : String) (p : ResolutionPlan) :
    p.carryOut transport base key = (p.inquiry transport base >>= fun answer => pure (p.outcomeWith answer key)) := by
  cases p with
  | skip | settled o => rw [inquiry, pure_bind]; rfl
  | ask uid version token =>
    rw [carryOut, inquiry]
    refine bind_congr fun answer => ?_
    cases answer <;> rfl

end ResolutionPlan

namespace Descriptor
variable {d : Descriptor} {context : Option AppContext} {x : Remote}

theorem directRemote_eq_ok : d.directRemote = .ok x ↔
    ∃ u, absoluteUrl? d.version = some u ∧ ⟨d.key, d.applicationUid, u.text, publicPathOf u.text, u.text⟩ = x := by
  unfold directRemote
  cases absoluteUrl? d.version with
  | none => simp
  | some u => simp

/-- A dependency of the home registry fails or yields a remote; any other is passed over. -/
theorem outcome_cases (d : Descriptor) (context : Option AppContext) (token : Except Error AuthToken)
    (answer : Except Error Resolution) :
    (d.isHome = false ∧ (d.plan context token).outcomeWith answer d.key = .ok none) ∨
    (d.isHome = true ∧ ∃ e, (d.plan context token).outcomeWith answer d.key = .error e) ∨
    (d.isHome = true ∧
      ∃ x, d.Yields context answer x ∧ (d.plan context token).outcomeWith answer d.key = .ok (some x)) := by
  unfold plan
  cases hhome : d.isHome with
  | false => exact .inl ⟨rfl, rfl⟩
  | true =>
    refine .inr ?_
    rw [if_neg (by decide)]
    cases hliteral : isLiteralUrl d.version with
    | true =>
      rw [if_pos rfl]
      cases hremote : d.directRemote with
      | error e => exact .inl ⟨rfl, e, rfl⟩
      | ok x => exact .inr ⟨rfl, x, .direct hhome hliteral hremote, rfl⟩
    | false =>
      rw [if_neg (by decide)]
      cases huid : qualifyUid d.applicationUid context with
      | error e => exact .inl ⟨rfl, e, rfl⟩
      | ok uid =>
        cases token with
        | error e => exact .inl ⟨rfl, e, rfl⟩
        | ok t =>
          cases answer with
          | error e => exact .inl ⟨rfl, e, rfl⟩
          | ok a =>
            cases hremote : a.toRemote d.key uid (requestedVersion d.version) with
            | error e => exact .inl ⟨rfl, e, by simp [ResolutionPlan.outcomeWith, Except.bind, hremote, Except.map]⟩
            | ok x =>
              refine .inr ⟨rfl, x, .asked hhome hliteral uid huid a rfl hremote, ?_⟩
              simp [ResolutionPlan.outcomeWith, Except.bind, hremote, Except.map]

theorem yields_of_outcome {token : Except Error AuthToken} {answer : Except Error Resolution}
    (h : (d.plan context token).outcomeWith answer d.key = .ok (some x)) : d.Yields context answer x := by
  rcases d.outcome_cases context token answer with ⟨-, hout⟩ | ⟨-, e, hout⟩ | ⟨-, y, hy, hout⟩ <;> rw [hout] at h <;>
    cases h
  exact hy

end Descriptor

namespace Resolution
variable {a : Resolution} {name uid version : String} {x : Remote}

/-- A resolution becomes a remote when it has an entry URL that is absolute, and its public path, if it has one, can
be joined to that. -/
theorem toRemote_eq_ok : a.toRemote name uid version = .ok x ↔
    ∃ raw entry path, visible? (a.remoteEntryUrl.or a.defaultUrl) = some raw ∧ absoluteUrl? raw = some entry ∧
      publicPathFrom uid entry a.publicPath = .ok path ∧
      ⟨name, a.applicationUid.getD uid, entry.text, path, a.version.getD version⟩ = x := by
  unfold toRemote
  cases visible? (a.remoteEntryUrl.or a.defaultUrl) with
  | none => simp
  | some raw =>
    cases hentry : absoluteUrl? raw with
    | none => simp [hentry]
    | some entry =>
      cases hpath : publicPathFrom uid entry a.publicPath with
      | error e => simp [hentry, hpath, bind, Except.bind]
      | ok path => simp [hentry, hpath, bind, Except.bind, pure, Except.pure]

end Resolution

theorem Descriptor.Yields.name_eq {d : Descriptor} {context : Option AppContext} {answer : Except Error Resolution}
    {x : Remote} (h : d.Yields context answer x) : x.name = d.key := by
  cases h with
  | direct _ _ hremote =>
    obtain ⟨u, -, rfl⟩ := directRemote_eq_ok.1 hremote
    rfl
  | asked _ _ uid _ a _ hremote =>
    obtain ⟨raw, entry, path, -, -, -, rfl⟩ := Resolution.toRemote_eq_ok.1 hremote
    rfl

/-! ### Registries with a memory -/

theorem eq_ok_of_toOption {ε α : Type} {o : Except ε α} {a : α} (h : o.toOption = some a) : o = .ok a := by
  cases o with
  | error e => cases h
  | ok b => exact congrArg _ (Option.some.inj h)

section
variable {σ α β : Type}

theorem mem_mapM_state {f : α → StateM σ β} {l : List α} {s : σ} {y : β} (hy : y ∈ ((l.mapM f).run s).1) :
    ∃ x ∈ l, ∃ s', y = ((f x).run s').1 := by
  induction l generalizing s with
  | nil => cases hy
  | cons x l ih =>
    rw [List.mapM_cons] at hy
    rcases List.mem_cons.1 (show y ∈ ((f x).run s).1 :: ((l.mapM f).run ((f x).run s).2).1 from hy) with rfl | hy
    · exact ⟨x, List.mem_cons_self, s, rfl⟩
    · obtain ⟨x', hx', s', h⟩ := ih hy
      exact ⟨x', List.mem_cons_of_mem _ hx', s', h⟩

theorem Outcome.mem_leniently {os : List Outcome} {x : Remote} : x ∈ leniently os ↔ .ok (some x) ∈ os := by
  rw [leniently_eq_flatMap, List.mem_flatMap]
  constructor
  · rintro ⟨o, ho, hx⟩
    match o, ho, hx with
    | .ok (some y), ho, hx =>
      obtain rfl := List.mem_singleton.1 hx
      exact ho
  · intro hx
    exact ⟨.ok (some x), hx, List.mem_singleton_self x⟩

theorem Outcome.mem_strictly {os : List Outcome} {rs : List Remote} {x : Remote} (h : strictly os = .ok rs)
    (hx : x ∈ rs) : .ok (some x) ∈ os := by
  rcases strictly_cases os with ⟨e, -, hs⟩ | ⟨-, hs⟩
  · rw [h] at hs
    cases hs
  · rw [h] at hs
    cases hs
    exact mem_leniently.1 hx

namespace RemoteResolver
variable {transport : Transport (StateM σ)} {found : Option AppContext} {options : ResolveOptions}
  {ds : List Descriptor} {r : RemoteResolver} {s : σ} {x : Remote} {rs : List Remote}

/-- The answer is put together from outcomes, after a token was searched for. -/
theorem mem_outcomes_of_mem_resolve (h : ((r.resolve transport found options ds).run s).1.1 = .ok rs) (hx : x ∈ rs) :
    ∃ token s', .ok (some x) ∈ ((r.outcomes transport options.strict
      (ds.map fun d => (d, d.plan (r.contextOr found) token))).run s').1 := by
  refine ⟨((r.token transport options.token ds).run s).1, ((r.token transport options.token ds).run s).2, ?_⟩
  obtain ⟨strict, explicit⟩ := options
  cases strict with
  | true => exact Outcome.mem_strictly h hx
  | false =>
    cases h
    exact Outcome.mem_leniently.1 hx

/-- Every remote of an answer is yielded by one of the dependencies, with what the registry was asked for it. -/
theorem yields_of_mem_resolve (h : ((r.resolve transport found options ds).run s).1.1 = .ok rs) (hx : x ∈ rs) :
    ∃ d ∈ ds, ∃ token s', d.Yields (r.contextOr found)
      (((d.plan (r.contextOr found) token).inquiry transport r.config.apiBase).run s').1 x := by
  obtain ⟨token, s', hmem⟩ := mem_outcomes_of_mem_resolve h hx
  unfold outcomes at hmem
  split at hmem
  · exact absurd (List.mem_singleton.1 hmem) nofun
  · obtain ⟨p, hp, s'', ho⟩ := mem_mapM_state hmem
    obtain ⟨d, hd, rfl⟩ := List.mem_map.1 hp
    rw [ResolutionPlan.carryOut_eq] at ho
    exact ⟨d, hd, token, s'', Descriptor.yields_of_outcome ho.symm⟩

end RemoteResolver

end

end Federation
