import Federation.Proofs.Resolver.Policies
import Federation.Proofs.Resolver.Talks

/-!
# What becomes of each dependency

An answer holds the remotes of the dependencies that did not fail (`exists_outcomes`), whatever the registry does: its
transport may keep a state, so that the same question gets different answers. If the registry answers by the request
alone, it does not matter through which monad it is asked (`Talk.via_lift` and what follows it), and what becomes of a
dependency is what becomes of it on its own (`becomes_lift`).
-/

namespace Federation

/-! ### Registries without a memory -/

section
variable {m : Type → Type} [Monad m] (transport : Transport Id)

/-- A transport without a memory, used among steps that may have one. -/
def Transport.lift (transport : Transport Id) : Transport m := fun q => pure (Id.run (transport q))

variable [LawfulMonad m]

theorem Talk.via_lift {α : Type} (t : Talk α) : t.via (m := m) transport.lift = pure (Id.run (t.via transport)) := by
  induction t with
  | done a => rfl
  | ask q next ih =>
    rw [via, Transport.lift, pure_bind]
    exact ih _

theorem RemoteResolver.token_lift (explicit : Option String) (ds : List Descriptor) (r : RemoteResolver) :
    r.token (m := m) transport.lift explicit ds = pure (Id.run (r.token transport explicit ds)) := by
  rw [← token_via, Talk.via_lift, token_via]

theorem ResolutionPlan.inquiry_lift (base : String) (p : ResolutionPlan) :
    p.inquiry (m := m) transport.lift base = pure (Id.run (p.inquiry transport base)) := by
  cases p with
  | ask uid version token => rw [inquiry, inquiry, ← Registry.resolve_via, Talk.via_lift, Registry.resolve_via]
  | skip | settled => rfl

end

/-! ### Registries with a memory -/

section
variable {σ α β : Type}

theorem forall₂_mapM_state (f : α → StateM σ β) (l : List α) (s : σ) :
    List.Forall₂ (fun x y => ∃ s', y = ((f x).run s').1) l ((l.mapM f).run s).1 := by
  induction l generalizing s with
  | nil => exact .nil
  | cons x l ih =>
    rw [List.mapM_cons]
    exact .cons ⟨s, rfl⟩ (ih ((f x).run s).2)

/-- What can become of a dependency for a host in a context with a token: it is the outcome of its plan, with an answer
that the registry gives at some time. -/
def Descriptor.Becomes (transport : Transport (StateM σ)) (base : String) (context : Option AppContext)
    (token : Except Error AuthToken) (d : Descriptor) (o : Outcome) : Prop :=
  ∃ s, o = (d.plan context token).outcomeWith (((d.plan context token).inquiry transport base).run s).1 d.key

theorem Descriptor.Becomes.cases {transport : Transport (StateM σ)} {base : String} {context : Option AppContext}
    {token : Except Error AuthToken} {d : Descriptor} {o : Outcome} (h : d.Becomes transport base context token o) :
    (d.isHome = false ∧ o = .ok none) ∨ (d.isHome = true ∧ ∃ e, o = .error e) ∨
      (d.isHome = true ∧ ∃ x, x.name = d.key ∧ o = .ok (some x)) := by
  obtain ⟨s, rfl⟩ := h
  rcases d.outcome_cases context token (((d.plan context token).inquiry transport base).run s).1 with
    hforeign | hfailed | ⟨hhome, x, hx, ho⟩
  · exact .inl hforeign
  · exact .inr (.inl hfailed)
  · exact .inr (.inr ⟨hhome, x, hx.name_eq, ho⟩)

namespace RemoteResolver
variable {transport : Transport (StateM σ)} {found : Option AppContext} {options : ResolveOptions}
  {ds : List Descriptor} {r : RemoteResolver} {s : σ} {rs : List Remote}

theorem forall₂_carryOut (transport : Transport (StateM σ)) (base : String) (context : Option AppContext)
    (token : Except Error AuthToken) (ds : List Descriptor) (s : σ) :
    List.Forall₂ (Descriptor.Becomes transport base context token) ds
      (((ds.map fun d => (d, d.plan context token)).mapM
        fun p : Descriptor × ResolutionPlan => p.2.carryOut transport base p.1.key).run s).1 := by
  have hall := forall₂_mapM_state (fun d : Descriptor => (d.plan context token).carryOut transport base d.key) ds s
  rw [List.mapM_map]
  refine hall.imp fun d o ⟨s', ho⟩ => ⟨s', ?_⟩
  rw [ho, ResolutionPlan.carryOut_eq]
  rfl

/-- Behind an answer there is an outcome for each dependency. None is a failure if the answer is strict. -/
theorem exists_outcomes (h : ((r.resolve transport found options ds).run s).1.1 = .ok rs) :
    ∃ os, List.Forall₂ (Descriptor.Becomes transport r.config.apiBase (r.contextOr found)
        ((r.token transport options.token ds).run s).1) ds os ∧
      (options.strict = true → ∀ o ∈ os, o.error? = none) ∧ rs = Outcome.leniently os := by
  obtain ⟨strict, explicit⟩ := options
  let plans := ds.map fun d => (d, d.plan (r.contextOr found) ((r.token transport explicit ds).run s).1)
  let os := ((r.outcomes transport strict plans).run ((r.token transport explicit ds).run s).2).1
  have hanswer : (if strict = true then Outcome.strictly os else .ok (Outcome.leniently os)) = .ok rs := h
  have hcases : (∃ e, strict = true ∧ os = [.error e]) ∨
      List.Forall₂ (Descriptor.Becomes transport r.config.apiBase (r.contextOr found)
        ((r.token transport explicit ds).run s).1) ds os := by
    dsimp only [os]
    unfold outcomes
    split
    · rename_i e he
      cases strict with
      | false => cases he
      | true => exact .inl ⟨e, rfl, rfl⟩
    · exact .inr (forall₂_carryOut ..)
  rcases hcases with ⟨e, rfl, hos⟩ | hos
  · rw [hos] at hanswer
    cases hanswer
  · cases strict with
    | false =>
      cases hanswer
      exact ⟨os, hos, nofun, rfl⟩
    | true =>
      rcases Outcome.strictly_cases os with ⟨e, -, hs⟩ | ⟨hok, hs⟩ <;> rw [if_pos rfl, hs] at hanswer <;> cases hanswer
      exact ⟨os, hos, fun _ => hok, rfl⟩

/-- With a registry that answers by the request alone, a dependency becomes what it is on its own. -/
theorem becomes_lift {transport : Transport Id} {explicit : Option String} {d : Descriptor} {o : Outcome}
    (hd : d ∈ ds) (h : d.Becomes (σ := σ) transport.lift r.config.apiBase (r.contextOr found)
      ((r.token (m := StateM σ) transport.lift explicit ds).run s).1 o) :
    r.alone transport found explicit d = o.map Option.toList := by
  obtain ⟨s', rfl⟩ := h
  rw [alone_eq, ← outcomeOf_token hd, outcomeOf, ResolutionPlan.carryOut_eq, token_lift, ResolutionPlan.inquiry_lift]
  rfl

end RemoteResolver

end

/-! ### Outcomes by dependency -/

namespace Outcome
variable {ds : List Descriptor} {os : List Outcome} {outcome : Descriptor → Outcome} {x : Remote}

/-- Different dependencies have their outcomes by themselves, and not by their places. -/
theorem exists_function {R : Descriptor → Outcome → Prop} (h : List.Forall₂ R ds os) (hds : ds.Nodup) :
    ∃ outcome : Descriptor → Outcome, os = ds.map outcome ∧ ∀ d ∈ ds, R d (outcome d) := by
  induction h with
  | nil => exact ⟨fun _ => .ok none, rfl, nofun⟩
  | @cons d o ds os hdo _ ih =>
    have ⟨hfresh, hds⟩ := List.nodup_cons.1 hds
    obtain ⟨outcome, rfl, hall⟩ := ih hds
    have hsame (d' : Descriptor) (hd' : d' ∈ ds) : Function.update outcome d o d' = outcome d' := by
      refine Function.update_of_ne ?_ ..
      rintro rfl
      exact hfresh hd'
    refine ⟨Function.update outcome d o, ?_, List.forall_mem_cons.2 ⟨?_, fun d' hd' => ?_⟩⟩
    · rw [List.map_cons, Function.update_self, List.map_congr_left hsame]
    · rwa [Function.update_self]
    · rw [hsame d' hd']
      exact hall d' hd'

theorem mem_leniently_map : x ∈ leniently (ds.map outcome) ↔ ∃ d ∈ ds, outcome d = .ok (some x) := by
  rw [mem_leniently, List.mem_map]

/-- Remotes that have the keys of their dependencies for names have different names, if the keys are different. -/
theorem names_sublist (h : ∀ d ∈ ds, ∀ x, outcome d = .ok (some x) → x.name = d.key) :
    ((leniently (ds.map outcome)).map (·.name)).Sublist (ds.map (·.key)) := by
  induction ds with
  | nil => exact .slnil
  | cons d ds ih =>
    have ⟨hd, hrest⟩ := List.forall_mem_cons.1 h
    rw [List.map_cons, List.map_cons, leniently_eq_flatMap, List.flatMap_cons, ← leniently_eq_flatMap]
    match ho : outcome d with
    | .error e | .ok none => exact (ih hrest).cons _
    | .ok (some x) =>
      rw [← hd x ho]
      exact (ih hrest).cons_cons _

end Outcome

theorem Manifest.get?_ofRemotes {uid timestamp version name : String} {rs : List Remote} {entry : ManifestDependency}
    (h : (rs.map (·.name)).Nodup) :
    (ofRemotes uid timestamp version rs).dependencies.get? name = some entry ↔
      ∃ x ∈ rs, x.name = name ∧ .ofRemote x = entry := by
  have hkeys : ((rs.map fun x => (x.name, ManifestDependency.ofRemote x)).map (·.1)).Nodup := by
    rwa [List.map_map]
  rw [ofRemotes, KeyMap.get?_ofList hkeys, List.mem_map]
  simp only [Prod.mk.injEq]

end Federation
