import Federation.Proofs.Resolver.Remotes

/-!
# Strict and lenient resolution

A registry whose answers depend on nothing but the request is a `Transport Id`. What becomes of a dependency then
depends on the dependency alone (`outcomeOf`): not on the other dependencies, although the token is shared, and not
on the order in which the calls end. `strict_and_lenient_agree` compares the two policies, each dependency resolved
on its own (`alone`), and every order of ends.
-/

namespace Federation

namespace Descriptor
variable {d : Descriptor} {context : Option AppContext}

/-- Without the registry no token is needed. -/
theorem plan_congr (h : d.needsRegistry = false) (token token' : Except Error AuthToken) :
    d.plan context token = d.plan context token' := by
  unfold plan
  cases hhome : d.isHome with
  | false => rfl
  | true =>
    have hliteral : isLiteralUrl d.version = true := by simpa [needsRegistry, hhome] using h
    rw [hliteral]
    rfl

end Descriptor

namespace RemoteResolver
variable {transport : Transport Id} {found : Option AppContext} {explicit : Option String}
  {token : Except Error AuthToken} {r : RemoteResolver} {ds : List Descriptor} {d : Descriptor}

/-- What becomes of a dependency. -/
def outcomeOf (transport : Transport Id) (found : Option AppContext) (token : Except Error AuthToken)
    (d : Descriptor) (r : RemoteResolver) : Outcome :=
  Id.run ((d.plan (r.contextOr found) token).carryOut transport r.config.apiBase d.key)

/-- What becomes of all dependencies, each at its place. -/
def allOutcomes (transport : Transport Id) (found : Option AppContext) (explicit : Option String)
    (ds : List Descriptor) (r : RemoteResolver) : List Outcome :=
  ds.map fun d => r.outcomeOf transport found (Id.run (r.token transport explicit ds)) d

/-- The calls for all dependencies run together and end in an order. -/
def gather (transport : Transport Id) (found : Option AppContext) (options : ResolveOptions) (ds : List Descriptor)
    (order : List Nat) (r : RemoteResolver) : Gathering :=
  Gathering.run (r.allOutcomes transport found options.token ds) (.start options.strict ds.length) order

/-- The strict answer for one dependency, resolved on its own. -/
def alone (transport : Transport Id) (found : Option AppContext) (explicit : Option String) (d : Descriptor)
    (r : RemoteResolver) : Except Error (List Remote) :=
  (Id.run (r.resolve transport found ⟨true, explicit⟩ [d])).1

theorem outcomeOf_of_failure {e : Error} (h : (d.plan (r.contextOr found) token).failure? = some e) :
    r.outcomeOf transport found token d = .error e := by
  unfold outcomeOf
  unfold ResolutionPlan.failure? at h
  split at h
  · rename_i e' hplan
    cases h
    rw [hplan]
    rfl
  · cases h

/-- The dependencies with what is to be done for them. -/
def plansFor (transport : Transport Id) (found : Option AppContext) (explicit : Option String)
    (ds : List Descriptor) (r : RemoteResolver) : List (Descriptor × ResolutionPlan) :=
  ds.map fun d => (d, d.plan (r.contextOr found) (Id.run (r.token transport explicit ds)))

theorem resolve_eq (options : ResolveOptions) (ds : List Descriptor) :
    (Id.run (r.resolve transport found options ds)).1 =
      if options.strict = true then
        Outcome.strictly (Id.run (r.outcomes transport true (r.plansFor transport found options.token ds)))
      else .ok (Outcome.leniently
        (Id.run (r.outcomes transport false (r.plansFor transport found options.token ds)))) := by
  cases options with
  | mk strict explicit => cases strict <;> rfl

theorem mapM_carryOut (ds : List Descriptor) :
    Id.run ((r.plansFor transport found explicit ds).mapM fun p => p.2.carryOut transport r.config.apiBase p.1.key) =
      r.allOutcomes transport found explicit ds := by
  simp only [List.idRun_mapM, plansFor, List.map_map, allOutcomes, outcomeOf, Function.comp_def]

variable (transport found explicit r) in
/-- The answer of the resolver, by its policy. -/
theorem resolve_cases (strict : Bool) (ds : List Descriptor) :
    ((strict = true → ∀ o ∈ r.allOutcomes transport found explicit ds, o.error? = none) ∧
      (Id.run (r.resolve transport found ⟨strict, explicit⟩ ds)).1 =
        .ok (Outcome.leniently (r.allOutcomes transport found explicit ds))) ∨
    (strict = true ∧ ∃ e, .error e ∈ r.allOutcomes transport found explicit ds ∧
      (Id.run (r.resolve transport found ⟨strict, explicit⟩ ds)).1 = .error e) := by
  rw [resolve_eq]
  cases strict with
  | false =>
    refine .inl ⟨nofun, ?_⟩
    rw [if_neg Bool.false_ne_true, ← mapM_carryOut]
    rfl
  | true =>
    rw [if_pos rfl, outcomes, if_pos rfl]
    cases hf : (r.plansFor transport found explicit ds).findSome? fun p => p.2.failure? with
    | some e =>
      obtain ⟨p, hp, he⟩ := List.exists_of_findSome?_eq_some hf
      obtain ⟨d, hd, rfl⟩ := List.mem_map.1 hp
      exact .inr ⟨rfl, e, List.mem_map.2 ⟨d, hd, outcomeOf_of_failure he⟩, rfl⟩
    | none =>
      rcases Outcome.strictly_cases (r.allOutcomes transport found explicit ds) with ⟨e, he, hs⟩ | ⟨hok, hs⟩ <;>
        rw [← mapM_carryOut] at hs
      · exact .inr ⟨rfl, e, he, hs⟩
      · exact .inl ⟨fun _ => hok, mapM_carryOut ds ▸ hs⟩

/-- A dependency comes to the same among others as on its own, although the token is searched for once for all. -/
theorem outcomeOf_token (hd : d ∈ ds) :
    r.outcomeOf transport found (Id.run (r.token transport explicit ds)) d =
      r.outcomeOf transport found (Id.run (r.token transport explicit [d])) d := by
  cases hneeds : d.needsRegistry with
  | false => rw [outcomeOf, outcomeOf, Descriptor.plan_congr hneeds]
  | true =>
    have hds : ds.any (·.needsRegistry) = true := List.any_eq_true.2 ⟨d, hd, hneeds⟩
    have hone : [d].any (·.needsRegistry) = true := List.any_eq_true.2 ⟨d, List.mem_singleton_self d, hneeds⟩
    rw [token, token, if_pos hds, if_pos hone]

theorem allOutcomes_singleton (d : Descriptor) :
    r.allOutcomes transport found explicit [d] =
      [r.outcomeOf transport found (Id.run (r.token transport explicit [d])) d] := rfl

/-- On its own, a dependency gives the remotes of its outcome, or fails as its outcome does. -/
theorem alone_eq (d : Descriptor) :
    r.alone transport found explicit d =
      (r.outcomeOf transport found (Id.run (r.token transport explicit [d])) d).map Option.toList := by
  have hcases := resolve_cases transport found explicit r true [d]
  rw [allOutcomes_singleton] at hcases
  rw [alone]
  cases ho : r.outcomeOf transport found (Id.run (r.token transport explicit [d])) d with
  | error e =>
    rcases hcases with ⟨hok, -⟩ | ⟨-, e', he', hanswer⟩
    · exact absurd (hok rfl _ (List.mem_singleton.2 ho.symm)) nofun
    · rw [ho, List.mem_singleton] at he'
      cases he'
      rw [hanswer]
      rfl
  | ok x =>
    rcases hcases with ⟨-, hanswer⟩ | ⟨-, e', he', -⟩
    · rw [hanswer, ho, Outcome.leniently_eq_flatMap, List.flatMap_singleton]
      rfl
    · rw [ho, List.mem_singleton] at he'
      cases he'

theorem allOutcomes_eq (ds : List Descriptor) :
    r.allOutcomes transport found explicit ds =
      ds.map fun d => r.outcomeOf transport found (Id.run (r.token transport explicit [d])) d :=
  List.map_congr_left fun _ hd => outcomeOf_token hd

theorem alone_eq_error {e : Error} : r.alone transport found explicit d = .error e ↔
    r.outcomeOf transport found (Id.run (r.token transport explicit [d])) d = .error e := by
  rw [alone_eq]
  cases r.outcomeOf transport found (Id.run (r.token transport explicit [d])) d <;> simp [Except.map]

theorem error_mem_allOutcomes {e : Error} : .error e ∈ r.allOutcomes transport found explicit ds ↔
    ∃ d ∈ ds, r.alone transport found explicit d = .error e := by
  simp only [allOutcomes_eq, List.mem_map, alone_eq_error]

/-- What a dependency leaves of itself in a lenient answer. -/
def resolved : Except Error (List Remote) → List Remote
  | .ok rs => rs
  | .error _ => []

theorem leniently_allOutcomes (ds : List Descriptor) :
    Outcome.leniently (r.allOutcomes transport found explicit ds) =
      ds.flatMap fun d => resolved (r.alone transport found explicit d) := by
  rw [Outcome.leniently_eq_flatMap, allOutcomes_eq, List.flatMap_map]
  congr 1
  funext d
  rw [alone_eq]
  cases r.outcomeOf transport found (Id.run (r.token transport explicit [d])) d <;> rfl

theorem alone_cases (d : Descriptor) :
    (d.isHome = false ∧ r.alone transport found explicit d = .ok []) ∨
    (d.isHome = true ∧ ∃ e, r.alone transport found explicit d = .error e) ∨
    (d.isHome = true ∧ ∃ x, x.name = d.key ∧ r.alone transport found explicit d = .ok [x]) := by
  rw [alone_eq, outcomeOf, ResolutionPlan.carryOut_eq]
  rcases d.outcome_cases (r.contextOr found) (Id.run (r.token transport explicit [d]))
      (Id.run ((d.plan (r.contextOr found) (Id.run (r.token transport explicit [d]))).inquiry transport
        r.config.apiBase)) with
    ⟨hhome, hout⟩ | ⟨hhome, e, hout⟩ | ⟨hhome, x, hx, hout⟩
  · exact .inl ⟨hhome, congrArg (Except.map Option.toList) hout⟩
  · exact .inr (.inl ⟨hhome, e, congrArg (Except.map Option.toList) hout⟩)
  · exact .inr (.inr ⟨hhome, x, hx.name_eq, congrArg (Except.map Option.toList) hout⟩)

theorem length_allOutcomes (ds : List Descriptor) :
    (r.allOutcomes transport found explicit ds).length = ds.length := List.length_map ..

variable (transport found explicit r) in
/-- The answer of any order, by the policy. -/
theorem answer?_gather (strict : Bool) {order : List Nat} (h : ∀ i < ds.length, i ∈ order) :
    ((strict = true → ∀ d ∈ ds, ∀ e, r.alone transport found explicit d ≠ .error e) ∧
      (r.gather transport found ⟨strict, explicit⟩ ds order).answer? =
        some (.ok (ds.flatMap fun d => resolved (r.alone transport found explicit d)))) ∨
    (strict = true ∧ ∃ d ∈ ds, ∃ e, r.alone transport found explicit d = .error e ∧
      (r.gather transport found ⟨strict, explicit⟩ ds order).answer? = some (.error e)) := by
  have hanswer := Gathering.answer?_run (r.allOutcomes transport found explicit ds) strict
    fun i hi => h i (length_allOutcomes ds ▸ hi)
  rw [length_allOutcomes, leniently_allOutcomes] at hanswer
  rcases hanswer with ⟨hok, hanswer⟩ | ⟨hs, e, he, hanswer⟩
  · refine .inl ⟨fun hs d hd e he => ?_, hanswer⟩
    have hnone := hok hs _ (error_mem_allOutcomes.2 ⟨d, hd, he⟩)
    cases hnone
  · obtain ⟨d, hd, hde⟩ := error_mem_allOutcomes.1 he
    exact .inr ⟨hs, d, hd, e, hde, hanswer⟩

/-- The resolver itself answers as one of the orders does. -/
theorem exists_order_of_resolve (strict : Bool) (ds : List Descriptor) :
    ∃ order : List Nat, order.Perm (List.range ds.length) ∧
      (r.gather transport found ⟨strict, explicit⟩ ds order).answer? =
        some (Id.run (r.resolve transport found ⟨strict, explicit⟩ ds)).1 := by
  rcases resolve_cases transport found explicit r strict ds with
    ⟨hok, hresolve⟩ | ⟨rfl, e, he, hresolve⟩ <;> rw [hresolve]
  · refine ⟨List.range ds.length, .refl _, ?_⟩
    rw [leniently_allOutcomes]
    rcases answer?_gather transport found explicit r strict
        (fun i hi => List.mem_range.2 hi) with ⟨-, hanswer⟩ | ⟨hs, d, hd, e, he, -⟩
    · exact hanswer
    · have hnone := hok hs _ (error_mem_allOutcomes.2 ⟨d, hd, he⟩)
      cases hnone
  · obtain ⟨order, hperm, hanswer⟩ := Gathering.exists_order_of_error he
    rw [length_allOutcomes] at hperm hanswer
    exact ⟨order, hperm, hanswer⟩

/-- Let a registry answer by the request alone, and let the calls for some dependencies end in any order. Leniently,
the answer is the remotes of those dependencies that resolve on their own, in the order of the dependencies.
Strictly, it is the same list when all of them do, and otherwise the error of one that does not. On its own, a
dependency of the home registry fails or gives one remote, under its key, and any other gives none. What the
resolver itself answers is the answer of one of these orders. -/
theorem strict_and_lenient_agree (transport : Transport Id) (found : Option AppContext) (explicit : Option String)
    (r : RemoteResolver) (ds : List Descriptor) (order : List Nat) (h : order.Perm (List.range ds.length)) :
    let alone := r.alone transport found explicit
    let resolvable := ds.flatMap fun d => resolved (alone d)
    let answer? strict order := (r.gather transport found ⟨strict, explicit⟩ ds order).answer?
    answer? false order = some (.ok resolvable) ∧
    ((∀ d ∈ ds, ∃ rs, alone d = .ok rs) → answer? true order = some (.ok resolvable)) ∧
    ((∃ d ∈ ds, ∃ e, alone d = .error e) → ∃ d ∈ ds, ∃ e, alone d = .error e ∧ answer? true order = some (.error e)) ∧
    (∀ d, d.isHome = true → (∃ e, alone d = .error e) ∨ ∃ x, alone d = .ok [x] ∧ x.name = d.key) ∧
    (∀ d, d.isHome = false → alone d = .ok []) ∧
    ∀ strict, ∃ order : List Nat, order.Perm (List.range ds.length) ∧
      answer? strict order = some (Id.run (r.resolve transport found ⟨strict, explicit⟩ ds)).1 := by
  intro alone resolvable answer?
  have hmem (i : Nat) (hi : i < ds.length) : i ∈ order := h.mem_iff.2 (List.mem_range.2 hi)
  refine ⟨?_, fun hall => ?_, fun ⟨d, hd, e, he⟩ => ?_, fun d hd => ?_, fun d hd => ?_, fun strict => ?_⟩
  · rcases answer?_gather transport found explicit r false hmem with ⟨-, hanswer⟩ | ⟨hs, -⟩
    · exact hanswer
    · cases hs
  · rcases answer?_gather transport found explicit r true hmem with ⟨-, hanswer⟩ | ⟨-, d, hd, e, he, -⟩
    · exact hanswer
    · obtain ⟨rs, hrs⟩ := hall d hd
      cases hrs.symm.trans he
  · rcases answer?_gather transport found explicit r true hmem with ⟨hok, -⟩ | ⟨-, hfailed⟩
    · exact absurd he (hok rfl d hd e)
    · exact hfailed
  · rcases r.alone_cases d with ⟨hhome, -⟩ | ⟨-, he⟩ | ⟨-, x, hname, hx⟩
    · cases hd.symm.trans hhome
    · exact .inl he
    · exact .inr ⟨x, hx, hname⟩
  · rcases r.alone_cases d with ⟨-, hnone⟩ | ⟨hhome, -⟩ | ⟨hhome, -⟩
    · exact hnone
    · cases hd.symm.trans hhome
    · cases hd.symm.trans hhome
  · exact exists_order_of_resolve strict ds

/-- A registry that knows one version of one application. -/
def cartRegistry : Transport Id := fun q =>
  let body := "\x7b\"value\":\x7b\"remote_entry_url\":\"https://cdn.acme.dev/cart/entry.js\"\x7d\x7d"
  if q.url.target = "/resolve/cart.shop.acme/1.0.0".toList then
    some ⟨200, body.toList.map fun c => UInt8.ofNat c.toNat⟩
  else some ⟨404, []⟩

/-- A dependency of another registry, one that the registry knows, and one that it does not. -/
def threeDependencies : List Descriptor :=
  [.parse "ui" "npm:design-system@2.0.0", .parse "cart" "cart.shop.acme@1.0.0",
    .parse "orders" "orders.shop.acme@1.0.0"]

/-- The last dependency fails first: leniently the cart is left, strictly there is the error of the one that failed. -/
theorem strict_and_lenient_agree_of_three :
    let r : RemoteResolver := ⟨Config.default, ⟨[]⟩, none⟩
    [2, 0, 1].Perm (List.range threeDependencies.length) ∧
    (r.gather cartRegistry none ⟨false, some "secret"⟩ threeDependencies [2, 0, 1]).answer? =
      some (.ok [⟨"cart", "cart.shop.acme", "https://cdn.acme.dev/cart/entry.js", "https://cdn.acme.dev/cart/",
        "1.0.0"⟩]) ∧
    ∃ d ∈ threeDependencies, ∃ e, r.alone cartRegistry none (some "secret") d = .error e ∧
      (r.gather cartRegistry none ⟨true, some "secret"⟩ threeDependencies [2, 0, 1]).answer? = some (.error e) := by
  intro r
  have hperm : [2, 0, 1].Perm (List.range threeDependencies.length) := by decide
  have hresolvable : (threeDependencies.flatMap fun d => resolved (r.alone cartRegistry none (some "secret") d)) =
      [⟨"cart", "cart.shop.acme", "https://cdn.acme.dev/cart/entry.js", "https://cdn.acme.dev/cart/", "1.0.0"⟩] := by
    decide +kernel
  have hfails : ∃ e, r.alone cartRegistry none (some "secret") (.parse "orders" "orders.shop.acme@1.0.0") =
      .error e := by
    have hno : (r.alone cartRegistry none (some "secret") (.parse "orders" "orders.shop.acme@1.0.0")).isOk = false := by
      decide +kernel
    cases halone : r.alone cartRegistry none (some "secret") (.parse "orders" "orders.shop.acme@1.0.0") with
    | error e => exact ⟨e, rfl⟩
    | ok rs =>
      rw [halone] at hno
      cases hno
  obtain ⟨hlenient, -, hstrict, -⟩ :=
    strict_and_lenient_agree cartRegistry none (some "secret") r threeDependencies [2, 0, 1] hperm
  exact ⟨hperm, hresolvable ▸ hlenient, hstrict ⟨_, List.mem_cons_of_mem _ (List.mem_cons_of_mem _
    List.mem_cons_self), hfails⟩⟩

end RemoteResolver

end Federation
