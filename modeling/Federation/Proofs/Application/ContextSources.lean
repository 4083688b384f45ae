import Federation.Application.Sources
import Federation.Proofs.Application.Repositories

/-!
# Sources of a context

Three sources may name an organization and a project: the environment, the origin of the repository and the package
file. Each of them names both or neither (`ContextSource.Names`). The context is made from the pair of the first source
that names one, so what the others have is not mixed into it (`discover?_iff_first`): a setting for the organization
alone changes nothing.
-/

namespace Federation

/-- A source of organization and project, with all that is read from it. -/
inductive ContextSource where
  | environment (env : Environment)
  | origin (answer : OriginQuery)
  /-- The text of the package file, if it has one. -/
  | package (file : Option String)

namespace ContextSource

open AppContext

/-- The organization and the project that a source names. -/
inductive Names : ContextSource → (org project : String) → Prop
  | environment {env : Environment} {org project : String} (org_set : env.lookup orgSetting = some org)
      (org_visible : isBlank org = false) (project_set : env.lookup projectSetting = some project)
      (project_visible : isBlank project = false) : Names (.environment env) (trim org) (trim project)
  | origin {octets : List UInt8} {address org project : String}
      (printed : String.ofList (Utf8.decodeLossy octets) = address) (visible : isBlank address = false)
      (names : AddressNames (trim address) org project) : Names (.origin (.printed octets)) org project
  /-- The repository field is the address. -/
  | field {text address org project : String} {package : Json} (parsed : Json.parse? text = some package)
      (field : package.member? "repository" = some (.string address)) (names : AddressNames address org project) :
      Names (.package (some text)) org project
  /-- The repository field is an object with the address. -/
  | url {text address org project : String} {package : Json} {members : List (String × Json)}
      (parsed : Json.parse? text = some package) (field : package.member? "repository" = some (.object members))
      (url : (Json.object members).member? "url" = some (.string address)) (names : AddressNames address org project) :
      Names (.package (some text)) org project

/-- A source that names nothing. -/
def IsSilent (s : ContextSource) : Prop := ∀ org project, ¬ s.Names org project

/-- The context that a source shows. -/
def context? : ContextSource → Option AppContext
  | environment env => ofEnvironment? env
  | origin answer => answer.address?.bind ofRepository?
  | package file => file.bind ofPackage?

end ContextSource

/-! ### What each source shows -/

theorem OriginQuery.address?_eq_some {answer : OriginQuery} {address : String} : answer.address? = some address ↔
    ∃ octets, answer = .printed octets ∧ isBlank (String.ofList (Utf8.decodeLossy octets)) = false ∧
      trim (String.ofList (Utf8.decodeLossy octets)) = address := by
  cases answer <;> simp [address?, nonBlank?_eq_some]

theorem repositoryField?_eq_some {package : Json} {address : String} : repositoryField? package = some address ↔
    package.member? "repository" = some (.string address) ∨ ∃ members,
      package.member? "repository" = some (.object members) ∧
      (Json.object members).member? "url" = some (.string address) := by
  have htext (x : Json) : x.text? = some address ↔ x = .string address := by cases x <;> simp [Json.text?]
  unfold repositoryField?
  split
  · rename_i s hs
    simp [hs]
  · rename_i members hmembers
    simp [hmembers, htext, Option.bind_eq_some_iff]
  · rename_i hno_text hno_object
    refine iff_of_false nofun ?_
    rintro (hs | ⟨members, hmembers, -⟩)
    · exact hno_text _ hs
    · exact hno_object _ hmembers

namespace AppContext
variable {env : Environment} {text : String} {c : AppContext}

theorem ofEnvironment?_eq_some : ofEnvironment? env = some c ↔ ∃ org project, env.get? orgSetting = some org ∧
    env.get? projectSetting = some project ∧ ofNames org project = c := by
  unfold ofEnvironment?
  cases env.get? orgSetting <;> cases env.get? projectSetting <;> simp

theorem ofPackage?_eq_some : ofPackage? text = some c ↔ ∃ package address, Json.parse? text = some package ∧
    repositoryField? package = some address ∧ ofRepository? address = some c := by
  simp [ofPackage?, Option.bind_eq_some_iff]

end AppContext

namespace ContextSource
variable {s : ContextSource} {c : AppContext}

open AppContext

/-- A source shows the context of the pair that it names. -/
theorem context?_eq_some : s.context? = some c ↔ ∃ org project, s.Names org project ∧ ofNames org project = c := by
  cases s with
  | environment env =>
    rw [context?, ofEnvironment?_eq_some]
    simp only [Environment.get?_eq_some]
    constructor
    · rintro ⟨-, -, ⟨org, horg, horg', rfl⟩, ⟨project, hproject, hproject', rfl⟩, hc⟩
      exact ⟨_, _, .environment horg horg' hproject hproject', hc⟩
    · rintro ⟨-, -, ⟨horg, horg', hproject, hproject'⟩, hc⟩
      exact ⟨_, _, ⟨_, horg, horg', rfl⟩, ⟨_, hproject, hproject', rfl⟩, hc⟩
  | origin answer =>
    rw [context?, Option.bind_eq_some_iff]
    simp only [OriginQuery.address?_eq_some, ofRepository?_eq_some]
    constructor
    · rintro ⟨-, ⟨octets, rfl, hvisible, rfl⟩, org, project, hnames, hc⟩
      exact ⟨org, project, .origin rfl hvisible hnames, hc⟩
    · rintro ⟨org, project, hnames, hc⟩
      cases hnames with
      | origin hprinted hvisible hnames =>
        subst hprinted
        exact ⟨_, ⟨_, rfl, hvisible, rfl⟩, org, project, hnames, hc⟩
  | package file =>
    rw [context?, Option.bind_eq_some_iff]
    simp only [ofPackage?_eq_some, repositoryField?_eq_some, ofRepository?_eq_some]
    constructor
    · rintro ⟨text, rfl, package, address, hparsed, hfield | ⟨members, hfield, hurl⟩, org, project, hnames, hc⟩
      · exact ⟨org, project, .field hparsed hfield hnames, hc⟩
      · exact ⟨org, project, .url hparsed hfield hurl hnames, hc⟩
    · rintro ⟨org, project, hnames, hc⟩
      cases hnames with
      | field hparsed hfield hnames => exact ⟨_, rfl, _, _, hparsed, .inl hfield, org, project, hnames, hc⟩
      | url hparsed hfield hurl hnames =>
        exact ⟨_, rfl, _, _, hparsed, .inr ⟨_, hfield, hurl⟩, org, project, hnames, hc⟩

theorem context?_eq_none : s.context? = none ↔ s.IsSilent := by
  rw [Option.eq_none_iff_forall_ne_some]
  simp only [ne_eq, context?_eq_some]
  exact ⟨fun h org project hnames => h _ ⟨org, project, hnames, rfl⟩, fun h c ⟨org, project, hnames, _⟩ => h _ _ hnames⟩

end ContextSource

/-! ### The first source -/

namespace AppContext

theorem ofSources?_eq (env : Environment) (origin : OriginQuery) (package : Option String) :
    ofSources? env origin package =
      [ContextSource.environment env, .origin origin, .package package].findSome? ContextSource.context? := by
  unfold ofSources?
  simp only [List.findSome?_cons, ContextSource.context?, List.findSome?_nil]
  cases ofEnvironment? env <;> cases origin.address?.bind ofRepository? <;> cases package.bind ofPackage? <;> rfl

/-- The context of an application has the organization and the project of the first source that names any: environment,
origin, package file, each in the form that uids have. There is none if all are silent. So a setting for one of the two
alone is as good as none, and with both set nothing else is asked. -/
theorem discover?_iff_first (env : Environment) (origin : OriginLookup) (d : Disk) (cwd : Location)
    (workdir : List Char) :
    let file := d.readText? cwd (Path.join workdir "package.json".toList)
    let sources : List ContextSource := [.environment env, .origin (origin workdir), .package file]
    (∀ c, discover? env origin d cwd workdir = some c ↔
      ∃ earlier s later org project, sources = earlier ++ s :: later ∧ (∀ q ∈ earlier, q.IsSilent) ∧
        s.Names org project ∧ c.org = uidSegment org ∧ c.project = uidSegment project) ∧
    (discover? env origin d cwd workdir = none ↔ ∀ s ∈ sources, s.IsSilent) ∧
    (env.get? orgSetting = none ∨ env.get? projectSetting = none →
      discover? env origin d cwd workdir = discover? ⟨[]⟩ origin d cwd workdir) ∧
    ∀ org project, env.get? orgSetting = some org → env.get? projectSetting = some project →
      ∀ origin' d' cwd' workdir', ∃ c, discover? env origin' d' cwd' workdir' = some c ∧ c.org = uidSegment org ∧
        c.project = uidSegment project := by
  intro file sources
  have hfirst : discover? env origin d cwd workdir = sources.findSome? ContextSource.context? := ofSources?_eq _ _ _
  refine ⟨fun c => ?_, ?_, fun hhalf => ?_, fun org project horg hproject origin' d' cwd' workdir' => ?_⟩
  · rw [hfirst, List.findSome?_eq_some_iff]
    simp only [ContextSource.context?_eq_some, ContextSource.context?_eq_none, ofNames_eq_iff]
    constructor
    · rintro ⟨earlier, s, later, hsources, ⟨org, project, hnames, hc⟩, hsilent⟩
      exact ⟨earlier, s, later, org, project, hsources, hsilent, hnames, hc⟩
    · rintro ⟨earlier, s, later, org, project, hsources, hsilent, hnames, hc⟩
      exact ⟨earlier, s, later, hsources, ⟨org, project, hnames, hc⟩, hsilent⟩
  · rw [hfirst, List.findSome?_eq_none_iff]
    simp only [ContextSource.context?_eq_none]
  · have hnone : ofEnvironment? env = none := by
      refine Option.eq_none_iff_forall_ne_some.2 fun c hc => ?_
      obtain ⟨org, project, horg, hproject, -⟩ := ofEnvironment?_eq_some.1 hc
      rcases hhalf with h | h
      · cases horg.symm.trans h
      · cases hproject.symm.trans h
    have hunset : ofEnvironment? ⟨[]⟩ = none := rfl
    unfold discover? ofSources?
    rw [hnone, hunset]
  · unfold discover? ofSources?
    rw [ofEnvironment?_eq_some.2 ⟨org, project, horg, hproject, rfl⟩]
    exact ⟨_, rfl, ofNames_eq_iff.1 rfl⟩

/-- An organization alone is set, and the origin is a repository of another. -/
theorem discover?_iff_first_of_origin :
    let env : Environment := ⟨[("ZE_APP_ORG", "initech"), ("ZE_APP_PROJECT", " ")]⟩
    let printed := "git@github.com:Acme/shop.git\n".toList.map fun c => UInt8.ofNat c.toNat
    let origin : OriginLookup := fun _ => .printed printed
    (env.get? orgSetting = none ∨ env.get? projectSetting = none) ∧
    discover? env origin .empty [] [] = discover? ⟨[]⟩ origin .empty [] [] ∧
    discover? env origin .empty [] [] = some ⟨"acme", "shop"⟩ := by
  intro env printed origin
  obtain ⟨hsome, -, hhalf, -⟩ := discover?_iff_first env origin .empty [] []
  have hproject : env.get? orgSetting = none ∨ env.get? projectSetting = none := .inr (by decide)
  have hsilent : (ContextSource.environment env).IsSilent := ContextSource.context?_eq_none.1 (by decide)
  have hprinted : String.ofList (Utf8.decodeLossy printed) = "git@github.com:Acme/shop.git\n" := by decide +kernel
  have hnames : (ContextSource.origin (origin [])).Names "Acme" "shop" :=
    .origin hprinted (by decide) ⟨"Acme/shop".toList, [], by decide, by decide⟩
  refine ⟨hproject, hhalf hproject, (hsome _).2 ?_⟩
  exact ⟨[.environment env], .origin (origin []), [.package none], "Acme", "shop", rfl,
    List.forall_mem_singleton.2 hsilent, hnames, by decide, by decide⟩

end AppContext

end Federation
