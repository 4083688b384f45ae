import Federation.Application.Uid
import Federation.Config
import Federation.Registry
import Federation.Token

/-!
# Resolving dependencies

Each dependency of the home registry becomes a remote: a literal URL directly, anything else by asking the
registry. `plan` decides for one dependency what is to be done, without the network; carrying out a plan gives
its outcome; and the outcomes of all dependencies are put together either strictly, where the first failure is
the answer, or leniently, where failed dependencies are left out. Dependencies of other registries are nobody's
failure.
-/

namespace Federation

/-- How to resolve. -/
structure ResolveOptions where
  /-- Whether one failure fails the whole. -/
  strict : Bool
  /-- The token of the caller. -/
  token : Option String

/-- What is to be done for one dependency. -/
inductive ResolutionPlan where
  /-- Nothing: another registry answers for it. -/
  | skip
  /-- It is decided without the registry. -/
  | settled (outcome : Except Error Remote)
  /-- The registry is to be asked. -/
  | ask (uid version token : String)

/-- What became of one dependency; a skipped one has no remote. -/
abbrev Outcome := Except Error (Option Remote)

namespace Descriptor

/-- Whether the registry has to be asked for a dependency. -/
def needsRegistry (d : Descriptor) : Bool := d.isHome && !isLiteralUrl d.version

/-- Whether the context of the host is needed to name a dependency. -/
def needsContext (d : Descriptor) : Bool := d.needsRegistry && !isFullyQualified d.applicationUid

/-- The remote of a dependency whose version is its URL. -/
def directRemote (d : Descriptor) : Except Error Remote :=
  match absoluteUrl? d.version with
  | none => .error (.invalidResolution d.applicationUid s!"'{d.version}' is not an absolute URL")
  | some u => .ok ⟨d.key, d.applicationUid, u.text, publicPathOf u.text, u.text⟩

/-- What is to be done for a dependency, in a context and with what the search for a token came to. -/
def plan (context : Option AppContext) (token : Except Error AuthToken) (d : Descriptor) : ResolutionPlan :=
  if !d.isHome then .skip
  else if isLiteralUrl d.version then .settled d.directRemote
  else
    match qualifyUid d.applicationUid context with
    | .error e => .settled (.error e)
    | .ok uid =>
      match token with
      | .error e => .settled (.error e)
      | .ok t => .ask uid (requestedVersion d.version) t.value

end Descriptor

namespace ResolutionPlan

/-- The failure that is certain before the registry is asked. -/
def failure? : ResolutionPlan → Option Error
  | settled (.error e) => some e
  | _ => none

variable {m : Type → Type} [Monad m]

/-- Carries out a plan for the dependency with a key. -/
def carryOut (transport : Transport m) (base key : String) : ResolutionPlan → m Outcome
  | skip => pure (.ok none)
  | settled o => pure (o.map some)
  | ask uid version token => do
    match ← Registry.resolve transport base token uid version with
    | .error e => pure (.error e)
    | .ok r => pure ((r.toRemote key uid version).map some)

end ResolutionPlan

namespace Outcome

/-- The remotes, if nothing failed; else the first failure. -/
def strictly : List Outcome → Except Error (List Remote)
  | [] => .ok []
  | .error e :: _ => .error e
  | .ok r :: os => (strictly os).map (r.toList ++ ·)

/-- The remotes of what did not fail. -/
def leniently (os : List Outcome) : List Remote :=
  os.filterMap fun
    | .ok r => r
    | .error _ => none

end Outcome

/-- Resolves dependencies for one host. -/
structure RemoteResolver where
  config : Config
  environment : Environment
  /-- The context of the host, once it is known; it is looked up at most once. -/
  context : Option (Option AppContext)

namespace RemoteResolver

/-- A resolver with usable settings. -/
def ofConfig (config : Config) (environment : Environment) : Except Error RemoteResolver := do
  config.validate
  pure ⟨config, environment, none⟩

/-- The resolver with a given context. -/
def withContext (r : RemoteResolver) (c : AppContext) : RemoteResolver := { r with context := some (some c) }

/-- The context of the host, where `found` is what a look-up would find now. -/
def contextOr (r : RemoteResolver) (found : Option AppContext) : Option AppContext := r.context.getD found

/-- The resolver after the context was asked for. -/
def remember (r : RemoteResolver) (found : Option AppContext) : RemoteResolver :=
  { r with context := some (r.contextOr found) }

variable {m : Type → Type} [Monad m]

/-- The outcomes of dependencies, in their order. Strictly, nothing is asked of the registry when a failure is
certain already. -/
def outcomes (transport : Transport m) (r : RemoteResolver) (strict : Bool)
    (plans : List (Descriptor × ResolutionPlan)) : m (List Outcome) :=
  match if strict then plans.findSome? fun p => p.2.failure? else none with
  | some e => pure [.error e]
  | none => plans.mapM fun p => p.2.carryOut transport r.config.apiBase p.1.key

/-- The dependencies that are looked at: strictly, those up to the first certain failure. -/
def reached (strict : Bool) (plans : List (Descriptor × ResolutionPlan)) : List Descriptor :=
  let before := if strict then plans.takeWhile fun p => p.2.failure?.isNone else plans
  (plans.take (before.length + 1)).map (·.1)

/-- The token for dependencies. It is searched for only if the registry has to be asked for one of them. -/
def token (transport : Transport m) (explicit : Option String) (ds : List Descriptor) (r : RemoteResolver) :
    m (Except Error AuthToken) :=
  if ds.any (·.needsRegistry) then AuthToken.obtain transport r.config.tokenExchangeUrl r.environment explicit
  else pure (.error .missingAuthToken)

/-- Resolves dependencies. -/
def resolve (transport : Transport m) (found : Option AppContext) (options : ResolveOptions)
    (ds : List Descriptor) (r : RemoteResolver) : m (Except Error (List Remote) × RemoteResolver) := do
  let token ← r.token transport options.token ds
  let plans := ds.map fun d => (d, d.plan (r.contextOr found) token)
  let os ← r.outcomes transport options.strict plans
  let r := if (reached options.strict plans).any (·.needsContext) then r.remember found else r
  pure (if options.strict then Outcome.strictly os else .ok (Outcome.leniently os), r)

end RemoteResolver

end Federation
