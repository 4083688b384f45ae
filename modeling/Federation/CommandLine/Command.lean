import Federation.CommandLine.Options
import Federation.Config

/-!
# Commands

The two commands of the program: `resolve` resolves the dependencies of a package and writes its manifest, and
`fetch` prints the manifest of a deployed application.
-/

namespace Federation.CommandLine

/-- What to resolve and where to write. -/
structure ResolveCommand where
  packageFile : String
  /-- The uid of the application; without it the uid comes from the name of the package. -/
  applicationUid : Option String
  platform : Option String
  /-- Whether remotes that cannot be resolved are left out. -/
  allowPartial : Bool
  config : Option String
  output : String
deriving DecidableEq, Repr

/-- What to fetch. -/
structure FetchCommand where
  url : String
  applicationUid : String
  timeoutSecs : Nat
deriving DecidableEq, Repr

/-- A command. -/
inductive Command where
  | resolve (c : ResolveCommand)
  | fetch (c : FetchCommand)
deriving DecidableEq, Repr

/-- The options of `resolve`. -/
def resolveOptions : List OptionSpec :=
  [⟨"package-json", .path⟩, ⟨"app-uid", .text⟩, ⟨"platform", .text⟩, ⟨"allow-partial", .flag⟩, ⟨"config", .path⟩,
    ⟨"out", .path⟩]

/-- The options of `fetch`. -/
def fetchOptions : List OptionSpec := [⟨"url", .text⟩, ⟨"app-uid", .text⟩, ⟨"timeout-secs", .text⟩]

/-- Reads the arguments of `resolve`. -/
def readResolve (args : List String) : Except Stop ResolveCommand := do
  let given ← readOptions resolveOptions [] args
  pure ⟨(valueOf? given "package-json").getD "package.json", valueOf? given "app-uid", valueOf? given "platform",
    (valueOf? given "allow-partial").isSome, valueOf? given "config", (valueOf? given "out").getD "dist"⟩

/-- Reads the arguments of `fetch`. -/
def readFetch (args : List String) : Except Stop FetchCommand := do
  let given ← readOptions fetchOptions [] args
  match valueOf? given "url", valueOf? given "app-uid", word? ((valueOf? given "timeout-secs").getD "30") with
  | some url, some uid, some secs => pure ⟨url, uid, secs⟩
  | _, _, _ => throw .usage

/-- The arguments behind `help`: at most the name of one command. -/
def readHelp : List String → Stop
  | [] | ["resolve"] | ["fetch"] | ["help"] => .information
  | _ => .usage

/-- The command that arguments mean. -/
def read : List String → Except Stop Command
  | "resolve" :: args => (readResolve args).map .resolve
  | "fetch" :: args => (readFetch args).map .fetch
  | "help" :: args => .error (readHelp args)
  | "--help" :: _ | "--version" :: _ => .error .information
  | a :: _ =>
    if "-h".toList.isPrefixOf a.toList || "-V".toList.isPrefixOf a.toList then .error .information
    else .error .usage
  | [] => .error .usage

end Federation.CommandLine
