import Federation.Text.Split

/-!
# Dependency specifiers

A dependency table maps keys to specifiers such as `zephyr:cart@^1.0.0`, `cart@beta`, `workspace:*` or a URL.
`Descriptor.parse` cuts a specifier at its first colon into registry and reference, and the reference at its
last `@` into application uid and version. What is missing comes from the key and from the home registry.
-/

namespace Federation

/-- One dependency of a host application, before it is resolved. -/
structure Descriptor where
  /-- The key in the dependency table, which names the remote for the host. -/
  key : String
  registry : String
  applicationUid : String
  /-- A version, range, tag, URL or placeholder. -/
  version : String
deriving DecidableEq, Repr

/-- The registry that is asked when a specifier names none. -/
def homeRegistry : String := "zephyr"

/-- The specifier that stands for the version of a package of the same workspace. -/
def workspaceAny : String := "workspace:*"

/-- What a reference to a catalog of the workspace begins with. -/
def catalogPrefix : String := "catalog:"

/-- The beginnings by which a text is taken for a URL rather than for a version. -/
def literalUrlStarts : List String := ["http://", "https://", "file://", "//"]

/-- Whether a text is taken for a URL. -/
def isLiteralUrl (s : String) : Bool := literalUrlStarts.any fun p => p.toList.isPrefixOf s.toList

/-- The name in a catalog reference. -/
def catalogName? (s : String) : Option String :=
  (Text.dropPrefix? catalogPrefix.toList s.toList).map String.ofList

/-- Whether a version only stands for one that the workspace knows. -/
def isPlaceholder (s : String) : Bool := s == workspaceAny || (catalogName? s).isSome

namespace Descriptor

/-- Whether the home registry answers for the dependency. -/
def isHome (d : Descriptor) : Bool := d.registry == homeRegistry

/-- Registry and reference of a specifier: everything before the first colon names a registry, unless the
whole is a URL or means the workspace. -/
def splitRegistry (specifier : String) : String × String :=
  if specifier == workspaceAny || isLiteralUrl specifier then (homeRegistry, specifier)
  else
    match Text.splitFirst ':' specifier.toList with
    | some (r, s) => (String.ofList r, String.ofList s)
    | none => (homeRegistry, specifier)

/-- Application uid and version of a reference; the key stands in for a missing uid. -/
def splitVersion (key reference : String) : String × String :=
  match Text.splitLast '@' reference.toList with
  | none => (key, reference)
  | some ([], v) => (key, String.ofList v)
  | some (u, v) => (String.ofList u, String.ofList v)

/-- The dependency that a specifier under a key means. -/
def parse (key specifier : String) : Descriptor :=
  let (registry, reference) := splitRegistry specifier
  let (uid, version) := splitVersion key reference
  ⟨key, registry, uid, version⟩

end Descriptor

end Federation
