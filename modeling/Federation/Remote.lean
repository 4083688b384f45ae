import Federation.Url.Parser

/-!
# Resolved remotes

A remote is an application that a host loads at run time: the URL of its entry file and the public path under
which its other files lie. Without a path of its own, the public path is the directory of the entry file.
-/

namespace Federation

/-- A dependency after its resolution. -/
structure Remote where
  /-- The name under which the host knows the remote. -/
  name : String
  applicationUid : String
  remoteEntryUrl : String
  publicPath : String
  version : String
deriving DecidableEq, Repr

/-- The directory of an entry URL. A text that is no URL is cut behind its last slash. -/
def publicPathOf (entryUrl : String) : String :=
  match Url.parse entryUrl with
  | .ok u => u.directory.text
  | .error _ =>
    match Text.splitLast '/' entryUrl.toList with
    | some (d, _) => String.ofList (d ++ ['/'])
    | none => entryUrl

/-- A URL with a host or a path from the root, so that other URLs can be resolved against it. -/
def isAbsoluteUrl (s : String) : Bool :=
  match Url.parse s with
  | .ok u => u.canBeBase
  | .error _ => false

/-- A protocol-relative URL (one that begins with two slashes) with a scheme; any other text as it is. -/
def withProtocol (s : String) : String :=
  match Text.dropPrefix? ['/', '/'] s.toList with
  | some r => String.ofList ("https://".toList ++ r)
  | none => s

/-- The URL that a text means, if it is absolute. -/
def absoluteUrl? (s : String) : Option Url :=
  match Url.parse (withProtocol (trim s)) with
  | .ok u => if u.canBeBase then some u else none
  | .error _ => none

end Federation
