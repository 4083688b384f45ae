import Federation.Manifest.Basic
import Federation.Timestamp

/-!
# Building manifests

A builder takes what one build resolved, in as many parts as it comes, and makes one manifest of it. Its timestamp
and its version are preset and can be set until then.
-/

namespace Federation

/-- A manifest on the way. -/
structure ManifestBuilder where
  applicationUid : String
  timestamp : Instant
  version : String
  /-- What was resolved so far, in the order in which it came. -/
  resolved : List Remote

namespace ManifestBuilder

/-- A builder for a host, at the time `now`. -/
def new (applicationUid : String) (now : Instant) : ManifestBuilder :=
  ⟨applicationUid, now, Manifest.formatVersion, []⟩

/-- Sets the time of the build. -/
def setTimestamp (b : ManifestBuilder) (t : Instant) : ManifestBuilder := { b with timestamp := t }

/-- Sets the version of the format. -/
def setVersion (b : ManifestBuilder) (version : String) : ManifestBuilder := { b with version }

/-- Adds resolved remotes. -/
def remotes (b : ManifestBuilder) (rs : List Remote) : ManifestBuilder := { b with resolved := b.resolved ++ rs }

/-- The manifest; of several remotes with one name the last stays. -/
def build (b : ManifestBuilder) : Manifest :=
  .ofRemotes b.applicationUid b.timestamp.text b.version b.resolved

end ManifestBuilder

end Federation
