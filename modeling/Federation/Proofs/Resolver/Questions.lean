import Federation.Proofs.Resolver.Targets

/-!
# Questions to the registry

A question is a URL that is put together as a text: the base without the slashes at its end, a fixed word, and the uid
and the version as components. A component has no slash, so the last two slashes of the text are those around the uid,
whatever the base, the uid and the version are; between them both can be read back (`Registry.questionOf?`). This is
about the text alone. What becomes of it when it is parsed and sent is told by `Registry.seen`.
-/

namespace Federation.Registry

open Percent

variable {base uid uid' version version' : String}

/-- A text that holds a uid and a version as components, with one slash between them: its characters are visible ASCII
ones that end no path, and a percent sign stands only where an octet is escaped. -/
structure Asks (path : List Char) (uid version : String) : Prop where
  parts : ∃ first second, path = first ++ '/' :: second ∧ decodeComponent? first = some uid.toList ∧
    decodeComponent? second = some version.toList
  slash : path.count '/' = 1
  chars : ∀ c ∈ path, c.toNat < 0x80 ∧ isBlankChar c = false ∧ c ≠ '?' ∧ c ≠ '#'
  escaped : Escaped path

/-- A base without the slashes at its end. -/
def stem (base : String) : String := String.ofList (Text.dropEndWhile (· == '/') base.toList)

/-- What a question is put together from: the stem of the base, the uid and the version. -/
def questionOf? (url : String) : Option (String × String × String) := do
  let (front, version) ← Text.splitLast '/' url.toList
  let (front, uid) ← Text.splitLast '/' front
  let stem ← Text.dropSuffix? "/resolve".toList front
  let uid ← decodeComponent? uid
  let version ← decodeComponent? version
  pure (String.ofList stem, String.ofList uid, String.ofList version)

theorem exists_slashes (base : String) : ∃ slashes, base = stem base ++ slashes ∧ (∀ c ∈ slashes.toList, c = '/') ∧
    ∀ front, stem base ≠ front ++ "/" := by
  obtain ⟨slashes, hslashes, hbase⟩ := Text.exists_dropEndWhile (· == '/') base.toList
  refine ⟨String.ofList slashes, ?_, fun c hc => ?_, fun front hfront => ?_⟩
  · rw [stem, ← String.ofList_append, ← hbase, String.ofList_toList]
  · rw [String.toList_ofList] at hc
    exact beq_iff_eq.1 (hslashes c hc)
  · have hlast : '/' ∈ (Text.dropEndWhile (· == '/') base.toList).getLast? := by
      rw [← String.toList_ofList (l := Text.dropEndWhile (· == '/') base.toList), ← stem, hfront, String.toList_append]
      exact List.getLast?_concat
    exact absurd (Text.getLast?_dropEndWhile _ _ _ hlast) (by decide)

theorem slash_notMem_encodeComponent (s : List Char) : '/' ∉ encodeComponent s :=
  fun h => (isComponentChar_of_mem h).free.2.2.1 rfl

theorem asks_components (uid version : String) :
    Asks (encodeComponent uid.toList ++ '/' :: encodeComponent version.toList) uid version := by
  refine ⟨⟨_, _, rfl, decodeComponent?_encodeComponent _, decodeComponent?_encodeComponent _⟩, ?_, ?_, ?_⟩
  · rw [List.count_append, List.count_cons_self, List.count_eq_zero.2 (slash_notMem_encodeComponent _),
      List.count_eq_zero.2 (slash_notMem_encodeComponent _)]
  · have hcomponent (s : List Char) : ∀ c ∈ encodeComponent s,
        c.toNat < 0x80 ∧ isBlankChar c = false ∧ c ≠ '?' ∧ c ≠ '#' := by
      intro c hc
      have hchar := isComponentChar_of_mem hc
      exact ⟨hchar.1, isBlankChar_of_visible hchar.free.1, hchar.free.2.2.2.2.1, hchar.free.2.2.2.2.2.1⟩
    exact List.forall_mem_append.2 ⟨hcomponent _, List.forall_mem_cons.2 ⟨by decide, hcomponent _⟩⟩
  · have hslash : Escaped ['/'] := escaped_of_notMem (by decide)
    exact (escaped_encode rfl _).append (hslash.append (escaped_encode rfl _))

/-- The text of a question, cut at its last two slashes. -/
theorem toList_resolveUrl_cut (base uid version : String) : (resolveUrl base uid version).toList =
    (Text.dropEndWhile (· == '/') base.toList ++ "/resolve".toList ++ '/' :: encodeComponent uid.toList) ++
      '/' :: encodeComponent version.toList := by
  simp [toList_resolveUrl, components, Text.join]

theorem questionOf?_eq (base uid version : String) : questionOf? (resolveUrl base uid version) =
    some (stem base, uid, version) := by
  rw [questionOf?, toList_resolveUrl_cut, Text.splitLast_append _ (slash_notMem_encodeComponent version.toList)]
  dsimp only [Option.bind_eq_bind, Option.bind_some]
  rw [Text.splitLast_append _ (slash_notMem_encodeComponent uid.toList)]
  dsimp only [Option.bind_some]
  rw [Text.dropSuffix?_eq_some.2 rfl, decodeComponent?_encodeComponent, decodeComponent?_encodeComponent]
  dsimp only [Option.bind_some]
  rw [String.ofList_toList, String.ofList_toList]
  rfl

theorem resolveUrl_inj :
    resolveUrl base uid version = resolveUrl base uid' version' ↔ uid = uid' ∧ version = version' := by
  refine ⟨fun h => ?_, fun ⟨huid, hversion⟩ => by rw [huid, hversion]⟩
  have hread := questionOf?_eq base uid version
  rw [h, questionOf?_eq] at hread
  cases hread
  exact ⟨rfl, rfl⟩

/-- A question is the base without the slashes at its end, the word between slashes, and a text that holds the uid and
the version. From the whole of it the three can be read back; so on one base two questions are the same text only if
they ask for the same pair. -/
theorem resolveUrl_reads_back (base uid version : String) : ∃ stem slashes path : String,
    base = stem ++ slashes ∧ (∀ c ∈ slashes.toList, c = '/') ∧ (∀ front, stem ≠ front ++ "/") ∧
    resolveUrl base uid version = stem ++ "/resolve/" ++ path ∧ Asks path.toList uid version ∧
    questionOf? (resolveUrl base uid version) = some (stem, uid, version) ∧
    ∀ uid' version',
      resolveUrl base uid version = resolveUrl base uid' version' ↔ uid = uid' ∧ version = version' := by
  obtain ⟨slashes, hbase, hslashes, hstem⟩ := exists_slashes base
  refine ⟨stem base, slashes, String.ofList (encodeComponent uid.toList ++ '/' :: encodeComponent version.toList), hbase,
    hslashes, hstem, ?_, ?_, questionOf?_eq base uid version, fun uid' version' => resolveUrl_inj⟩
  · rw [← String.toList_inj, toList_resolveUrl_cut]
    simp [stem]
  · rw [String.toList_ofList]
    exact asks_components uid version

example : resolveUrl "https://api.example.dev/" "cart.shop.acme" "^1.0.0 || 2" =
    "https://api.example.dev/resolve/cart.shop.acme/%5E1.0.0%20%7C%7C%202" := by
  decide

end Federation.Registry
