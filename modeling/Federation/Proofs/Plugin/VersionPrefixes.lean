import Federation.Proofs.Manifest.RoundTrip
import Federation.Proofs.Plugin.Loads
import Federation.Proofs.Url.Bases

/-!
# Names in front of entry URLs

An entry may be a URL with a name in front of it, and an `@` in between; what is installed is the URL. `Unprefixed` says
which one that is: what stands behind the first `@` that introduces a URL, unless the text begins as a URL itself. Every
text has one, and only one (`withoutVersionPrefix_eq_iff`).

The entries of a manifest are validated when it is read, so each of them is a URL as a whole. But the validator goes by
the rules for URLs, which know more schemes, capitals and blanks in front, and here only the first letters count. A URL
that does not begin with `http://`, `https://` or `file://`, in small letters, is cut where another one stands behind an
`@` in it (`entry_cut`); all others are installed as they are (`entry_kept_iff`).
-/

namespace Federation

/-! ### What stands behind an at sign -/

namespace Text
variable {p : List Char → Bool} {s t : List Char}

theorem mem_afterAtSigns : t ∈ afterAtSigns s ↔ ∃ front, s = front ++ '@' :: t := by
  induction s with
  | nil => exact iff_of_false List.not_mem_nil fun ⟨front, h⟩ => by simp at h
  | cons c r ih =>
    have hcons : (∃ front, c :: r = front ++ '@' :: t) ↔ c = '@' ∧ r = t ∨ ∃ front, r = front ++ '@' :: t := by
      constructor
      · rintro ⟨_ | ⟨d, front⟩, h⟩
        · exact .inl (List.cons.inj h)
        · exact .inr ⟨front, (List.cons.inj h).2⟩
      · rintro (⟨rfl, rfl⟩ | ⟨front, rfl⟩)
        · exact ⟨[], rfl⟩
        · exact ⟨c :: front, rfl⟩
    rw [afterAtSigns, hcons, ← ih]
    split
    · rename_i hc
      rw [List.mem_cons, eq_comm]
      simp [hc]
    · rename_i hc
      simp [hc]

/-- The first at sign that counts has none before it that does. -/
theorem exists_of_find?_afterAtSigns (h : (afterAtSigns s).find? p = some t) : ∃ front, s = front ++ '@' :: t ∧
    p t = true ∧ ∀ front' rest, front = front' ++ '@' :: rest → p (rest ++ '@' :: t) = false := by
  induction s with
  | nil => cases h
  | cons c r ih =>
    rw [afterAtSigns] at h
    by_cases hc : c = '@'
    · subst hc
      rw [if_pos rfl] at h
      cases hr : p r with
      | true =>
        rw [List.find?_cons_of_pos hr] at h
        cases h
        exact ⟨[], rfl, hr, fun front' rest h => by simp at h⟩
      | false =>
        rw [List.find?_cons_of_neg (by simp [hr])] at h
        obtain ⟨front, rfl, ht, hfirst⟩ := ih h
        refine ⟨'@' :: front, rfl, ht, fun front' rest hcut => ?_⟩
        cases front' with
        | nil =>
          obtain ⟨-, rfl⟩ := List.cons.inj hcut
          exact hr
        | cons d front' => exact hfirst front' rest (List.cons.inj hcut).2
    · rw [if_neg hc] at h
      obtain ⟨front, rfl, ht, hfirst⟩ := ih h
      refine ⟨c :: front, rfl, ht, fun front' rest hcut => ?_⟩
      cases front' with
      | nil => exact absurd (List.cons.inj hcut).1 hc
      | cons d front' => exact hfirst front' rest (List.cons.inj hcut).2

end Text

/-- The URL in a text that may have a name in front of it. -/
inductive Unprefixed (s : String) : String → Prop
  | whole (literal : isLiteralUrl s = true) : Unprefixed s s
  | plain (bare : ∀ front rest, s = front ++ "@" ++ rest → isLiteralUrl rest = false) : Unprefixed s s
  | behind {front url : String} (cut : s = front ++ "@" ++ url) (other : isLiteralUrl s = false)
    (literal : isLiteralUrl url = true)
    (first : ∀ front' rest, front = front' ++ "@" ++ rest → isLiteralUrl (rest ++ "@" ++ url) = false) :
    Unprefixed s url

variable {s url : String}

theorem eq_tagged_iff {front rest : String} :
    s = front ++ "@" ++ rest ↔ s.toList = front.toList ++ '@' :: rest.toList := by
  rw [← String.toList_inj, String.toList_append, String.toList_append, List.append_assoc]
  rfl

theorem unprefixed_withoutVersionPrefix (s : String) : Unprefixed s (withoutVersionPrefix s) := by
  rw [withoutVersionPrefix]
  split
  · rename_i hliteral
    exact .whole hliteral
  · rename_i hother
    rw [List.find?_map]
    cases hfind : (Text.afterAtSigns s.toList).find? (isLiteralUrl ∘ String.ofList) with
    | none =>
      refine .plain fun front rest hcut => ?_
      have hmem := Text.mem_afterAtSigns.2 ⟨front.toList, eq_tagged_iff.1 hcut⟩
      have hrest := List.find?_eq_none.1 hfind _ hmem
      rw [Function.comp_apply, String.ofList_toList] at hrest
      exact Bool.eq_false_iff.2 hrest
    | some t =>
      obtain ⟨front, hcut, ht, hfirst⟩ := Text.exists_of_find?_afterAtSigns hfind
      show Unprefixed s (String.ofList t)
      have htagged : s = String.ofList front ++ "@" ++ String.ofList t :=
        eq_tagged_iff.2 (by rw [hcut, String.toList_ofList, String.toList_ofList])
      refine .behind htagged (Bool.eq_false_iff.2 hother) ht fun front' rest hfront => ?_
      have hrest := hfirst front'.toList rest.toList (by rw [← eq_tagged_iff.1 hfront, String.toList_ofList])
      have hlist : rest ++ "@" ++ String.ofList t = String.ofList (rest.toList ++ '@' :: t) := by
        rw [← String.toList_inj, String.toList_ofList, ← String.toList_ofList (l := t), ← eq_tagged_iff,
          String.toList_ofList]
      rw [Function.comp_apply] at hrest
      rw [hlist, hrest]

theorem ne_of_cut {front : String} (h : s = front ++ "@" ++ url) : url ≠ s := by
  intro heq
  have hlength := congrArg List.length (eq_tagged_iff.1 h)
  rw [heq, List.length_append, List.length_cons] at hlength
  omega

/-- A text is cut just when a URL stands behind an at sign of it and it does not begin as a URL itself. -/
theorem withoutVersionPrefix_eq_self_iff : withoutVersionPrefix s = s ↔
    isLiteralUrl s = true ∨ ∀ front rest, s = front ++ "@" ++ rest → isLiteralUrl rest = false := by
  have h := unprefixed_withoutVersionPrefix s
  generalize withoutVersionPrefix s = url at h
  cases h with
  | whole literal => exact iff_of_true rfl (.inl literal)
  | plain bare => exact iff_of_true rfl (.inr bare)
  | behind cut other literal first =>
    refine iff_of_false (ne_of_cut cut) (not_or.2 ⟨Bool.eq_false_iff.1 other, fun hbare => ?_⟩)
    cases literal.symm.trans (hbare _ _ cut)

/-! ### The first URL -/

namespace Text
variable {c : Char} {r s t : List Char}

/-- Two cuts of one text at a character are the same, or one lies behind the other. -/
theorem cut_cases {s' t' : List Char} (h : s ++ c :: t = s' ++ c :: t') : t = t' ∨
    (∃ r, s' = s ++ c :: r ∧ t = r ++ c :: t') ∨ ∃ r, s = s' ++ c :: r ∧ t' = r ++ c :: t := by
  rcases List.append_eq_append_iff.1 h with ⟨between, hs, ht⟩ | ⟨between, hs, ht⟩
  · cases between with
    | nil => exact .inl (List.cons.inj ht).2
    | cons d r =>
      obtain ⟨rfl, rfl⟩ := List.cons.inj ht
      exact .inr (.inl ⟨r, hs, rfl⟩)
  · cases between with
    | nil => exact .inl (List.cons.inj ht).2.symm
    | cons d r =>
      obtain ⟨rfl, rfl⟩ := List.cons.inj ht
      exact .inr (.inr ⟨r, hs, rfl⟩)

theorem isPrefixOf_append_cons (h : c ∉ r) (s t : List Char) : r.isPrefixOf (s ++ c :: t) = r.isPrefixOf s := by
  induction r generalizing s with
  | nil => rw [List.isPrefixOf_nil_left, List.isPrefixOf_nil_left]
  | cons d r ih =>
    rw [List.mem_cons, not_or] at h
    cases s with
    | nil => simp [List.isPrefixOf, Ne.symm h.1]
    | cons e s => rw [List.cons_append, List.isPrefixOf, List.isPrefixOf, ih h.2]

end Text

/-- No at sign stands in what introduces a URL, so what follows one does not matter. -/
theorem isLiteralUrl_tagged (s t : String) : isLiteralUrl (s ++ "@" ++ t) = isLiteralUrl s := by
  have hfree : ∀ start ∈ literalUrlStarts, '@' ∉ start.toList := by decide
  rw [Bool.eq_iff_iff, isLiteralUrl, isLiteralUrl, List.any_eq_true, List.any_eq_true, eq_tagged_iff.1 rfl]
  refine exists_congr fun start => and_congr_right fun hstart => ?_
  rw [Text.isPrefixOf_append_cons (hfree start hstart)]

theorem tagged_cases {front front' url' : String} (h : front ++ "@" ++ url = front' ++ "@" ++ url') : url = url' ∨
    (∃ rest, front' = front ++ "@" ++ rest ∧ url = rest ++ "@" ++ url') ∨
      ∃ rest, front = front' ++ "@" ++ rest ∧ url' = rest ++ "@" ++ url := by
  have hlist := (eq_tagged_iff.1 rfl).symm.trans (eq_tagged_iff.1 h)
  rcases Text.cut_cases hlist with hurl | ⟨r, hfront, hurl⟩ | ⟨r, hfront, hurl⟩
  · exact .inl (String.toList_inj.1 hurl)
  · refine .inr (.inl ⟨String.ofList r, eq_tagged_iff.2 ?_, eq_tagged_iff.2 ?_⟩) <;> rwa [String.toList_ofList]
  · refine .inr (.inr ⟨String.ofList r, eq_tagged_iff.2 ?_, eq_tagged_iff.2 ?_⟩) <;> rwa [String.toList_ofList]

namespace Unprefixed

theorem eq_self_or_behind (h : Unprefixed s url) : url = s ∨ ∃ front, s = front ++ "@" ++ url ∧
    isLiteralUrl s = false ∧ isLiteralUrl url = true := by
  cases h with
  | whole => exact .inl rfl
  | plain => exact .inl rfl
  | behind cut other literal => exact .inr ⟨_, cut, other, literal⟩

/-- There is one URL in a text. -/
theorem unique {url' : String} (h : Unprefixed s url) (h' : Unprefixed s url') : url = url' := by
  cases h with
  | whole literal =>
    cases h' with
    | whole => rfl
    | plain => rfl
    | behind cut other => cases other.symm.trans literal
  | plain bare =>
    cases h' with
    | whole => rfl
    | plain => rfl
    | behind cut other literal => cases (bare _ _ cut).symm.trans literal
  | behind cut other literal first =>
    cases h' with
    | whole literal' => cases other.symm.trans literal'
    | plain bare => cases (bare _ _ cut).symm.trans literal
    | behind cut' other' literal' first' =>
      -- the cut that lies behind the other one is not at the first at sign that counts
      rcases tagged_cases (cut.symm.trans cut') with hurl | ⟨rest, hfront, hurl⟩ | ⟨rest, hfront, hurl⟩
      · exact hurl
      · cases (first' _ _ hfront).symm.trans (hurl ▸ literal)
      · cases (first _ _ hfront).symm.trans (hurl ▸ literal')

end Unprefixed

theorem withoutVersionPrefix_eq_iff : withoutVersionPrefix s = url ↔ Unprefixed s url := by
  refine ⟨?_, fun h => (unprefixed_withoutVersionPrefix s).unique h⟩
  rintro rfl
  exact unprefixed_withoutVersionPrefix s

/-- A name in front of a URL is one that neither is a URL nor has one behind an at sign. -/
theorem unprefixed_tagged_iff (h : isLiteralUrl url = true) : Unprefixed (s ++ "@" ++ url) url ↔
    isLiteralUrl s = false ∧ ∀ front rest, s = front ++ "@" ++ rest → isLiteralUrl rest = false := by
  constructor
  · intro hurl
    generalize htext : s ++ "@" ++ url = text at hurl
    cases hurl with
    | whole => exact absurd rfl (ne_of_cut htext.symm)
    | plain => exact absurd rfl (ne_of_cut htext.symm)
    | @behind front _ cut other _ first =>
      have hfront : s = front := by
        rw [← htext, ← String.toList_inj] at cut
        exact String.toList_inj.1 (by simpa using cut)
      subst hfront
      rw [← htext, isLiteralUrl_tagged] at other
      refine ⟨other, fun front' rest hcut => ?_⟩
      rw [← isLiteralUrl_tagged rest url]
      exact first front' rest hcut
  · rintro ⟨hother, hbare⟩
    refine .behind rfl (by rw [isLiteralUrl_tagged, hother]) h fun front' rest hcut => ?_
    rw [isLiteralUrl_tagged, hbare front' rest hcut]

/-- What is taken for the URL in a text is the text behind the first at sign that a URL follows, unless the text is a
URL as a whole or there is no such sign. It is a URL whenever the text has one at the start or behind an at sign, it
ends the text, and taking it again changes nothing. A URL behind a name and an at sign is taken just when the name
neither is a URL nor has one behind an at sign. -/
theorem withoutVersionPrefix_takes_first (s : String) :
    (∀ url, withoutVersionPrefix s = url ↔ Unprefixed s url) ∧
    (isLiteralUrl (withoutVersionPrefix s) = true ↔
      isLiteralUrl s = true ∨ ∃ front rest, s = front ++ "@" ++ rest ∧ isLiteralUrl rest = true) ∧
    (∃ front, s = front ++ withoutVersionPrefix s) ∧
    withoutVersionPrefix (withoutVersionPrefix s) = withoutVersionPrefix s ∧
    ∀ url, isLiteralUrl url = true → (withoutVersionPrefix (s ++ "@" ++ url) = url ↔
      isLiteralUrl s = false ∧ ∀ front rest, s = front ++ "@" ++ rest → isLiteralUrl rest = false) := by
  have htaken := unprefixed_withoutVersionPrefix s
  refine ⟨fun url => withoutVersionPrefix_eq_iff, ?_, ?_, ?_, fun url hliteral => ?_⟩
  · generalize withoutVersionPrefix s = url at htaken
    cases htaken with
    | whole literal => exact iff_of_true literal (.inl literal)
    | plain bare =>
      refine ⟨.inl, fun h => h.resolve_right ?_⟩
      rintro ⟨front, rest, hcut, hrest⟩
      cases (bare front rest hcut).symm.trans hrest
    | behind cut _ literal => exact iff_of_true literal (.inr ⟨_, _, cut, literal⟩)
  · rcases htaken.eq_self_or_behind with hself | ⟨front, hcut, -⟩
    · exact ⟨"", by rw [hself, String.empty_append]⟩
    · exact ⟨front ++ "@", hcut⟩
  · rcases htaken.eq_self_or_behind with hself | ⟨-, -, -, hliteral⟩
    · rw [hself, hself]
    · exact withoutVersionPrefix_eq_self_iff.2 (.inl hliteral)
  · rw [withoutVersionPrefix_eq_iff, unprefixed_tagged_iff hliteral]

/-- A scoped name in front of a URL that has a user and another URL in it. -/
theorem withoutVersionPrefix_takes_first_of_scoped :
    let url := "https://user@cdn.acme.dev/proxy@//origin.acme.dev/entry.js"
    isLiteralUrl url = true ∧ withoutVersionPrefix ("@acme/cart" ++ "@" ++ url) = url := by
  intro url
  have hurl : isLiteralUrl url = true := by decide
  have hother : isLiteralUrl "@acme/cart" = false := by decide
  have hself : withoutVersionPrefix "@acme/cart" = "@acme/cart" := by decide
  have hbare := (withoutVersionPrefix_eq_self_iff.1 hself).resolve_left (by simp [hother])
  obtain ⟨-, -, -, -, hnamed⟩ := withoutVersionPrefix_takes_first "@acme/cart"
  exact ⟨hurl, (hnamed url hurl).2 ⟨hother, hbare⟩⟩

/-! ### URLs that pass -/

theorem isLiteralUrl_iff : isLiteralUrl s = true ↔ ∃ start ∈ literalUrlStarts, ∃ rest, s = start ++ rest := by
  rw [isLiteralUrl, List.any_eq_true]
  refine exists_congr fun start => and_congr_right fun _ => ?_
  rw [List.isPrefixOf_iff_prefix]
  constructor
  · rintro ⟨rest, h⟩
    refine ⟨String.ofList rest, ?_⟩
    rw [← String.toList_inj, String.toList_append, String.toList_ofList, h]
  · rintro ⟨rest, rfl⟩
    exact ⟨rest.toList, String.toList_append.symm⟩

/-- The beginnings by which an absolute URL is taken for one. -/
def absoluteUrlStarts : List String := ["http://", "https://", "file://"]

theorem Url.scheme?_clean_of_slash (r : List Char) : scheme? (clean ('/' :: r)) = none := by
  obtain ⟨x, hx, hcut⟩ := Text.exists_dropEndWhile isEdge ('/' :: r)
  rw [clean_eq, List.dropWhile_cons_of_neg (by decide)]
  cases hdrop : Text.dropEndWhile isEdge ('/' :: r) with
  | nil =>
    rw [hdrop, List.nil_append] at hcut
    exact absurd (hx '/' (hcut ▸ List.mem_cons_self)) (by decide)
  | cons c t =>
    rw [hdrop] at hcut
    obtain ⟨rfl, -⟩ := List.cons.inj hcut
    rfl

/-- A URL without a scheme is not absolute. -/
theorem not_isAbsoluteUrl_of_slashes (rest : String) : isAbsoluteUrl ("//" ++ rest) = false := by
  have hlist : ("//" ++ rest).toList = '/' :: '/' :: rest.toList := String.toList_append
  rw [isAbsoluteUrl, Url.parse, Url.parseWith, hlist, Url.scheme?_clean_of_slash]

theorem isLiteralUrl_iff_of_absolute (h : isAbsoluteUrl s = true) :
    isLiteralUrl s = true ↔ ∃ start ∈ absoluteUrlStarts, ∃ rest, s = start ++ rest := by
  rw [isLiteralUrl_iff]
  constructor
  · rintro ⟨start, hstart, rest, rfl⟩
    refine ⟨start, ?_, rest, rfl⟩
    rcases List.mem_append.1 (show start ∈ absoluteUrlStarts ++ ["//"] from hstart) with hstart | hstart
    · exact hstart
    · rw [List.mem_singleton.1 hstart, not_isAbsoluteUrl_of_slashes] at h
      cases h
  · rintro ⟨start, hstart, rest, rfl⟩
    exact ⟨start, List.mem_append_left ["//"] hstart, rest, rfl⟩

/-- A URL with an authority is written with two slashes behind its scheme. -/
theorem Url.isLiteralUrl_text {u : Url} {a : UrlAuthority} (ha : u.authority = some a)
    (hscheme : String.ofList u.scheme ∈ ["http", "https", "file"]) : isLiteralUrl u.text = true := by
  have hstart : String.ofList u.scheme ++ "://" ∈ literalUrlStarts := by
    simp only [List.mem_cons, List.not_mem_nil, or_false] at hscheme
    rcases hscheme with h | h | h <;> rw [h] <;> decide
  refine isLiteralUrl_iff.2 ⟨_, hstart, String.ofList (a.text ++ (u.path.text ++ tailText u.query u.fragment)), ?_⟩
  rw [← String.toList_inj, Url.text, String.toList_ofList, toList_of_authority ha]
  simp only [String.toList_append, String.toList_ofList, List.append_assoc]
  rfl

/-- The entries of a manifest that is read are absolute URLs. -/
theorem Manifest.isAbsoluteUrl_of_ofDocument {t : String} {m : Manifest} {key : String} {d : ManifestDependency}
    (h : ofDocument t = .ok m) (hd : m.dependencies.get? key = some d) : isAbsoluteUrl d.remoteEntryUrl = true := by
  have hvalid := validate_of_ofDocument h
  have hfault : m.fault? = none := by
    unfold validate at hvalid
    split at hvalid
    · cases hvalid
    · assumption
  unfold fault? at hfault
  split at hfault
  · cases hfault
  · have hentry := List.findSome?_eq_none_iff.1 hfault _ (KeyMap.mem_of_get? hd)
    unfold ManifestDependency.fault? at hentry
    split at hentry
    · cases hentry
    · split at hentry
      · cases hentry
      · rename_i habsolute
        simpa using habsolute

/-! ### Requests -/

namespace RequestPlugin

/-- A request that is answered by a dependency of the manifest, whose application has no override. -/
structure Serves (p : RequestPlugin) (overrides : SessionOverrides) (m : Manifest) (r : ModuleRequest) (key : String)
    (d : ManifestDependency) : Prop where
  named : r.remoteName ≠ ""
  entry : (p.tableFor m r).get? r.remoteName = some key
  dependency : m.dependencies.get? key = some d
  free : overrides.get? d.applicationUid = none

variable {p : RequestPlugin} {overrides : SessionOverrides} {m : Manifest} {r : ModuleRequest} {key : String}
  {d : ManifestDependency} {x : RemoteDeclaration} {before after : List RemoteDeclaration}

theorem Serves.redirect_eq (h : p.Serves overrides m r key d) (hr : r.remotes = before ++ x :: after)
    (hbefore : ∀ y ∈ before, y.isCalled r.remoteName = false) (hx : x.isCalled r.remoteName = true) :
    (p.redirect overrides (some m) r).1 = { r with
      remotes := before ++ { x with entry := withoutVersionPrefix d.remoteEntryUrl } :: after } := by
  have hurl : m.entryUrl? overrides key = some (withoutVersionPrefix d.remoteEntryUrl) := by
    rw [Manifest.entryUrl?, h.dependency, Option.map_some, h.free, Option.getD_none]
  rw [RequestPlugin.redirect_eq p overrides m (needsManifest_iff.2 h.named), h.entry,
    ModuleRequest.withDependency_some hurl, ModuleRequest.withEntry_of_first hr hbefore hx]

/-- A request for a dependency of a manifest that was read, whose application has no override, gets the entry of the
dependency. The entry stays as it is just when it begins with one of the three beginnings, or no URL stands behind an
`@` in it; otherwise what is installed is the URL behind the first such `@`. An entry stays if it is the written form of
a URL with an authority and one of the three schemes. -/
theorem entry_kept_iff (t : String) (m : Manifest) (p : RequestPlugin) (overrides : SessionOverrides)
    (r : ModuleRequest) (key : String) (d : ManifestDependency) (before after : List RemoteDeclaration)
    (x : RemoteDeclaration) (hread : Manifest.ofDocument t = .ok m) (h : p.Serves overrides m r key d)
    (hr : r.remotes = before ++ x :: after) (hbefore : ∀ y ∈ before, y.isCalled r.remoteName = false)
    (hx : x.isCalled r.remoteName = true) :
    ∃ url, (p.redirect overrides (some m) r).1 = { r with remotes := before ++ { x with entry := url } :: after } ∧
      Unprefixed d.remoteEntryUrl url ∧
      (url = d.remoteEntryUrl ↔ (∃ start ∈ absoluteUrlStarts, ∃ rest, d.remoteEntryUrl = start ++ rest) ∨
        ∀ front rest, d.remoteEntryUrl = front ++ "@" ++ rest → isLiteralUrl rest = false) ∧
      ∀ (u : Url) (a : UrlAuthority), u.authority = some a → String.ofList u.scheme ∈ ["http", "https", "file"] →
        d.remoteEntryUrl = u.text → url = d.remoteEntryUrl := by
  have habsolute := Manifest.isAbsoluteUrl_of_ofDocument hread h.dependency
  refine ⟨_, h.redirect_eq hr hbefore hx, unprefixed_withoutVersionPrefix d.remoteEntryUrl, ?_, ?_⟩
  · rw [withoutVersionPrefix_eq_self_iff, isLiteralUrl_iff_of_absolute habsolute]
  · intro u a ha hscheme hwritten
    exact withoutVersionPrefix_eq_self_iff.2 (.inl (hwritten ▸ Url.isLiteralUrl_text ha hscheme))

/-- An entry with another URL behind an `@`, which is installed as it is. -/
theorem entry_kept_of_small_scheme :
    let url := "https://cdn.acme.dev/proxy/cart@https://origin.acme.dev/entry.js"
    let m := Page.cartAt "cart.shop.acme" url
    let r : ModuleRequest := ⟨"cart/Button", Page.cartRemotes⟩
    Manifest.ofDocument m.document = .ok m ∧
    (fresh.redirect .empty (some m) r).1 = ⟨"cart/Button", [⟨"cart", none, url⟩]⟩ := by
  intro url m r
  have hread : Manifest.ofDocument m.document = .ok m := by
    rw [Manifest.ofDocument_document, show m.validate = .ok () by decide +kernel]
    rfl
  obtain ⟨installed, hanswer, -, hkept, -⟩ := entry_kept_iff m.document m fresh .empty r "cart"
    ⟨"cart.shop.acme", url, "", "1.0.0"⟩ [] [] ⟨"cart", none, "http://localhost:3001/entry.js"⟩ hread
    ⟨by decide, by decide, by decide, by decide⟩ rfl nofun (by decide)
  have hurl : installed = url :=
    hkept.2 (.inl ⟨"https://", by decide, "cdn.acme.dev/proxy/cart@https://origin.acme.dev/entry.js", by decide⟩)
  exact ⟨hread, hanswer.trans (by rw [hurl]; rfl)⟩

/-- The same entry with its scheme in capitals is a URL as well, and the manifest is read. What is installed is the URL
in its path. -/
theorem entry_cut :
    let url := "HTTPS://cdn.acme.dev/proxy/cart@https://origin.acme.dev/entry.js"
    let m := Page.cartAt "cart.shop.acme" url
    let r : ModuleRequest := ⟨"cart/Button", Page.cartRemotes⟩
    Manifest.ofDocument m.document = .ok m ∧ isAbsoluteUrl url = true ∧
    fresh.Serves .empty m r "cart" ⟨"cart.shop.acme", url, "", "1.0.0"⟩ ∧
    (fresh.redirect .empty (some m) r).1 =
      ⟨"cart/Button", [⟨"cart", none, "https://origin.acme.dev/entry.js"⟩]⟩ ∧
    withoutVersionPrefix url ≠ url := by
  intro url m r
  have hread : Manifest.ofDocument m.document = .ok m := by
    rw [Manifest.ofDocument_document, show m.validate = .ok () by decide +kernel]
    rfl
  exact ⟨hread, by decide +kernel, ⟨by decide, by decide, by decide, by decide⟩, by decide, by decide⟩

end RequestPlugin

end Federation
