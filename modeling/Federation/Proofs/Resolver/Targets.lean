import Federation.Proofs.Application.PackageUids
import Federation.Proofs.Resolver.Remotes
import Federation.Proofs.Url.Bases

/-!
# What the registry sees

The registry is asked for a version of an application by the path of a URL, in which both stand as components. The path
is parsed before it is sent, and a component that is one point or two means a directory there. So the registry does not
see the version `.`, and it sees neither the uid nor the version if the version is `..` (`Registry.seen`). It sees any
other pair as it was asked for, and two questions are the same to it exactly if it sees the same pair
(`Registry.pairOf?_target`).
-/

namespace Federation

open Percent

/-- A URL of a scheme that is spoken can be asked for, if its headers can be sent. -/
theorem Http.request?_of_parse {method url : String} {headers : List (String × String)} {body : Option String} {u : Url}
    (h : Url.parse url = .ok u) (hscheme : u.scheme ∈ schemes) (hheaders : ∀ h ∈ headers, isHeaderValue h.2 = true) :
    request? method url headers body = some ⟨method, u, ("user-agent", userAgent) :: headers, body⟩ := by
  unfold request?
  rw [h]
  dsimp only
  rw [if_pos]
  rw [Bool.and_eq_true, List.contains_iff_mem, List.all_eq_true]
  exact ⟨hscheme, hheaders⟩

namespace Registry
variable {base uid uid' version version' : String} {u : Url}

/-! ### Questions as paths -/

/-- The components of a question. -/
def components (uid version : String) : List (List Char) :=
  ["resolve".toList, encodeComponent uid.toList, encodeComponent version.toList]

theorem components_eq (uid version : String) :
    components uid version = ["resolve", uid, version].map fun s => encodeComponent s.toList := rfl

theorem components_ne_nil (uid version : String) : components uid version ≠ [] := List.cons_ne_nil _ _

theorem kept_components : ∀ s ∈ components uid version, Kept UrlPath.pathSet s := by
  rw [components_eq]
  exact List.forall_mem_map.2 fun s _ => kept_encodeComponent s.toList

theorem free_components : ∀ s ∈ components uid version, ∀ c ∈ s, (c == '/' || c == '\\') = false := by
  rw [components_eq]
  exact List.forall_mem_map.2 fun s _ => free_encodeComponent s.toList

theorem isEdge_components : ∀ c ∈ '/' :: Text.join ['/'] (components uid version), Url.isEdge c = false := by
  refine List.forall_mem_cons.2 ⟨rfl, Text.forall_mem_join (List.forall_mem_singleton.2 rfl) ?_⟩
  rw [components_eq]
  exact List.forall_mem_map.2 fun s _ c hc =>
    decide_eq_false (Nat.not_le.2 (isComponentChar_of_mem hc).free.1.1)

theorem toList_resolveUrl (base uid version : String) : (resolveUrl base uid version).toList =
    Text.dropEndWhile (· == '/') base.toList ++ '/' :: Text.join ['/'] (components uid version) := by
  simp [resolveUrl, components, Text.join]

/-- Every question can be put as a URL, if the base is one. -/
theorem exists_parse_resolveUrl (h : Url.parse base = .ok u) (hkind : SchemeKind.ofScheme u.scheme = .network)
    (hlast : ∀ c ∈ (Text.dropEndWhile (· == '/') base.toList).getLast?, Url.isEdge c = false) :
    ∃ a, ∀ uid version, Url.parse (resolveUrl base uid version) = .ok (Url.afterAuthority .network u.scheme a
      (Url.behindAuthority (Text.dropEndWhile (· == '/') base.toList) ++
        '/' :: Text.join ['/'] (components uid version))) := by
  obtain ⟨x, hx, hbase⟩ := Text.exists_dropEndWhile (· == '/') base.toList
  have hparse : Url.parse (String.ofList (Text.dropEndWhile (· == '/') base.toList ++ x)) = .ok u := by
    rw [← hbase, String.ofList_toList]
    exact h
  obtain ⟨a, ha⟩ := Url.exists_parse_append hparse hkind (fun c hc => beq_iff_eq.1 (hx c hc)) hlast
  refine ⟨a, fun uid version => ?_⟩
  rw [← ha _ (by rintro c ⟨⟩; rfl) isEdge_components, ← toList_resolveUrl, String.ofList_toList]

/-! ### What is seen -/

/-- The pair that the registry sees of a question; none if the path leads out of it. -/
def seen (uid version : String) : Option (String × String) :=
  if version = ".." then none else some (uid, if version = "." then "" else version)

/-- The segments in which a pair is seen. -/
def segmentsOf : Option (String × String) → List (List Char)
  | none => ["resolve".toList, []]
  | some (uid, version) => components uid version

/-- The pair that can be read from a request target. -/
def pairOf? (target : List Char) : Option (String × String) :=
  match Text.pieces (· == '/') target with
  | [[], action, uid, version] =>
    if action = "resolve".toList then do
      let uid ← decodeComponent? uid
      let version ← decodeComponent? version
      pure (String.ofList uid, String.ofList version)
    else none
  | _ => none

/-- A uid that is asked for: it is qualified, or was made from a short one. -/
def IsQualified (uid : String) : Prop := ∃ short context, qualifyUid short context = .ok uid

theorem IsQualified.notDirectory (h : IsQualified uid) : uid.toList ≠ ['.'] ∧ uid.toList ≠ ['.', '.'] := by
  obtain ⟨short, context, h⟩ := h
  rcases qualifyUid_eq_ok.1 h with ⟨hfull, rfl⟩ | ⟨-, c, -, hsegment, rfl⟩
  · constructor <;> intro hdots <;> rw [isFullyQualified, hdots] at hfull <;> exact absurd hfull (by decide)
  · have hpos : 0 < (uidSegment short).toList.length :=
      List.length_pos_iff.2 fun hnil => hsegment (String.toList_eq_nil_iff.1 hnil)
    have hlength : 3 ≤ (c.uidOf (uidSegment short)).toList.length := by
      simp [AppContext.toList_uidOf]
      omega
    constructor <;> intro hdots <;> rw [hdots] at hlength <;> exact absurd hlength (by decide)

theorem walk_components (huid : IsQualified uid) (version : String) :
    UrlPath.walk false [] (components uid version) = segmentsOf (seen uid version) := by
  have hresolve : UrlPath.Segment "resolve".toList :=
    segment_encodeComponent (s := "resolve".toList) (by decide) (by decide)
  have huid := segment_encodeComponent huid.notDirectory.1 huid.notDirectory.2
  have hparent : UrlPath.parent ["resolve".toList, encodeComponent uid.toList] = ["resolve".toList] := by
    show (if UrlPath.isDriveLetter (encodeComponent uid.toList) = true then _ else _) = _
    rw [isDriveLetter_encodeComponent]
    rfl
  rw [components, UrlPath.walk_cons _ hresolve (List.cons_ne_nil _ _), UrlPath.walk_cons _ huid (List.cons_ne_nil _ _)]
  show UrlPath.walk false ["resolve".toList, encodeComponent uid.toList] [encodeComponent version.toList] = _
  rw [seen]
  by_cases hdots : version = ".."
  · rw [if_pos hdots, UrlPath.walk, if_pos (isDoubleDot_encodeComponent.2 (by rw [hdots]; rfl)), hparent]
    rfl
  rw [if_neg hdots]
  have hnotDots : version.toList ≠ ['.', '.'] := fun h => hdots (String.toList_inj.1 h)
  by_cases hdot : version = "."
  · rw [if_pos hdot, UrlPath.walk, if_neg (mt isDoubleDot_encodeComponent.1 hnotDots),
      if_pos (isSingleDot_encodeComponent.2 (by rw [hdot]; rfl))]
    rfl
  · rw [if_neg hdot, UrlPath.walk_last _ (segment_encodeComponent (fun h => hdot (String.toList_inj.1 h)) hnotDots)]
    rfl

/-- A target of free segments is cut into them. -/
theorem pieces_text {ss : List (List Char)} (hne : ss ≠ []) (hfree : ∀ s ∈ ss, ∀ c ∈ s, (c == '/') = false) :
    Text.pieces (· == '/') (UrlPath.segments ss).text = [] :: ss := by
  rw [UrlPath.text_segments hne, ← List.nil_append ('/' :: _), Text.pieces_append (List.forall_mem_nil _) rfl,
    Text.pieces_join rfl hne hfree]

theorem pairOf?_segmentsOf (p : Option (String × String)) : pairOf? (UrlPath.segments (segmentsOf p)).text = p := by
  have hfree : ∀ s ∈ segmentsOf p, ∀ c ∈ s, (c == '/') = false := by
    have hcomponents (uid version : String) : ∀ s ∈ components uid version, ∀ c ∈ s, (c == '/') = false :=
      fun s hs c hc => (Bool.or_eq_false_iff.1 (free_components s hs c hc)).1
    cases p with
    | none => exact List.forall_mem_cons.2 ⟨hcomponents "" "" _ List.mem_cons_self, List.forall_mem_singleton.2 nofun⟩
    | some p => exact hcomponents p.1 p.2
  rw [pairOf?, pieces_text (by cases p <;> exact List.cons_ne_nil _ _) hfree]
  cases p with
  | none => rfl
  | some p =>
    simp [segmentsOf, components, decodeComponent?_encodeComponent]

/-! ### Bases -/

/-- A base of a scheme, a host and perhaps a port: nothing but slashes stands behind them. -/
structure IsOrigin (base : String) : Prop where
  url : ∃ u, Url.parse base = .ok u ∧ u.scheme ∈ Http.schemes
  text : ∃ scheme host slashes, base.toList = scheme ++ "://".toList ++ host ++ slashes ∧
    (∀ c ∈ scheme, isSchemeChar c = true) ∧ host ≠ [] ∧
    (∀ c ∈ host, Url.isEdge c = false ∧ Url.endsAuthority c = false) ∧ ∀ c ∈ slashes, c = '/'

theorem network_of_mem_schemes {scheme : List Char} (h : scheme ∈ Http.schemes) :
    SchemeKind.ofScheme scheme = .network := by
  have hall : ∀ s ∈ Http.schemes, SchemeKind.ofScheme s = .network := by decide
  exact hall scheme h

theorem behindAuthority_origin {scheme host : List Char} (hscheme : ∀ c ∈ scheme, isSchemeChar c = true)
    (hhost : ∀ c ∈ host, Url.isEdge c = false ∧ Url.endsAuthority c = false) (hne : host ≠ []) :
    Url.behindAuthority (scheme ++ "://".toList ++ host) = [] := by
  have hedge : ∀ c ∈ scheme ++ "://".toList ++ host, Url.isEdge c = false := by
    refine List.forall_mem_append.2 ⟨List.forall_mem_append.2 ⟨fun c hc => ?_, ?_⟩, fun c hc => (hhost c hc).1⟩
    · exact decide_eq_false (Nat.not_le.2 (isSchemeChar_toLower (hscheme c hc)).1.1)
    · simp [Url.isEdge]
  have htext : scheme ++ "://".toList ++ host = scheme ++ ':' :: '/' :: '/' :: host := by simp
  unfold Url.behindAuthority
  rw [Url.clean_of_not_isEdge hedge, htext]
  split
  · rename_i s rest hs
    obtain rfl : rest = '/' :: '/' :: host := Url.rest_of_scheme? hscheme hs
    have hslashes : ('/' :: '/' :: host).dropWhile (Url.isSlash .network) = host := by
      obtain ⟨c, r, rfl⟩ := List.exists_cons_of_ne_nil hne
      have hc := (Bool.or_eq_false_iff.1 (hhost c List.mem_cons_self).2).1
      rw [List.dropWhile_cons_of_pos rfl, List.dropWhile_cons_of_pos rfl, List.dropWhile_cons_of_neg (by simp [hc])]
    rw [hslashes, List.dropWhile_eq_nil_iff]
    intro c hc
    rw [(hhost c hc).2]
    rfl
  · rfl

theorem IsOrigin.exists_parse (h : IsOrigin base) : ∃ scheme a, scheme ∈ Http.schemes ∧ ∀ uid version,
    Url.parse (resolveUrl base uid version) =
      .ok ⟨scheme, some a, .segments (UrlPath.walk false [] (components uid version)), none, none⟩ := by
  obtain ⟨u, hu, hscheme⟩ := h.url
  obtain ⟨scheme, host, slashes, hbase, hchars, hne, hhost, hslashes⟩ := h.text
  have hend : ∀ c ∈ (scheme ++ "://".toList ++ host).getLast?, c ∈ host := by
    intro c hc
    rw [List.getLast?_append_of_ne_nil _ hne] at hc
    exact List.mem_of_getLast? hc
  have htrim : Text.dropEndWhile (· == '/') base.toList = scheme ++ "://".toList ++ host := by
    rw [hbase, Text.dropEndWhile_append (fun c hc => ?_) fun c hc => beq_iff_eq.2 (hslashes c hc)]
    exact (Bool.or_eq_false_iff.1 (Bool.or_eq_false_iff.1 (hhost c (hend c hc)).2).1).1
  have hlast : ∀ c ∈ (Text.dropEndWhile (· == '/') base.toList).getLast?, Url.isEdge c = false := by
    rw [htrim]
    exact fun c hc => (hhost c (hend c hc)).1
  obtain ⟨a, ha⟩ := exists_parse_resolveUrl hu (network_of_mem_schemes hscheme) hlast
  refine ⟨u.scheme, a, hscheme, fun uid version => ?_⟩
  rw [ha, htrim, behindAuthority_origin hchars hhost hne, List.nil_append,
    ← UrlPath.text_segments (components_ne_nil uid version)]
  have hkept := @Url.afterAuthority_kept u.scheme a _ none none (components_ne_nil uid version) kept_components
    free_components nofun nofun
  rw [show Url.tailText none none = [] from rfl, List.append_nil] at hkept
  exact congrArg _ hkept

/-- The registry is asked by three segments, from which the uid and the version can be read as they were asked for,
unless the version is one point or two. Two questions have the same target exactly if the same pair is seen of both. -/
theorem pairOf?_target (base : String) (hbase : IsOrigin base) (uid version : String) (huid : IsQualified uid) :
    ∃ u, Url.parse (resolveUrl base uid version) = .ok u ∧ u.query = none ∧
      u.path = .segments (segmentsOf (seen uid version)) ∧ pairOf? u.target = seen uid version ∧
      (version ≠ "." → version ≠ ".." →
        u.path = .segments (components uid version) ∧ pairOf? u.target = some (uid, version)) ∧
      (∀ token, Http.isHeaderValue (Http.bearer token).2 = true → ∃ r,
        Http.request? "GET" (resolveUrl base uid version) [Http.bearer token] none = some r ∧ r.url = u) ∧
      ∀ uid' version' u', IsQualified uid' → Url.parse (resolveUrl base uid' version') = .ok u' →
        (u.target = u'.target ↔ seen uid version = seen uid' version') := by
  obtain ⟨scheme, a, hscheme, hparse⟩ := hbase.exists_parse
  have htarget (p : Option (String × String)) :
      Url.target ⟨scheme, some a, .segments (segmentsOf p), none, none⟩ = (UrlPath.segments (segmentsOf p)).text :=
    List.append_nil _
  have hself := hparse uid version
  rw [walk_components huid] at hself
  have hpair : pairOf? (Url.target ⟨scheme, some a, .segments (segmentsOf (seen uid version)), none, none⟩) =
      seen uid version := by
    rw [htarget, pairOf?_segmentsOf]
  refine ⟨_, hself, rfl, rfl, hpair, fun hdot hdots => ?_, fun token htoken => ?_, fun uid' version' u' huid' hu' => ?_⟩
  · have hseen : seen uid version = some (uid, version) := by rw [seen, if_neg hdots, if_neg hdot]
    exact ⟨by rw [hseen]; rfl, hpair.trans hseen⟩
  · exact ⟨_, Http.request?_of_parse hself hscheme (List.forall_mem_singleton.2 htoken), rfl⟩
  · rw [hparse, walk_components huid'] at hu'
    cases hu'
    rw [htarget, htarget]
    refine ⟨fun h => ?_, fun h => by rw [h]⟩
    rw [← pairOf?_segmentsOf (seen uid version), h, pairOf?_segmentsOf]

/-- A version with a slash, an escape and points in it is seen as it is. -/
theorem pairOf?_target_of_cart :
    let base := "https://api.zephyr-cloud.io:8443/"
    let version := "höher/../%2e"
    IsOrigin base ∧ IsQualified "cart.shop.acme" ∧ ∃ u, Url.parse (resolveUrl base "cart.shop.acme" version) = .ok u ∧
      pairOf? u.target = some ("cart.shop.acme", version) := by
  intro base version
  have hbase : IsOrigin base := by
    have hparsed : ((Url.parse base).toOption.map Url.scheme) = some "https".toList := by decide +kernel
    obtain ⟨u, hu, hscheme⟩ := Option.map_eq_some_iff.1 hparsed
    have hhost : ("api.zephyr-cloud.io:8443".toList.all fun c => !Url.isEdge c && !Url.endsAuthority c) = true := by
      decide
    exact ⟨⟨u, eq_ok_of_toOption hu, hscheme ▸ by decide⟩, "https".toList, "api.zephyr-cloud.io:8443".toList, ['/'],
      by decide, List.all_eq_true.1 rfl, List.cons_ne_nil _ _, by simpa using List.all_eq_true.1 hhost,
      List.forall_mem_singleton.2 rfl⟩
  have huid : IsQualified "cart.shop.acme" := ⟨"cart.shop.acme", none, rfl⟩
  obtain ⟨u, hu, -, -, -, hpair, -⟩ := pairOf?_target base hbase "cart.shop.acme" version huid
  exact ⟨hbase, huid, u, hu, (hpair (by decide) (by decide)).2⟩

/-- The version of one point is not seen, and of the version of two points nothing is. -/
theorem pair_unseen_of_points :
    let target (uid version : String) :=
      (Url.parse (resolveUrl "https://api.zephyr-cloud.io" uid version)).toOption.map Url.target
    target "cart.shop.acme" "." = some "/resolve/cart.shop.acme/".toList ∧
    target "cart.shop.acme" "." = target "cart.shop.acme" "" ∧
    target "cart.shop.acme" ".." = some "/resolve/".toList ∧
    target "cart.shop.acme" ".." = target "ads.shop.acme" ".." := by
  decide +kernel

end Registry

end Federation
