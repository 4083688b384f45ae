import Federation.Proofs.Url.Parts

/-!
# Another path in the same place

A URL that reads back shows how the parser takes its written form apart, and that does not depend on the path: the same
scheme and authority are found before any other path. So it is known which URL is read when another path is put in that
place (`parse_reread`): the parser walks the segments of this path, behind the one that a guard or an empty host gives
it in addition (`lead`).
-/

namespace Federation.Url
variable {kind : SchemeKind} {scheme s t r : List Char} {u : Url} {a : UrlAuthority} {ss : List (List Char)}

/-! ### Authorities -/

theorem isSlash_of_endsAuthority {c : Char} (kind : SchemeKind) (h : endsAuthority c = false) :
    (!(isSlash kind c || endsPath c)) = true := by
  replace h : ((c == '/' || c == '\\') || endsPath c) = false := h
  simp only [Bool.or_eq_false_iff] at h
  simp [isSlash, h]

/-- If an authority is read that has the text from which it is read, it is read so whatever follows it. -/
theorem ofAuthority_reread (htext : ∀ c ∈ a.text, endsAuthority c = false)
    (ht : ∀ c ∈ t.head?, (!(isSlash kind c || endsPath c)) = false)
    (h : ofAuthority kind scheme (a.text ++ t) = .ok u) (ha : u.authority = some a)
    (hr : ∀ c ∈ r.head?, (!(isSlash kind c || endsPath c)) = false) :
    ofAuthority kind scheme (a.text ++ r) = .ok (afterAuthority kind scheme a r) := by
  have hwithin : ∀ c ∈ a.text, (!(isSlash kind c || endsPath c)) = true :=
    fun c hc => isSlash_of_endsAuthority kind (htext c hc)
  unfold ofAuthority at h ⊢
  dsimp only at h ⊢
  rw [(cut_append hwithin ht).1, (cut_append hwithin ht).2] at h
  rw [(cut_append hwithin hr).1, (cut_append hwithin hr).2]
  have hinfo := subset_splitInfo a.text
  rcases hsplitInfo : splitInfo a.text with ⟨info, hostPort⟩
  rw [hsplitInfo] at h hinfo
  have hport := subset_splitPort false hostPort
  rcases hsplit : splitPort false hostPort with ⟨host, p⟩
  rw [hsplit] at h hport
  dsimp only at h hinfo hport ⊢
  have hfree : ∀ q ∈ p, '\\' ∉ q := fun q hq hmem => absurd (htext _ (hinfo (hport q hq hmem))) (by decide)
  rw [cutPort_of_free hfree, List.nil_append] at h
  rw [cutPort_of_free hfree, List.nil_append]
  dsimp only at h ⊢
  -- an authority of `@` alone is refused before a path; without one it is read as an empty authority, of empty text
  have hnot : ¬(info = some [] ∧ hostPort.isEmpty = true) := by
    rintro ⟨rfl, hempty⟩
    cases List.isEmpty_iff.1 hempty
    cases hsplit
    split at h
    · cases h
    · cases kind with
      | file | network => cases h
      | other =>
        cases h
        cases ha
        cases hsplitInfo
  rw [if_neg fun hbad => hnot ⟨hbad.1, hbad.2.1⟩] at h ⊢
  cases hhost : authorityHost kind host with
  | error e =>
    rw [hhost] at h
    cases h
  | ok x =>
    rw [hhost] at h
    dsimp only at h ⊢
    cases hmade : makeAuthority scheme (credentials (info.getD [])) x p with
    | error e =>
      rw [hmade] at h
      cases h
    | ok b =>
      rw [hmade] at h
      cases h
      cases ha
      rfl

/-- The host of a `file` URL that is read from its text is read so whatever path follows it. -/
theorem fileWithHost_reread {x : UrlHost} (htext : ∀ c ∈ x.text, endsAuthority c = false)
    (ht : ∀ c ∈ t.head?, endsAuthority c = true) (h : fileWithHost (x.text ++ t) = .ok u)
    (ha : u.authority = some (hostOnly (some x))) (hr : ∀ c ∈ r.head?, endsAuthority c = true) :
    fileWithHost (x.text ++ r) =
      let v := afterAuthority .file "file".toList (hostOnly (some x)) r
      .ok (if v.path.hasDrive then { v with authority := some (hostOnly none) } else v) := by
  have hwithin : ∀ c ∈ x.text, (!(isSlash .file c || endsPath c)) = true :=
    fun c hc => isSlash_of_endsAuthority .file (htext c hc)
  have hends {t : List Char} (ht : ∀ c ∈ t.head?, endsAuthority c = true) :
      ∀ c ∈ t.head?, (!(isSlash .file c || endsPath c)) = false := fun c hc => Bool.not_eq_false' _ ▸ ht c hc
  unfold fileWithHost at h ⊢
  dsimp only at h ⊢
  rw [(cut_append hwithin (hends ht)).1, (cut_append hwithin (hends ht)).2] at h
  rw [(cut_append hwithin (hends hr)).1, (cut_append hwithin (hends hr)).2]
  have hhost : fileHost x.text = .ok (some x) := by
    revert h
    generalize (if UrlPath.isDriveLetter x.text = true then x.text ++ t else t) = rest
    cases fileHost x.text with
    | error e => exact nofun
    | ok host =>
      cases host with
      | none =>
        rintro ⟨⟩
        cases ha
      | some y =>
        rintro ⟨⟩
        split at ha <;> cases ha
        rfl
  have hdrive : UrlPath.isDriveLetter x.text = false := by
    by_contra hdrive
    rw [Bool.not_eq_false] at hdrive
    rw [fileHost, hdrive, Bool.or_true, if_pos rfl] at hhost
    cases hhost
  rw [hhost, hdrive]
  rfl

/-- Behind its scheme, a URL with an authority is read from there on. -/
theorem parse_authority (hparted : u.Parted) (hscheme : SchemeText u.scheme) (ha : u.authority = some a)
    (hvisible : Visible (u.scheme ++ ':' :: '/' :: '/' :: (a.text ++ r))) :
    parse (String.ofList (u.scheme ++ ':' :: '/' :: '/' :: (a.text ++ r))) =
      if u.kind = .file then fileWithHost (a.text ++ r) else ofAuthority u.kind u.scheme (a.text ++ r) := by
  rw [parse_ofList, clean_of_visible hvisible, scheme?_of_schemeText hscheme]
  show ofScheme none u.scheme _ = _
  unfold ofScheme
  rw [← kind]
  cases hkind : u.kind with
  | file => rfl
  | other => rfl
  | network =>
    obtain ⟨b, hb, hne⟩ := hparted.network hkind
    cases ha.symm.trans hb
    obtain ⟨c, s, hs⟩ := List.exists_cons_of_ne_nil hne
    have hc : endsAuthority c = false := hparted.authority a ha c (hs ▸ List.mem_cons_self)
    have hslash : ¬isSlash .network c = true := by simp [(Bool.or_eq_false_iff.1 hc).1]
    show ofAuthority .network u.scheme (List.dropWhile (isSlash .network) _) = _
    rw [List.dropWhile_cons_of_pos rfl, List.dropWhile_cons_of_pos rfl, hs, List.cons_append,
      List.dropWhile_cons_of_neg hslash]
    rfl

/-- The authority is read from its text, whatever stands behind it. -/
structure ReadsAuthority (u : Url) : Prop where
  general : u.kind ≠ .file → ∀ a, u.authority = some a → ∀ r : List Char,
    (∀ c ∈ r.head?, (!(isSlash u.kind c || endsPath c)) = false) →
      ofAuthority u.kind u.scheme (a.text ++ r) = .ok (afterAuthority u.kind u.scheme a r)
  file : ∀ x, u.authority = some (hostOnly (some x)) → u.kind = .file → ∀ r : List Char,
    (∀ c ∈ r.head?, endsAuthority c = true) → fileWithHost (x.text ++ r) =
      let v := afterAuthority .file "file".toList (hostOnly (some x)) r
      .ok (if v.path.hasDrive then { v with authority := some (hostOnly none) } else v)

theorem text_hostOnly (host : Option UrlHost) : (hostOnly host).text = (host.map UrlHost.text).getD [] := by
  simp [UrlAuthority.text, UrlAuthority.userInfo, hostOnly]

/-- What holds of a slash holds of the first character of a path. -/
theorem forall_head?_pathText {p : Char → Bool} {b : Bool} (hp : p '/' = b) (hne : ss ≠ []) (t : List Char) :
    ∀ c ∈ ((UrlPath.segments ss).text ++ t).head?, p c = b := by
  rw [UrlPath.text_segments hne]
  rintro c ⟨⟩
  exact hp

theorem ReadsBack.readsAuthority (hback : u.ReadsBack) (hparted : u.Parted) (hwritten : u.Written)
    (hpath : u.path = .segments ss) : u.ReadsAuthority := by
  have hbase : u.canBeBase = true := by rw [canBeBase, hpath]
  have hread {a : UrlAuthority} (ha : u.authority = some a) :
      (if u.kind = .file then fileWithHost (a.text ++ (u.path.text ++ tailText u.query u.fragment))
        else ofAuthority u.kind u.scheme (a.text ++ (u.path.text ++ tailText u.query u.fragment))) = .ok u := by
    have hvisible := hwritten.visible hbase
    rw [toList_of_authority ha] at hvisible
    rw [← parse_authority hparted hwritten.scheme ha hvisible, ← toList_of_authority ha]
    exact hback
  refine ⟨fun hkind a ha r hr => ?_, fun x ha hkind r hr => ?_⟩
  · have h := hread ha
    rw [if_neg hkind] at h
    refine ofAuthority_reread (hparted.authority a ha) ?_ h ha hr
    rw [hpath]
    rcases Classical.em (ss = []) with rfl | hne
    · intro c hc
      rw [Bool.not_eq_false', Bool.or_eq_true]
      exact .inr (Bool.not_eq_false' _ ▸ endsPath_head?_tailText c hc)
    · exact forall_head?_pathText rfl hne _
  · have h := hread ha
    rw [if_pos hkind, text_hostOnly] at h
    have hne : ss ≠ [] := by
      rintro rfl
      cases hkind.symm.trans (hparted.rooted hpath).1
    have htext := hparted.authority _ ha
    rw [text_hostOnly] at htext
    refine fileWithHost_reread htext ?_ h ha hr
    rw [hpath]
    exact forall_head?_pathText rfl hne _

/-! ### Paths -/

/-- The segments that the parser walks before those of the path. -/
def lead (u : Url) : List (List Char) :=
  match u.authority with
  | none => if u.pathGuard = [] then [] else [['.']]
  | some a => if u.kind = .file ∧ a.host = none then [[]] else []

/-- Behind three slashes there is an empty segment before those of the path. -/
theorem lead_of_empty_host (hkind : u.kind = .file) (ha : u.authority = some (hostOnly none)) : u.lead = [[]] := by
  rw [lead, ha]
  exact if_pos ⟨hkind, rfl⟩

theorem lead_of_host (ha : u.authority = some a) (h : u.kind = .file → a.host ≠ none) : u.lead = [] := by
  rw [lead, ha]
  exact if_neg fun hempty => h hempty.1 hempty.2

/-- The segments that are read where the segments `ss` stand in the place of the path. -/
def rereadSegments (u : Url) (ss : List (List Char)) : List (List Char) :=
  UrlPath.tidy (u.kind == .file) (UrlPath.walk (u.kind == .file) [] (u.lead ++ ss))

/-- The URL that is read where the segments `ss` and the text `t` stand in the place of the path and what follows it. A
drive letter in it drops the host. -/
def reread (u : Url) (ss : List (List Char)) (t : List Char) : Url where
  scheme := u.scheme
  authority :=
    if u.kind = .file ∧ (UrlPath.segments (u.rereadSegments ss)).hasDrive = true then some (hostOnly none)
    else u.authority
  path := .segments (u.rereadSegments ss)
  query := (queryAndFragment u.kind t).1
  fragment := (queryAndFragment u.kind t).2

theorem pathGuard_cases (u : Url) : u.pathGuard = [] ∨ u.pathGuard = ['/', '.'] := by
  unfold pathGuard
  split
  · exact .inr rfl
  · exact .inl rfl

theorem ofScheme_rooted (hkind : SchemeKind.ofScheme scheme = .other) (hr : ∀ c ∈ r.head?, c ≠ '/') :
    ofScheme none scheme ('/' :: r) = .ok (finish .other scheme none
      (UrlPath.resolve false false [] (r.takeWhile fun c => !endsPath c)) (r.dropWhile fun c => !endsPath c)) := by
  unfold ofScheme
  rw [hkind]
  dsimp only
  split
  · rename_i heq
    cases heq
    exact absurd rfl (hr '/' rfl)
  · rename_i heq
    cases heq
    rfl
  · rename_i hslash
    exact absurd rfl (hslash r)

/-- Without an authority and a guard, a path does not begin with two slashes. -/
theorem head?_join (ha : u.authority = none) (hguard : ({ u with path := .segments ss } : Url).pathGuard = [])
    (hne : ss ≠ []) (hss : ∀ s ∈ ss, ∀ c ∈ s, UrlPath.SegmentChar false c)
    (ht : ∀ c ∈ t.head?, (!endsPath c) = false) : ∀ c ∈ (Text.join ['/'] ss ++ t).head?, c ≠ '/' := by
  rintro c hc rfl
  obtain ⟨s, ss, rfl⟩ := List.exists_cons_of_ne_nil hne
  cases s with
  | cons d s =>
    have hd := (hss _ List.mem_cons_self d List.mem_cons_self).2.2
    rw [Text.join_cons_cons] at hc
    cases hc
    cases hd
  | nil =>
    cases ss with
    | nil => cases ht '/' hc
    | cons s ss =>
      rw [pathGuard, ha] at hguard
      cases hguard

theorem reread_of_ne_file (hkind : u.kind ≠ .file) : u.reread ss t =
    finish u.kind u.scheme u.authority (.segments (UrlPath.walk false [] (u.lead ++ ss))) t := by
  rw [reread, if_neg fun h => hkind h.1, rereadSegments, beq_eq_false_iff_ne.2 hkind]
  rfl

theorem reread_of_file (hkind : u.kind = .file) : u.reread ss t =
    let v := finish .file "file".toList u.authority
      (.segments (UrlPath.tidy true (UrlPath.walk true [] (u.lead ++ ss)))) t
    if v.path.hasDrive then { v with authority := some (hostOnly none) } else v := by
  have hscheme : u.scheme = "file".toList := by
    unfold kind SchemeKind.ofScheme at hkind
    split at hkind
    · assumption
    · split at hkind <;> cases hkind
  rw [reread, rereadSegments, hkind, hscheme, beq_self_eq_true]
  simp only [true_and]
  split <;> rename_i hdrive
  · exact (if_pos hdrive).symm
  · exact (if_neg hdrive).symm

/-- Without a host, the slash of the path ends an empty host; the path is read with the slash in front. -/
theorem fileWithHost_segments (hne : ss ≠ []) (hss : ∀ s ∈ ss, ∀ c ∈ s, UrlPath.SegmentChar true c)
    (ht : ∀ c ∈ t.head?, (!endsPath c) = false) :
    fileWithHost ((UrlPath.segments ss).text ++ t) = .ok (finish .file "file".toList (some (hostOnly none))
      (.segments (UrlPath.tidy true (UrlPath.walk true [] ([] :: ss)))) t) := by
  have hchars : ∀ s ∈ [] :: ss, ∀ c ∈ s, UrlPath.SegmentChar true c :=
    List.forall_mem_cons.2 ⟨List.forall_mem_nil _, hss⟩
  have hcut := cut_join hchars ht
  have hslash : fileWithHost ((UrlPath.segments ss).text ++ t) =
      .ok (fileWithoutHost (Text.join ['/'] ([] :: ss) ++ t)) := by
    rw [UrlPath.text_segments hne, UrlPath.join_nil_cons hne]
    rfl
  rw [hslash, fileWithoutHost, hcut.1, hcut.2,
    UrlPath.resolve_segments true (List.cons_ne_nil _ _) hchars]

/-- Without an authority, the point of a guard is read as a first segment. -/
theorem ofScheme_segments (ha : u.authority = none) (hkind : u.kind = .other) (hne : ss ≠ [])
    (hss : ∀ s ∈ ss, ∀ c ∈ s, UrlPath.SegmentChar false c)
    (hguard : ({ u with path := .segments ss } : Url).pathGuard = u.pathGuard)
    (ht : ∀ c ∈ t.head?, (!endsPath c) = false) :
    ofScheme none u.scheme (u.pathGuard ++ ((UrlPath.segments ss).text ++ t)) =
      .ok (finish .other u.scheme none (.segments (UrlPath.walk false [] (u.lead ++ ss))) t) := by
  rw [lead, ha]
  rcases pathGuard_cases u with hnil | hdot
  · have hcut := cut_join hss ht
    rw [hnil, if_pos rfl, UrlPath.text_segments hne]
    show ofScheme none u.scheme ('/' :: (Text.join ['/'] ss ++ t)) = _
    rw [ofScheme_rooted hkind (head?_join ha (hguard.trans hnil) hne hss ht), hcut.1, hcut.2,
      UrlPath.resolve_segments false hne hss]
    rfl
  · have hchars : ∀ s ∈ ['.'] :: ss, ∀ c ∈ s, UrlPath.SegmentChar false c :=
      List.forall_mem_cons.2 ⟨List.forall_mem_singleton.2 ⟨by decide, rfl, rfl⟩, hss⟩
    have hcut := cut_join hchars ht
    have hjoin : Text.join ['/'] (['.'] :: ss) = '.' :: (UrlPath.segments ss).text := by
      rw [UrlPath.text_segments hne]
      obtain ⟨s, ss, rfl⟩ := List.exists_cons_of_ne_nil hne
      rfl
    rw [hdot, if_neg (List.cons_ne_nil _ _)]
    show ofScheme none u.scheme ('/' :: ('.' :: (UrlPath.segments ss).text ++ t)) = _
    rw [ofScheme_rooted hkind (by rintro c ⟨⟩; decide), ← hjoin, hcut.1, hcut.2,
      UrlPath.resolve_segments false (List.cons_ne_nil _ _) hchars]
    rfl

theorem Parted.kind_of_none (h : u.Parted) (ha : u.authority = none) : u.kind = .other := by
  cases hkind : u.kind with
  | network =>
    obtain ⟨a, hb, -⟩ := h.network hkind
    cases ha.symm.trans hb
  | file =>
    obtain ⟨host, hb⟩ := h.file hkind
    cases ha.symm.trans hb
  | other => rfl

theorem fileWithHost_path (hparted : u.Parted) (hauthority : u.ReadsAuthority) (ha : u.authority = some a)
    (hkind : u.kind = .file) (hne : ss ≠ []) (hss : ∀ s ∈ ss, ∀ c ∈ s, UrlPath.SegmentChar u.kind.isSpecial c)
    (ht : ∀ c ∈ t.head?, (!endsPath c) = false) :
    fileWithHost (a.text ++ ((UrlPath.segments ss).text ++ t)) = .ok (u.reread ss t) := by
  rw [hkind] at hss
  obtain ⟨host, hhost⟩ := hparted.file hkind
  cases ha.symm.trans hhost
  rw [reread_of_file hkind, text_hostOnly, ha]
  cases host with
  | none =>
    rw [lead_of_empty_host hkind ha]
    exact (fileWithHost_segments hne hss ht).trans (congrArg _ (ite_self _).symm)
  | some x =>
    rw [lead_of_host ha fun _ => Option.some_ne_none x]
    show fileWithHost (x.text ++ _) = _
    rw [hauthority.file x ha hkind _ (forall_head?_pathText rfl hne t)]
    dsimp only
    rw [afterAuthority_segments hne hss ht]
    rfl

theorem ofAuthority_path (hauthority : u.ReadsAuthority) (ha : u.authority = some a) (hkind : u.kind ≠ .file)
    (hne : ss ≠ []) (hss : ∀ s ∈ ss, ∀ c ∈ s, UrlPath.SegmentChar u.kind.isSpecial c)
    (ht : ∀ c ∈ t.head?, (!endsPath c) = false) :
    ofAuthority u.kind u.scheme (a.text ++ ((UrlPath.segments ss).text ++ t)) = .ok (u.reread ss t) := by
  rw [hauthority.general hkind a ha _ (forall_head?_pathText rfl hne t), afterAuthority_segments hne hss ht,
    reread_of_ne_file hkind, lead_of_host ha fun h => absurd h hkind, ha, beq_eq_false_iff_ne.2 hkind]
  rfl

/-- Another path is read in the same place. -/
theorem parse_reread (hparted : u.Parted) (hwritten : u.Written) (hauthority : u.ReadsAuthority) (hne : ss ≠ [])
    (hss : ∀ s ∈ ss, ∀ c ∈ s, UrlPath.SegmentChar u.kind.isSpecial c)
    (hguard : ({ u with path := .segments ss } : Url).pathGuard = u.pathGuard)
    (ht : ∀ c ∈ t.head?, (!endsPath c) = false) (hvisible : Visible t) :
    parse (String.ofList (u.beforePath ++ u.pathGuard ++ (UrlPath.segments ss).text ++ t)) =
      .ok (u.reread ss t) := by
  have hall : Visible (u.beforePath ++ u.pathGuard ++ (UrlPath.segments ss).text ++ t) := by
    refine ((hwritten.visible_beforePath.append (visible_pathGuard u)).append ?_).append hvisible
    exact UrlPath.Written.visible_text fun s hs c hc => (hss s hs c hc).visible
  cases ha : u.authority with
  | none =>
    have hkind := hparted.kind_of_none ha
    have hother : u.kind ≠ .file := by
      rw [hkind]
      decide
    have hbefore : u.beforePath = u.scheme ++ [':'] := by rw [beforePath, ha]
    rw [hkind] at hss
    rw [hbefore] at hall ⊢
    rw [parse_ofList, clean_of_visible hall]
    simp only [List.append_assoc, List.cons_append, List.nil_append]
    rw [scheme?_of_schemeText hwritten.scheme, reread_of_ne_file hother, ha, hkind]
    exact ofScheme_segments ha hkind hne hss hguard ht
  | some a =>
    have hbefore : u.beforePath ++ u.pathGuard = u.scheme ++ ':' :: '/' :: '/' :: a.text := by
      rw [beforePath, pathGuard, ha, List.append_nil]
    rw [hbefore] at hall ⊢
    simp only [List.append_assoc, List.cons_append] at hall ⊢
    rw [parse_authority hparted hwritten.scheme ha hall]
    split
    · rename_i hkind
      exact fileWithHost_path hparted hauthority ha hkind hne hss ht
    · rename_i hkind
      exact ofAuthority_path hauthority ha hkind hne hss ht

end Federation.Url
