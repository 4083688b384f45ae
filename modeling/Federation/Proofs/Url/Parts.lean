import Federation.Proofs.Url.Bases

/-!
# Parts that are not cut

The parser finds the end of a part by the characters that may end it. No part that it makes holds one of these: nothing
in an authority begins a path, a query or a fragment, and no segment holds a slash (`Parted`). The parts that a URL must
have depend on the kind of its scheme.
-/

namespace Federation

theorem UrlPath.dropLeadingEmpty_ne_nil {ss : List (List Char)} (h : ss ≠ []) : dropLeadingEmpty ss ≠ [] := by
  fun_induction dropLeadingEmpty ss with
  | case1 s ss ih => exact ih (List.cons_ne_nil _ _)
  | case2 => exact h

/-- The kind of a URL's scheme. -/
def Url.kind (u : Url) : SchemeKind := .ofScheme u.scheme

namespace Url
variable {kind : SchemeKind} {scheme s : List Char} {u : Url} {a : UrlAuthority}

/-- A URL whose parts hold no character that would end them, and that has the parts which its kind asks for. -/
structure Parted (u : Url) : Prop where
  authority : ∀ a ∈ u.authority, ∀ c ∈ a.text, endsAuthority c = false
  path : ∀ ss, u.path = .segments ss → ∀ s ∈ ss, ∀ c ∈ s, UrlPath.SegmentChar u.kind.isSpecial c
  network : u.kind = .network → ∃ a, u.authority = some a ∧ a.text ≠ []
  file : u.kind = .file → ∃ host, u.authority = some (hostOnly host)
  /-- Only behind an authority a path may be missing, and only in a scheme that is not special. -/
  rooted : u.path = .segments [] → u.kind = .other ∧ u.authority ≠ none

/-! ### Authorities -/

theorem HostText.endsAuthority {t : List Char} (h : HostText t) : ∀ c ∈ t, endsAuthority c = false :=
  fun c hc => Bool.not_eq_true' _ ▸ (h.free c hc).1

theorem endsAuthority_ofOther {host : UrlHost} (h : UrlHost.ofOther s = .ok (some host)) :
    ∀ c ∈ host.text, endsAuthority c = false := by
  have hhex : ∀ n < 16, endsAuthority (Percent.hexDigit n) = false := by decide
  unfold UrlHost.ofOther at h
  split at h
  · rename_i r hr
    obtain ⟨x, rfl, hx⟩ := exists_of_map_eq_ok h
    cases hx
    obtain ⟨pieces, rfl⟩ := UrlHost.exists_of_bracketed hr
    simp only [UrlHost.text, List.forall_mem_cons, List.forall_mem_append]
    exact ⟨by decide, UrlHost.forall_mem_ipv6Text (by decide) (by decide) pieces, by decide, List.forall_mem_nil _⟩
  · split at h
    · cases h
    · rename_i hallowed
      split at h
      · cases h
      · cases h
        intro c hc
        rcases Percent.mem_encode hc with ⟨hmem, -, -⟩ | rfl | ⟨n, hn, rfl⟩
        · have hc : UrlHost.isForbidden c = false := by
            rw [Bool.not_eq_true, List.any_eq_false] at hallowed
            exact Bool.not_eq_true _ ▸ hallowed c hmem
          simp only [UrlHost.isForbidden, Bool.or_eq_false_iff] at hc
          simp [endsAuthority, isSlash, endsPath, hc]
        · rfl
        · exact hhex n hn

theorem endsAuthority_authorityHost {host : Option UrlHost} (h : authorityHost kind s = .ok host) :
    ∀ x ∈ host, ∀ c ∈ x.text, endsAuthority c = false := by
  rintro x rfl
  unfold authorityHost at h
  split at h
  · exact endsAuthority_ofOther h
  · split at h
    · cases h
    · obtain ⟨y, hy, hx⟩ := exists_of_map_eq_ok h
      cases hx
      exact (hostText_ofSpecial hy).endsAuthority

theorem endsAuthority_text (husername : Percent.Kept userInfoSet a.username)
    (hpassword : ∀ p ∈ a.password, Percent.Kept userInfoSet p)
    (hhost : ∀ x ∈ a.host, ∀ c ∈ x.text, endsAuthority c = false) : ∀ c ∈ a.text, endsAuthority c = false := by
  unfold UrlAuthority.text
  simp only [List.forall_mem_append]
  refine ⟨⟨fun c hc => Bool.not_eq_true' _ ▸ free_userInfo husername hpassword c hc, ?_⟩, ?_⟩
  · cases h : a.host with
    | none => exact nofun
    | some x => exact hhost x h
  · cases a.port with
    | none => exact nofun
    | some n => exact fun c hc => Bool.not_eq_true' _ ▸ (free_portText (some n) c hc).1

theorem endsAuthority_makeAuthority {info : List Char} {host : Option UrlHost} {p : Option (List Char)}
    (hhost : authorityHost kind s = .ok host) (h : makeAuthority scheme (credentials info) host p = .ok a) :
    ∀ c ∈ a.text, endsAuthority c = false := by
  have ⟨husername, hpassword⟩ := kept_credentials info
  have hparts : a.username = (credentials info).1 ∧ a.password = (credentials info).2 ∧ a.host = host := by
    unfold makeAuthority at h
    split at h
    · cases h
    · split at h <;> cases h
      exact ⟨rfl, rfl, rfl⟩
    · cases h
      exact ⟨rfl, rfl, rfl⟩
    · obtain ⟨n, -, rfl⟩ := exists_of_map_eq_ok h
      exact ⟨rfl, rfl, rfl⟩
  refine endsAuthority_text (hparts.1 ▸ husername) (fun p hp => (hpassword p (hparts.2.1 ▸ hp)).1) fun x hx => ?_
  exact endsAuthority_authorityHost hhost x (hparts.2.2 ▸ hx)

theorem endsAuthority_hostOnly {host : Option UrlHost} (h : ∀ x ∈ host, ∀ c ∈ x.text, endsAuthority c = false) :
    ∀ c ∈ (hostOnly host).text, endsAuthority c = false :=
  endsAuthority_text nofun nofun h

/-! ### Paths -/

theorem segments_resolve (special isFile : Bool) (s : List Char) :
    ∃ ss, UrlPath.resolve special isFile [] s = .segments ss ∧ ss ≠ [] ∧
      ∀ d ∈ ss, ∀ c ∈ d, UrlPath.SegmentChar special c := by
  obtain ⟨ss, hss, hchars⟩ := UrlPath.segmentChar_resolve special isFile s
  refine ⟨ss, hss, ?_, hchars⟩
  unfold UrlPath.resolve at hss
  cases hss
  cases isFile with
  | false => exact UrlPath.walk_ne_nil _ _ _
  | true => exact UrlPath.dropLeadingEmpty_ne_nil (UrlPath.walk_ne_nil _ _ _)

theorem segments_afterAuthority (kind : SchemeKind) (scheme : List Char) (a : UrlAuthority) (s : List Char) :
    ∃ ss, (afterAuthority kind scheme a s).path = .segments ss ∧ (ss = [] → kind = .other) ∧
      ∀ d ∈ ss, ∀ c ∈ d, UrlPath.SegmentChar kind.isSpecial c := by
  unfold afterAuthority finish
  dsimp only
  split
  · split
    · exact ⟨_, rfl, nofun, by simp⟩
    · refine ⟨_, rfl, fun _ => ?_, nofun⟩
      cases kind <;> trivial
  · obtain ⟨ss, hss, hne, hchars⟩ := segments_resolve kind.isSpecial (kind == .file) _
    exact ⟨ss, hss, fun h => absurd h hne, hchars⟩

/-! ### Whole URLs -/

theorem parted_file {host : Option UrlHost} {path : UrlPath} {q f : Option (List Char)}
    (hhost : ∀ x ∈ host, ∀ c ∈ x.text, endsAuthority c = false)
    (hpath : ∃ ss, path = .segments ss ∧ ss ≠ [] ∧ ∀ d ∈ ss, ∀ c ∈ d, UrlPath.SegmentChar true c) :
    Parted ⟨"file".toList, some (hostOnly host), path, q, f⟩ := by
  obtain ⟨ss, rfl, hne, hchars⟩ := hpath
  refine ⟨?_, ?_, nofun, fun _ => ⟨host, rfl⟩, ?_⟩
  · rintro a ⟨⟩
    exact endsAuthority_hostOnly hhost
  · rintro ss ⟨⟩
    exact hchars
  · rintro ⟨⟩
    exact absurd rfl hne

theorem Made.parted (h : u.Made) : u.Parted := by
  have hhost {t : List Char} {host : UrlHost} (h : fileHost t = .ok (some host)) :
      ∀ x ∈ some host, ∀ c ∈ x.text, endsAuthority c = false := by
    rintro x ⟨⟩
    exact (hostText_ofSpecial (ofSpecial_of_fileHost h)).endsAuthority
  have hpath (host : Option UrlHost) (rest : List Char) :
      ∃ ss, (afterAuthority .file "file".toList (hostOnly host) rest).path = .segments ss ∧ ss ≠ [] ∧
        ∀ d ∈ ss, ∀ c ∈ d, UrlPath.SegmentChar true c := by
    obtain ⟨ss, hss, hne, hchars⟩ := segments_afterAuthority .file "file".toList (hostOnly host) rest
    exact ⟨ss, hss, fun h => (nomatch hne h), hchars⟩
  cases h with
  | @authority scheme info t host p a rest hscheme hkind hhost ha =>
    obtain ⟨ss, hss, hnil, hchars⟩ := segments_afterAuthority (.ofScheme scheme) scheme a rest
    refine ⟨?_, ?_, fun hnetwork => ⟨a, rfl, ?_⟩, fun hfile => absurd hfile hkind, fun h => ?_⟩
    · rintro b ⟨⟩
      exact endsAuthority_makeAuthority hhost ha
    · intro ss' hss'
      cases hss.symm.trans hss'
      exact hchars
    · replace hnetwork : SchemeKind.ofScheme scheme = .network := hnetwork
      rw [hnetwork] at hhost
      exact text_ne_nil (canonical_makeAuthority (kept_credentials info) hhost ha)
    · cases hss.symm.trans h
      exact ⟨hnil rfl, nofun⟩
  | file rest => exact parted_file nofun (segments_resolve true true _)
  | @fileOfHost t host rest h => exact parted_file (hhost h) (hpath (some host) rest)
  | @fileOfDrive t host rest h => exact parted_file nofun (hpath (some host) rest)
  | @rooted scheme path rest hscheme hkind =>
    obtain ⟨ss, hss, hne, hchars⟩ := segments_resolve false false path
    have hother : (finish .other scheme none (UrlPath.resolve false false [] path) rest).kind = .other := hkind
    refine ⟨nofun, fun ss' hss' => ?_, fun h => ?_, fun h => ?_, fun h => ?_⟩
    · cases hss.symm.trans hss'
      rw [hother]
      exact hchars
    · cases hkind.symm.trans h
    · cases hkind.symm.trans h
    · cases hss.symm.trans h
      exact absurd rfl hne
  | opaqueText path rest hscheme hkind =>
    refine ⟨nofun, nofun, fun h => ?_, fun h => ?_, nofun⟩ <;> cases hkind.symm.trans h

end Url

end Federation
