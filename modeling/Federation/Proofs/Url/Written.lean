import Federation.Proofs.Text.Ends
import Federation.Proofs.Url.Visible
import Federation.Remote

/-!
# What a written URL looks like

A URL that was parsed holds visible characters only: whatever else the text had was escaped or dropped, or the text
was no URL. `Url.Written` says so part by part, and that the scheme has the form of one; `written_parse` follows the
parser. An opaque path may keep blanks, so it is left out, and the written form as a whole is visible if the URL can
be a base.

Such a text begins with a letter and holds no blank, so neither `trim` nor `withProtocol` changes it: it means the
URL that it parses to (`Written.absoluteUrl?_text`).
-/

namespace Federation

/-- The characters of a scheme. -/
def isSchemeChar (c : Char) : Bool := c.isAlphanum || c == '+' || c == '-' || c == '.'

/-- A scheme in lower case. -/
structure SchemeText (s : List Char) : Prop where
  letter : ∃ c r, s = c :: r ∧ c.isAlpha = true
  chars : ∀ c ∈ s, isSchemeChar c = true
  lower : ∀ c ∈ s, c.toLower = c

/-- A path of visible segments, or one that is just text. -/
def UrlPath.Written : UrlPath → Prop
  | opaqueText _ => True
  | segments ss => ∀ s ∈ ss, Visible s

/-- An authority of visible parts. -/
structure UrlAuthority.Written (a : UrlAuthority) : Prop where
  username : Visible a.username
  password : ∀ p ∈ a.password, Visible p
  host : ∀ h ∈ a.host, Visible h.text

/-- A URL of visible parts. -/
structure Url.Written (u : Url) : Prop where
  scheme : SchemeText u.scheme
  authority : ∀ a ∈ u.authority, a.Written
  path : u.path.Written
  query : ∀ q ∈ u.query, Visible q
  fragment : ∀ f ∈ u.fragment, Visible f

/-! ### Schemes -/

theorem lt_of_isAlphanum {c : Char} (h : c.isAlphanum = true) : c.toNat < 0x80 := by
  refine Nat.lt_of_le_of_lt (m := 'z'.toNat) ?_ (by decide)
  rcases Bool.or_eq_true_iff.1 h with hletter | hdigit
  · rcases Bool.or_eq_true_iff.1 hletter with hupper | hlower
    · have hle := UInt32.le_iff_toNat_le.1 (of_decide_eq_true hupper).2
      exact Nat.le_trans hle (by decide)
    · exact UInt32.le_iff_toNat_le.1 (of_decide_eq_true (Bool.and_eq_true_iff.1 hlower).2)
  · have hle := UInt32.le_iff_toNat_le.1 (of_decide_eq_true (Bool.and_eq_true_iff.1 hdigit).2)
    exact Nat.le_trans hle (by decide)

theorem lt_of_isSchemeChar {c : Char} (h : isSchemeChar c = true) : c.toNat < 0x80 := by
  simp only [isSchemeChar, Bool.or_eq_true, beq_iff_eq] at h
  rcases h with ((h | rfl) | rfl) | rfl
  · exact lt_of_isAlphanum h
  all_goals decide

/-- Scheme characters are visible, also in lower case, and stay what they are when they are lowered again. -/
theorem isSchemeChar_toLower {c : Char} (h : isSchemeChar c = true) :
    VisibleChar c ∧ isSchemeChar c.toLower = true ∧ c.toLower.toLower = c.toLower ∧ c.toLower.isAlpha = c.isAlpha := by
  have hascii := lt_of_isSchemeChar h
  revert h
  exact ascii_induction hascii (by decide)

theorem SchemeText.visible {s : List Char} (h : SchemeText s) : Visible s :=
  fun c hc => (isSchemeChar_toLower (h.chars c hc)).1

theorem isSchemeChar_of_isAlpha {c : Char} (h : c.isAlpha = true) : isSchemeChar c = true := by
  simp [isSchemeChar, Char.isAlphanum, h]

namespace Url

theorem scheme?_eq {c : Char} {r : List Char} (h : c.isAlpha = true) :
    scheme? (c :: r) = match r.dropWhile isSchemeChar with
      | ':' :: rest => some ((c :: r.takeWhile isSchemeChar).map Char.toLower, rest)
      | _ => none := by
  rw [scheme?, h]
  rfl

/-- What is read as a scheme has the form of one. -/
theorem schemeText_of_scheme? {s scheme rest : List Char} (h : scheme? s = some (scheme, rest)) :
    SchemeText scheme := by
  cases s with
  | nil => cases h
  | cons c r =>
    cases hc : c.isAlpha with
    | false =>
      rw [scheme?, hc] at h
      cases h
    | true =>
      rw [scheme?_eq hc] at h
      split at h
      · cases h
        have hchar : ∀ d ∈ c :: r.takeWhile isSchemeChar, isSchemeChar d = true := by
          rw [List.forall_mem_cons]
          exact ⟨isSchemeChar_of_isAlpha hc, List.all_eq_true.1 List.all_takeWhile⟩
        refine ⟨⟨c.toLower, _, rfl, ?_⟩, fun d hd => ?_, fun d hd => ?_⟩
        · rw [(isSchemeChar_toLower (isSchemeChar_of_isAlpha hc)).2.2.2, hc]
        all_goals obtain ⟨e, he, rfl⟩ := List.mem_map.1 hd
        · exact (isSchemeChar_toLower (hchar e he)).2.1
        · exact (isSchemeChar_toLower (hchar e he)).2.2.1
      · cases h

/-- A scheme and a colon in front of a text are read as that scheme. -/
theorem scheme?_of_schemeText {s : List Char} (h : SchemeText s) (rest : List Char) :
    scheme? (s ++ ':' :: rest) = some (s, rest) := by
  obtain ⟨c, r, rfl, hc⟩ := h.letter
  have hr : ∀ d ∈ r, isSchemeChar d = true := fun d hd => h.chars d (List.mem_cons_of_mem _ hd)
  have hcolon : ¬isSchemeChar ':' = true := by decide
  have hlower : (c :: r).map Char.toLower = c :: r := by
    conv_rhs => rw [← List.map_id (c :: r)]
    exact List.map_congr_left h.lower
  rw [List.cons_append, scheme?_eq hc, List.dropWhile_append_of_pos hr, List.takeWhile_append_of_pos hr,
    List.dropWhile_cons_of_neg hcolon, List.takeWhile_cons_of_neg hcolon, List.append_nil]
  exact congrArg (fun t => some (t, rest)) hlower

end Url

/-! ### Paths -/

namespace UrlPath
variable {c : Char} {s : List Char} {dirs : List (List Char)}

theorem fragmentSet_of_invisible (hascii : c.toNat < 0x80) (h : ¬VisibleChar c) : fragmentSet c = true := by
  rcases UrlHost.isControl_or_eq_blank hascii h with hc | rfl
  · simp only [UrlHost.isControl, Bool.or_eq_true] at hc
    simp only [fragmentSet, Bool.or_eq_true]
    tauto
  · rfl

theorem pathSet_of_invisible (hascii : c.toNat < 0x80) (h : ¬VisibleChar c) : pathSet c = true := by
  simp [pathSet, fragmentSet_of_invisible hascii h]

theorem mem_of_mem_parent (h : s ∈ parent dirs) : s ∈ dirs := by
  unfold parent at h
  split at h
  · split at h
    · exact h
    · exact (List.dropLast_sublist dirs).subset h
  · cases h

/-- What holds of the directories and of every placed segment holds of all that is walked to. -/
theorem forall_mem_walk {P : List Char → Prop} {isFile : Bool} {segs : List (List Char)} (hempty : P [])
    (hplace : ∀ seg ∈ segs, isDoubleDot seg = false → isSingleDot seg = false → ∀ ds : List (List Char),
      (∀ d ∈ ds, P d) → ∀ d ∈ place isFile ds seg, P d)
    (hdirs : ∀ d ∈ dirs, P d) : ∀ d ∈ walk isFile dirs segs, P d := by
  have hclosed {ds : List (List Char)} (hds : ∀ d ∈ ds, P d) : ∀ d ∈ ds ++ [[]], P d :=
    List.forall_mem_append.2 ⟨hds, List.forall_mem_singleton.2 hempty⟩
  have hparent {ds : List (List Char)} (hds : ∀ d ∈ ds, P d) : ∀ d ∈ parent ds, P d :=
    fun d hd => hds d (mem_of_mem_parent hd)
  fun_induction walk isFile dirs segs with
  | case1 dirs => exact hclosed hdirs
  | case2 dirs seg _ => exact hclosed (hparent hdirs)
  | case3 dirs seg _ _ => exact hclosed hdirs
  | case4 dirs seg hdots hdot =>
    exact hplace seg List.mem_cons_self (Bool.not_eq_true _ ▸ hdots) (Bool.not_eq_true _ ▸ hdot) dirs hdirs
  | case5 dirs seg segs _ _ ih => exact ih (List.forall_mem_cons.1 hplace).2 (hparent hdirs)
  | case6 dirs seg segs _ _ _ ih => exact ih (List.forall_mem_cons.1 hplace).2 hdirs
  | case7 dirs seg segs _ hdots hdot ih =>
    have ⟨hseg, hplace⟩ := List.forall_mem_cons.1 hplace
    exact ih hplace (hseg (Bool.not_eq_true _ ▸ hdots) (Bool.not_eq_true _ ▸ hdot) dirs hdirs)

/-- The characters of a segment: those that are not escaped and separate nothing. -/
def SegmentChar (special : Bool) (c : Char) : Prop :=
  c.toNat < 0x80 ∧ pathSet c = false ∧ (c == '/' || (special && c == '\\')) = false

theorem SegmentChar.visible {special : Bool} (h : SegmentChar special c) : VisibleChar c := by
  by_contra hinvisible
  cases h.2.1.symm.trans (pathSet_of_invisible h.1 hinvisible)

theorem segmentChar_of_mem_encode {special : Bool} (h : ∀ c ∈ s, (c == '/' || (special && c == '\\')) = false) :
    ∀ c ∈ Percent.encode pathSet s, SegmentChar special c := by
  have hhex : ∀ n < 16, ∀ special, SegmentChar special (Percent.hexDigit n) := by
    unfold SegmentChar
    decide
  intro c hc
  rcases Percent.mem_encode hc with ⟨hmem, hascii, hkept⟩ | rfl | ⟨n, hn, rfl⟩
  · exact ⟨hascii, hkept, h c hmem⟩
  · cases special <;> exact ⟨by decide, rfl, rfl⟩
  · exact hhex n hn special

theorem segmentChar_normalizeDrive {special : Bool} (h : ∀ c ∈ s, SegmentChar special c) :
    ∀ c ∈ normalizeDrive s, SegmentChar special c := by
  unfold normalizeDrive
  split
  · simp only [List.forall_mem_cons] at h ⊢
    refine ⟨h.1, ?_, h.2.2⟩
    cases special <;> exact ⟨by decide, rfl, rfl⟩
  · exact h

theorem segmentChar_splitDrive {special : Bool} (h : ∀ c ∈ s, SegmentChar special c) :
    ∀ d ∈ splitDrive s, ∀ c ∈ d, SegmentChar special c := by
  unfold splitDrive
  split
  · split
    · simp only [List.forall_mem_cons] at h ⊢
      exact ⟨⟨h.1, h.2.1, nofun⟩, h.2.2, nofun⟩
    · exact List.forall_mem_singleton.2 h
  · exact List.forall_mem_singleton.2 h

theorem segmentChar_place {special : Bool} (isFile : Bool) (hdirs : ∀ d ∈ dirs, ∀ c ∈ d, SegmentChar special c)
    (h : ∀ c ∈ s, SegmentChar special c) : ∀ d ∈ place isFile dirs s, ∀ c ∈ d, SegmentChar special c := by
  unfold place
  split
  · split
    · exact List.forall_mem_singleton.2 (segmentChar_normalizeDrive h)
    · exact segmentChar_splitDrive h
  · exact List.forall_mem_append.2 ⟨hdirs, List.forall_mem_singleton.2 h⟩

theorem mem_of_mem_dropLeadingEmpty {ss : List (List Char)} (h : s ∈ dropLeadingEmpty ss) : s ∈ ss := by
  fun_induction dropLeadingEmpty ss with
  | case1 t ts ih => exact List.mem_cons_of_mem _ (ih h)
  | case2 ss => exact h

theorem segmentChar_resolve (special isFile : Bool) (s : List Char) :
    ∃ ss, resolve special isFile [] s = .segments ss ∧ ∀ d ∈ ss, ∀ c ∈ d, SegmentChar special c := by
  have hwalk : ∀ d ∈ walk isFile [] ((Text.pieces (fun c => c == '/' || (special && c == '\\')) s).map
      (Percent.encode pathSet)), ∀ c ∈ d, SegmentChar special c := by
    refine forall_mem_walk nofun (fun seg hseg _ _ ds hds => segmentChar_place isFile hds ?_) nofun
    obtain ⟨t, ht, rfl⟩ := List.mem_map.1 hseg
    exact segmentChar_of_mem_encode fun c hc => (Text.mem_of_mem_pieces ht c hc).2
  refine ⟨_, rfl, fun d hd => ?_⟩
  cases isFile with
  | false => exact hwalk d hd
  | true => exact hwalk d (mem_of_mem_dropLeadingEmpty hd)

theorem written_resolve (special isFile : Bool) (s : List Char) : (resolve special isFile [] s).Written := by
  obtain ⟨ss, hss, hchars⟩ := segmentChar_resolve special isFile s
  rw [hss]
  exact fun d hd c hc => (hchars d hd c hc).visible

theorem Written.visible_text {ss : List (List Char)} (h : (segments ss).Written) : Visible (segments ss).text := by
  intro c hc
  obtain ⟨s, hs, hc⟩ := List.mem_flatMap.1 hc
  exact Visible.cons (by decide) (h s hs) c hc

end UrlPath

/-! ### Authorities -/

theorem UrlAuthority.Written.visible_text {a : UrlAuthority} (h : a.Written) : Visible a.text := by
  have hinfo : Visible a.userInfo := by
    unfold userInfo
    split
    · exact .nil
    · exact h.username.append (.cons (by decide) .nil)
    · rename_i p hp
      exact h.username.append (.cons (by decide) ((h.password p hp).append (.cons (by decide) .nil)))
  refine (hinfo.append ?_).append ?_
  · cases hhost : a.host with
    | none => exact .nil
    | some host => exact h.host host hhost
  · split
    · exact .nil
    · exact .cons (by decide) (visible_toDigits (by decide) (by decide) _)

namespace Url
variable {kind : SchemeKind} {scheme s : List Char} {u : Url}

/-! ### Parsing -/

theorem userInfoSet_of_invisible {c : Char} (hascii : c.toNat < 0x80) (h : ¬VisibleChar c) : userInfoSet c = true := by
  simp [userInfoSet, UrlPath.pathSet_of_invisible hascii h]

theorem querySet_of_invisible {c : Char} (special : Bool) (hascii : c.toNat < 0x80) (h : ¬VisibleChar c) :
    querySet special c = true := by
  rcases UrlHost.isControl_or_eq_blank hascii h with hc | rfl
  · simp only [UrlHost.isControl, Bool.or_eq_true] at hc
    simp only [querySet, Bool.or_eq_true]
    tauto
  · rfl

/-- Query and fragment are escaped texts. -/
theorem encoded_queryAndFragment (kind : SchemeKind) (s : List Char) :
    (∀ q ∈ (queryAndFragment kind s).1, ∃ r, q = Percent.encode (querySet kind.isSpecial) r) ∧
      ∀ f ∈ (queryAndFragment kind s).2, ∃ r, f = Percent.encode UrlPath.fragmentSet r := by
  unfold queryAndFragment
  split
  · dsimp only
    split
    · exact ⟨fun q hq => ⟨_, (Option.mem_some.1 hq).symm⟩, fun f hf => ⟨_, (Option.mem_some.1 hf).symm⟩⟩
    · exact ⟨fun q hq => ⟨_, (Option.mem_some.1 hq).symm⟩, nofun⟩
  · exact ⟨nofun, fun f hf => ⟨_, (Option.mem_some.1 hf).symm⟩⟩
  · exact ⟨nofun, nofun⟩

/-- User name and password are escaped texts, the password one that is not empty. -/
theorem encoded_credentials (s : List Char) :
    (∃ r, (credentials s).1 = Percent.encode userInfoSet r) ∧
      ∀ p ∈ (credentials s).2, ∃ r, r ≠ [] ∧ p = Percent.encode userInfoSet r := by
  unfold credentials
  split
  · exact ⟨⟨_, rfl⟩, nofun⟩
  · exact ⟨⟨_, rfl⟩, nofun⟩
  · rename_i hne _
    exact ⟨⟨_, rfl⟩, fun p hp => ⟨_, hne, (Option.mem_some.1 hp).symm⟩⟩

theorem visible_credentials (s : List Char) :
    Visible (credentials s).1 ∧ ∀ p ∈ (credentials s).2, Visible p := by
  have hinfo (r : List Char) : Visible (Percent.encode userInfoSet r) :=
    Percent.visible_encode fun c _ => userInfoSet_of_invisible
  obtain ⟨⟨r, hr⟩, hpassword⟩ := encoded_credentials s
  refine ⟨hr ▸ hinfo r, fun p hp => ?_⟩
  obtain ⟨t, -, rfl⟩ := hpassword p hp
  exact hinfo t

theorem written_finish {a : Option UrlAuthority} {path : UrlPath} (hscheme : SchemeText scheme)
    (ha : ∀ b ∈ a, b.Written) (hpath : path.Written) : (finish kind scheme a path s).Written := by
  have ⟨hquery, hfragment⟩ := encoded_queryAndFragment kind s
  refine ⟨hscheme, ha, hpath, fun q hq => ?_, fun f hf => ?_⟩
  · obtain ⟨r, rfl⟩ := hquery q hq
    exact Percent.visible_encode fun c _ => querySet_of_invisible _
  · obtain ⟨r, rfl⟩ := hfragment f hf
    exact Percent.visible_encode fun c _ => UrlPath.fragmentSet_of_invisible

theorem written_afterAuthority {a : UrlAuthority} (hscheme : SchemeText scheme) (ha : a.Written) :
    (afterAuthority kind scheme a s).Written := by
  refine written_finish hscheme (fun b hb => Option.mem_some.1 hb ▸ ha) ?_
  split
  · split
    · exact List.forall_mem_singleton.2 .nil
    · exact nofun
  · exact UrlPath.written_resolve _ _ _

theorem visible_authorityHost {host : Option UrlHost} (h : authorityHost kind s = .ok host) :
    ∀ x ∈ host, Visible x.text := by
  rintro x rfl
  unfold authorityHost at h
  split at h
  · exact UrlHost.visible_ofOther h
  · split at h
    · cases h
    · obtain ⟨y, hy, hx⟩ := exists_of_map_eq_ok h
      cases hx
      exact UrlHost.visible_ofSpecial hy

theorem written_makeAuthority {info : List Char × Option (List Char)} {host : Option UrlHost} {p : Option (List Char)}
    {a : UrlAuthority} (hinfo : Visible info.1 ∧ ∀ p ∈ info.2, Visible p) (hhost : ∀ x ∈ host, Visible x.text)
    (h : makeAuthority scheme info host p = .ok a) : a.Written := by
  unfold makeAuthority at h
  split at h
  · cases h
  · split at h
    · cases h
    · cases h
      exact ⟨hinfo.1, hinfo.2, hhost⟩
  · cases h
    exact ⟨hinfo.1, hinfo.2, hhost⟩
  · obtain ⟨n, -, rfl⟩ := exists_of_map_eq_ok h
    exact ⟨hinfo.1, hinfo.2, hhost⟩

/-- What is read after two slashes is put together from credentials, a host, a port and what follows them. -/
theorem ofAuthority_eq_ok (h : ofAuthority kind scheme s = .ok u) :
    ∃ info t host p a rest, authorityHost kind t = .ok host ∧ makeAuthority scheme (credentials info) host p = .ok a ∧
      afterAuthority kind scheme a rest = u := by
  unfold ofAuthority at h
  dsimp only at h
  split at h
  · cases h
  · split at h
    · cases h
    · rename_i host hhost
      split at h
      · cases h
      · rename_i a ha
        exact ⟨_, _, host, _, a, _, hhost, ha, Except.ok.inj h⟩

theorem schemeText_file : SchemeText "file".toList := by
  have hchars : ∀ c ∈ ['f', 'i', 'l', 'e'], isSchemeChar c = true ∧ c.toLower = c := by
    simp only [List.mem_cons, List.not_mem_nil, or_false]
    rintro c (rfl | rfl | rfl | rfl) <;> exact ⟨rfl, rfl⟩
  exact ⟨⟨'f', ['i', 'l', 'e'], rfl, rfl⟩, fun c hc => (hchars c hc).1, fun c hc => (hchars c hc).2⟩

theorem written_hostOnly {host : Option UrlHost} (h : ∀ x ∈ host, Visible x.text) : (hostOnly host).Written :=
  ⟨.nil, nofun, h⟩

theorem ofSpecial_of_fileHost {host : UrlHost} (h : fileHost s = .ok (some host)) : UrlHost.ofSpecial s = .ok host := by
  unfold fileHost at h
  split at h
  · cases h
  · obtain ⟨y, hy, hx⟩ := exists_of_map_eq_ok h
    split at hx <;> cases hx
    exact hy

theorem Written.withoutHost (h : u.Written) : { u with authority := some (hostOnly none) }.Written :=
  ⟨h.scheme, by rintro a ⟨⟩; exact written_hostOnly nofun, h.path, h.query, h.fragment⟩

theorem written_fileWithoutHost (s : List Char) : (fileWithoutHost s).Written :=
  written_finish schemeText_file (by rintro a ⟨⟩; exact written_hostOnly nofun) (UrlPath.written_resolve _ _ _)

/-- The ways in which the parser makes a URL. -/
inductive Made : Url → Prop
  /-- With an authority, in any scheme but `file`. -/
  | authority {scheme info t : List Char} {host : Option UrlHost} {p : Option (List Char)} {a : UrlAuthority}
      (rest : List Char) (hscheme : SchemeText scheme) (hkind : SchemeKind.ofScheme scheme ≠ .file)
      (hhost : authorityHost (SchemeKind.ofScheme scheme) t = .ok host)
      (ha : makeAuthority scheme (credentials info) host p = .ok a) :
      Made (afterAuthority (SchemeKind.ofScheme scheme) scheme a rest)
  /-- As a path in a file system. -/
  | file (rest : List Char) : Made (fileWithoutHost rest)
  /-- As such a path at a host. -/
  | fileOfHost {t : List Char} {host : UrlHost} (rest : List Char) (hhost : fileHost t = .ok (some host)) :
      Made (afterAuthority .file "file".toList (hostOnly (some host)) rest)
  /-- As such a path that has a drive letter, for which the host is dropped. -/
  | fileOfDrive {t : List Char} {host : UrlHost} (rest : List Char) (hhost : fileHost t = .ok (some host)) :
      Made { afterAuthority .file "file".toList (hostOnly (some host)) rest with authority := some (hostOnly none) }
  /-- Without an authority, with a path from the root. -/
  | rooted {scheme : List Char} (path rest : List Char) (hscheme : SchemeText scheme)
      (hkind : SchemeKind.ofScheme scheme = .other) :
      Made (finish .other scheme none (UrlPath.resolve false false [] path) rest)
  /-- Without an authority, with a path that is just text. -/
  | opaqueText {scheme : List Char} (path rest : List Char) (hscheme : SchemeText scheme)
      (hkind : SchemeKind.ofScheme scheme = .other) :
      Made (finish .other scheme none (.opaqueText (Percent.encode UrlHost.isControl path)) rest)

theorem made_ofAuthority (hscheme : SchemeText scheme) (hkind : SchemeKind.ofScheme scheme = kind)
    (hfile : kind ≠ .file) (h : ofAuthority kind scheme s = .ok u) : u.Made := by
  subst hkind
  obtain ⟨info, t, host, p, a, rest, hhost, ha, rfl⟩ := ofAuthority_eq_ok h
  exact .authority rest hscheme hfile hhost ha

theorem made_fileWithHost (h : fileWithHost s = .ok u) : u.Made := by
  unfold fileWithHost at h
  dsimp only at h
  generalize (if UrlPath.isDriveLetter _ = true then s else _) = rest at h
  split at h
  · cases h
  · cases h
    exact .file rest
  · rename_i host hhost
    cases h
    split
    · exact .fileOfDrive rest hhost
    · exact .fileOfHost rest hhost

theorem made_ofFile (h : ofFile none s = .ok u) : u.Made := by
  unfold ofFile at h
  split at h
  · cases h
    exact .file []
  · split at h
    · split at h
      · split at h
        · exact made_fileWithHost h
        · cases h
          exact .file _
      · cases h
        exact .file _
    · cases h
      exact .file _

theorem made_ofScheme (hscheme : SchemeText scheme) (h : ofScheme none scheme s = .ok u) : u.Made := by
  unfold ofScheme at h
  split at h
  · exact made_ofFile h
  · rename_i hkind
    exact made_ofAuthority hscheme hkind nofun h
  · rename_i hkind
    split at h
    · exact made_ofAuthority hscheme hkind nofun h
    · cases h
      exact .rooted _ _ hscheme hkind
    · cases h
      exact .opaqueText _ _ hscheme hkind

/-- Every URL that is parsed is made in one of these ways. -/
theorem made_parse {s : String} (h : parse s = .ok u) : u.Made := by
  unfold parse parseWith at h
  dsimp only at h
  split at h
  · rename_i scheme rest hscheme
    exact made_ofScheme (schemeText_of_scheme? hscheme) h
  · cases h

theorem Made.written (h : u.Made) : u.Written := by
  have hhostOnly {t : List Char} {host : UrlHost} (hhost : fileHost t = .ok (some host)) :
      (hostOnly (some host)).Written :=
    written_hostOnly fun x hx => Option.mem_some.1 hx ▸ UrlHost.visible_ofSpecial (ofSpecial_of_fileHost hhost)
  cases h with
  | authority rest hscheme _ hhost ha =>
    exact written_afterAuthority hscheme
      (written_makeAuthority (visible_credentials _) (visible_authorityHost hhost) ha)
  | file rest => exact written_fileWithoutHost rest
  | fileOfHost rest hhost => exact written_afterAuthority schemeText_file (hhostOnly hhost)
  | fileOfDrive rest hhost => exact (written_afterAuthority schemeText_file (hhostOnly hhost)).withoutHost
  | rooted path rest hscheme _ => exact written_finish hscheme nofun (UrlPath.written_resolve _ _ _)
  | opaqueText path rest hscheme _ => exact written_finish hscheme nofun trivial

/-- Every URL that is parsed is written with visible characters. -/
theorem written_parse {s : String} (h : parse s = .ok u) : u.Written := (made_parse h).written

/-! ### The written form -/

theorem Written.visible_beforePath (h : u.Written) : Visible u.beforePath := by
  refine h.scheme.visible.append (.cons (by decide) ?_)
  split
  · exact .nil
  · rename_i a ha
    exact .cons (by decide) (.cons (by decide) (h.authority a ha).visible_text)

theorem visible_pathGuard (u : Url) : Visible u.pathGuard := by
  unfold pathGuard
  split
  · exact .cons (by decide) (.cons (by decide) .nil)
  · exact .nil

theorem Written.visible (h : u.Written) (hbase : u.canBeBase = true) : Visible u.toList := by
  have hpath : Visible u.path.text := by
    have hwritten := h.path
    unfold canBeBase at hbase
    split at hbase
    · cases hbase
    · rename_i ss hss
      rw [hss] at hwritten ⊢
      exact hwritten.visible_text
  refine (((h.visible_beforePath.append (visible_pathGuard u)).append hpath).append ?_).append ?_
  · split
    · exact .nil
    · rename_i q hq
      exact .cons (by decide) (h.query q hq)
  · split
    · exact .nil
    · rename_i f hf
      exact .cons (by decide) (h.fragment f hf)

theorem exists_toList_eq (u : Url) : ∃ rest, u.toList = u.scheme ++ ':' :: rest := by
  unfold toList beforePath
  simp only [List.append_assoc, List.cons_append]
  exact ⟨_, rfl⟩

/-- The scheme of a URL can be read off its written form. -/
theorem Written.scheme?_toList (h : u.Written) : ∃ rest, scheme? u.toList = some (u.scheme, rest) := by
  obtain ⟨rest, hrest⟩ := u.exists_toList_eq
  exact ⟨rest, hrest ▸ scheme?_of_schemeText h.scheme rest⟩

end Url

/-! ### Texts that mean themselves -/

theorem isBlankChar_of_visible {c : Char} (h : VisibleChar c) : isBlankChar c = false := by
  have hlow : 0x20 < c.val.toNat := h.1
  have hhigh : c.val.toNat < 0x7F := h.2
  simp only [isBlankChar, Bool.or_eq_false_iff, Bool.and_eq_false_iff, decide_eq_false_iff_not, beq_eq_false_iff_ne]
  omega

theorem trim_of_visible {s : List Char} (h : Visible s) : Text.trim s = s := by
  have hblank : ∀ c ∈ s, isBlankChar c = false := fun c hc => isBlankChar_of_visible (h c hc)
  rw [Text.trim, Text.trimStart, Text.dropWhile_eq_self hblank, Text.trimEnd, Text.dropEndWhile_eq_self hblank]

namespace Url
variable {u : Url}

@[simp] theorem toList_text (u : Url) : u.text.toList = u.toList := String.toList_ofList

theorem Written.trim_text (h : u.Written) (hbase : u.canBeBase = true) : trim u.text = u.text := by
  rw [trim, toList_text, trim_of_visible (h.visible hbase), text]

theorem Written.withProtocol_text (h : u.Written) : withProtocol u.text = u.text := by
  obtain ⟨rest, hrest⟩ := u.exists_toList_eq
  obtain ⟨c, r, hscheme, hc⟩ := h.scheme.letter
  unfold withProtocol
  rw [toList_text, hrest, hscheme, List.cons_append, Text.dropPrefix?, if_neg]
  rintro rfl
  cases hc

/-- A written URL means what it parses to. -/
theorem Written.absoluteUrl?_text (h : u.Written) (hbase : u.canBeBase = true) :
    absoluteUrl? u.text = (parse u.text).toOption.filter canBeBase := by
  unfold absoluteUrl?
  rw [h.trim_text hbase, h.withProtocol_text]
  cases parse u.text with
  | error e => rfl
  | ok v => exact (Option.filter_some ..).symm

end Url

end Federation
