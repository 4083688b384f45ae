import Federation.Proofs.Url.Hosts
import Federation.Proofs.Url.Written

/-!
# URLs that read back

A URL reads back if its written form is parsed to the URL itself. Not every URL does, but one of a special scheme other
than `file` reads back if its host does (`readsBack_of_host`). What was parsed is in the form in which it is written
(`Canonical`): each part is escaped already, and escaping it again changes nothing; no segment means a directory; no
port is the default; and no part holds a character at which the text is cut. So the parser cuts the written form into
the same parts.
-/

namespace Federation

/-- The written form is parsed to the URL itself. -/
def Url.ReadsBack (u : Url) : Prop := parse u.text = .ok u

/-- A `file` URL that does not: in the written form the drive letter comes first, and the host is dropped for it. -/
example : (Url.parse "file://host//C|/x").map Url.text = .ok "file://host/C|/x" ∧
    (Url.parse "file://host/C|/x").map Url.text = .ok "file:///C:/x" := by
  decide +kernel

/-! ### Escaped text -/

namespace Percent
variable {inSet : Char → Bool} {s : List Char}

/-- Text without a character that is escaped. -/
def Kept (inSet : Char → Bool) (s : List Char) : Prop := ∀ c ∈ s, c.toNat < 0x80 ∧ inSet c = false

theorem Kept.encode_eq (h : Kept inSet s) : encode inSet s = s := by
  induction s with
  | nil => rfl
  | cons c s ih =>
    have ⟨hc, hs⟩ := List.forall_mem_cons.1 h
    rw [encode, List.flatMap_cons, ← encode, ih hs, encodeChar, if_pos (by simp [hc])]
    rfl

/-- A set without the characters of which escapes are made. -/
def KeepsEscapes (inSet : Char → Bool) : Prop := inSet '%' = false ∧ ∀ n < 16, inSet (hexDigit n) = false

theorem kept_encode (h : KeepsEscapes inSet) (s : List Char) : Kept inSet (encode inSet s) := by
  have hhex : ∀ n < 16, (hexDigit n).toNat < 0x80 := by decide
  intro c hc
  rcases mem_encode hc with ⟨-, hc⟩ | rfl | ⟨n, hn, rfl⟩
  · exact hc
  · exact ⟨by decide, h.1⟩
  · exact ⟨hhex n hn, h.2 n hn⟩

theorem Kept.not_mem {c : Char} (h : Kept inSet s) (hc : inSet c = true) : c ∉ s :=
  fun hmem => Bool.false_ne_true ((h c hmem).2.symm.trans hc)

theorem encode_ne_nil (h : s ≠ []) : encode inSet s ≠ [] := by
  obtain ⟨c, r, rfl⟩ := List.exists_cons_of_ne_nil h
  have hutf8 : String.utf8EncodeChar c ≠ [] := by
    have hlength := String.length_utf8EncodeChar c
    have hpos := Char.utf8Size_pos c
    intro hnil
    rw [hnil, List.length_nil] at hlength
    omega
  obtain ⟨b, bs, hbs⟩ := List.exists_cons_of_ne_nil hutf8
  rw [encode, List.flatMap_cons, encodeChar]
  split
  · simp
  · simp [hbs, escape]

end Percent

/-- A text is cut where a character ends it. -/
theorem cut_append {p : Char → Bool} {s t : List Char} (hs : ∀ c ∈ s, p c = true) (ht : ∀ c ∈ t.head?, p c = false) :
    (s ++ t).takeWhile p = s ∧ (s ++ t).dropWhile p = t := by
  rw [List.takeWhile_append_of_pos hs, List.dropWhile_append_of_pos hs]
  cases t with
  | nil => simp
  | cons c t => simp [ht c rfl]

/-! ### Paths -/

namespace UrlPath
variable {seg : List Char} {dirs segs ss : List (List Char)}

/-- A segment that is read as it is: nothing in it is escaped or separates, and it means no directory. -/
structure Segment (s : List Char) : Prop where
  kept : Percent.Kept pathSet s
  free : ∀ c ∈ s, (c == '/' || c == '\\') = false
  notDot : isSingleDot s = false
  notDots : isDoubleDot s = false

theorem Segment.nil : Segment [] := ⟨nofun, nofun, rfl, rfl⟩

theorem place_ne_nil (isFile : Bool) (dirs : List (List Char)) (seg : List Char) : place isFile dirs seg ≠ [] := by
  unfold place splitDrive
  split_ifs
  · simp
  · split
    · split <;> simp
    · simp
  · simp

theorem walk_ne_nil (isFile : Bool) (dirs segs : List (List Char)) : walk isFile dirs segs ≠ [] := by
  fun_induction walk isFile dirs segs with
  | case1 | case2 | case3 => simp
  | case4 => exact place_ne_nil _ _ _
  | case5 _ _ _ _ _ ih | case6 _ _ _ _ _ _ ih | case7 _ _ _ _ _ _ ih => exact ih

theorem walk_last (dirs : List (List Char)) (h : Segment seg) : walk false dirs [seg] = dirs ++ [seg] := by
  rw [walk, if_neg (by simp [h.notDots]), if_neg (by simp [h.notDot])]
  rfl

theorem walk_cons (dirs : List (List Char)) (h : Segment seg) (hne : segs ≠ []) :
    walk false dirs (seg :: segs) = walk false (dirs ++ [seg]) segs := by
  obtain ⟨t, ts, rfl⟩ := List.exists_cons_of_ne_nil hne
  rw [walk, if_neg (by simp [h.notDots]), if_neg (by simp [h.notDot])]
  · rfl
  · exact nofun

/-- A path without dot segments is walked straight. -/
theorem walk_segments (h : ∀ s ∈ ss, Segment s) (hne : ss ≠ []) : walk false dirs ss = dirs ++ ss := by
  induction ss generalizing dirs with
  | nil => exact absurd rfl hne
  | cons seg segs ih =>
    have ⟨hseg, hsegs⟩ := List.forall_mem_cons.1 h
    cases segs with
    | nil => exact walk_last dirs hseg
    | cons t ts =>
      rw [walk_cons dirs hseg (List.cons_ne_nil _ _), ih hsegs (List.cons_ne_nil _ _)]
      exact List.append_assoc dirs [seg] (t :: ts)

/-- Resolving leaves no dot segments, and at least one segment. -/
theorem segment_resolve (s : List Char) :
    ∃ ss, resolve true false [] s = .segments ss ∧ ss ≠ [] ∧ ∀ d ∈ ss, Segment d := by
  refine ⟨_, rfl, walk_ne_nil _ _ _, forall_mem_walk .nil (fun seg hseg hdots hdot ds hds => ?_) nofun⟩
  obtain ⟨t, ht, rfl⟩ := List.mem_map.1 hseg
  have hchar : ∀ c ∈ Percent.encode pathSet t, SegmentChar true c :=
    segmentChar_of_mem_encode fun c hc => (Text.mem_of_mem_pieces ht c hc).2
  exact List.forall_mem_append.2 ⟨hds, List.forall_mem_singleton.2
    ⟨fun c hc => ⟨(hchar c hc).1, (hchar c hc).2.1⟩, fun c hc => (hchar c hc).2.2, hdot, hdots⟩⟩

theorem text_segments (hne : ss ≠ []) : text (.segments ss) = '/' :: Text.join ['/'] ss := by
  induction ss with
  | nil => exact absurd rfl hne
  | cons s ss ih =>
    cases ss with
    | nil => simp [text, Text.join]
    | cons t ts =>
      have ih := ih (List.cons_ne_nil _ _)
      simp only [text, List.flatMap_cons, Text.join] at ih ⊢
      rw [ih, List.append_assoc]
      rfl

theorem join_nil_cons (hne : ss ≠ []) : Text.join ['/'] ([] :: ss) = '/' :: Text.join ['/'] ss := by
  obtain ⟨s, ss, rfl⟩ := List.exists_cons_of_ne_nil hne
  rfl

/-- What is left of the segments that were walked to: a `file` path has no empty ones in front. -/
def tidy (isFile : Bool) (ss : List (List Char)) : List (List Char) := if isFile then dropLeadingEmpty ss else ss

/-- A path of segments in which nothing is escaped or separates is walked as it is written. -/
theorem resolve_segments {special : Bool} (isFile : Bool) (hne : ss ≠ [])
    (h : ∀ s ∈ ss, ∀ c ∈ s, SegmentChar special c) :
    resolve special isFile [] (Text.join ['/'] ss) = .segments (tidy isFile (walk isFile [] ss)) := by
  have hpieces : Text.pieces (fun c => c == '/' || (special && c == '\\')) (Text.join ['/'] ss) = ss :=
    Text.pieces_join rfl hne fun s hs c hc => (h s hs c hc).2.2
  have hencode : ss.map (Percent.encode pathSet) = ss := by
    conv_rhs => rw [← List.map_id ss]
    refine List.map_congr_left fun s hs => Percent.Kept.encode_eq fun c hc => ?_
    exact ⟨(h s hs c hc).1, (h s hs c hc).2.1⟩
  rw [resolve, hpieces, hencode]
  rfl

end UrlPath

/-! ### Ports -/

theorem foldl_toDigits (n : Nat) : (Nat.toDigits 10 n).foldl (fun n c => n * 10 + (c.toNat - 48)) 0 = n := by
  have hdigit : ∀ k < 10, (Nat.digitChar k).toNat - 48 = k := by decide
  induction n using Nat.strongRecOn with
  | ind n ih =>
    rcases Nat.lt_or_ge n 10 with hn | hn
    · rw [Nat.toDigits_of_lt_base hn]
      simp [hdigit n hn]
    · rw [Nat.toDigits_of_base_le (by decide) hn, List.foldl_append, ih _ (Nat.div_lt_self (by omega) (by decide))]
      simp only [List.foldl_cons, List.foldl_nil, hdigit _ (Nat.mod_lt n (by decide : 10 > 0))]
      omega

namespace Url
variable {scheme s q f : List Char}

theorem port_toDigits {n : Nat} (hn : n ≤ 65535) (hdefault : SchemeKind.defaultPort? scheme ≠ some n) :
    port scheme (Nat.toDigits 10 n) = .ok (some n) := by
  have hall : (Nat.toDigits 10 n).all Char.isDigit = true :=
    List.all_eq_true.2 (forall_mem_toDigits (by decide) (by decide) n)
  have hempty : (Nat.toDigits 10 n).isEmpty = false := by simp
  unfold port
  dsimp only
  rw [foldl_toDigits, hall, hempty, if_neg (by decide), if_neg (by decide), if_neg (by omega), if_neg hdefault]

theorem le_of_port {p : Option Nat} (h : port scheme s = .ok p) :
    ∀ n ∈ p, n ≤ 65535 ∧ SchemeKind.defaultPort? scheme ≠ some n := by
  rintro n rfl
  unfold port at h
  dsimp only at h
  split at h
  · cases h
  · split at h
    · cases h
    · split at h
      · cases h
      · rename_i hle
        split at h
        · cases h
        · rename_i hdefault
          cases h
          exact ⟨Nat.not_lt.1 hle, hdefault⟩

/-! ### Query and fragment -/

theorem keepsEscapes_querySet : Percent.KeepsEscapes (querySet true) := ⟨by decide, by decide⟩

theorem keepsEscapes_fragmentSet : Percent.KeepsEscapes UrlPath.fragmentSet := ⟨by decide, by decide⟩

theorem keepsEscapes_userInfoSet : Percent.KeepsEscapes userInfoSet := ⟨by decide, by decide⟩

/-- The written form of query and fragment. -/
def tailText (q f : Option (List Char)) : List Char :=
  (match q with
    | none => []
    | some q => '?' :: q) ++
  (match f with
    | none => []
    | some f => '#' :: f)

theorem queryAndFragment_tailText {q f : Option (List Char)} (hq : ∀ t ∈ q, Percent.Kept (querySet true) t)
    (hf : ∀ t ∈ f, Percent.Kept UrlPath.fragmentSet t) : queryAndFragment .network (tailText q f) = (q, f) := by
  cases q with
  | none =>
    cases f with
    | none => rfl
    | some f =>
      show (none, some (Percent.encode UrlPath.fragmentSet f)) = _
      rw [(hf f rfl).encode_eq]
  | some q =>
    have hfree : ∀ c ∈ q, decide (c ≠ '#') = true := by
      rintro c hc
      refine decide_eq_true ?_
      rintro rfl
      exact absurd (hq q rfl _ hc).2 (by decide)
    have hend : ∀ c ∈ (tailText none f).head?, decide (c ≠ '#') = false := by
      cases f with
      | none => exact nofun
      | some f =>
        rintro c ⟨⟩
        rfl
    have ⟨htake, hdrop⟩ := cut_append hfree hend
    show queryAndFragment .network ('?' :: (q ++ tailText none f)) = _
    rw [queryAndFragment, htake, hdrop]
    rw [show Percent.encode (querySet SchemeKind.network.isSpecial) q = q from (hq q rfl).encode_eq]
    cases f with
    | none => rfl
    | some f =>
      show (some q, some (Percent.encode UrlPath.fragmentSet f)) = _
      rw [(hf f rfl).encode_eq]

/-! ### Authorities -/

/-- Text that is cut out of an authority as its host. -/
structure HostText (t : List Char) : Prop where
  ne : t ≠ []
  free : ∀ c ∈ t, (!(isSlash .network c || endsPath c)) = true ∧ c ≠ '@'
  split : ∀ rest, splitPort false (t ++ rest) = (t ++ (splitPort false rest).1, (splitPort false rest).2)

theorem splitPort_append {t : List Char} (h : ∀ c ∈ t, c ≠ ':' ∧ c ≠ '[' ∧ c ≠ ']') (rest : List Char) :
    splitPort false (t ++ rest) = (t ++ (splitPort false rest).1, (splitPort false rest).2) := by
  induction t with
  | nil => rfl
  | cons c t ih =>
    have ⟨⟨hcolon, hopen, hclose⟩, ht⟩ := List.forall_mem_cons.1 h
    rw [List.cons_append, splitPort, if_neg (by simp [hcolon])]
    simp only [beq_iff_eq, hopen, hclose, if_false, ih ht]
    rfl

theorem splitPort_bracketed {t : List Char} (h : ∀ c ∈ t, c ≠ '[' ∧ c ≠ ']') (rest : List Char) :
    splitPort true (t ++ ']' :: rest) = (t ++ ']' :: (splitPort false rest).1, (splitPort false rest).2) := by
  induction t with
  | nil => rfl
  | cons c t ih =>
    have ⟨⟨hopen, hclose⟩, ht⟩ := List.forall_mem_cons.1 h
    rw [List.cons_append, splitPort, if_neg (by simp)]
    simp only [beq_iff_eq, hopen, hclose, if_false, ih ht]
    rfl

/-- The characters of a name, and of an IPv4 address, neither end the authority nor cut it. -/
theorem nameChar_free {c : Char} (h : Domain.NameChar c) :
    ((!(isSlash .network c || endsPath c)) = true ∧ c ≠ '@') ∧ c ≠ ':' ∧ c ≠ '[' ∧ c ≠ ']' := by
  have hallowed := h.2
  simp only [Domain.isForbidden, Bool.or_eq_false_iff, decide_eq_false_iff_not, beq_eq_false_iff_ne] at hallowed
  simp only [isSlash, endsPath, SchemeKind.isSpecial, Bool.not_eq_true', Bool.or_eq_false_iff, beq_eq_false_iff_ne,
    Bool.true_and]
  tauto

theorem hostText_of_nameChar {t : List Char} (hne : t ≠ []) (h : ∀ c ∈ t, Domain.NameChar c) : HostText t :=
  ⟨hne, fun c hc => (nameChar_free (h c hc)).1, splitPort_append fun c hc => (nameChar_free (h c hc)).2⟩

theorem hostText_ofSpecial {host : UrlHost} (h : UrlHost.ofSpecial s = .ok host) : HostText host.text := by
  rcases UrlHost.ofSpecial_cases h with ⟨pieces, rfl⟩ | ⟨n, rfl⟩ | ⟨d, rfl, hne, -, hd⟩
  · have hinner := UrlHost.forall_mem_ipv6Text (P := fun c =>
      ((!(isSlash .network c || endsPath c)) = true ∧ c ≠ '@') ∧ c ≠ '[' ∧ c ≠ ']') (by decide) (by decide) pieces
    refine ⟨List.cons_ne_nil _ _, ?_, fun rest => ?_⟩
    · simp only [UrlHost.text, List.forall_mem_cons, List.forall_mem_append]
      exact ⟨by decide, fun c hc => (hinner c hc).1, by decide, nofun⟩
    · have hsplit := splitPort_bracketed (fun c hc => (hinner c hc).2) rest
      simp only [UrlHost.text, List.cons_append, List.append_assoc, List.nil_append]
      rw [splitPort, if_neg (by decide)]
      simp only [beq_self_eq_true, if_true, hsplit]
  · exact hostText_of_nameChar (by simp [UrlHost.text, UrlHost.ipv4Text, Text.join])
      (UrlHost.forall_mem_ipv4Text (by decide) (by decide) n)
  · exact hostText_of_nameChar hne hd

/-- The authority of a special URL, in the form in which it is written. -/
structure CanonicalAuthority (scheme : List Char) (a : UrlAuthority) : Prop where
  username : Percent.Kept userInfoSet a.username
  password : ∀ p ∈ a.password, Percent.Kept userInfoSet p ∧ p ≠ []
  host : ∃ t x, a.host = some x ∧ UrlHost.ofSpecial t = .ok x
  port : ∀ n ∈ a.port, n ≤ 65535 ∧ SchemeKind.defaultPort? scheme ≠ some n

theorem CanonicalAuthority.hostText {a : UrlAuthority} (h : CanonicalAuthority scheme a) :
    ∃ x, a.host = some x ∧ HostText x.text := by
  obtain ⟨t, x, hhost, hx⟩ := h.host
  exact ⟨x, hhost, hostText_ofSpecial hx⟩

theorem kept_credentials (s : List Char) :
    Percent.Kept userInfoSet (credentials s).1 ∧
      ∀ p ∈ (credentials s).2, Percent.Kept userInfoSet p ∧ p ≠ [] := by
  obtain ⟨⟨r, hr⟩, hpassword⟩ := encoded_credentials s
  refine ⟨hr ▸ Percent.kept_encode keepsEscapes_userInfoSet r, fun p hp => ?_⟩
  obtain ⟨t, hne, rfl⟩ := hpassword p hp
  exact ⟨Percent.kept_encode keepsEscapes_userInfoSet t, Percent.encode_ne_nil hne⟩

theorem canonical_makeAuthority {info : List Char × Option (List Char)} {host : Option UrlHost} {p : Option (List Char)}
    {a : UrlAuthority}
    (hinfo : Percent.Kept userInfoSet info.1 ∧ ∀ p ∈ info.2, Percent.Kept userInfoSet p ∧ p ≠ [])
    (hhost : authorityHost .network s = .ok host) (h : makeAuthority scheme info host p = .ok a) :
    CanonicalAuthority scheme a := by
  have hsome : ∃ x, host = some x ∧ UrlHost.ofSpecial s = .ok x := by
    unfold authorityHost at hhost
    rw [if_neg (by decide)] at hhost
    split at hhost
    · cases hhost
    · obtain ⟨x, hx, rfl⟩ := exists_of_map_eq_ok hhost
      exact ⟨x, rfl, hx⟩
  obtain ⟨x, rfl, hx⟩ := hsome
  cases p with
  | none =>
    cases h
    exact ⟨hinfo.1, hinfo.2, ⟨s, x, rfl, hx⟩, nofun⟩
  | some p =>
    obtain ⟨n, hn, rfl⟩ := exists_of_map_eq_ok h
    exact ⟨hinfo.1, hinfo.2, ⟨s, x, rfl, hx⟩, le_of_port hn⟩

/-- The text of a port with its colon. -/
def portText : Option Nat → List Char
  | none => []
  | some n => ':' :: Nat.toDigits 10 n

theorem credentials_username {t : List Char} (ht : Percent.Kept userInfoSet t) : credentials t = (t, none) := by
  rw [credentials, Text.splitFirst_eq_none.2 (ht.not_mem (by decide)), ht.encode_eq]

theorem credentials_password {t p : List Char} (ht : Percent.Kept userInfoSet t) (hp : Percent.Kept userInfoSet p)
    (hne : p ≠ []) : credentials (t ++ ':' :: p) = (t, some p) := by
  rw [credentials, Text.splitFirst_append (ht.not_mem (by decide))]
  split
  · cases ‹some (t, p) = none›
  · rename_i heq
    cases heq
    exact absurd rfl hne
  · rename_i heq
    cases heq
    rw [ht.encode_eq, hp.encode_eq]

theorem splitInfo_append (i : List Char) {t : List Char} (ht : '@' ∉ t) :
    splitInfo (i ++ '@' :: t) = (some i, t) := by
  rw [splitInfo, Text.splitLast_append i ht]

/-- User info is cut off again, and read again. -/
theorem splitInfo_userInfo {a : UrlAuthority} (ha : CanonicalAuthority scheme a) {t : List Char} (ht : '@' ∉ t) :
    ∃ info, splitInfo (a.userInfo ++ t) = (info, t) ∧ info ≠ some [] ∧
      credentials (info.getD []) = (a.username, a.password) := by
  cases hp : a.password with
  | none =>
    cases hu : a.username with
    | nil =>
      refine ⟨none, ?_, nofun, rfl⟩
      rw [UrlAuthority.userInfo, hu, hp, List.nil_append, splitInfo, Text.splitLast_eq_none.2 ht]
    | cons c r =>
      refine ⟨some (c :: r), ?_, nofun, credentials_username (hu ▸ ha.username)⟩
      rw [UrlAuthority.userInfo, hu, hp]
      show splitInfo ((c :: r) ++ ['@'] ++ t) = _
      rw [List.append_assoc, List.singleton_append, splitInfo_append _ ht]
  | some p =>
    have ⟨hkept, hne⟩ := ha.password p hp
    refine ⟨some (a.username ++ ':' :: p), ?_, by simp, credentials_password ha.username hkept hne⟩
    have hinfo : a.userInfo = a.username ++ ':' :: (p ++ ['@']) := by
      rw [UrlAuthority.userInfo, hp]
      cases a.username <;> rfl
    rw [← splitInfo_append _ ht, hinfo]
    simp only [List.append_assoc, List.cons_append, List.nil_append]

theorem splitPort_host {x : UrlHost} (hx : HostText x.text) (p : Option Nat) :
    splitPort false (x.text ++ portText p) = (x.text, p.map (Nat.toDigits 10)) := by
  rw [hx.split]
  cases p with
  | none => simp [portText, splitPort]
  | some n => simp [portText, splitPort]

theorem cutPort_digits (p : Option Nat) : cutPort (p.map (Nat.toDigits 10)) = (p.map (Nat.toDigits 10), []) := by
  cases p with
  | none => rfl
  | some n =>
    have hdigits : ∀ c ∈ Nat.toDigits 10 n, decide (c ≠ '\\') = true := forall_mem_toDigits (by decide) (by decide) n
    have ⟨htake, hdrop⟩ := cut_append (t := []) hdigits nofun
    rw [List.append_nil] at htake hdrop
    rw [Option.map_some, cutPort, htake, hdrop]

theorem makeAuthority_digits {a : UrlAuthority} (ha : CanonicalAuthority scheme a) {x : UrlHost}
    (hx : a.host = some x) :
    makeAuthority scheme (a.username, a.password) (some x) (a.port.map (Nat.toDigits 10)) = .ok a := by
  have hport := ha.port
  obtain ⟨username, password, host, p⟩ := a
  cases hx
  cases p with
  | none => rfl
  | some n =>
    have ⟨hle, hdefault⟩ := hport n rfl
    rw [Option.map_some, makeAuthority, port_toDigits hle hdefault]
    rfl

theorem text_eq (a : UrlAuthority) {x : UrlHost} (hx : a.host = some x) :
    a.text = a.userInfo ++ (x.text ++ portText a.port) := by
  unfold UrlAuthority.text portText
  rw [hx, List.append_assoc]
  cases a.port <;> rfl

theorem free_userInfo {a : UrlAuthority} (husername : Percent.Kept userInfoSet a.username)
    (hpassword : ∀ p ∈ a.password, Percent.Kept userInfoSet p) :
    ∀ c ∈ a.userInfo, (!(isSlash .network c || endsPath c)) = true := by
  have hfree {t : List Char} (ht : Percent.Kept userInfoSet t) :
      ∀ c ∈ t, (!(isSlash .network c || endsPath c)) = true := by
    intro c hc
    have hkept := (ht c hc).2
    simp only [userInfoSet, UrlPath.pathSet, Bool.or_eq_false_iff] at hkept
    simp [isSlash, endsPath, hkept]
  unfold UrlAuthority.userInfo
  split
  · exact List.forall_mem_nil _
  · exact List.forall_mem_append.2 ⟨hfree husername, List.forall_mem_singleton.2 (by decide)⟩
  · rename_i p hp
    simp only [List.forall_mem_append, List.forall_mem_cons]
    exact ⟨hfree husername, by decide, hfree (hpassword p hp), by decide, List.forall_mem_nil _⟩

theorem free_portText (p : Option Nat) :
    ∀ c ∈ portText p, (!(isSlash .network c || endsPath c)) = true ∧ c ≠ '@' := by
  cases p with
  | none => exact nofun
  | some n => exact List.forall_mem_cons.2 ⟨by decide, forall_mem_toDigits (by decide) (by decide) n⟩

theorem free_text {a : UrlAuthority} (ha : CanonicalAuthority scheme a) :
    ∀ c ∈ a.text, (!(isSlash .network c || endsPath c)) = true := by
  obtain ⟨x, hhost, hx⟩ := ha.hostText
  rw [text_eq a hhost, List.forall_mem_append, List.forall_mem_append]
  exact ⟨free_userInfo ha.username fun p hp => (ha.password p hp).1, fun c hc => (hx.free c hc).1,
    fun c hc => (free_portText _ c hc).1⟩

theorem text_ne_nil {a : UrlAuthority} (ha : CanonicalAuthority scheme a) : a.text ≠ [] := by
  obtain ⟨x, hhost, hx⟩ := ha.hostText
  rw [text_eq a hhost]
  simp [hx.ne]

/-- An authority that is written is read again. -/
theorem ofAuthority_text {a : UrlAuthority} (ha : CanonicalAuthority scheme a)
    (hback : ∀ x ∈ a.host, x.ReadsBack) {rest : List Char}
    (hrest : ∀ c ∈ rest.head?, (!(isSlash .network c || endsPath c)) = false) :
    ofAuthority .network scheme (a.text ++ rest) = .ok (afterAuthority .network scheme a rest) := by
  obtain ⟨x, hhost, hx⟩ := ha.hostText
  have hat : '@' ∉ x.text ++ portText a.port := by
    intro hmem
    rcases List.mem_append.1 hmem with hmem | hmem
    · exact (hx.free _ hmem).2 rfl
    · exact (free_portText _ _ hmem).2 rfl
  -- the text is cut at the path, then at the last `@`, then at the colon of the port
  have ⟨htake, hdrop⟩ := cut_append (free_text ha) hrest
  obtain ⟨info, hinfo, hne, hcredentials⟩ := splitInfo_userInfo ha hat
  have hauthority : authorityHost .network x.text = .ok (some x) := by
    rw [authorityHost, if_neg (by decide), if_neg (by simp [hx.ne]), hback x hhost]
    rfl
  unfold ofAuthority
  dsimp only
  rw [htake, hdrop, text_eq a hhost, hinfo]
  dsimp only
  rw [if_neg (fun h => hne h.1), splitPort_host hx, hcredentials]
  dsimp only
  rw [hauthority, cutPort_digits]
  dsimp only
  rw [makeAuthority_digits ha hhost]
  rfl

/-! ### URLs -/

/-- A special URL that is no `file` URL, in the form in which it is written. -/
structure Canonical (u : Url) : Prop where
  scheme : SchemeText u.scheme
  kind : SchemeKind.ofScheme u.scheme = .network
  authority : ∃ a, u.authority = some a ∧ CanonicalAuthority u.scheme a
  path : ∃ ss, u.path = .segments ss ∧ ss ≠ [] ∧ ∀ s ∈ ss, UrlPath.Segment s
  query : ∀ q ∈ u.query, Percent.Kept (querySet true) q
  fragment : ∀ f ∈ u.fragment, Percent.Kept UrlPath.fragmentSet f

theorem scheme_afterAuthority (kind : SchemeKind) (scheme : List Char) (a : UrlAuthority) (s : List Char) :
    (afterAuthority kind scheme a s).scheme = scheme := rfl

theorem canonical_afterAuthority {a : UrlAuthority} (hscheme : SchemeText scheme)
    (hkind : SchemeKind.ofScheme scheme = .network) (ha : CanonicalAuthority scheme a) :
    Canonical (afterAuthority .network scheme a s) := by
  refine ⟨hscheme, hkind, ⟨a, rfl, ha⟩, ?_, fun q hq => ?_, fun f hf => ?_⟩
  · unfold afterAuthority finish
    dsimp only
    split
    · exact ⟨[[]], rfl, by simp, List.forall_mem_singleton.2 .nil⟩
    · exact UrlPath.segment_resolve _
  · obtain ⟨r, rfl⟩ := (encoded_queryAndFragment _ _).1 q hq
    exact Percent.kept_encode keepsEscapes_querySet r
  · obtain ⟨r, rfl⟩ := (encoded_queryAndFragment _ _).2 f hf
    exact Percent.kept_encode keepsEscapes_fragmentSet r

theorem endsPath_of_segmentChar {special : Bool} {c : Char} (h : UrlPath.SegmentChar special c) :
    (!endsPath c) = true := by
  have hkept := h.2.1
  simp only [UrlPath.pathSet, Bool.or_eq_false_iff] at hkept
  simp [endsPath, hkept]

theorem endsPath_head?_tailText {q f : Option (List Char)} : ∀ c ∈ (tailText q f).head?, (!endsPath c) = false := by
  cases q with
  | some q =>
    rintro c ⟨⟩
    rfl
  | none =>
    cases f with
    | some f =>
      rintro c ⟨⟩
      rfl
    | none =>
      intro c hc
      cases hc

/-- Segments are cut off from the query and the fragment behind them. -/
theorem cut_join {special : Bool} {ss : List (List Char)} {t : List Char}
    (h : ∀ s ∈ ss, ∀ c ∈ s, UrlPath.SegmentChar special c) (ht : ∀ c ∈ t.head?, (!endsPath c) = false) :
    (Text.join ['/'] ss ++ t).takeWhile (fun c => !endsPath c) = Text.join ['/'] ss ∧
      (Text.join ['/'] ss ++ t).dropWhile (fun c => !endsPath c) = t :=
  cut_append (Text.forall_mem_join (List.forall_mem_singleton.2 rfl)
    fun s hs c hc => endsPath_of_segmentChar (h s hs c hc)) ht

/-- Segments behind an authority are walked again. -/
theorem afterAuthority_segments {kind : SchemeKind} {a : UrlAuthority} {ss : List (List Char)} {t : List Char}
    (hne : ss ≠ []) (h : ∀ s ∈ ss, ∀ c ∈ s, UrlPath.SegmentChar kind.isSpecial c)
    (ht : ∀ c ∈ t.head?, (!endsPath c) = false) :
    afterAuthority kind scheme a ((UrlPath.segments ss).text ++ t) = finish kind scheme (some a)
      (.segments (UrlPath.tidy (kind == .file) (UrlPath.walk (kind == .file) [] ss))) t := by
  have hchars : ∀ s ∈ [] :: ss, ∀ c ∈ s, UrlPath.SegmentChar kind.isSpecial c :=
    List.forall_mem_cons.2 ⟨List.forall_mem_nil _, h⟩
  have hcut := cut_join hchars ht
  rw [UrlPath.join_nil_cons hne] at hcut
  unfold afterAuthority
  dsimp only
  rw [UrlPath.text_segments hne, hcut.1, hcut.2]
  exact congrArg (finish kind scheme (some a) · t) (UrlPath.resolve_segments _ hne h)

/-- What follows an authority is read again, but for the segments that mean directories. -/
theorem afterAuthority_kept {a : UrlAuthority} {ss : List (List Char)} {q f : Option (List Char)} (hne : ss ≠ [])
    (hkept : ∀ s ∈ ss, Percent.Kept UrlPath.pathSet s) (hfree : ∀ s ∈ ss, ∀ c ∈ s, (c == '/' || c == '\\') = false)
    (hq : ∀ t ∈ q, Percent.Kept (querySet true) t) (hf : ∀ t ∈ f, Percent.Kept UrlPath.fragmentSet t) :
    afterAuthority .network scheme a ((UrlPath.segments ss).text ++ tailText q f) =
      ⟨scheme, some a, .segments (UrlPath.walk false [] ss), q, f⟩ := by
  have hchars : ∀ s ∈ ss, ∀ c ∈ s, UrlPath.SegmentChar SchemeKind.network.isSpecial c :=
    fun s hs c hc => ⟨(hkept s hs c hc).1, (hkept s hs c hc).2, hfree s hs c hc⟩
  rw [afterAuthority_segments hne hchars endsPath_head?_tailText, finish, queryAndFragment_tailText hq hf]
  rfl

variable {u : Url}

theorem scheme_of_fileWithHost (h : fileWithHost s = .ok u) : u.scheme = "file".toList := by
  unfold fileWithHost at h
  dsimp only at h
  generalize (if UrlPath.isDriveLetter _ = true then s else _) = rest at h
  split at h
  · cases h
  · cases h
    rfl
  · cases h
    split <;> rfl

theorem scheme_of_ofFile (h : ofFile none s = .ok u) : u.scheme = "file".toList := by
  unfold ofFile at h
  split at h
  · cases h
    rfl
  · split at h
    · split at h
      · split at h
        · exact scheme_of_fileWithHost h
        · cases h
          rfl
      · cases h
        rfl
    · cases h
      rfl

/-- A special URL that is no `file` URL is read as an authority and what follows it. -/
theorem ofScheme_of_network (h : ofScheme none scheme s = .ok u) (hkind : SchemeKind.ofScheme u.scheme = .network) :
    SchemeKind.ofScheme scheme = .network ∧ ofAuthority .network scheme (s.dropWhile (isSlash .network)) = .ok u := by
  unfold ofScheme at h
  split at h
  · rw [scheme_of_ofFile h] at hkind
    cases hkind
  · rename_i hnetwork
    exact ⟨hnetwork, h⟩
  · rename_i hother
    have hsame : u.scheme = scheme := by
      split at h
      · obtain ⟨info, t, host, p, a, rest, -, -, rfl⟩ := ofAuthority_eq_ok h
        rfl
      · cases h
        rfl
      · cases h
        rfl
    rw [hsame, hother] at hkind
    cases hkind

theorem canonical_parse {s : String} (h : parse s = .ok u) (hkind : SchemeKind.ofScheme u.scheme = .network) :
    Canonical u := by
  cases made_parse h with
  | authority rest hscheme _ hhost ha =>
    rw [scheme_afterAuthority] at hkind
    rw [hkind] at hhost ⊢
    exact canonical_afterAuthority hscheme hkind (canonical_makeAuthority (kept_credentials _) hhost ha)
  | file rest | fileOfHost rest | fileOfDrive rest => cases hkind
  | rooted path rest _ hother | opaqueText path rest _ hother => cases hother.symm.trans hkind

theorem toList_of_authority {a : UrlAuthority} (ha : u.authority = some a) :
    u.toList = u.scheme ++ ':' :: '/' :: '/' :: (a.text ++ (u.path.text ++ tailText u.query u.fragment)) := by
  have hguard : u.pathGuard = [] := by rw [pathGuard, ha]
  have hbefore : u.beforePath = u.scheme ++ ':' :: '/' :: '/' :: a.text := by rw [beforePath, ha]
  unfold toList tailText
  rw [hguard, hbefore]
  cases u.query <;> cases u.fragment <;> simp

/-- Whether a character is dropped at the ends of a text. -/
def isEdge (c : Char) : Bool := decide (c.toNat ≤ 0x20)

/-- Whether a character stays within a text. -/
def staysWithin (c : Char) : Bool := !(c == '\t' || c == '\n' || c == '\r')

theorem clean_eq (s : List Char) : clean s = (Text.dropEndWhile isEdge (s.dropWhile isEdge)).filter staysWithin := rfl

theorem filter_staysWithin (h : ∀ c ∈ s, isEdge c = false) : s.filter staysWithin = s := by
  refine List.filter_eq_self.2 fun c hc => ?_
  have hlow : 0x20 < c.toNat := Nat.not_le.1 (of_decide_eq_false (h c hc))
  simp only [staysWithin, Bool.not_eq_true', Bool.or_eq_false_iff, beq_eq_false_iff_ne]
  refine ⟨⟨?_, ?_⟩, ?_⟩ <;> rintro rfl <;> exact absurd hlow (by decide)

theorem clean_of_not_isEdge (h : ∀ c ∈ s, isEdge c = false) : clean s = s := by
  rw [clean_eq, Text.dropWhile_eq_self h, Text.dropEndWhile_eq_self h, filter_staysWithin h]

theorem clean_of_visible (h : Visible s) : clean s = s :=
  clean_of_not_isEdge fun c hc => decide_eq_false (Nat.not_le.2 (h c hc).1)

/-- The slashes after the scheme are the two that begin the authority. -/
theorem dropWhile_slashes {a : UrlAuthority} (ha : CanonicalAuthority scheme a) (rest : List Char) :
    ('/' :: '/' :: (a.text ++ rest)).dropWhile (isSlash .network) = a.text ++ rest := by
  obtain ⟨c, r, hcr⟩ := List.exists_cons_of_ne_nil (text_ne_nil ha)
  have hc := free_text ha c (hcr ▸ List.mem_cons_self)
  simp only [Bool.not_eq_true', Bool.or_eq_false_iff] at hc
  rw [List.dropWhile_cons_of_pos rfl, List.dropWhile_cons_of_pos rfl, hcr, List.cons_append,
    List.dropWhile_cons_of_neg (by simp [hc])]

theorem Canonical.readsBack (h : Canonical u) (hvisible : Visible u.toList)
    (hback : ∀ a ∈ u.authority, ∀ x ∈ a.host, x.ReadsBack) : u.ReadsBack := by
  obtain ⟨a, ha, hcanonical⟩ := h.authority
  obtain ⟨ss, hpath, hne, hss⟩ := h.path
  have hrest : ∀ c ∈ (u.path.text ++ tailText u.query u.fragment).head?,
      (!(isSlash .network c || endsPath c)) = false := by
    rw [hpath, UrlPath.text_segments hne]
    rintro c ⟨⟩
    rfl
  rw [ReadsBack, parse, toList_text, parseWith, clean_of_visible hvisible, toList_of_authority ha,
    scheme?_of_schemeText h.scheme]
  dsimp only
  rw [ofScheme, h.kind]
  show ofAuthority .network u.scheme (List.dropWhile (isSlash .network) _) = _
  rw [dropWhile_slashes hcanonical, ofAuthority_text hcanonical (hback a ha) hrest, hpath,
    afterAuthority_kept hne (fun s hs => (hss s hs).kept) (fun s hs => (hss s hs).free) h.query h.fragment,
    UrlPath.walk_segments hss hne, List.nil_append, ← hpath, ← ha]

/-- A special URL that is no `file` URL reads back if its host does. -/
theorem readsBack_of_host {s : String} (h : parse s = .ok u) (hkind : SchemeKind.ofScheme u.scheme = .network)
    (hback : ∀ a ∈ u.authority, ∀ x ∈ a.host, x.ReadsBack) : u.ReadsBack := by
  have hcanonical := canonical_parse h hkind
  have hbase : u.canBeBase = true := by
    obtain ⟨ss, hpath, -⟩ := hcanonical.path
    rw [canBeBase, hpath]
  exact hcanonical.readsBack ((written_parse h).visible hbase) hback

/-- So it does if its host is a plain name. -/
theorem readsBack_of_plain {s : String} (h : parse s = .ok u) (hkind : SchemeKind.ofScheme u.scheme = .network)
    (hplain : ∀ a ∈ u.authority, ∀ x ∈ a.host, x.Plain) : u.ReadsBack := by
  refine readsBack_of_host h hkind fun a ha x hx => ?_
  obtain ⟨b, hb, hcanonical⟩ := (canonical_parse h hkind).authority
  obtain ⟨t, y, hy, hparsed⟩ := hcanonical.host
  obtain rfl : b = a := Option.some.inj (hb.symm.trans ha)
  obtain rfl : y = x := Option.some.inj (hy.symm.trans hx)
  exact UrlHost.readsBack_of_plain hparsed (hplain b ha y hx)

end Url

end Federation
