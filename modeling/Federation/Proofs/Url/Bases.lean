import Mathlib.Data.List.TakeWhile
import Federation.Proofs.Url.Components

/-!
# Paths behind a base

The text of a request's URL is that of a base with a path put behind it, and it is parsed as a whole. Behind the base
the path can change neither scheme nor authority, so the URL can be parsed if the base can
(`Url.exists_parse_append`): what the base has behind its authority, and nothing else, stands before the path. A base
must not end with a blank for that, since blanks are dropped at the ends of a text only.
-/

namespace Federation

/-! ### Cutting -/

/-- A text is cut at the same place if what is put behind it does not carry on. -/
theorem cut_append_end {p : Char → Bool} {t : List Char} (ht : ∀ c ∈ t.head?, p c = false) (s : List Char) :
    (s ++ t).takeWhile p = s.takeWhile p ∧ (s ++ t).dropWhile p = s.dropWhile p ++ t := by
  have htake : ∀ c ∈ s.takeWhile p, p c = true := List.all_eq_true.1 List.all_takeWhile
  have hdrop : ∀ c ∈ (s.dropWhile p ++ t).head?, p c = false := by
    cases h : s.dropWhile p with
    | nil => exact ht
    | cons d r =>
      rintro c ⟨⟩
      have := List.head?_dropWhile_not p s
      rw [h] at this
      simpa using this
  have hcut := cut_append htake hdrop
  rwa [← List.append_assoc, List.takeWhile_append_dropWhile] at hcut

theorem dropWhile_append_of_nil {p : Char → Bool} {s : List Char} (h : s.dropWhile p = []) (t : List Char) :
    (s ++ t).dropWhile p = t.dropWhile p := by
  rw [List.dropWhile_append, h]
  rfl

theorem dropWhile_append_of_ne_nil {p : Char → Bool} {s : List Char} (h : s.dropWhile p ≠ []) (t : List Char) :
    (s ++ t).dropWhile p = s.dropWhile p ++ t := by
  rw [List.dropWhile_append, if_neg (by simpa using h)]

namespace Url
variable {scheme s x y : List Char} {u : Url}

/-! ### Authorities -/

/-- What can be put behind an authority: nothing, or a text that begins with a slash. -/
def Rooted (y : List Char) : Prop := ∀ c ∈ y.head?, c = '/'

theorem Rooted.head_of {p : Char → Bool} {b : Bool} (hy : Rooted y) (hp : p '/' = b) : ∀ c ∈ y.head?, p c = b := by
  intro c hc
  rw [hy c hc, hp]

/-- A scheme is a letter and more characters of schemes, up to the first colon. -/
theorem scheme?_eq_some_iff {rest : List Char} : scheme? s = some (scheme, rest) ↔
    ∃ c n, s = (c :: n) ++ ':' :: rest ∧ c.isAlpha = true ∧ (∀ d ∈ n, isSchemeChar d = true) ∧
      (c :: n).map Char.toLower = scheme := by
  constructor
  · intro h
    cases s with
    | nil => cases h
    | cons c t =>
      cases hc : c.isAlpha with
      | false =>
        rw [scheme?, hc] at h
        cases h
      | true =>
        rw [scheme?_eq hc] at h
        split at h
        · rename_i r hr
          cases h
          refine ⟨c, t.takeWhile isSchemeChar, ?_, hc, List.all_eq_true.1 List.all_takeWhile, rfl⟩
          rw [← hr, List.cons_append, List.takeWhile_append_dropWhile]
        · cases h
  · rintro ⟨c, n, rfl, hc, hn, rfl⟩
    obtain ⟨htake, hdrop⟩ := cut_append (t := ':' :: rest) hn (by rintro d ⟨⟩; rfl)
    rw [List.cons_append, scheme?_eq hc, htake, hdrop]
    rfl

/-- A scheme stays the same, whatever is put behind it. -/
theorem scheme?_append {rest : List Char} (h : scheme? s = some (scheme, rest)) (y : List Char) :
    scheme? (s ++ y) = some (scheme, rest ++ y) := by
  obtain ⟨c, n, rfl, hc, hn, hscheme⟩ := scheme?_eq_some_iff.1 h
  exact scheme?_eq_some_iff.2 ⟨c, n, List.append_assoc (c :: n) (':' :: rest) y, hc, hn, hscheme⟩

/-- What is put behind a text from a slash on does not complete a scheme. -/
theorem exists_scheme?_of_append {rest : List Char} (h : scheme? (s ++ x) = some (scheme, rest)) (hx : Rooted x) :
    ∃ r, rest = r ++ x ∧ scheme? s = some (scheme, r) := by
  obtain ⟨c, n, hcut, hc, hn, hscheme⟩ := scheme?_eq_some_iff.1 h
  rcases List.append_eq_append_iff.1 hcut with ⟨m, hm, hrest⟩ | ⟨m, hm, hrest⟩
  · -- the text would end before the colon
    cases m with
    | nil => exact absurd (hx ':' (by rw [hrest]; rfl)) (by decide)
    | cons d m =>
      obtain rfl := hx d (by rw [hrest]; rfl)
      cases s with
      | nil =>
        cases hm
        exact absurd hc (by decide)
      | cons a t =>
        cases hm
        exact absurd (hn '/' (List.mem_append_right t List.mem_cons_self)) (by decide)
  · cases m with
    | nil => exact absurd (hx ':' (by rw [show x = ':' :: rest from hrest.symm]; rfl)) (by decide)
    | cons d m =>
      cases hrest
      exact ⟨m, rfl, scheme?_eq_some_iff.2 ⟨c, n, hm, hc, hn, hscheme⟩⟩

/-- What stands behind the colon of a scheme, if it is one. -/
theorem rest_of_scheme? {p : List Char × List Char} (hs : ∀ c ∈ s, isSchemeChar c = true)
    (h : scheme? (s ++ ':' :: x) = some p) : p.2 = x := by
  cases s with
  | nil => cases h
  | cons c r =>
    have hr : ∀ d ∈ r, isSchemeChar d = true := (List.forall_mem_cons.1 hs).2
    cases hc : c.isAlpha with
    | false =>
      rw [List.cons_append, scheme?, hc] at h
      cases h
    | true =>
      rw [scheme?_eq_some_iff.2 ⟨c, r, rfl, hc, hr, rfl⟩] at h
      cases h
      rfl

/-- Whether a character ends an authority. -/
def endsAuthority (c : Char) : Bool := isSlash .network c || endsPath c

/-- The authority that a text is, of a special scheme. -/
def authorityOf? (scheme s : List Char) : Option UrlAuthority :=
  let (info, hostPort) := splitInfo s
  let (h, p) := splitPort false hostPort
  match authorityHost .network h with
  | .error _ => none
  | .ok host => (makeAuthority scheme (credentials (info.getD [])) host p).toOption

theorem subset_splitInfo (s : List Char) : (splitInfo s).2 ⊆ s := by
  unfold splitInfo
  split
  · exact List.Subset.refl s
  · rename_i h
    rw [(Text.splitLast_eq_some h).1]
    exact List.subset_append_of_subset_right _ (List.subset_cons_self _ _)

theorem subset_splitPort (b : Bool) (s : List Char) : ∀ p ∈ (splitPort b s).2, p ⊆ s := by
  fun_induction splitPort b s with
  | case1 => exact nofun
  | case2 b c r _ =>
    rintro p ⟨⟩
    exact List.subset_cons_self c r
  | case3 b c r _ b' h p heq ih =>
    rw [heq] at ih
    exact fun p hp => List.subset_cons_of_subset c (ih p hp)

theorem cutPort_of_free {p : Option (List Char)} (h : ∀ q ∈ p, '\\' ∉ q) : cutPort p = (p, []) := by
  cases p with
  | none => rfl
  | some q =>
    have hq : ∀ c ∈ q, decide (c ≠ '\\') = true := by
      rintro c hc
      refine decide_eq_true ?_
      rintro rfl
      exact h q rfl hc
    have ⟨htake, hdrop⟩ := cut_append (t := []) hq nofun
    rw [List.append_nil] at htake hdrop
    rw [cutPort, htake, hdrop]

/-- A URL of a special scheme is read in two parts: the authority, and what follows it. -/
theorem ofAuthority_eq_ok_iff : ofAuthority .network scheme s = .ok u ↔
    ∃ a, authorityOf? scheme (s.takeWhile fun c => !endsAuthority c) = some a ∧
      u = afterAuthority .network scheme a (s.dropWhile fun c => !endsAuthority c) := by
  have hauthority : '\\' ∉ s.takeWhile fun c => !endsAuthority c := fun hmem =>
    absurd (List.all_eq_true.1 List.all_takeWhile _ hmem) (by decide)
  have hends : (fun c => !(isSlash .network c || endsPath c)) = fun c => !endsAuthority c := rfl
  have hinfo := subset_splitInfo (s.takeWhile fun c => !endsAuthority c)
  unfold ofAuthority authorityOf?
  dsimp only
  rw [hends]
  rcases hsplitInfo : splitInfo (s.takeWhile fun c => !endsAuthority c) with ⟨info, hostPort⟩
  rw [hsplitInfo] at hinfo
  have hport := subset_splitPort false hostPort
  rcases hsplit : splitPort false hostPort with ⟨h, p⟩
  rw [hsplit] at hport
  dsimp only at hinfo hport ⊢
  rw [cutPort_of_free fun q hq hmem => hauthority (hinfo (hport q hq hmem)), List.nil_append]
  dsimp only
  by_cases hempty : hostPort = []
  · -- without a host there is no URL, whatever follows
    subst hempty
    cases hsplit
    split
    · exact iff_of_false nofun (by rintro ⟨a, ha, -⟩; cases ha)
    · exact iff_of_false nofun (by rintro ⟨a, ha, -⟩; cases ha)
  · rw [if_neg fun hbad => hempty (List.isEmpty_iff.1 hbad.2.1)]
    cases authorityHost .network h with
    | error e => exact iff_of_false nofun (by rintro ⟨a, ha, -⟩; cases ha)
    | ok host =>
      dsimp only
      cases makeAuthority scheme (credentials (info.getD [])) host p with
      | error e => exact iff_of_false nofun (by rintro ⟨a, ha, -⟩; cases ha)
      | ok a =>
        constructor
        · rintro ⟨⟩
          exact ⟨a, rfl, rfl⟩
        · rintro ⟨b, ⟨⟩, rfl⟩
          rfl

/-- The authority of a URL lies in front of what is put behind it from a slash on. -/
theorem ofAuthority_append_eq_ok_iff (hx : Rooted x) : ofAuthority .network scheme (s ++ x) = .ok u ↔
    ∃ a, authorityOf? scheme (s.takeWhile fun c => !endsAuthority c) = some a ∧
      u = afterAuthority .network scheme a (s.dropWhile (fun c => !endsAuthority c) ++ x) := by
  obtain ⟨htake, hdrop⟩ := cut_append_end (p := fun c => !endsAuthority c) (hx.head_of rfl) s
  rw [ofAuthority_eq_ok_iff, htake, hdrop]

/-! ### Cleaned texts -/

/-- A text cleaned in front and within, with what stands at its end. -/
def cleanFront (s : List Char) : List Char := (s.dropWhile isEdge).filter staysWithin

theorem exists_cleanFront (s : List Char) : ∃ z, cleanFront s = clean s ++ z := by
  obtain ⟨z, -, hz⟩ := Text.exists_dropEndWhile isEdge (s.dropWhile isEdge)
  exact ⟨z.filter staysWithin, by rw [cleanFront, clean_eq, ← List.filter_append, ← hz]⟩

/-- A text that ends with a character that counts is cleaned in front and within. -/
theorem clean_append (hs : s.dropWhile isEdge ≠ []) (hy : ∀ c ∈ y, isEdge c = false)
    (hlast : ∀ c ∈ (s ++ y).getLast?, isEdge c = false) : clean (s ++ y) = cleanFront s ++ y := by
  have hend : ∀ c ∈ (s.dropWhile isEdge ++ y).getLast?, isEdge c = false := by
    rw [← List.takeWhile_append_dropWhile (p := isEdge) (l := s), List.append_assoc, List.getLast?_append] at hlast
    intro c hc
    refine hlast c ?_
    rw [Option.mem_def.1 hc]
    rfl
  rw [cleanFront, clean_eq, dropWhile_append_of_ne_nil hs, Text.dropEndWhile_of_last hend, List.filter_append,
    filter_staysWithin hy]

theorem isEdge_last_append (hne : y ≠ []) (hy : ∀ c ∈ y, isEdge c = false) (s : List Char) :
    ∀ c ∈ (s ++ y).getLast?, isEdge c = false := by
  rw [List.getLast?_append_of_ne_nil s hne]
  exact fun c hc => hy c (List.mem_of_getLast? hc)

/-! ### Bases -/

/-- What stands behind the authority in the text of a URL. -/
def behindAuthority (s : List Char) : List Char :=
  match scheme? (clean s) with
  | some (_, rest) => (rest.dropWhile (isSlash .network)).dropWhile fun c => !endsAuthority c
  | none => []

theorem rooted_slashes (hx : ∀ c ∈ x, c = '/') : Rooted x := fun c hc => hx c (List.mem_of_mem_head? hc)

theorem isEdge_of_slashes (hx : ∀ c ∈ x, c = '/') : ∀ c ∈ x, isEdge c = false := by
  intro c hc
  rw [hx c hc]
  rfl

theorem ofAuthority_nil : ofAuthority .network scheme [] ≠ .ok u := by
  intro h
  obtain ⟨a, ha, -⟩ := ofAuthority_eq_ok_iff.1 h
  cases ha

theorem parse_ofList (t : List Char) : parse (String.ofList t) = match scheme? (clean t) with
    | some (scheme, rest) => ofScheme none scheme rest
    | none => .error .relativeWithoutBase := by
  rw [parse, String.toList_ofList]
  rfl

theorem ofScheme_eq_ofAuthority (h : SchemeKind.ofScheme scheme = .network) (s : List Char) :
    ofScheme none scheme s = ofAuthority .network scheme (s.dropWhile (isSlash .network)) := by
  unfold ofScheme
  rw [h]
  rfl

theorem scheme?_slashes (hx : ∀ c ∈ x, c = '/') : scheme? x = none := by
  cases x with
  | nil => rfl
  | cons c x =>
    rw [hx c List.mem_cons_self]
    rfl

/-- A URL of a special scheme is read behind the slashes that follow the scheme. -/
theorem exists_scheme?_of_parse (h : parse (String.ofList s) = .ok u)
    (hkind : SchemeKind.ofScheme u.scheme = .network) :
    ∃ rest, scheme? (clean s) = some (u.scheme, rest) ∧
      ofAuthority .network u.scheme (rest.dropWhile (isSlash .network)) = .ok u := by
  rw [parse_ofList] at h
  split at h
  · rename_i scheme rest hscheme
    have hauthority := (ofScheme_of_network h hkind).2
    obtain rfl : u.scheme = scheme := by
      obtain ⟨a, -, ha⟩ := ofAuthority_eq_ok_iff.1 hauthority
      rw [ha, scheme_afterAuthority]
    exact ⟨rest, hscheme, hauthority⟩
  · cases h

theorem dropWhile_isEdge_ne_nil (h : parse (String.ofList (s ++ x)) = .ok u) (hx : ∀ c ∈ x, c = '/') :
    s.dropWhile isEdge ≠ [] := by
  intro hnil
  have hedge := isEdge_of_slashes hx
  have hclean : clean (s ++ x) = x := by
    rw [clean_eq, dropWhile_append_of_nil hnil, ← clean_eq, clean_of_not_isEdge hedge]
  rw [parse_ofList, hclean, scheme?_slashes hx] at h
  cases h

/-- Without the slashes at its end, the text of a URL still has the scheme and something behind it. -/
theorem exists_scheme?_cleanFront (h : parse (String.ofList (s ++ x)) = .ok u)
    (hkind : SchemeKind.ofScheme u.scheme = .network) (hx : ∀ c ∈ x, c = '/') :
    ∃ r, scheme? (cleanFront s) = some (u.scheme, r) ∧ r.dropWhile (isSlash .network) ≠ [] := by
  obtain ⟨rest, hscheme, hauthority⟩ := exists_scheme?_of_parse h hkind
  have hrest : rest.dropWhile (isSlash .network) ≠ [] := by
    intro hnil
    rw [hnil] at hauthority
    exact ofAuthority_nil hauthority
  by_cases hnil : x = []
  · -- the text itself has been cleaned at its end
    obtain ⟨z, hz⟩ := exists_cleanFront s
    rw [hnil, List.append_nil] at hscheme
    refine ⟨rest ++ z, by rw [hz, scheme?_append hscheme], ?_⟩
    rw [dropWhile_append_of_ne_nil hrest]
    exact List.append_ne_nil_of_left_ne_nil hrest z
  · rw [clean_append (dropWhile_isEdge_ne_nil h hx) (isEdge_of_slashes hx)
      (isEdge_last_append hnil (isEdge_of_slashes hx) s)] at hscheme
    obtain ⟨r, rfl, hr⟩ := exists_scheme?_of_append hscheme (rooted_slashes hx)
    refine ⟨r, hr, fun hslashes => hrest ?_⟩
    rw [dropWhile_append_of_nil hslashes, List.dropWhile_eq_nil_iff]
    rintro c hc
    rw [hx c hc]
    rfl

/-- What is put behind a text is read behind its authority. -/
theorem parse_append {r : List Char} (hscheme : scheme? (cleanFront s) = some (scheme, r))
    (hkind : SchemeKind.ofScheme scheme = .network) (hr : r.dropWhile (isSlash .network) ≠ [])
    (hy : ∀ c ∈ y, isEdge c = false) (hlast : ∀ c ∈ (s ++ y).getLast?, isEdge c = false) :
    parse (String.ofList (s ++ y)) = ofAuthority .network scheme (r.dropWhile (isSlash .network) ++ y) := by
  have hs : s.dropWhile isEdge ≠ [] := by
    intro hnil
    rw [cleanFront, hnil] at hscheme
    cases hscheme
  rw [parse_ofList, clean_append hs hy hlast, scheme?_append hscheme]
  show ofScheme none scheme (r ++ y) = _
  rw [ofScheme_eq_ofAuthority hkind, dropWhile_append_of_ne_nil hr]

/-- A path can be put behind the text of a URL whose end slashes are dropped: the authority is the same, and what stood
behind it stands before the path. -/
theorem exists_parse_append (h : parse (String.ofList (s ++ x)) = .ok u)
    (hkind : SchemeKind.ofScheme u.scheme = .network) (hx : ∀ c ∈ x, c = '/')
    (hlast : ∀ c ∈ s.getLast?, isEdge c = false) :
    ∃ a, ∀ y, Rooted y → (∀ c ∈ y, isEdge c = false) → parse (String.ofList (s ++ y)) =
      .ok (afterAuthority .network u.scheme a (behindAuthority s ++ y)) := by
  obtain ⟨r, hscheme, hr⟩ := exists_scheme?_cleanFront h hkind hx
  have hparse {y : List Char} (hy : ∀ c ∈ y, isEdge c = false) :=
    parse_append hscheme hkind hr hy (Text.forall_mem_getLast?_append hlast hy)
  have hclean : clean s = cleanFront s := by
    have hs : s.dropWhile isEdge ≠ [] := dropWhile_isEdge_ne_nil h hx
    have := clean_append (y := []) hs nofun (Text.forall_mem_getLast?_append hlast nofun)
    rwa [List.append_nil, List.append_nil] at this
  have hbehind : behindAuthority s = (r.dropWhile (isSlash .network)).dropWhile fun c => !endsAuthority c := by
    rw [behindAuthority, hclean, hscheme]
  rw [hparse (isEdge_of_slashes hx)] at h
  obtain ⟨a, ha, -⟩ := (ofAuthority_append_eq_ok_iff (rooted_slashes hx)).1 h
  refine ⟨a, fun y hy hedge => ?_⟩
  rw [hparse hedge, hbehind]
  exact (ofAuthority_append_eq_ok_iff hy).2 ⟨a, ha, rfl⟩

/-- Whether a path makes a URL behind a base, and what its scheme and authority are, is up to the base alone. -/
theorem exists_authority_of_base (h : parse (String.ofList (s ++ x)) = .ok u)
    (hkind : SchemeKind.ofScheme u.scheme = .network) (hx : ∀ c ∈ x, c = '/') :
    ∃ (a : Option UrlAuthority) (r : List Char), ∀ y, Rooted y → y ≠ [] → (∀ c ∈ y, isEdge c = false) → ∀ v,
      parse (String.ofList (s ++ y)) = .ok v ↔ ∃ b, a = some b ∧ v = afterAuthority .network u.scheme b (r ++ y) := by
  obtain ⟨r, hscheme, hr⟩ := exists_scheme?_cleanFront h hkind hx
  let rest := r.dropWhile (isSlash .network)
  refine ⟨authorityOf? u.scheme (rest.takeWhile fun c => !endsAuthority c), rest.dropWhile fun c => !endsAuthority c,
    fun y hy hne hedge v => ?_⟩
  rw [parse_append hscheme hkind hr hedge (isEdge_last_append hne hedge s)]
  exact ofAuthority_append_eq_ok_iff hy

end Url
end Federation
