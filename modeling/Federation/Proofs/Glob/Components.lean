import Mathlib.Data.List.Forall2
import Federation.Proofs.Glob.Matches
import Federation.Proofs.Path.Names

/-!
# Patterns and their components

A whole pattern is read as its components are, one after another, with the slashes between them, only that `**` has its
slash already (`reads_join`). `Reads` says what is read without fuel and without what was read before; of repeated `**`
it keeps each one, so it gives the tokens of a pattern up to those that match the same texts (`ReadAs`).
-/

namespace Federation.GlobPattern

/-- A text is read as tokens; the flag tells whether a component begins. -/
inductive Reads : Bool → List Char → List GlobToken → Prop
  | nil (b) : Reads b [] []
  | anyChar {b r ts} (h : Reads false r ts) : Reads b ('?' :: r) (.anyChar :: ts)
  | sequence {b r ts} (hr : r.head? ≠ some '*') (h : Reads false r ts) : Reads b ('*' :: r) (.anySequence :: ts)
  | last : Reads true ['*', '*'] [.anyDirectories]
  | directories {r ts} (h : Reads true r ts) : Reads true ('*' :: '*' :: '/' :: r) (.anyDirectories :: ts)
  | within {b r s r' ts} (hr : r.head? ≠ some '!') (hset : set? r = some (s, r')) (h : Reads false r' ts) :
    Reads b ('[' :: r) (.within (ranges s) :: ts)
  | except {b r s r' ts} (hset : set? r = some (s, r')) (h : Reads false r' ts) :
    Reads b ('[' :: '!' :: r) (.except (ranges s) :: ts)
  | char {b c r ts} (hc : c ≠ '?' ∧ c ≠ '*' ∧ c ≠ '[') (h : Reads (c == '/') r ts) : Reads b (c :: r) (.char c :: ts)

variable {b : Bool} {c : Char} {r r' s n : List Char} {t : GlobToken} {ts ts' rs done out : List GlobToken} {fuel : Nat}

/-! ### What a text is read as -/

/-- Tokens that were read are those of the text behind those read before, up to repeated `**`. -/
structure ReadAs (done ts out : List GlobToken) : Prop where
  same : Same out (done.reverse ++ ts)
  mem : ∀ t, t ∈ out ↔ t ∈ done ∨ t ∈ ts

theorem ReadAs.nil (done : List GlobToken) : ReadAs done [] done.reverse where
  same := by rw [List.append_nil]; exact .refl _
  mem t := by simp

theorem ReadAs.cons (h : ReadAs (t :: done) ts out) : ReadAs done (t :: ts) out where
  same := by
    have := h.same
    rwa [List.reverse_cons, List.append_assoc, List.singleton_append] at this
  mem x := by rw [h.mem, List.mem_cons, List.mem_cons]; tauto

theorem ReadAs.directories (h : ReadAs (addDirectories done) ts out) : ReadAs done (.anyDirectories :: ts) out := by
  unfold addDirectories at h
  split at h
  · refine ⟨h.same.trans ?_, fun t => ?_⟩
    · rw [List.reverse_cons, List.append_assoc, List.append_assoc]
      exact (same_directories ts).symm.append_left _
    · rw [h.mem, List.mem_cons, List.mem_cons, List.mem_cons]
      tauto
  · exact h.cons

theorem read_other (hc : c ≠ '?' ∧ c ≠ '*' ∧ c ≠ '[') (fuel : Nat) (b : Bool) (done : List GlobToken) (r : List Char) :
    read (fuel + 1) b done (c :: r) = read fuel (c == '/') (.char c :: done) r := by
  show (if c = '?' then _ else if c = '*' then _ else if c = '[' then _ else _) = _
  rw [if_neg hc.1, if_neg hc.2.1, if_neg hc.2.2]

theorem takeWhile_star (hr : r.head? ≠ some '*') : r.takeWhile (· == '*') = [] ∧ r.dropWhile (· == '*') = r := by
  cases r with
  | nil => exact ⟨rfl, rfl⟩
  | cons c r =>
    have hc : (c == '*') = false := beq_eq_false_iff_ne.2 fun h => hr (congrArg some h)
    exact ⟨List.takeWhile_cons_of_neg (by simp [hc]), List.dropWhile_cons_of_neg (by simp [hc])⟩

theorem Reads.exists_read (h : Reads b s ts) (done : List GlobToken) (hfuel : s.length < fuel) :
    ∃ out, read fuel b done s = some out ∧ ReadAs done ts out := by
  induction h generalizing fuel done with
  | nil =>
    obtain ⟨k, rfl⟩ := Nat.exists_eq_succ_of_ne_zero (Nat.ne_zero_of_lt hfuel)
    exact ⟨done.reverse, rfl, .nil done⟩
  | anyChar _ ih =>
    obtain ⟨k, rfl⟩ := Nat.exists_eq_succ_of_ne_zero (Nat.ne_zero_of_lt hfuel)
    obtain ⟨out, hout, has⟩ := ih (.anyChar :: done) (Nat.lt_of_succ_lt_succ hfuel)
    exact ⟨out, hout, has.cons⟩
  | sequence hr _ ih =>
    obtain ⟨k, rfl⟩ := Nat.exists_eq_succ_of_ne_zero (Nat.ne_zero_of_lt hfuel)
    obtain ⟨out, hout, has⟩ := ih (.anySequence :: done) (Nat.lt_of_succ_lt_succ hfuel)
    obtain ⟨hnone, hall⟩ := takeWhile_star hr
    exact ⟨out, by rw [read_star, hnone, hall]; exact hout, has.cons⟩
  | last =>
    obtain ⟨k, rfl⟩ := Nat.exists_eq_succ_of_ne_zero (Nat.ne_zero_of_lt hfuel)
    exact ⟨(addDirectories done).reverse, rfl, (ReadAs.nil _).directories⟩
  | directories _ ih =>
    obtain ⟨k, rfl⟩ := Nat.exists_eq_succ_of_ne_zero (Nat.ne_zero_of_lt hfuel)
    simp only [List.length_cons] at hfuel
    have hrest := Nat.lt_of_succ_lt (Nat.lt_of_succ_lt (Nat.lt_of_succ_lt_succ hfuel))
    obtain ⟨out, hout, has⟩ := ih (addDirectories done) hrest
    exact ⟨out, hout, has.directories⟩
  | @within b r s r' ts hr hset _ ih =>
    obtain ⟨k, rfl⟩ := Nat.exists_eq_succ_of_ne_zero (Nat.ne_zero_of_lt hfuel)
    have hlength : r'.length ≤ r.length := length_of_set? hset
    simp only [List.length_cons] at hfuel
    have hrest : r'.length < k := by omega
    obtain ⟨out, hout, has⟩ := ih (.within (ranges s) :: done) hrest
    refine ⟨out, ?_, has.cons⟩
    rw [read_within (fun t h => hr (by rw [h]; rfl)), hset]
    exact hout
  | @except b r s r' ts hset _ ih =>
    obtain ⟨k, rfl⟩ := Nat.exists_eq_succ_of_ne_zero (Nat.ne_zero_of_lt hfuel)
    have hlength : r'.length ≤ r.length := length_of_set? hset
    simp only [List.length_cons] at hfuel
    have hrest : r'.length < k := by omega
    obtain ⟨out, hout, has⟩ := ih (.except (ranges s) :: done) hrest
    refine ⟨out, ?_, has.cons⟩
    show (set? r).bind _ = _
    rw [hset]
    exact hout
  | char hc _ ih =>
    obtain ⟨k, rfl⟩ := Nat.exists_eq_succ_of_ne_zero (Nat.ne_zero_of_lt hfuel)
    obtain ⟨out, hout, has⟩ := ih (.char _ :: done) (Nat.lt_of_succ_lt_succ hfuel)
    exact ⟨out, by rw [read_other hc]; exact hout, has.cons⟩

theorem exists_reads_star (ih : ∀ {b done s out}, read fuel b done s = some out → ∃ ts, Reads b s ts)
    (h : read (fuel + 1) b done ('*' :: r) = some out) : ∃ ts, Reads b ('*' :: r) ts := by
  rw [read_star] at h
  by_cases hr : r.head? = some '*'
  · obtain ⟨r, rfl⟩ := List.head?_eq_some_iff.1 hr
    rw [List.takeWhile_cons_of_pos rfl, List.dropWhile_cons_of_pos rfl, List.length_cons, if_neg (by omega)] at h
    split at h
    · rename_i htwo
      have hr : r.head? ≠ some '*' := by
        intro hr
        obtain ⟨r, rfl⟩ := List.head?_eq_some_iff.1 hr
        rw [List.takeWhile_cons_of_pos rfl, List.length_cons] at htwo
        omega
      obtain rfl := htwo.2
      rw [(takeWhile_star hr).2] at h
      rcases readDirectories_cases r with rfl | ⟨r', rfl⟩ | hnone
      · exact ⟨_, .last⟩
      · obtain ⟨ts, hts⟩ := ih (show read fuel true (addDirectories done) r' = some out from h)
        exact ⟨_, .directories hts⟩
      · cases h.symm.trans (hnone fuel done)
    · cases h
  · obtain ⟨hnone, hall⟩ := takeWhile_star hr
    rw [hnone, hall] at h
    obtain ⟨ts, hts⟩ := ih (show read fuel false (.anySequence :: done) r = some out from h)
    exact ⟨_, .sequence hr hts⟩

theorem exists_reads_bracket (ih : ∀ {b done s out}, read fuel b done s = some out → ∃ ts, Reads b s ts)
    (h : read (fuel + 1) b done ('[' :: r) = some out) : ∃ ts, Reads b ('[' :: r) ts := by
  by_cases hbang : r.head? = some '!'
  · obtain ⟨t, rfl⟩ := List.head?_eq_some_iff.1 hbang
    obtain ⟨⟨s, r'⟩, hset, hread⟩ := Option.bind_eq_some_iff.1
      (show (set? t).bind (fun set => read fuel false (.except (ranges set.1) :: done) set.2) = some out from h)
    obtain ⟨ts, hts⟩ := ih hread
    exact ⟨_, .except hset hts⟩
  · rw [read_within fun t ht => hbang (by rw [ht]; rfl)] at h
    obtain ⟨⟨s, r'⟩, hset, hread⟩ := Option.bind_eq_some_iff.1 h
    obtain ⟨ts, hts⟩ := ih hread
    exact ⟨_, .within hbang hset hts⟩

theorem exists_reads (h : read fuel b done s = some out) : ∃ ts, Reads b s ts := by
  induction fuel generalizing b done s out with
  | zero => cases h
  | succ fuel ih =>
    cases s with
    | nil => exact ⟨[], .nil b⟩
    | cons c r =>
      by_cases hany : c = '?'
      · subst hany
        obtain ⟨ts, hts⟩ := ih (show read fuel false (.anyChar :: done) r = some out from h)
        exact ⟨_, .anyChar hts⟩
      by_cases hseq : c = '*'
      · subst hseq
        exact exists_reads_star ih h
      by_cases hset : c = '['
      · subst hset
        exact exists_reads_bracket ih h
      · obtain ⟨ts, hts⟩ := ih ((read_other ⟨hany, hseq, hset⟩ fuel b done r).symm.trans h)
        exact ⟨_, .char ⟨hany, hseq, hset⟩ hts⟩

theorem Reads.exists_parse? (h : Reads true s ts) : ∃ p, parse? s = some p ∧ ReadAs [] ts p.tokens := by
  obtain ⟨out, hout, has⟩ := h.exists_read [] (Nat.lt_succ_self s.length)
  exact ⟨⟨s, out⟩, by rw [parse?, hout]; rfl, has⟩

theorem exists_reads_of_parse? {p : GlobPattern} (h : parse? s = some p) :
    ∃ ts, Reads true s ts ∧ ReadAs [] ts p.tokens := by
  obtain ⟨out, hout, -⟩ := Option.map_eq_some_iff.1 h
  obtain ⟨ts, hts⟩ := exists_reads hout
  obtain ⟨p', hp', has⟩ := hts.exists_parse?
  cases h.symm.trans hp'
  exact ⟨ts, hts, has⟩

/-! ### Components -/

/-- Tokens for a single name: none of them is for a slash or for directories. -/
structure IsName (ts : List GlobToken) : Prop where
  directories : .anyDirectories ∉ ts
  slash : .char '/' ∉ ts

theorem IsName.cons (h : IsName ts) (hdirs : t ≠ .anyDirectories) (hslash : t ≠ .char '/') : IsName (t :: ts) where
  directories hmem := (List.mem_cons.1 hmem).elim (fun heq => hdirs heq.symm) h.directories
  slash hmem := (List.mem_cons.1 hmem).elim (fun heq => hslash heq.symm) h.slash

theorem IsName.tail (h : IsName (t :: ts)) : IsName ts where
  directories hmem := h.directories (List.mem_cons_of_mem _ hmem)
  slash hmem := h.slash (List.mem_cons_of_mem _ hmem)

theorem set?_eq_some : set? r = some (s, r') ↔ ∃ c u, s = c :: u ∧ ']' ∉ u ∧ r = c :: (u ++ ']' :: r') := by
  cases r with
  | nil => simp [set?]
  | cons c r =>
    have hne {u : List Char} (hu : ']' ∉ u) : ∀ a ∈ u, decide (a ≠ ']') = true := by
      intro a ha
      rw [decide_eq_true_iff]
      rintro rfl
      exact hu ha
    rw [set?]
    constructor
    · intro h
      split at h
      · rename_i hmem
        obtain ⟨u, v, rfl, hu⟩ := List.eq_append_cons_of_mem (List.contains_iff_mem.1 hmem)
        rw [List.takeWhile_append_of_pos (hne hu), List.dropWhile_append_of_pos (hne hu),
          List.takeWhile_cons_of_neg (by simp), List.dropWhile_cons_of_neg (by simp), List.append_nil] at h
        cases h
        exact ⟨c, u, rfl, hu, rfl⟩
      · cases h
    · rintro ⟨_, u, rfl, hu, hr⟩
      cases hr
      rw [if_pos (by simp), List.takeWhile_append_of_pos (hne hu), List.dropWhile_append_of_pos (hne hu),
        List.takeWhile_cons_of_neg (by simp), List.dropWhile_cons_of_neg (by simp), List.append_nil]
      rfl

theorem set?_append (h : set? r = some (s, r')) (n : List Char) : set? (r ++ n) = some (s, r' ++ n) := by
  obtain ⟨c, u, rfl, hu, rfl⟩ := set?_eq_some.1 h
  exact set?_eq_some.2 ⟨c, u, rfl, hu, by simp⟩

theorem mem_of_set? (h : set? r = some (s, r')) (hc : c ∈ r') : c ∈ r := by
  obtain ⟨a, u, rfl, -, rfl⟩ := set?_eq_some.1 h
  simp [hc]

/-- A component is `**` or is read as tokens for a name. -/
theorem Reads.isName (h : Reads b n ts) (hn : '/' ∉ n) :
    IsName ts ∨ b = true ∧ n = ['*', '*'] ∧ ts = [.anyDirectories] := by
  induction h with
  | nil => exact .inl ⟨List.not_mem_nil, List.not_mem_nil⟩
  | anyChar _ ih =>
    have hr := ih fun hmem => hn (List.mem_cons_of_mem _ hmem)
    exact .inl ((hr.resolve_right nofun).cons nofun nofun)
  | sequence _ _ ih =>
    have hr := ih fun hmem => hn (List.mem_cons_of_mem _ hmem)
    exact .inl ((hr.resolve_right nofun).cons nofun nofun)
  | last => exact .inr ⟨rfl, rfl, rfl⟩
  | directories => exact absurd (by simp) hn
  | within _ hset _ ih =>
    have hr := ih fun hmem => hn (List.mem_cons_of_mem _ (mem_of_set? hset hmem))
    exact .inl ((hr.resolve_right nofun).cons nofun nofun)
  | except hset _ ih =>
    have hr := ih fun hmem => hn (List.mem_cons_of_mem _ (List.mem_cons_of_mem _ (mem_of_set? hset hmem)))
    exact .inl ((hr.resolve_right nofun).cons nofun nofun)
  | @char b c r ts _ _ ih =>
    have hslash : c ≠ '/' := by
      rintro rfl
      exact hn List.mem_cons_self
    have hr := ih fun hmem => hn (List.mem_cons_of_mem _ hmem)
    rw [beq_eq_false_iff_ne.2 hslash] at hr
    exact .inl ((hr.resolve_right nofun).cons nofun fun h => hslash (GlobToken.char.inj h))

/-- A component of which no character is special is read as its characters. -/
theorem Reads.eq_map (h : Reads b n ts) (hn : ∀ c ∈ n, isSpecial c = false) : ts = n.map .char := by
  induction h with
  | nil => rfl
  | char _ _ ih => rw [ih fun c hc => hn c (List.mem_cons_of_mem _ hc), List.map_cons]
  | _ => exact absurd (hn _ List.mem_cons_self) (by decide)

theorem parse?_of_not_special {n : List Char} (hn : ∀ c ∈ n, isSpecial c = false) :
    (parse? n).bind literal? = some n := by
  have hescape : escape n = n := by
    induction n with
    | nil => rfl
    | cons c n ih =>
      obtain ⟨hc, hn⟩ := List.forall_mem_cons.1 hn
      rw [escape_cons, ih hn, hc]
      rfl
  have hparse := parse?_escape n
  rw [hescape] at hparse
  rw [hparse, Option.bind_some]
  rcases literal?_exact n with hlit | ⟨-, c, hc, hspecial⟩
  · exact hlit
  · rw [hn c hc] at hspecial
    cases hspecial

theorem Reads.eq_directories (h : Reads true ['*', '*'] ts) : ts = [.anyDirectories] := by
  cases h with
  | sequence hr => exact absurd rfl hr
  | last => rfl
  | char hc => exact absurd rfl hc.2.1

/-- Behind a component for a name, a slash begins the next one. -/
theorem Reads.append (h : Reads b n ts) (hts : IsName ts) (h' : Reads true r rs) :
    Reads b (n ++ '/' :: r) (ts ++ .char '/' :: rs) := by
  induction h with
  | nil => exact .char (by decide) h'
  | anyChar _ ih => exact .anyChar (ih hts.tail)
  | @sequence b r ts hr _ ih =>
    refine .sequence ?_ (ih hts.tail)
    cases r with
    | nil => exact nofun
    | cons c r => exact hr
  | last => exact absurd List.mem_cons_self hts.directories
  | directories => exact absurd List.mem_cons_self hts.directories
  | @within b r s r' ts hr hset _ ih =>
    refine .within ?_ (set?_append hset _) (ih hts.tail)
    cases r with
    | nil => cases hset
    | cons c r => exact hr
  | except hset _ ih => exact .except (set?_append hset _) (ih hts.tail)
  | char hc _ ih => exact .char hc (ih hts.tail)

/-- The tokens of components behind one another. -/
def flat : List (List GlobToken) → List GlobToken
  | [] => []
  | [ts] => ts
  | ts :: us :: tss => (if ts = [.anyDirectories] then ts else ts ++ [.char '/']) ++ flat (us :: tss)

theorem flat_concat {tss : List (List GlobToken)} (h : tss ≠ []) (ts : List GlobToken) :
    flat (tss ++ [ts]) =
      flat tss ++ ((if tss.getLast? = some [.anyDirectories] then [] else [.char '/']) ++ ts) := by
  induction tss with
  | nil => exact absurd rfl h
  | cons us tss ih =>
    cases tss with
    | nil =>
      show (if us = [.anyDirectories] then us else us ++ [.char '/']) ++ ts =
        us ++ ((if some us = _ then _ else _) ++ ts)
      by_cases hus : us = [.anyDirectories] <;> simp [hus]
    | cons vs tss =>
      rw [List.cons_append, List.cons_append, flat, ← List.cons_append, ih (List.cons_ne_nil vs tss), flat,
        List.getLast?_cons_cons, List.append_assoc]

theorem mem_flat {tss : List (List GlobToken)} (ht : t ∈ flat tss) : t = .char '/' ∨ ∃ ts ∈ tss, t ∈ ts := by
  fun_induction flat tss with
  | case1 => cases ht
  | case2 ts => exact .inr ⟨ts, List.mem_singleton_self ts, ht⟩
  | case3 ts us tss ih =>
    rcases List.mem_append.1 ht with ht | ht
    · split at ht
      · exact .inr ⟨ts, List.mem_cons_self, ht⟩
      · rcases List.mem_append.1 ht with ht | ht
        · exact .inr ⟨ts, List.mem_cons_self, ht⟩
        · exact .inl (List.mem_singleton.1 ht)
    · exact (ih ht).imp_right fun ⟨vs, hvs, ht⟩ => ⟨vs, List.mem_cons_of_mem _ hvs, ht⟩

theorem getLast?_flat {tss : List (List GlobToken)} (h : tss.getLast? = some [.anyDirectories]) :
    (flat tss).getLast? = some .anyDirectories := by
  obtain ⟨us, rfl⟩ := List.getLast?_eq_some_iff.1 h
  by_cases hus : us = []
  · rw [hus]
    rfl
  · rw [flat_concat hus, ← List.append_assoc, List.getLast?_concat]

theorem reads_join {ns : List (List Char)} {tss : List (List GlobToken)} (h : List.Forall₂ (Reads true) ns tss)
    (hns : ∀ n ∈ ns, '/' ∉ n) : Reads true (Text.join ['/'] ns) (flat tss) := by
  induction h with
  | nil => exact .nil true
  | @cons n ts ns tss hn hrest ih =>
    obtain ⟨hfree, hns⟩ := List.forall_mem_cons.1 hns
    have ih := ih hns
    cases hrest with
    | nil => exact hn
    | cons =>
      rw [Text.join, List.append_assoc, List.singleton_append, flat]
      rcases hn.isName hfree with hts | ⟨-, rfl, rfl⟩
      · have hne : ts ≠ [.anyDirectories] := by
          rintro rfl
          exact hts.directories List.mem_cons_self
        rw [if_neg hne, List.append_assoc, List.singleton_append]
        exact hn.append hts ih
      · exact .directories ih

end Federation.GlobPattern
