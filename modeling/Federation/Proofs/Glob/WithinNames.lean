import Federation.Proofs.Glob.Components
import Federation.Proofs.Glob.Selections

/-!
# Wildcards within names

The components of a pattern fit names one after another if and only if the whole pattern matches their path in such a
way that no wildcard stands for a slash (`fits_iff`).
-/

namespace Federation.GlobPattern

open Disk Federation.Path

variable {wild : Char → Prop} {ts ts' : List GlobToken} {tss : List (List GlobToken)} {c : Char} {s n : List Char}
  {ns : List Name} {file : Name} {pat : GlobPattern} {pats : List GlobPattern}

/-! ### Names behind one another -/

theorem matches_char_cons : Matches wild (.char c :: ts) s ↔ ∃ v, s = c :: v ∧ Matches wild ts v := by
  constructor
  · intro h
    cases h with
    | one hchar _ h =>
      rw [matchChar, beq_iff_eq] at hchar
      exact ⟨_, by rw [hchar], h⟩
  · rintro ⟨v, rfl, h⟩
    exact .one (beq_self_eq_true c) (.inl rfl) h

/-- Tokens for a name match within names what they match at all, as far as there is no slash in it. -/
theorem IsName.matches_within (h : IsName ts) :
    Matches (· ≠ '/') ts s ↔ Matches (fun _ => True) ts s ∧ '/' ∉ s := by
  constructor
  · intro hmatch
    refine ⟨hmatch.imp fun _ _ _ => trivial, ?_⟩
    induction hmatch with
    | nil => exact List.not_mem_nil
    | @one t ts c s hchar hwild _ ih =>
      have hc : c ≠ '/' := by
        rcases hwild with rfl | hwild
        · rintro rfl
          exact h.slash List.mem_cons_self
        · exact hwild
      exact fun hmem => (List.mem_cons.1 hmem).elim (fun heq => hc heq.symm) (ih h.tail)
    | stop _ ih => exact ih h.tail
    | more hwild _ ih => exact fun hmem => (List.mem_cons.1 hmem).elim (fun heq => hwild heq.symm) (ih h)
    | directories => exact absurd List.mem_cons_self h.directories
  · rintro ⟨hmatch, hs⟩
    refine hmatch.imp fun c hc _ => ?_
    rintro rfl
    exact hs hc

theorem matches_name_append (h : IsName ts) : Matches (· ≠ '/') (ts ++ .char '/' :: ts') s ↔
    ∃ u v, s = u ++ '/' :: v ∧ Matches (fun _ => True) ts u ∧ '/' ∉ u ∧ Matches (· ≠ '/') ts' v := by
  constructor
  · intro hmatch
    obtain ⟨u, v, rfl, hu, hv⟩ := hmatch.exists_append
    obtain ⟨v', rfl, hv'⟩ := matches_char_cons.1 hv
    obtain ⟨hu, hfree⟩ := h.matches_within.1 hu
    exact ⟨u, v', rfl, hu, hfree, hv'⟩
  · rintro ⟨u, v, rfl, hu, hfree, hv⟩
    exact (h.matches_within.2 ⟨hu, hfree⟩).append h.directories (matches_char_cons.2 ⟨v, rfl, hv⟩)

/-- Where nothing is not a match for what follows, `**` stands for names at the beginning of a path. -/
theorem matches_directories_join (hts : ¬ Matches wild ts []) (hns : ∀ n ∈ ns, '/' ∉ n) (hne : ns ≠ []) :
    Matches wild (.anyDirectories :: ts) (Text.join ['/'] ns) ↔
      ∃ ms, ms ≠ [] ∧ ms <:+ ns ∧ Matches wild ts (Text.join ['/'] ms) := by
  constructor
  · intro h
    generalize hs : Text.join ['/'] ns = s at h
    cases h with
    | one hchar => cases hchar
    | directories u v hu h =>
      rcases hu with rfl | hu | rfl
      · exact ⟨ns, hne, List.suffix_refl ns, by rw [hs]; exact h⟩
      · obtain ⟨w, rfl⟩ := List.getLast?_eq_some_iff.1 hu
        have hraw : ns = rawNames w ++ rawNames v := by
          rw [← rawNames_join hne hns, hs, List.append_assoc, List.singleton_append, rawNames_append]
        exact ⟨rawNames v, rawNames_ne_nil v, ⟨rawNames w, hraw.symm⟩, by rw [join_rawNames]; exact h⟩
      · exact absurd h hts
  · rintro ⟨ms, hms, ⟨ks, rfl⟩, h⟩
    by_cases hks : ks = []
    · subst hks
      exact .directories [] _ (.inl rfl) h
    · rw [Text.join_append hks hms]
      exact .directories (Text.join ['/'] ks ++ ['/']) _ (.inr (.inl List.getLast?_concat)) h

/-! ### Components -/

/-- A component of a pattern is read as these tokens. -/
structure Denotes (pat : GlobPattern) (ts : List GlobToken) : Prop where
  isMatch_iff : ∀ n, pat.isMatch n = true ↔ Matches (fun _ => True) ts n
  recursive : pat.isRecursive = true → ts = [.anyDirectories]
  isName : pat.isRecursive = false → IsName ts

theorem exists_denotes (h : parse? n = some pat) (hn : '/' ∉ n) : ∃ ts, Reads true n ts ∧ Denotes pat ts := by
  obtain ⟨ts, hts, has⟩ := exists_reads_of_parse? h
  have hmatch (m : List Char) : pat.isMatch m = true ↔ Matches (fun _ => True) ts m := by
    rw [isMatch_iff, has.same (fun _ => True) m]
    rfl
  have hrec : pat.isRecursive = true ↔ .anyDirectories ∈ ts := by
    rw [isRecursive, List.contains_iff_mem, has.mem]
    simp
  refine ⟨ts, hts, hmatch, fun hpat => ?_, fun hpat => ?_⟩
  · rcases hts.isName hn with hname | ⟨-, -, hrecursive⟩
    · exact absurd (hrec.1 hpat) hname.directories
    · exact hrecursive
  · rcases hts.isName hn with hname | ⟨-, -, rfl⟩
    · exact hname
    · rw [hrec.2 List.mem_cons_self] at hpat
      cases hpat

theorem Denotes.ne_directories (h : Denotes pat ts) (hpat : pat.isRecursive = false) : ts ≠ [.anyDirectories] := by
  rintro rfl
  exact (h.isName hpat).directories List.mem_cons_self

theorem not_matches_nil (h : List.Forall₂ Denotes pats tss) (hpats : Selects file pats) (hfile : file ≠ []) :
    ¬ Matches wild (flat tss) [] := by
  induction h with
  | nil =>
    obtain ⟨pat, hlast, -⟩ := hpats.last
    cases hlast
  | @cons pat ts pats tss hpat hrest ih =>
    intro hmatch
    cases hrest with
    | nil =>
      have hnil : pat.isMatch [] = true := (hpat.isMatch_iff []).2 (hmatch.imp fun _ _ _ => trivial)
      exact hfile ((isMatch_of_literal? hpats.literal?_last).1 hnil).symm
    | cons =>
      rw [flat] at hmatch
      split at hmatch
      · rename_i hts
        rw [hts, List.singleton_append] at hmatch
        generalize hs : [] = s at hmatch
        cases hmatch with
        | one hchar => cases hchar
        | directories u v _ hmatch =>
          rw [(List.append_eq_nil_iff.1 hs.symm).2] at hmatch
          exact ih (hpats.tail (List.cons_ne_nil _ _)) hmatch
      · rw [List.append_assoc, List.singleton_append] at hmatch
        obtain ⟨u, v, hnil, -, hv⟩ := hmatch.exists_append
        rw [(List.append_eq_nil_iff.1 hnil.symm).2] at hv
        obtain ⟨w, hw, -⟩ := matches_char_cons.1 hv
        cases hw

/-- Components fit names if and only if the whole pattern matches their path within names. -/
theorem fits_iff (h : List.Forall₂ Denotes pats tss) (hpats : Selects file pats) (hfile : file ≠ [])
    (hns : ∀ n ∈ ns, '/' ∉ n) (hne : ns ≠ []) :
    Fits pats ns ↔ Matches (· ≠ '/') (flat tss) (Text.join ['/'] ns) := by
  induction h generalizing ns with
  | nil =>
    obtain ⟨pat, hlast, -⟩ := hpats.last
    cases hlast
  | @cons pat ts pats tss hpat hrest ih =>
    cases hrest with
    | nil =>
      have hrec := isRecursive_of_literal? hpats.literal?_last
      rw [fits_name hrec, flat, (hpat.isName hrec).matches_within, ← hpat.isMatch_iff]
      constructor
      · rintro ⟨n, ms, rfl, hmatch, hms⟩
        obtain rfl : ms = [] := hms
        exact ⟨hmatch, hns n List.mem_cons_self⟩
      · rintro ⟨hmatch, hfree⟩
        have hone := rawNames_of_free hfree
        rw [rawNames_join hne hns] at hone
        exact ⟨_, [], hone, hmatch, rfl⟩
    | @cons pat' ts' pats tss hpat' hrest =>
      have hpats' : Selects file (pat' :: pats) := hpats.tail (List.cons_ne_nil _ _)
      have hnil : ¬ Matches (· ≠ '/') (flat (ts' :: tss)) [] := not_matches_nil (.cons hpat' hrest) hpats' hfile
      cases hrec : pat.isRecursive with
      | true =>
        rw [fits_recursive hrec, flat, if_pos (hpat.recursive hrec), hpat.recursive hrec, List.singleton_append,
          matches_directories_join hnil hns hne]
        constructor
        · rintro ⟨ms, hms, hfits⟩
          have hmsne := hfits.ne_nil hpats'
          exact ⟨ms, hmsne, hms, (ih hpats' (fun n hn => hns n (hms.subset hn)) hmsne).1 hfits⟩
        · rintro ⟨ms, hmsne, hms, hmatch⟩
          exact ⟨ms, hms, (ih hpats' (fun n hn => hns n (hms.subset hn)) hmsne).2 hmatch⟩
      | false =>
        rw [fits_name hrec, flat, if_neg (hpat.ne_directories hrec), List.append_assoc, List.singleton_append,
          matches_name_append (hpat.isName hrec)]
        constructor
        · rintro ⟨n, ms, rfl, hmatch, hfits⟩
          obtain ⟨hn, hms⟩ := List.forall_mem_cons.1 hns
          have hmsne := hfits.ne_nil hpats'
          have hjoin : Text.join ['/'] (n :: ms) = n ++ '/' :: Text.join ['/'] ms := by
            obtain ⟨m, ks, rfl⟩ := List.exists_cons_of_ne_nil hmsne
            rw [Text.join, List.append_assoc, List.singleton_append]
          exact ⟨n, _, hjoin, (hpat.isMatch_iff n).1 hmatch, hn, (ih hpats' hms hmsne).1 hfits⟩
        · rintro ⟨u, v, hjoin, hmatch, hfree, hv⟩
          have hraw : ns = u :: rawNames v := by
            rw [← rawNames_join hne hns, hjoin, rawNames_append, rawNames_of_free hfree]
            rfl
          refine ⟨u, rawNames v, hraw, (hpat.isMatch_iff u).2 hmatch, ?_⟩
          refine (ih hpats' (fun n hn => slash_not_mem_of_mem_rawNames hn) (rawNames_ne_nil v)).2 ?_
          rw [join_rawNames]
          exact hv

/-- What a pattern with one more component matches, its last component being a name, the pattern matches as well: the
whole text, if it ends with `**`, and otherwise the text without that name. -/
theorem matches_flat_concat (htss : tss ≠ []) (hts : ∀ u, Matches wild ts u → u = n)
    (h : Matches wild (flat (tss ++ [ts])) s) :
    Matches wild (flat tss) s ∨ ∃ u, s = u ++ '/' :: n ∧ Matches wild (flat tss) u := by
  rw [flat_concat htss] at h
  obtain ⟨u, v, rfl, hu, hv⟩ := h.exists_append
  split at hv
  · rename_i hlast
    exact .inl (hu.extend (getLast?_flat hlast) v)
  · rw [List.singleton_append] at hv
    obtain ⟨w, rfl, hw⟩ := matches_char_cons.1 hv
    exact .inr ⟨u, by rw [hts w hw], hu⟩

theorem matches_directories_last (h : Matches wild ts n) (hs : (rawNames s).getLast? = some n) :
    Matches wild (.anyDirectories :: ts) s := by
  obtain ⟨ns, hraw⟩ := List.getLast?_eq_some_iff.1 hs
  rw [← join_rawNames s, hraw]
  by_cases hns : ns = []
  · subst hns
    exact .directories [] n (.inl rfl) h
  · rw [Text.join_append hns (List.cons_ne_nil n [])]
    exact .directories (Text.join ['/'] ns ++ ['/']) n (.inr (.inl List.getLast?_concat)) h

theorem getLast?_rawNames_append (u v : List Char) :
    (rawNames (u ++ '/' :: v)).getLast? = (rawNames v).getLast? := by
  rw [rawNames_append, List.getLast?_append_of_ne_nil _ (rawNames_ne_nil v)]

/-- A pattern that ends with `**` matches a path also with its last name as one more component. -/
theorem matches_flat_last (htss : ∀ us ∈ tss, us = [.anyDirectories] ∨ IsName us)
    (hlast : tss.getLast? = some [.anyDirectories]) (hn : '/' ∉ n) (hts : Matches wild ts n)
    (h : Matches wild (flat tss) s) (hs : (rawNames s).getLast? = some n) : Matches wild (flat (tss ++ [ts])) s := by
  induction tss generalizing s with
  | nil => cases hlast
  | cons us tss ih =>
    obtain ⟨hus, hrest⟩ := List.forall_mem_cons.1 htss
    cases tss with
    | nil =>
      obtain rfl : us = [.anyDirectories] := Option.some.inj hlast
      exact matches_directories_last hts hs
    | cons vs tss =>
      rw [List.getLast?_cons_cons] at hlast
      rw [flat] at h
      show Matches wild ((if us = [.anyDirectories] then us else us ++ [.char '/']) ++ flat (vs :: tss ++ [ts])) s
      rcases hus with rfl | hus
      · rw [if_pos rfl, List.singleton_append] at h ⊢
        cases h with
        | one hchar => cases hchar
        | directories u v hu hv =>
          rcases hu with rfl | hu | rfl
          · exact .directories [] v (.inl rfl) (ih hrest hlast hv hs)
          · obtain ⟨w, rfl⟩ := List.getLast?_eq_some_iff.1 hu
            rw [List.append_assoc, List.singleton_append, getLast?_rawNames_append] at hs
            exact .directories (w ++ ['/']) v (.inr (.inl hu)) (ih hrest hlast hv hs)
          · -- the rest is `**` alone and stands for the last name
            have hextend := hv.extend (getLast?_flat hlast) n
            have hname : (rawNames ([] ++ n)).getLast? = some n := by
              rw [List.nil_append, rawNames_of_free hn]
              rfl
            exact matches_directories_last (ih hrest hlast hextend hname) hs
      · have hne : us ≠ [.anyDirectories] := by
          rintro rfl
          exact hus.directories List.mem_cons_self
        rw [if_neg hne, List.append_assoc, List.singleton_append] at h ⊢
        obtain ⟨u, v, rfl, hu, hv⟩ := h.exists_append
        obtain ⟨v', rfl, hv'⟩ := matches_char_cons.1 hv
        rw [getLast?_rawNames_append] at hs
        exact hu.append hus.directories (matches_char_cons.2 ⟨v', rfl, ih hrest hlast hv' hs⟩)

/-! ### Plain patterns -/

/-- A component for names below a directory, and not for that directory itself or the one above it. -/
def PlainName (n : List Char) : Prop :=
  n ≠ [] ∧ ∃ pat ∈ parse? n, pat.tokens.head? = some (.char '.') → ∀ m ∈ [['.', '.'], ['.']], pat.isMatch m = false

instance (n : List Char) : Decidable (PlainName n) := inferInstanceAs (Decidable (_ ∧ _))

theorem PlainName.isProper (h : PlainName n) : IsProper n := by
  have hdot : ¬ PlainName ['.'] := by decide
  have hdots : ¬ PlainName ['.', '.'] := by decide
  refine ⟨?_, fun hn => hdots (hn ▸ h)⟩
  rw [← Bool.not_eq_true, isIdle_iff]
  rintro (rfl | rfl)
  · exact h.1 rfl
  · exact hdot h

theorem exists_mem_of_forall₂ {α β : Type} {R : α → β → Prop} {as : List α} {bs : List β} {b : β}
    (h : List.Forall₂ R as bs) (hb : b ∈ bs) : ∃ a ∈ as, R a b := by
  induction h with
  | nil => cases hb
  | @cons a b' as bs hab _ ih =>
    rcases List.mem_cons.1 hb with rfl | hb
    · exact ⟨a, List.mem_cons_self, hab⟩
    · obtain ⟨a', ha', hab'⟩ := ih hb
      exact ⟨a', List.mem_cons_of_mem a ha', hab'⟩

theorem getLast?_of_forall₂ {α β : Type} {R : α → β → Prop} {as : List α} {bs : List β} {a : α}
    (h : List.Forall₂ R as bs) (ha : as.getLast? = some a) : ∃ b, bs.getLast? = some b ∧ R a b := by
  induction h with
  | nil => cases ha
  | @cons a' b as bs hab hrest ih =>
    cases hrest with
    | nil =>
      cases ha
      exact ⟨b, rfl, hab⟩
    | cons =>
      rw [List.getLast?_cons_cons] at ha ⊢
      exact ih ha

/-- Components as patterns for names and as tokens. -/
structure Components (ns : List Name) (pats : List GlobPattern) (tss : List (List GlobToken)) : Prop where
  parsed : List.Forall₂ (fun n pat => parse? n = some pat) ns pats
  reads : List.Forall₂ (Reads true) ns tss
  denotes : List.Forall₂ Denotes pats tss
  downward : ∀ pat ∈ pats, Downward pat

theorem Components.append {ms : List Name} {pats' : List GlobPattern} {tss' : List (List GlobToken)}
    (h : Components ns pats tss) (h' : Components ms pats' tss') :
    Components (ns ++ ms) (pats ++ pats') (tss ++ tss') where
  parsed := List.rel_append h.parsed h'.parsed
  reads := List.rel_append h.reads h'.reads
  denotes := List.rel_append h.denotes h'.denotes
  downward p hp := (List.mem_append.1 hp).elim (h.downward p) (h'.downward p)

theorem Components.exists_parse? (h : Components ns pats tss) (hns : ∀ n ∈ ns, '/' ∉ n) :
    ∃ p, parse? (Text.join ['/'] ns) = some p ∧ Same p.tokens (flat tss) := by
  obtain ⟨p, hp, has⟩ := (reads_join h.reads hns).exists_parse?
  exact ⟨p, hp, has.same⟩

theorem exists_components (h : ∀ n ∈ ns, PlainName n ∧ '/' ∉ n) : ∃ pats tss, Components ns pats tss := by
  induction ns with
  | nil => exact ⟨[], [], .nil, .nil, .nil, nofun⟩
  | cons n ns ih =>
    obtain ⟨⟨hplain, hfree⟩, hns⟩ := List.forall_mem_cons.1 h
    obtain ⟨pats, tss, hrest⟩ := ih hns
    obtain ⟨pat, hpat, hdots⟩ := hplain.2
    obtain ⟨ts, hts, hdenotes⟩ := exists_denotes hpat hfree
    have hdown : Downward pat := ⟨fun m hm => literal?_parse? hpat hm ▸ hplain.isProper, hdots⟩
    exact ⟨pat :: pats, ts :: tss, .cons hpat hrest.parsed, .cons hts hrest.reads, .cons hdenotes hrest.denotes,
      List.forall_mem_cons.2 ⟨hdown, hrest.downward⟩⟩

end Federation.GlobPattern
