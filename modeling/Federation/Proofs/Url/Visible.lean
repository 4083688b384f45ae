import Mathlib.Data.List.Basic
import Federation.Url.Host

/-!
# Hosts are visible text

Whatever a URL escapes is written in visible ASCII characters, and so is every host that is parsed: a name of a
special scheme is in its ASCII form without forbidden characters, other labels are written in Punycode, addresses are
numbers, and in a host of any other scheme the controls and all that is not ASCII are escaped.
-/

namespace Federation

/-! ### Characters of texts that are put together -/

section
variable {P : Char → Prop} {sep : List Char} {ss : List (List Char)}

theorem Text.forall_mem_join (hsep : ∀ c ∈ sep, P c) (h : ∀ s ∈ ss, ∀ c ∈ s, P c) : ∀ c ∈ join sep ss, P c := by
  fun_induction join sep ss with
  | case1 => exact List.forall_mem_nil _
  | case2 t => exact h t List.mem_cons_self
  | case3 t u ts ih =>
    obtain ⟨ht, hts⟩ := List.forall_mem_cons.1 h
    exact List.forall_mem_append.2 ⟨List.forall_mem_append.2 ⟨ht, hsep⟩, ih hts⟩

theorem forall_mem_toDigits {base : Nat} (hbase : 1 < base) (hdigit : ∀ k < base, P (Nat.digitChar k)) (n : Nat) :
    ∀ c ∈ Nat.toDigits base n, P c := by
  induction n using Nat.strongRecOn with
  | ind n ih =>
    rcases Nat.lt_or_ge n base with hn | hn
    · rw [Nat.toDigits_of_lt_base hn]
      exact List.forall_mem_singleton.2 (hdigit n hn)
    · rw [Nat.toDigits_of_base_le hbase hn]
      exact List.forall_mem_append.2 ⟨ih _ (Nat.div_lt_self (by omega) hbase),
        List.forall_mem_singleton.2 (hdigit _ (Nat.mod_lt _ (by omega)))⟩

end

/-- What can be checked of 128 code points holds of every ASCII character. -/
@[elab_as_elim]
theorem ascii_induction {motive : Char → Prop} {c : Char} (hc : c.toNat < 0x80)
    (check : ∀ n < 0x80, motive (Char.ofNat n)) : motive c := by
  have hchar := check c.toNat hc
  rwa [Char.ofNat_toNat] at hchar

/-! ### Visible text -/

/-- An ASCII character that is no control and no blank. -/
def VisibleChar (c : Char) : Prop := 0x20 < c.toNat ∧ c.toNat < 0x7F

instance (c : Char) : Decidable (VisibleChar c) := inferInstanceAs (Decidable (_ ∧ _))

/-- Text of visible characters. -/
def Visible (s : List Char) : Prop := ∀ c ∈ s, VisibleChar c

section
variable {c : Char} {s t : List Char}

theorem Visible.nil : Visible [] := fun _ hc => nomatch hc

theorem visible_cons : Visible (c :: s) ↔ VisibleChar c ∧ Visible s := List.forall_mem_cons

theorem visible_append : Visible (s ++ t) ↔ Visible s ∧ Visible t := List.forall_mem_append

theorem Visible.cons (hc : VisibleChar c) (h : Visible s) : Visible (c :: s) := visible_cons.2 ⟨hc, h⟩

theorem Visible.append (hs : Visible s) (ht : Visible t) : Visible (s ++ t) := visible_append.2 ⟨hs, ht⟩

theorem visibleChar_digitChar : ∀ n < 16, VisibleChar (Nat.digitChar n) := by decide

theorem visible_toDigits {base : Nat} (hlow : 1 < base) (hhigh : base ≤ 16) (n : Nat) : Visible (Nat.toDigits base n) :=
  forall_mem_toDigits hlow (fun k hk => visibleChar_digitChar k (by omega)) n

end

section
variable {ε α β : Type}

theorem exists_of_map_eq_ok {f : α → β} {o : Except ε α} {b : β} (h : o.map f = .ok b) :
    ∃ a, o = .ok a ∧ f a = b := by
  cases o with
  | error e => cases h
  | ok a => exact ⟨a, rfl, Except.ok.inj h⟩

theorem exists_of_mem_mapM {f : α → Option β} {l : List α} {ys : List β} (h : l.mapM f = some ys) {y : β}
    (hy : y ∈ ys) : ∃ x ∈ l, f x = some y := by
  induction l generalizing ys with
  | nil =>
    cases h
    cases hy
  | cons x l ih =>
    rw [List.mapM_cons] at h
    obtain ⟨z, hz, h⟩ := Option.bind_eq_some_iff.1 h
    obtain ⟨zs, hzs, h⟩ := Option.bind_eq_some_iff.1 h
    cases h
    rcases List.mem_cons.1 hy with rfl | hy
    · exact ⟨x, List.mem_cons_self, hz⟩
    · obtain ⟨x', hx', h⟩ := ih hzs hy
      exact ⟨x', List.mem_cons_of_mem _ hx', h⟩

end

/-! ### Escapes -/

namespace Percent

theorem visibleChar_hexDigit : ∀ n < 16, VisibleChar (hexDigit n) := by decide

/-- What an escaped text is made of: characters that are kept, and escapes. -/
theorem mem_encode {inSet : Char → Bool} {s : List Char} {c : Char} (h : c ∈ encode inSet s) :
    (c ∈ s ∧ c.toNat < 0x80 ∧ inSet c = false) ∨ c = '%' ∨ ∃ n < 16, c = hexDigit n := by
  obtain ⟨d, hd, hc⟩ := List.mem_flatMap.1 h
  unfold encodeChar at hc
  split at hc
  · rename_i hkept
    simp only [Bool.and_eq_true, decide_eq_true_eq, Bool.not_eq_true'] at hkept
    rw [List.mem_singleton.1 hc]
    exact .inl ⟨hd, hkept⟩
  · obtain ⟨b, -, hc⟩ := List.mem_flatMap.1 hc
    have hb : b.toNat < 256 := b.toNat_lt
    simp only [escape, List.mem_cons, List.not_mem_nil, or_false] at hc
    rcases hc with rfl | rfl | rfl
    · exact .inr (.inl rfl)
    · exact .inr (.inr ⟨_, by omega, rfl⟩)
    · exact .inr (.inr ⟨_, by omega, rfl⟩)

/-- An escaped text is visible if the ASCII characters in it that are not are among what is escaped. -/
theorem visible_encode {inSet : Char → Bool} {s : List Char}
    (h : ∀ c ∈ s, c.toNat < 0x80 → ¬VisibleChar c → inSet c = true) : Visible (encode inSet s) := by
  intro c hc
  rcases mem_encode hc with ⟨hmem, hascii, hkept⟩ | rfl | ⟨n, hn, rfl⟩
  · by_contra hvisible
    cases hkept.symm.trans (h c hmem hascii hvisible)
  · decide
  · exact visibleChar_hexDigit n hn

end Percent

/-! ### Punycode -/

namespace Punycode
variable {P : Char → Prop} (hdigit : ∀ n < 36, P (digit n))
include hdigit

omit hdigit in
theorem threshold_bounds (k bias : Nat) : 1 ≤ threshold k bias ∧ threshold k bias ≤ 26 := by
  unfold threshold
  split
  · omega
  · split <;> omega

/-- The fuel is no less than the number, so that what is left when it runs out is a digit. -/
theorem forall_mem_integerDigits {bias fuel q k : Nat} (h : q ≤ fuel) : ∀ c ∈ integerDigits bias fuel q k, P c := by
  induction fuel generalizing q k with
  | zero => exact List.forall_mem_singleton.2 (hdigit q (by omega))
  | succ fuel ih =>
    have ⟨hpos, hle⟩ := threshold_bounds k bias
    unfold integerDigits
    dsimp only
    generalize threshold k bias = t at hpos hle ⊢
    split
    · exact List.forall_mem_singleton.2 (hdigit q (by omega))
    · have hmod : (q - t) % (36 - t) < 36 - t := Nat.mod_lt _ (by omega)
      have hrest : (q - t) / (36 - t) ≤ q - t := Nat.div_le_self ..
      exact List.forall_mem_cons.2 ⟨hdigit _ (by omega), ih (by omega)⟩

theorem forall_mem_encodePoint (n b h bias delta : Nat) (cs : List Nat) :
    ∀ c ∈ (encodePoint n b h bias delta cs).1, P c := by
  fun_induction encodePoint n b h bias delta cs with
  | case1 => exact nofun
  | case2 h bias delta c cs _ ih => exact ih
  | case3 h bias delta cs ds r st heq _ ih =>
    rw [heq] at ih
    exact List.forall_mem_append.2 ⟨forall_mem_integerDigits hdigit (Nat.le_refl _), ih⟩
  | case4 h bias delta c cs _ _ ih => exact ih

theorem forall_mem_encodeRest (input : List Nat) (b : Nat) (points : List Nat) (n h bias delta : Nat) :
    ∀ c ∈ encodeRest input b points n h bias delta, P c := by
  fun_induction encodeRest input b points n h bias delta with
  | case1 => exact nofun
  | case2 m ms n h bias delta out h' bias' delta' heq ih =>
    have hout := forall_mem_encodePoint hdigit m b h bias (delta + (m - n) * (h + 1)) input
    rw [heq] at hout
    exact List.forall_mem_append.2 ⟨hout, ih⟩

/-- Punycode is made of digits, hyphens and the ASCII characters of the label. -/
theorem forall_mem_encode {s : List Char} (hhyphen : P '-') (h : ∀ c ∈ s, c.toNat < 0x80 → P c) :
    ∀ c ∈ encode s, P c := by
  have hbasic : ∀ c ∈ s.filter fun c => decide (c.toNat < 0x80), P c := by
    intro c hc
    have ⟨hmem, hascii⟩ := List.mem_filter.1 hc
    exact h c hmem (of_decide_eq_true hascii)
  refine List.forall_mem_append.2 ⟨List.forall_mem_append.2 ⟨hbasic, ?_⟩,
    forall_mem_encodeRest hdigit _ _ _ _ _ _ _⟩
  split
  · exact nofun
  · exact List.forall_mem_singleton.2 hhyphen

end Punycode

/-! ### Hosts -/

namespace Domain

/-- The characters of names in their ASCII form. -/
def NameChar (c : Char) : Prop := c.toNat < 0x80 ∧ isForbidden c = false

instance (c : Char) : Decidable (NameChar c) := inferInstanceAs (Decidable (_ ∧ _))

theorem NameChar.visible {c : Char} (h : NameChar c) : VisibleChar c := by
  have ⟨hascii, hallowed⟩ := h
  simp only [isForbidden, Bool.or_eq_false_iff, decide_eq_false_iff_not, beq_eq_false_iff_ne] at hallowed
  exact ⟨by omega, by omega⟩

theorem nameChar_of_labelOk {s : List Char} (h : labelOk s = true) {c : Char} (hc : c ∈ s) (hascii : c.toNat < 0x80) :
    NameChar c := by
  simp only [labelOk, Bool.and_eq_true] at h
  have hvalid := List.all_eq_true.1 h.1.1 c hc
  simp only [isValid, isAscii, hascii, decide_true, if_true, Bool.and_eq_true, Bool.not_eq_true'] at hvalid
  exact ⟨hascii, hvalid.1⟩

theorem nameChar_encode {s : List Char} (h : labelOk s = true) :
    ∀ c ∈ 'x' :: 'n' :: '-' :: '-' :: Punycode.encode s, NameChar c := by
  simp only [List.forall_mem_cons]
  exact ⟨by decide, by decide, by decide, by decide,
    Punycode.forall_mem_encode (by decide) (by decide) fun c hc => nameChar_of_labelOk h hc⟩

theorem nameChar_labelToAscii {s t : List Char} (h : labelToAscii? s = some t) : ∀ c ∈ t, NameChar c := by
  unfold labelToAscii? at h
  split at h
  · rename_i enc henc
    split at h
    · cases h
    · split at h
      · rename_i u _
        split at h
        · cases h
        · rename_i hok
          cases h
          simp only [Bool.or_eq_true, not_or, Bool.not_eq_true, Bool.not_eq_false', bne_eq_false_iff_eq] at hok
          obtain rfl := Text.dropPrefix?_eq_some.1 henc
          rw [← hok.2]
          exact nameChar_encode hok.1.1.2
      · cases h
  · split at h
    · rename_i hascii
      split at h
      · cases h
      · rename_i hallowed
        cases h
        intro c hc
        refine ⟨of_decide_eq_true (List.all_eq_true.1 hascii c hc), ?_⟩
        simpa using fun hforbidden => hallowed (List.any_eq_true.2 ⟨c, hc, hforbidden⟩)
    · split at h
      · rename_i hok
        cases h
        exact nameChar_encode hok
      · cases h

theorem nameChar_toAscii {s t : List Char} (h : toAscii? s = some t) : ∀ c ∈ t, NameChar c := by
  obtain ⟨images, -, h⟩ := Option.bind_eq_some_iff.1 h
  obtain ⟨labels, hlabels, h⟩ := Option.bind_eq_some_iff.1 h
  cases h
  refine Text.forall_mem_join (List.forall_mem_singleton.2 (by decide)) fun label hlabel => ?_
  obtain ⟨l, -, hl⟩ := exists_of_mem_mapM hlabels hlabel
  exact nameChar_labelToAscii hl

end Domain

namespace UrlHost

/-- The invisible ASCII characters are the controls and the blank. -/
theorem isControl_or_eq_blank {c : Char} (hascii : c.toNat < 0x80) (h : ¬VisibleChar c) :
    isControl c = true ∨ c = ' ' := by
  by_cases hblank : c.toNat = 0x20
  · exact .inr (by rw [← Char.ofNat_toNat c, hblank])
  · left
    simp only [VisibleChar, not_and_or, Nat.not_lt] at h
    simp only [isControl, Bool.or_eq_true, decide_eq_true_eq, beq_iff_eq]
    omega

theorem forall_mem_ipv4Text {P : Char → Prop} (hpoint : P '.') (hdigit : ∀ k < 10, P (Nat.digitChar k)) (n : Nat) :
    ∀ c ∈ ipv4Text n, P c := by
  refine Text.forall_mem_join (List.forall_mem_singleton.2 hpoint) fun part hpart => ?_
  obtain ⟨k, -, rfl⟩ := List.mem_map.1 hpart
  exact forall_mem_toDigits (by decide) hdigit k

theorem forall_mem_ipv6Text {P : Char → Prop} (hcolon : P ':') (hdigit : ∀ k < 16, P (Nat.digitChar k))
    (pieces : List Nat) : ∀ c ∈ ipv6Text pieces, P c := by
  have hex (ps : List Nat) : ∀ c ∈ Text.join [':'] (ps.map (Nat.toDigits 16)), P c := by
    refine Text.forall_mem_join (List.forall_mem_singleton.2 hcolon) fun part hpart => ?_
    obtain ⟨k, -, rfl⟩ := List.mem_map.1 hpart
    exact forall_mem_toDigits (by decide) hdigit k
  unfold ipv6Text
  dsimp only
  split
  · exact hex _
  · simp only [List.forall_mem_append, List.forall_mem_cons]
    exact ⟨hex _, hcolon, hcolon, hex _⟩

theorem exists_of_bracketed {s : List Char} {host : UrlHost} (h : bracketed? s = some (.ok host)) :
    ∃ pieces, host = .ipv6 pieces := by
  unfold bracketed? at h
  split at h
  · split at h
    · cases h
    · split at h
      · cases h
        exact ⟨_, rfl⟩
      · cases h
  · cases h

/-- The hosts of special schemes. -/
theorem ofSpecial_cases {s : List Char} {host : UrlHost} (h : ofSpecial s = .ok host) :
    (∃ pieces, host = .ipv6 pieces) ∨ (∃ n, host = .ipv4 n) ∨
      ∃ d, host = .name d ∧ d ≠ [] ∧ endsInNumber d = false ∧ ∀ c ∈ d, Domain.NameChar c := by
  unfold ofSpecial at h
  split at h
  · rename_i r hr
    exact .inl (exists_of_bracketed (h ▸ hr))
  · split at h
    · cases h
    · cases h
    · rename_i d hne hd
      split at h
      · split at h
        · cases h
          exact .inr (.inl ⟨_, rfl⟩)
        · cases h
      · rename_i hnumber
        cases h
        obtain ⟨u, -, hu⟩ := Option.bind_eq_some_iff.1 hd
        exact .inr (.inr ⟨d, rfl, hne, Bool.not_eq_true _ ▸ hnumber, Domain.nameChar_toAscii hu⟩)

theorem visible_ipv6 (pieces : List Nat) : Visible (text (.ipv6 pieces)) :=
  .cons (by decide) (.append (forall_mem_ipv6Text (by decide) (by decide) pieces) (.cons (by decide) .nil))

theorem visible_ofSpecial {s : List Char} {host : UrlHost} (h : ofSpecial s = .ok host) : Visible host.text := by
  rcases ofSpecial_cases h with ⟨pieces, rfl⟩ | ⟨n, rfl⟩ | ⟨d, rfl, -, -, hd⟩
  · exact visible_ipv6 pieces
  · exact forall_mem_ipv4Text (by decide) (by decide) n
  · exact fun c hc => (hd c hc).visible

theorem visible_ofOther {s : List Char} {host : UrlHost} (h : ofOther s = .ok (some host)) : Visible host.text := by
  unfold ofOther at h
  split at h
  · rename_i r hr
    obtain ⟨x, rfl, hx⟩ := exists_of_map_eq_ok h
    cases hx
    obtain ⟨pieces, rfl⟩ := exists_of_bracketed hr
    exact visible_ipv6 pieces
  · split at h
    · cases h
    · rename_i hallowed
      split at h
      · cases h
      · cases h
        refine Percent.visible_encode fun c hc hascii hvisible => ?_
        rcases isControl_or_eq_blank hascii hvisible with hcontrol | rfl
        · exact hcontrol
        · exact absurd (List.any_eq_true.2 ⟨' ', hc, rfl⟩) hallowed

end UrlHost

end Federation
