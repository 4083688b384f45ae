import Federation.Proofs.Url.ReadsBack

/-!
# Components of URLs

A text that is escaped as a component of a URL can be read back: undoing the escapes gives its octets
(`Percent.decodeOctets_encode`), and the octets of a text are read as that text (`Utf8.decode?_encode`). Nothing in a
component ends it or separates it, and a path keeps it as it is, with two exceptions: a component of one point or of two
is the text itself, and as a segment of a path it means a directory (`Percent.segment_encodeComponent`).
-/

namespace Federation

/-! ### UTF-8 -/

namespace Utf8

theorem toNat_ofNat {n : Nat} (h : n < 256) : (UInt8.ofNat n).toNat = n := by
  rw [UInt8.toNat_ofNat']
  omega

theorem tail_cons {k acc lo hi n : Nat} (hlo : lo ≤ n) (hhi : n ≤ hi) (hn : n < 256) (bs : List UInt8) :
    tail (k + 1) acc lo hi (UInt8.ofNat n :: bs) = tail k (acc * 64 + n % 64) 0x80 0xBF bs := by
  rw [tail, toNat_ofNat hn, if_pos ⟨hlo, hhi⟩]

/-- What the first octet of a character says, by the number of its octets. -/
theorem lead?_two {n : Nat} (hlow : 0x80 ≤ n) (hhigh : n ≤ 0x7FF) :
    lead? (UInt8.ofNat (n / 64 % 32 + 0xC0)) = some (1, n / 64, 0x80, 0xBF) := by
  rw [lead?, toNat_ofNat (by omega)]
  rw [if_neg (by omega), if_neg (by omega), if_pos (by omega), show n / 64 % 32 + 0xC0 - 0xC0 = n / 64 by omega]

theorem lead?_three {n : Nat} (hlow : 0x800 ≤ n) (hhigh : n ≤ 0xFFFF) (hvalid : n < 0xD800 ∨ 0xDFFF < n) :
    ∃ lo hi, lead? (UInt8.ofNat (n / 4096 % 16 + 0xE0)) = some (2, n / 4096, lo, hi) ∧
      lo ≤ n / 64 % 64 + 0x80 ∧ n / 64 % 64 + 0x80 ≤ hi := by
  rw [lead?, toNat_ofNat (by omega)]
  rw [if_neg (by omega), if_neg (by omega), if_neg (by omega)]
  by_cases hfirst : n < 0x1000
  · rw [if_pos (by omega), show n / 4096 = 0 by omega]
    exact ⟨_, _, rfl, by omega, by omega⟩
  rw [if_neg (by omega)]
  by_cases hsurrogate : n / 4096 = 0xD
  · rw [if_pos (by omega), hsurrogate]
    exact ⟨_, _, rfl, by omega, by omega⟩
  · rw [if_neg (by omega), if_pos (by omega), show n / 4096 % 16 + 0xE0 - 0xE0 = n / 4096 by omega]
    exact ⟨_, _, rfl, by omega, by omega⟩

theorem lead?_four {n : Nat} (hlow : 0x10000 ≤ n) (hhigh : n < 0x110000) :
    ∃ lo hi, lead? (UInt8.ofNat (n / 262144 % 8 + 0xF0)) = some (3, n / 262144, lo, hi) ∧
      lo ≤ n / 4096 % 64 + 0x80 ∧ n / 4096 % 64 + 0x80 ≤ hi := by
  rw [lead?, toNat_ofNat (by omega)]
  rw [if_neg (by omega), if_neg (by omega), if_neg (by omega), if_neg (by omega), if_neg (by omega),
    if_neg (by omega)]
  by_cases hfirst : n < 0x40000
  · rw [if_pos (by omega), show n / 262144 = 0 by omega]
    exact ⟨_, _, rfl, by omega, by omega⟩
  rw [if_neg (by omega)]
  by_cases hlast : n < 0x100000
  · rw [if_pos (by omega), show n / 262144 % 8 + 0xF0 - 0xF0 = n / 262144 by omega]
    exact ⟨_, _, rfl, by omega, by omega⟩
  · rw [if_neg (by omega), if_pos (by omega), show n / 262144 = 4 by omega]
    exact ⟨_, _, rfl, by omega, by omega⟩

/-- The octets of a character are read as that character, whatever follows. -/
theorem next_encodeChar (c : Char) (bs : List UInt8) :
    ∃ b rest, String.utf8EncodeChar c = b :: rest ∧ next b (rest ++ bs) = (some c, bs) := by
  have hvalid : c.toNat < 0xD800 ∨ 0xDFFF < c.toNat ∧ c.toNat < 0x110000 := c.valid
  have hread {n : Nat} (hn : n = c.toNat) : ((some n).map Char.ofNat, bs) = (some c, bs) := by
    rw [hn, Option.map_some, Char.ofNat_toNat]
  unfold String.utf8EncodeChar
  dsimp only
  rw [show c.val.toNat = c.toNat from rfl]
  split
  · exact ⟨_, _, rfl, next_ascii (by omega) bs⟩
  split
  · refine ⟨_, _, rfl, ?_⟩
    rw [next, lead?_two (by omega) (by omega)]
    simp only [List.cons_append, List.nil_append]
    rw [tail_cons (by omega) (by omega) (by omega), tail]
    exact hread (by omega)
  split
  · obtain ⟨lo, hi, hlead, hlo, hhi⟩ := lead?_three (n := c.toNat) (by omega) (by omega) (by omega)
    refine ⟨_, _, rfl, ?_⟩
    rw [next, hlead]
    simp only [List.cons_append, List.nil_append]
    rw [tail_cons hlo hhi (by omega), tail_cons (by omega) (by omega) (by omega), tail]
    exact hread (by omega)
  · obtain ⟨lo, hi, hlead, hlo, hhi⟩ := lead?_four (n := c.toNat) (by omega) (by omega)
    refine ⟨_, _, rfl, ?_⟩
    rw [next, hlead]
    simp only [List.cons_append, List.nil_append]
    rw [tail_cons hlo hhi (by omega), tail_cons (by omega) (by omega) (by omega),
      tail_cons (by omega) (by omega) (by omega), tail]
    exact hread (by omega)

theorem decode?_encode (s : List Char) : decode? (encode s) = some s := by
  induction s with
  | nil => rw [encode, List.flatMap_nil, decode?]
  | cons c s ih =>
    obtain ⟨b, rest, hc, hnext⟩ := next_encodeChar c (encode s)
    rw [show encode (c :: s) = b :: (rest ++ encode s) by rw [encode, List.flatMap_cons, hc]; rfl, decode?]
    split
    · rename_i h
      cases h.symm.trans hnext
    · rename_i h
      cases h.symm.trans hnext
      rw [ih]
      rfl

end Utf8

/-! ### Escapes -/

namespace Percent

theorem hexValue?_hexDigit : ∀ n < 16, hexValue? (hexDigit n) = some n := by decide

theorem decodeOctets_escape (b : UInt8) (r : List Char) : decodeOctets (escape b ++ r) = b :: decodeOctets r := by
  have hb : b.toNat < 256 := b.toNat_lt
  show decodeOctets ('%' :: hexDigit (b.toNat / 16) :: hexDigit (b.toNat % 16) :: r) = _
  rw [decodeOctets, hexValue?_hexDigit _ (by omega), hexValue?_hexDigit _ (by omega)]
  dsimp only
  rw [show b.toNat / 16 * 16 + b.toNat % 16 = b.toNat by omega, UInt8.ofNat_toNat]

theorem decodeOctets_escapes (bs : List UInt8) (r : List Char) :
    decodeOctets (bs.flatMap escape ++ r) = bs ++ decodeOctets r := by
  induction bs with
  | nil => rfl
  | cons b bs ih => rw [List.flatMap_cons, List.append_assoc, decodeOctets_escape, ih, List.cons_append]

theorem decodeOctets_cons {c : Char} (hc : c ≠ '%') (r : List Char) :
    decodeOctets (c :: r) = String.utf8EncodeChar c ++ decodeOctets r := by
  rw [decodeOctets]
  rintro a b t rfl -
  exact hc rfl

/-- Undoing the escapes of a text gives its octets, if the sign of an escape is escaped itself. -/
theorem decodeOctets_encode {inSet : Char → Bool} (h : inSet '%' = true) (s : List Char) :
    decodeOctets (encode inSet s) = Utf8.encode s := by
  induction s with
  | nil => rfl
  | cons c s ih =>
    rw [encode, List.flatMap_cons, ← encode, Utf8.encode, List.flatMap_cons, ← Utf8.encode, encodeChar]
    split
    · rename_i hkept
      have hne : c ≠ '%' := by
        rintro rfl
        simp [h] at hkept
      rw [List.singleton_append, decodeOctets_cons hne, ih]
    · rw [decodeOctets_escapes, ih]

/-- The text of a component, if it is one. -/
def decodeComponent? (s : List Char) : Option (List Char) := Utf8.decode? (decodeOctets s)

theorem decodeComponent?_encodeComponent (s : List Char) : decodeComponent? (encodeComponent s) = some s := by
  rw [decodeComponent?, encodeComponent, decodeOctets_encode (by decide), Utf8.decode?_encode]

/-! ### Where percent signs stand -/

/-- Every percent sign of a text begins the escape of an octet. -/
def Escaped (s : List Char) : Prop :=
  ∀ front back, s = front ++ '%' :: back → ∃ b rest, '%' :: back = escape b ++ rest

theorem escaped_of_notMem {s : List Char} (h : '%' ∉ s) : Escaped s := by
  rintro front back rfl
  exact absurd (List.mem_append_right front List.mem_cons_self) h

theorem escaped_escape (b : UInt8) : Escaped (escape b) := by
  have hb : b.toNat < 256 := b.toNat_lt
  have hhex : ∀ n < 16, '%' ≠ hexDigit n := by decide
  intro front back h
  cases front with
  | nil => exact ⟨b, [], h ▸ (List.append_nil _).symm⟩
  | cons d front =>
    -- the digits behind the sign are none
    obtain ⟨-, hdigits⟩ := List.cons.inj h
    have hmem : '%' ∈ [hexDigit (b.toNat / 16), hexDigit (b.toNat % 16)] :=
      hdigits ▸ List.mem_append_right front List.mem_cons_self
    simp [hhex _ (show b.toNat / 16 < 16 by omega), hhex _ (show b.toNat % 16 < 16 by omega)] at hmem

theorem Escaped.append {s t : List Char} (hs : Escaped s) (ht : Escaped t) : Escaped (s ++ t) := by
  intro front back h
  rcases List.append_eq_append_iff.1 h with ⟨front', -, hfront⟩ | ⟨within, hwithin, hback⟩
  · exact ht front' back hfront
  · cases within with
    | nil => exact ht [] back hback.symm
    | cons c back' =>
      -- the sign stands in the first text, and its escape ends there
      obtain ⟨rfl, rfl⟩ := List.cons.inj hback
      obtain ⟨b, rest, hescape⟩ := hs front back' hwithin
      refine ⟨b, rest ++ t, ?_⟩
      show ('%' :: back') ++ t = _
      rw [hescape, List.append_assoc]

theorem escaped_escapes (bs : List UInt8) : Escaped (bs.flatMap escape) := by
  induction bs with
  | nil => exact escaped_of_notMem List.not_mem_nil
  | cons b bs ih => exact (escaped_escape b).append ih

theorem escaped_encode {inSet : Char → Bool} (h : inSet '%' = true) (s : List Char) : Escaped (encode inSet s) := by
  induction s with
  | nil => exact escaped_of_notMem List.not_mem_nil
  | cons c s ih =>
    refine Escaped.append ?_ ih
    unfold encodeChar
    split
    · rename_i hkept
      refine escaped_of_notMem fun hmem => ?_
      rw [← List.mem_singleton.1 hmem] at hkept
      simp [h] at hkept
    · exact escaped_escapes _

/-! ### Components in a path -/

/-- The characters of components. -/
def IsComponentChar (c : Char) : Prop := c.toNat < 0x80 ∧ (isUnreserved c = true ∨ c = '%')

instance (c : Char) : Decidable (IsComponentChar c) := inferInstanceAs (Decidable (_ ∧ _))

theorem isComponentChar_of_mem {s : List Char} {c : Char} (h : c ∈ encodeComponent s) : IsComponentChar c := by
  have hhex : ∀ n < 16, IsComponentChar (hexDigit n) := by decide
  rcases mem_encode h with ⟨-, hascii, hkept⟩ | rfl | ⟨n, hn, rfl⟩
  · exact ⟨hascii, .inl (by simpa using hkept)⟩
  · decide
  · exact hhex n hn

/-- What a component has no character of. -/
theorem IsComponentChar.free {c : Char} (h : IsComponentChar c) : VisibleChar c ∧ UrlPath.pathSet c = false ∧
    c ≠ '/' ∧ c ≠ '\\' ∧ c ≠ '?' ∧ c ≠ '#' ∧ c ≠ ':' ∧ c ≠ '|' := by
  have hascii := h.1
  revert h
  exact ascii_induction hascii (by decide)

theorem isDriveLetter_encodeComponent (s : List Char) : UrlPath.isDriveLetter (encodeComponent s) = false := by
  unfold UrlPath.isDriveLetter
  split
  · rename_i c d heq
    have hd : d ∈ encodeComponent s := by rw [heq]; simp
    have hfree := (isComponentChar_of_mem hd).free
    simp [hfree.2.2.2.2.2.2]
  · rfl

/-- An escaped or unescaped point is a point. -/
theorem decodeOctets_of_dropDot? {s r : List Char} (h : UrlPath.dropDot? s = some r) :
    decodeOctets s = 0x2E :: decodeOctets r := by
  unfold UrlPath.dropDot? at h
  split at h
  · cases h
    exact decodeOctets_cons (by decide) r
  · cases h
    rfl
  · cases h
    rfl
  · cases h

theorem eq_of_decodeOctets_eq {s t : List Char} (h : decodeOctets (encodeComponent s) = Utf8.encode t) : s = t := by
  rw [encodeComponent, decodeOctets_encode (by decide)] at h
  exact Option.some.inj ((Utf8.decode?_encode s).symm.trans (h ▸ Utf8.decode?_encode t))

theorem isSingleDot_encodeComponent {s : List Char} :
    UrlPath.isSingleDot (encodeComponent s) = true ↔ s = ['.'] := by
  constructor
  · intro h
    refine eq_of_decodeOctets_eq ?_
    rw [decodeOctets_of_dropDot? (of_decide_eq_true h)]
    rfl
  · rintro rfl
    decide

theorem isDoubleDot_encodeComponent {s : List Char} :
    UrlPath.isDoubleDot (encodeComponent s) = true ↔ s = ['.', '.'] := by
  constructor
  · intro h
    obtain ⟨r, hr, hdot⟩ := Option.bind_eq_some_iff.1 (of_decide_eq_true h)
    refine eq_of_decodeOctets_eq ?_
    rw [decodeOctets_of_dropDot? hr, decodeOctets_of_dropDot? hdot]
    rfl
  · rintro rfl
    decide

theorem free_encodeComponent (s : List Char) : ∀ c ∈ encodeComponent s, (c == '/' || c == '\\') = false := by
  intro c hc
  have hfree := (isComponentChar_of_mem hc).free
  simp [hfree.2.2.1, hfree.2.2.2.1]

theorem kept_encodeComponent (s : List Char) : Kept UrlPath.pathSet (encodeComponent s) :=
  fun _ hc => ⟨(isComponentChar_of_mem hc).1, (isComponentChar_of_mem hc).free.2.1⟩

/-- A component is a segment that is read as it is, unless its text means a directory. -/
theorem segment_encodeComponent {s : List Char} (hdot : s ≠ ['.']) (hdots : s ≠ ['.', '.']) :
    UrlPath.Segment (encodeComponent s) :=
  ⟨kept_encodeComponent s, free_encodeComponent s, Bool.not_eq_true _ ▸ mt isSingleDot_encodeComponent.1 hdot,
    Bool.not_eq_true _ ▸ mt isDoubleDot_encodeComponent.1 hdots⟩

end Percent

end Federation
