import Federation.Proofs.Url.Visible

/-!
# Hosts that read back

A host reads back if its written form is parsed to the host itself. A name in lower case without Punycode does: nothing
in it is escaped, every label is its own ASCII form, and being a name it is not taken for an address.
-/

namespace Federation

/-! ### ASCII octets -/

namespace Utf8

theorem encodeChar_ascii {c : Char} (h : c.toNat < 0x80) : String.utf8EncodeChar c = [UInt8.ofNat c.toNat] := by
  have hval : c.val.toNat ≤ 0x7F := Nat.le_of_lt_succ h
  unfold String.utf8EncodeChar
  dsimp only
  rw [if_pos hval]
  rfl

theorem next_ascii {c : Char} (h : c.toNat < 0x80) (bs : List UInt8) :
    next (UInt8.ofNat c.toNat) bs = (some c, bs) := by
  have hb : (UInt8.ofNat c.toNat).toNat = c.toNat := by
    rw [UInt8.toNat_ofNat']
    omega
  rw [next, lead?]
  simp only [hb, if_pos h, tail, Option.map_some, Char.ofNat_toNat]

theorem decode?_ascii {s : List Char} (h : ∀ c ∈ s, c.toNat < 0x80) :
    decode? (s.map fun c => UInt8.ofNat c.toNat) = some s := by
  induction s with
  | nil => rw [List.map_nil, decode?]
  | cons c s ih =>
    obtain ⟨hc, hs⟩ := List.forall_mem_cons.1 h
    rw [List.map_cons, decode?]
    split
    · rename_i hnext
      rw [next_ascii hc] at hnext
      cases hnext
    · rename_i hnext
      rw [next_ascii hc] at hnext
      cases hnext
      rw [ih hs]
      rfl

end Utf8

namespace Percent

/-- Without escapes, ASCII text is its octets. -/
theorem decodeOctets_of_plain {s : List Char} (h : ∀ c ∈ s, c.toNat < 0x80 ∧ c ≠ '%') :
    decodeOctets s = s.map fun c => UInt8.ofNat c.toNat := by
  induction s with
  | nil => rfl
  | cons c s ih =>
    have ⟨⟨hc, hne⟩, hs⟩ := List.forall_mem_cons.1 h
    rw [decodeOctets, ih hs, Utf8.encodeChar_ascii hc]
    · rfl
    · rintro a b r rfl -
      exact hne rfl

end Percent

/-! ### Names -/

theorem mapM_eq_some {α β : Type} {f : α → Option β} {g : α → β} {l : List α} (h : ∀ x ∈ l, f x = some (g x)) :
    l.mapM f = some (l.map g) := by
  induction l with
  | nil => rfl
  | cons x l ih =>
    have ⟨hx, hl⟩ := List.forall_mem_cons.1 h
    rw [List.mapM_cons, hx, ih hl]
    rfl

namespace Domain

/-- A name of labels in lower case, none of them in Punycode. -/
def Plain (d : List Char) : Prop :=
  (∀ c ∈ d, NameChar c ∧ c.toLower = c) ∧
    ∀ l ∈ Text.pieces (· == '.') d, Text.dropPrefix? ['x', 'n', '-', '-'] l = none

theorem toAscii?_plain {d : List Char} (h : Plain d) : toAscii? d = some d := by
  have hascii : ∀ c ∈ d, isAscii c = true := fun c hc => decide_eq_true (h.1 c hc).1.1
  have himages : d.mapM image? = some (d.map fun c => [c]) := by
    refine mapM_eq_some fun c hc => ?_
    rw [image?, if_pos (hascii c hc), (h.1 c hc).2]
  have hlabels : (Text.pieces (· == '.') d).mapM labelToAscii? = some (Text.pieces (· == '.') d) := by
    conv_rhs => rw [← List.map_id (Text.pieces (· == '.') d)]
    refine mapM_eq_some fun l hl => ?_
    have hchar : ∀ c ∈ l, NameChar c := fun c hc => (h.1 c (Text.mem_of_mem_pieces hl c hc).1).1
    have hall : l.all isAscii = true := List.all_eq_true.2 fun c hc => decide_eq_true (hchar c hc).1
    have hallowed : ¬l.any isForbidden = true := by
      rw [Bool.not_eq_true, List.any_eq_false]
      exact fun c hc => by simp [(hchar c hc).2]
    rw [labelToAscii?, h.2 l hl]
    dsimp only
    rw [if_pos hall, if_neg hallowed]
    rfl
  rw [toAscii?, himages]
  simp only [Option.bind_eq_bind, Option.bind_some, List.all_eq_true.2 hascii, if_true, ← List.flatMap_def,
    List.flatMap_singleton', hlabels]
  exact congrArg some (Text.join_pieces '.' d)

end Domain

namespace UrlHost

/-- The written form is parsed to the host itself, as that of a special scheme. -/
def ReadsBack (x : UrlHost) : Prop := ofSpecial x.text = .ok x

/-- A plain name. -/
def Plain : UrlHost → Prop
  | name d => Domain.Plain d
  | _ => False

theorem bracketed?_of_nameChar {d : List Char} (h : ∀ c ∈ d, Domain.NameChar c) : bracketed? d = none := by
  unfold bracketed?
  split
  · exact absurd (h '[' List.mem_cons_self).2 (by decide)
  · rfl

/-- A plain name that was parsed reads back. -/
theorem readsBack_of_plain {s : List Char} {x : UrlHost} (h : ofSpecial s = .ok x) (hplain : x.Plain) :
    x.ReadsBack := by
  rcases ofSpecial_cases h with ⟨pieces, rfl⟩ | ⟨n, rfl⟩ | ⟨d, rfl, hne, hnumber, hchars⟩
  · cases hplain
  · cases hplain
  · have hdomain : Domain.ofOctets? (Percent.decodeOctets d) = some d := by
      have hascii : ∀ c ∈ d, c.toNat < 0x80 ∧ c ≠ '%' := by
        refine fun c hc => ⟨(hchars c hc).1, ?_⟩
        rintro rfl
        exact absurd (hchars _ hc).2 (by decide)
      rw [Percent.decodeOctets_of_plain hascii, Domain.ofOctets?, Utf8.decode?_ascii fun c hc => (hascii c hc).1,
        Option.bind_some, Domain.toAscii?_plain hplain]
    unfold ReadsBack text ofSpecial
    dsimp only
    rw [bracketed?_of_nameChar hchars, hdomain]
    obtain ⟨c, r, rfl⟩ := List.exists_cons_of_ne_nil hne
    dsimp only
    rw [hnumber, if_neg Bool.false_ne_true]

end UrlHost

end Federation
