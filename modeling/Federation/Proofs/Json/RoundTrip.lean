import Mathlib.Data.List.Forall2
import Mathlib.Tactic.SplitIfs
import Federation.Json.Printer
import Federation.Json.Syntax

/-!
# Reading JSON text that was written

Every character comes back from the way in which `Json.quote` writes it, so a quoted text is read as itself,
whatever follows (`quoted?_quote`). `ReadsAs level j x` says that the written form of a value at a level of
nesting is read as the syntax `x`; an object is read as its members when each of their values is
(`ReadsAs.object`), so a document is put together from the parts that it is written from.

The fuel of the parser is spent on opening brackets and on commas, each of which is a character of the text, so
more fuel than characters is enough.
-/

namespace Federation

open JsonSyntax

/-! ### Strings -/

namespace JsonSyntax

theorem hexValue?_hexDigit : ∀ n < 16, Percent.hexValue? (Json.hexDigit n) = some n := by decide

theorem units?_short {e c : Char} (he : e ≠ 'u') (hc : shortEscape? e = some c) (s : List Char) :
    units? ('\\' :: e :: s) = (units? s).map fun p => (.char c :: p.1, p.2) := by
  rw [units?.eq_4 _ _ (fun _ _ _ _ _ h => absurd h he), hc]
  cases units? s <;> rfl

theorem units?_plain {c : Char} (hq : c ≠ '"') (hb : c ≠ '\\') (hc : ¬ c.toNat < 0x20) (s : List Char) :
    units? (c :: s) = (units? s).map fun p => (.char c :: p.1, p.2) := by
  rw [units?.eq_5 _ _ (fun h => absurd h hq) (fun _ _ _ _ _ h => absurd h hb) (fun _ _ h => absurd h hb),
    if_neg (by simp [hb, hc])]
  cases units? s <;> rfl

theorem units?_control {n : Nat} (hn : n < 0x20) (s : List Char) :
    units? ('\\' :: 'u' :: '0' :: '0' :: Json.hexDigit (n / 16) :: Json.hexDigit (n % 16) :: s) =
      (units? s).map fun p => (.code n :: p.1, p.2) := by
  have hcode : hex4? '0' '0' (Json.hexDigit (n / 16)) (Json.hexDigit (n % 16)) = some n := by
    have hzero : Percent.hexValue? '0' = some 0 := rfl
    rw [hex4?, hzero, hexValue?_hexDigit _ (by omega), hexValue?_hexDigit _ (by omega)]
    show some (((0 * 16 + 0) * 16 + n / 16) * 16 + n % 16) = some n
    congr 1
    omega
  rw [units?, hcode]
  cases units? s <;> rfl

theorem textOfUnits_char (c : Char) (us : List Unit16) :
    textOfUnits (.char c :: us) = (textOfUnits us).map (c :: ·) := rfl

theorem textOfUnits_control {c : Char} (hc : c.toNat < 0x20) (us : List Unit16) :
    textOfUnits (.code c.toNat :: us) = (textOfUnits us).map (c :: ·) := by
  rw [textOfUnits.eq_def]
  show (if _ then _ else _) = _
  rw [if_neg (by omega), if_neg (by omega), Char.ofNat_toNat]

/-- The written form of a character is one unit, which stands for that character. -/
theorem units?_escapeChar (c : Char) :
    ∃ u, (∀ s, units? (Json.escapeChar c ++ s) = (units? s).map fun p => (u :: p.1, p.2)) ∧
      ∀ us, textOfUnits (u :: us) = (textOfUnits us).map (c :: ·) := by
  unfold Json.escapeChar
  split_ifs with h1 h2 h3 h4 h5 h6 h7 h8
  all_goals try subst c
  · exact ⟨.char '"', units?_short (by decide) rfl, textOfUnits_char _⟩
  · exact ⟨.char '\\', units?_short (by decide) rfl, textOfUnits_char _⟩
  · exact ⟨.char '\x08', units?_short (by decide) rfl, textOfUnits_char _⟩
  · exact ⟨.char '\x0c', units?_short (by decide) rfl, textOfUnits_char _⟩
  · exact ⟨.char '\n', units?_short (by decide) rfl, textOfUnits_char _⟩
  · exact ⟨.char '\r', units?_short (by decide) rfl, textOfUnits_char _⟩
  · exact ⟨.char '\t', units?_short (by decide) rfl, textOfUnits_char _⟩
  · exact ⟨.code c.toNat, units?_control h8, textOfUnits_control h8⟩
  · exact ⟨.char c, units?_plain h1 h2 h8, textOfUnits_char _⟩

theorem units?_escaped (s r : List Char) :
    ∃ us, units? (s.flatMap Json.escapeChar ++ '"' :: r) = some (us, r) ∧ textOfUnits us = some s := by
  induction s with
  | nil => exact ⟨[], rfl, rfl⟩
  | cons c s ih =>
    obtain ⟨us, hus, htext⟩ := ih
    obtain ⟨u, hread, hu⟩ := units?_escapeChar c
    refine ⟨u :: us, ?_, by rw [hu, htext]; rfl⟩
    rw [List.flatMap_cons, List.append_assoc, hread, hus]
    rfl

/-- A quoted text is read as itself, up to its closing quote. -/
theorem quoted?_quote (s : String) (r : List Char) :
    ∃ q, Json.quote s.toList ++ r = '"' :: q ∧ quoted? q = some (some s, r) := by
  obtain ⟨us, hus, htext⟩ := units?_escaped s.toList r
  refine ⟨s.toList.flatMap Json.escapeChar ++ '"' :: r, by simp [Json.quote], ?_⟩
  simp only [quoted?, hus, Option.map_some, htext, String.ofList_toList]

/-! ### Blanks -/

theorem skipSpace_cons {c : Char} (hc : isSpace c = false) (s : List Char) : skipSpace (c :: s) = c :: s := by
  rw [skipSpace, List.dropWhile_cons_of_neg (by simp [hc])]

theorem skipSpace_blank (s : List Char) : skipSpace (' ' :: s) = skipSpace s := rfl

theorem skipSpace_newline (level : Nat) (s : List Char) :
    skipSpace (Json.newline level ++ s) = skipSpace s := by
  refine List.dropWhile_append_of_pos fun c hc => ?_
  rcases List.mem_cons.1 hc with rfl | hc
  · rfl
  · rw [List.eq_of_mem_replicate hc]
    rfl

end JsonSyntax

/-! ### Values -/

namespace Json

/-- The written form of `j` at a level of nesting is read as `x`, whatever follows it. -/
def ReadsAs (level : Nat) (j : Json) (x : JsonSyntax) : Prop :=
  ∀ fuel r, (prettyAt level j).length < fuel → parseValue fuel (skipSpace (prettyAt level j ++ r)) = some (x, r)

theorem ReadsAs.string (level : Nat) (s : String) : ReadsAs level (.string s) (.string (some s)) := by
  intro fuel r hfuel
  obtain ⟨q, hq, hread⟩ := quoted?_quote s r
  rw [prettyAt, hq, skipSpace_cons rfl]
  match fuel, hfuel with
  | fuel + 1, _ => rw [parseValue, hread, Option.map_some]

/-- A member of an object is read as a member of its syntax. -/
structure MemberReadsAs (level : Nat) (m : String × Json) (x : Option String × JsonSyntax) : Prop where
  key : x.1 = some m.1
  value : ReadsAs (level + 1) m.2 x.2

theorem MemberReadsAs.string (level : Nat) (k s : String) :
    MemberReadsAs level (k, .string s) (some k, .string (some s)) :=
  ⟨rfl, .string (level + 1) s⟩

/-- The written form of a member, without what stands around it. -/
def memberText (level : Nat) (m : String × Json) : List Char :=
  quote m.1.toList ++ ':' :: ' ' :: prettyAt (level + 1) m.2

section
variable {level fuel : Nat} {m : String × Json} {x : Option String × JsonSyntax}

theorem skipSpace_memberText (level : Nat) (m : String × Json) (r : List Char) :
    skipSpace (memberText level m ++ r) = memberText level m ++ r := by
  rw [memberText, quote, List.cons_append, List.cons_append, skipSpace_cons rfl]

/-- After a member that is read comes the end of the object or another member. -/
theorem parseMembers_memberText (h : MemberReadsAs level m x) (hfuel : (memberText level m).length ≤ fuel)
    (r : List Char) :
    parseMembers (fuel + 1) (memberText level m ++ r) =
      match skipSpace r with
      | '\x7d' :: r => some ([x], r)
      | ',' :: r => (parseMembers fuel (skipSpace r)).bind fun p => some (x :: p.1, p.2)
      | _ => none := by
  obtain ⟨k, x⟩ := x
  obtain ⟨rfl, hx⟩ := h
  obtain ⟨q, hq, hread⟩ := quoted?_quote m.1 (':' :: ' ' :: (prettyAt (level + 1) m.2 ++ r))
  have hvalue := hx fuel r (by simp only [memberText, List.length_append, List.length_cons] at hfuel; omega)
  have htext : memberText level m ++ r = '"' :: q := by rw [← hq, memberText]; simp
  rw [htext, parseMembers]
  have hcolon (t : List Char) : skipSpace (':' :: t) = ':' :: t := rfl
  simp only [hread, Option.bind_eq_bind, Option.bind_some, hcolon, skipSpace_blank, hvalue]
  generalize skipSpace r = t
  split
  · rfl
  · rfl
  · simp_all

theorem parseMembers_of_forall₂ {ms : List (String × Json)} {xs : List (Option String × JsonSyntax)}
    (hm : MemberReadsAs level m x) (hms : List.Forall₂ (MemberReadsAs level) ms xs) (r : List Char)
    (hfuel : (memberText level m).length + (prettyMembers level ms).length < fuel) :
    parseMembers fuel (memberText level m ++ (prettyMembers level ms ++ r)) = some (x :: xs, r) := by
  induction hms generalizing m x fuel with
  | nil =>
    obtain ⟨fuel, rfl⟩ := Nat.exists_eq_add_one_of_ne_zero (Nat.ne_of_gt (Nat.zero_lt_of_lt hfuel))
    rw [parseMembers_memberText hm (by omega), prettyMembers, List.append_assoc, skipSpace_newline]
    rfl
  | @cons m' x' ms xs hm' hms ih =>
    have htext : prettyMembers level (m' :: ms) =
        ',' :: (newline (level + 1) ++ memberText level m' ++ prettyMembers level ms) := by
      simp [prettyMembers, memberText]
    rw [htext] at hfuel ⊢
    simp only [List.length_cons, List.length_append] at hfuel
    obtain ⟨fuel, rfl⟩ := Nat.exists_eq_add_one_of_ne_zero (Nat.ne_of_gt (Nat.zero_lt_of_lt hfuel))
    rw [parseMembers_memberText hm (by omega), List.cons_append, skipSpace_cons rfl]
    simp only [List.append_assoc, skipSpace_newline, skipSpace_memberText]
    rw [ih hm' (by omega), Option.bind_some]

/-- An object is read as the object of its members. -/
theorem ReadsAs.object {ms : List (String × Json)} {xs : List (Option String × JsonSyntax)}
    (h : List.Forall₂ (MemberReadsAs level) ms xs) : ReadsAs level (.object ms) (.object xs) := by
  intro fuel r hfuel
  obtain ⟨fuel, rfl⟩ := Nat.exists_eq_add_one_of_ne_zero (Nat.ne_of_gt (Nat.zero_lt_of_lt hfuel))
  cases h with
  | nil => rfl
  | @cons m x ms xs hm hms =>
    have htext : prettyAt level (.object (m :: ms)) =
        '\x7b' :: (newline (level + 1) ++ (memberText level m ++ prettyMembers level ms)) := by
      simp [prettyAt, memberText]
    rw [htext] at hfuel ⊢
    simp only [List.length_cons, List.length_append] at hfuel
    rw [List.cons_append, skipSpace_cons rfl, parseValue, List.append_assoc, skipSpace_newline, List.append_assoc,
      skipSpace_memberText]
    split
    · rename_i heq
      rw [memberText, quote, List.cons_append, List.cons_append] at heq
      cases heq
    · rw [parseMembers_of_forall₂ hm hms r (by omega), Option.map_some]

end

/-- The text of a document is read as its syntax. -/
theorem ReadsAs.parse?_pretty {j : Json} {x : JsonSyntax} (h : ReadsAs 0 j x) :
    JsonSyntax.parse? j.pretty.toList = some x := by
  have hread := h ((prettyAt 0 j).length + 1) [] (Nat.lt_succ_self _)
  rw [List.append_nil] at hread
  rw [pretty, String.toList_ofList, JsonSyntax.parse?, hread]
  rfl

end Json

end Federation
