import Federation.Json.Syntax

/-!
# Members of parsed objects

A repeated member of an object takes the place of the earlier one, so the members of a parsed object have different
keys, and so have those of the objects in it.
-/

namespace Federation

namespace Json

variable {key : String} {v : Json} {ms : List (String × Json)} {e : String × Json}

theorem mem_setMember (h : e ∈ setMember key v ms) : e = (key, v) ∨ e ∈ ms := by
  induction ms with
  | nil => exact .inl (List.mem_singleton.1 h)
  | cons m ms ih =>
    rw [setMember] at h
    split at h
    · exact (List.mem_cons.1 h).imp_right (List.mem_cons_of_mem _)
    · rcases List.mem_cons.1 h with rfl | h
      · exact .inr List.mem_cons_self
      · exact (ih h).imp_right (List.mem_cons_of_mem _)

theorem nodup_setMember (h : (ms.map (·.1)).Nodup) : ((setMember key v ms).map (·.1)).Nodup := by
  induction ms with
  | nil => exact List.nodup_cons.2 ⟨List.not_mem_nil, List.nodup_nil⟩
  | cons m ms ih =>
    have ⟨hfresh, hms⟩ := List.nodup_cons.1 h
    rw [setMember]
    split
    · rename_i hk
      exact List.nodup_cons.2 ⟨hk ▸ hfresh, hms⟩
    · rename_i hk
      refine List.nodup_cons.2 ⟨fun hmem => ?_, ih hms⟩
      obtain ⟨e, he, hem⟩ := List.mem_map.1 hmem
      rcases mem_setMember he with rfl | he
      · exact hk hem.symm
      · exact hfresh (hem ▸ List.mem_map_of_mem he)

end Json

namespace JsonSyntax

variable {depth : Nat} {x : JsonSyntax} {acc es : List (String × Json)} {ms : List (Option String × JsonSyntax)}

/-- Whether a value was read from a text. -/
def IsValue (v : Json) : Prop := ∃ depth x, valueWithin depth x = some v

theorem membersWithin_eq_some (h : membersWithin depth acc ms = some es) (hacc : (acc.map (·.1)).Nodup)
    (hvalues : ∀ e ∈ acc, IsValue e.2) : (es.map (·.1)).Nodup ∧ ∀ e ∈ es, IsValue e.2 := by
  induction ms generalizing acc with
  | nil =>
    rw [membersWithin] at h
    cases h
    exact ⟨hacc, hvalues⟩
  | cons m ms ih =>
    rw [membersWithin] at h
    obtain ⟨k, -, h⟩ := Option.bind_eq_some_iff.1 h
    obtain ⟨v, hv, h⟩ := Option.bind_eq_some_iff.1 h
    refine ih h (Json.nodup_setMember hacc) fun e he => ?_
    rcases Json.mem_setMember he with rfl | he
    · exact ⟨depth, m.2, hv⟩
    · exact hvalues e he

theorem valueWithin_eq_object (h : valueWithin depth x = some (.object es)) :
    (es.map (·.1)).Nodup ∧ ∀ e ∈ es, IsValue e.2 := by
  cases x with
  | null | bool => rw [valueWithin] at h; cases h
  | number n =>
    rw [valueWithin] at h
    cases hn : n.value? <;> rw [hn] at h <;> cases h
  | string s =>
    rw [valueWithin] at h
    cases s <;> cases h
  | array xs =>
    cases depth with
    | zero => rw [valueWithin] at h; cases h
    | succ depth =>
      rw [valueWithin] at h
      obtain ⟨vs, -, h⟩ := Option.map_eq_some_iff.1 h
      cases h
  | object ms =>
    cases depth with
    | zero => rw [valueWithin] at h; cases h
    | succ depth =>
      rw [valueWithin] at h
      obtain ⟨es', hes', h⟩ := Option.map_eq_some_iff.1 h
      cases h
      exact membersWithin_eq_some hes' List.nodup_nil nofun

end JsonSyntax

namespace Json

variable {text key : String} {x : Json} {es : List (String × Json)}

/-- An object under a key of a parsed text has different keys. -/
theorem nodup_of_member (h : parse? text = some x) (hmember : x.member? key = some (.object es)) :
    (es.map (·.1)).Nodup := by
  obtain ⟨syntax_, -, hx⟩ := Option.bind_eq_some_iff.1 h
  cases x with
  | object ms =>
    obtain ⟨e, he, hes⟩ := Option.map_eq_some_iff.1 hmember
    obtain ⟨depth, y, hy⟩ := (JsonSyntax.valueWithin_eq_object hx).2 e (List.mem_of_find?_eq_some he)
    exact (JsonSyntax.valueWithin_eq_object (hes ▸ hy)).1
  | null | bool | number | string | array => cases hmember

end Json

end Federation
