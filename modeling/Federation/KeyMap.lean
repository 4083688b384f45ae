/-!
# Finite maps in key order

A `KeyMap α` maps finitely many texts to values of `α`. Its entries are kept strictly increasing by key (the
order of code points, which is also the order of UTF-8 octets), and that invariant is part of the type: two
maps are equal exactly when their entries are, and listing a map needs no sorting.
-/

namespace Federation

/-- Entries whose keys strictly increase. -/
def KeySorted {α : Type} (es : List (String × α)) : Prop := es.Pairwise fun a b => a.1 < b.1

/-- A finite map from texts, listed in key order. -/
structure KeyMap (α : Type) where
  /-- The entries, least key first. -/
  entries : List (String × α)
  sorted : KeySorted entries

namespace KeyMap
variable {α : Type}

@[ext] theorem ext {m n : KeyMap α} (h : m.entries = n.entries) : m = n := by
  cases m; cases n; cases h; rfl

instance [DecidableEq α] : DecidableEq (KeyMap α) := fun m n =>
  if h : m.entries = n.entries then isTrue (ext h) else isFalse fun e => h (e ▸ rfl)

/-- The map without entries. -/
def empty : KeyMap α := ⟨[], List.Pairwise.nil⟩

instance : Inhabited (KeyMap α) := ⟨empty⟩

/-- Puts `(k, v)` in its place, over an entry of the same key. -/
def insertEntry (k : String) (v : α) : List (String × α) → List (String × α)
  | [] => [(k, v)]
  | e :: es => if k < e.1 then (k, v) :: e :: es else if k = e.1 then (k, v) :: es else e :: insertEntry k v es

theorem mem_insertEntry {k : String} {v : α} {es : List (String × α)} {e : String × α}
    (h : e ∈ insertEntry k v es) : e = (k, v) ∨ e ∈ es := by
  induction es with
  | nil => simpa [insertEntry] using h
  | cons a es ih =>
    rw [insertEntry] at h
    split at h
    · simpa using h
    · split at h
      · rcases List.mem_cons.1 h with h | h
        · exact .inl h
        · exact .inr (List.mem_cons_of_mem _ h)
      · rcases List.mem_cons.1 h with h | h
        · exact .inr (h ▸ List.mem_cons_self)
        · exact (ih h).imp_right (List.mem_cons_of_mem _)

theorem KeySorted.insertEntry {k : String} {v : α} {es : List (String × α)} (h : KeySorted es) :
    KeySorted (insertEntry k v es) := by
  induction es with
  | nil => exact List.pairwise_singleton ..
  | cons a es ih =>
    have ⟨ha, hes⟩ := List.pairwise_cons.1 h
    rw [KeyMap.insertEntry]
    split
    · rename_i hk
      refine List.pairwise_cons.2 ⟨fun b hb => ?_, h⟩
      rcases List.mem_cons.1 hb with rfl | hb
      · exact hk
      · exact String.lt_trans hk (ha b hb)
    · split
      · rename_i _ hk
        exact List.pairwise_cons.2 ⟨fun b hb => hk ▸ ha b hb, hes⟩
      · rename_i h1 h2
        refine List.pairwise_cons.2 ⟨fun b hb => ?_, ih hes⟩
        rcases mem_insertEntry hb with rfl | hb
        · have hle : a.1 ≤ k := String.not_lt.1 h1
          rcases Decidable.em (a.1 < k) with hlt | hge
          · exact hlt
          · exact absurd (String.le_antisymm (String.not_lt.1 hge) hle) h2
        · exact ha b hb

/-- The map with `k` set to `v`. -/
def insert (m : KeyMap α) (k : String) (v : α) : KeyMap α :=
  ⟨insertEntry k v m.entries, KeySorted.insertEntry m.sorted⟩

/-- The value of the first entry with key `k`. -/
def findEntry (k : String) : List (String × α) → Option α
  | [] => none
  | e :: es => if k = e.1 then some e.2 else findEntry k es

/-- The value at `k`. -/
def get? (m : KeyMap α) (k : String) : Option α := findEntry k m.entries

/-- Whether `k` has a value. -/
def contains (m : KeyMap α) (k : String) : Bool := (m.get? k).isSome

/-- The keys, in order. -/
def keys (m : KeyMap α) : List String := m.entries.map (·.1)

/-- The map of a list of entries; of two entries with one key the later stays. -/
def ofList (es : List (String × α)) : KeyMap α := es.foldl (fun m e => m.insert e.1 e.2) empty

/-- The map without `k`. -/
def erase (m : KeyMap α) (k : String) : KeyMap α :=
  ⟨m.entries.filter (·.1 ≠ k), m.sorted.filter _⟩

theorem findEntry_insertEntry (k k' : String) (v : α) (es : List (String × α)) :
    findEntry k' (insertEntry k v es) = if k' = k then some v else findEntry k' es := by
  induction es with
  | nil => rfl
  | cons a es ih =>
    rw [insertEntry]
    split
    · rfl
    · split
      · rename_i _ hk
        by_cases h : k' = k <;> simp_all [findEntry]
      · rename_i _ hk
        by_cases h : k' = k
        · subst h; simp [findEntry, hk, ih]
        · simp [findEntry, h, ih]

theorem insertEntry_of_lt {k : String} {v : α} {es : List (String × α)} (h : ∀ e ∈ es, e.1 < k) :
    insertEntry k v es = es ++ [(k, v)] := by
  induction es with
  | nil => rfl
  | cons a es ih =>
    have ha : a.1 < k := h a List.mem_cons_self
    rw [insertEntry, if_neg fun hk => String.lt_irrefl _ (String.lt_trans ha hk),
      if_neg fun hk => String.lt_irrefl _ (hk ▸ ha), ih fun e he => h e (List.mem_cons_of_mem _ he), List.cons_append]

/-- Entries that go on where a map ends are put behind it. -/
theorem entries_foldl_insert {m : KeyMap α} {es : List (String × α)} (h : KeySorted (m.entries ++ es)) :
    (es.foldl (fun m e => m.insert e.1 e.2) m).entries = m.entries ++ es := by
  induction es generalizing m with
  | nil => rw [List.append_nil, List.foldl_nil]
  | cons e es ih =>
    have hlast : (m.insert e.1 e.2).entries = m.entries ++ [e] :=
      insertEntry_of_lt fun a ha => (List.pairwise_append.1 h).2.2 a ha e List.mem_cons_self
    rw [List.foldl_cons, ih, hlast, List.append_assoc, List.singleton_append]
    rwa [hlast, List.append_assoc, List.singleton_append]

theorem ofList_entries (m : KeyMap α) : ofList m.entries = m := by
  refine ext ?_
  rw [ofList, entries_foldl_insert (m := empty) m.sorted]
  rfl

theorem mem_of_mem_ofList {es : List (String × α)} {e : String × α} (h : e ∈ (ofList es).entries) : e ∈ es := by
  have hfold : ∀ m : KeyMap α, e ∈ (es.foldl (fun m e => m.insert e.1 e.2) m).entries → e ∈ m.entries ∨ e ∈ es := by
    clear h
    induction es with
    | nil => exact fun m hm => .inl hm
    | cons a es ih =>
      intro m hm
      rcases ih _ hm with hm | hes
      · rcases mem_insertEntry hm with rfl | hm
        · exact .inr List.mem_cons_self
        · exact .inl hm
      · exact .inr (List.mem_cons_of_mem _ hes)
  exact (hfold empty h).resolve_left List.not_mem_nil

theorem findEntry_eq_none {k : String} {es : List (String × α)} (h : k ∉ es.map (·.1)) : findEntry k es = none := by
  induction es with
  | nil => rfl
  | cons e es ih =>
    rw [List.map_cons, List.mem_cons, not_or] at h
    rw [findEntry, if_neg h.1, ih h.2]

theorem findEntry_eq_some {k : String} {v : α} {es : List (String × α)} (h : (es.map (·.1)).Nodup) :
    findEntry k es = some v ↔ (k, v) ∈ es := by
  induction es with
  | nil => exact iff_of_false nofun List.not_mem_nil
  | cons e es ih =>
    have ⟨hfresh, hes⟩ := List.nodup_cons.1 h
    rw [findEntry, List.mem_cons]
    split
    · rename_i hk
      subst hk
      have hnot : (e.1, v) ∉ es := fun hmem => hfresh (List.mem_map.2 ⟨_, hmem, rfl⟩)
      simp [hnot, Prod.ext_iff, eq_comm]
    · rename_i hk
      simp [ih hes, Prod.ext_iff, hk]

theorem mem_of_findEntry {k : String} {v : α} {es : List (String × α)} (h : findEntry k es = some v) : (k, v) ∈ es := by
  induction es with
  | nil => cases h
  | cons e es ih =>
    rw [findEntry] at h
    split at h
    · rename_i hk
      cases h
      exact hk ▸ List.mem_cons_self
    · exact List.mem_cons_of_mem _ (ih h)

theorem mem_of_get? {m : KeyMap α} {k : String} {v : α} (h : m.get? k = some v) : (k, v) ∈ m.entries :=
  mem_of_findEntry h

theorem nodup_keys (m : KeyMap α) : (m.entries.map (·.1)).Nodup := by
  refine List.pairwise_map.2 (m.sorted.imp fun h heq => ?_)
  exact String.lt_irrefl _ (heq ▸ h)

theorem get?_of_mem {m : KeyMap α} {k : String} {v : α} (h : (k, v) ∈ m.entries) : m.get? k = some v :=
  (findEntry_eq_some m.nodup_keys).2 h

theorem get?_foldl_insert {k : String} {es : List (String × α)} (h : (es.map (·.1)).Nodup) (m : KeyMap α) :
    (es.foldl (fun m e => m.insert e.1 e.2) m).get? k = (findEntry k es).or (m.get? k) := by
  induction es generalizing m with
  | nil => rfl
  | cons e es ih =>
    have ⟨hfresh, hes⟩ := List.nodup_cons.1 h
    rw [List.foldl_cons, ih hes, findEntry, get?, insert, findEntry_insertEntry]
    split
    · rename_i hk
      rw [findEntry_eq_none (hk ▸ hfresh)]
      rfl
    · rfl

/-- A map of entries with different keys holds each of them and nothing else. -/
theorem get?_ofList {k : String} {v : α} {es : List (String × α)} (h : (es.map (·.1)).Nodup) :
    (ofList es).get? k = some v ↔ (k, v) ∈ es := by
  rw [ofList, get?_foldl_insert h, ← findEntry_eq_some h]
  cases findEntry k es <;> simp [get?, empty, findEntry]

@[simp] theorem get?_insert (m : KeyMap α) (k k' : String) (v : α) :
    (m.insert k v).get? k' = if k' = k then some v else m.get? k' :=
  findEntry_insertEntry ..

@[simp] theorem get?_empty (k : String) : (empty : KeyMap α).get? k = none := rfl

end KeyMap

end Federation
