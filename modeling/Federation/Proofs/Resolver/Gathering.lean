import Mathlib.Data.List.Basic
import Mathlib.Data.List.Range
import Federation.Resolver

/-!
# Gathering outcomes as they come

The calls of a resolution run together and end in any order. `Gathering` holds the outcomes that came in, each at
the place of its dependency, and, strictly, the first failure that came in, after which nothing more is awaited.

`Holds os done g` says what a gathering knows once the calls at the places `done` have ended, where `os` is what
becomes of each call. Either nothing failed that counts, and the slots hold exactly the outcomes of `done`; or a
call of `done` failed, and its failure is the answer. Each end of a call keeps this (`Holds.finish`), so it holds
of every order of ends, and when all calls have ended there is an answer (`answer?_run`).
-/

namespace Federation

namespace Outcome

def remotes : Outcome → List Remote
  | .ok r => r.toList
  | .error _ => []

def error? : Outcome → Option Error
  | .ok _ => none
  | .error e => some e

variable {os : List Outcome}

theorem error?_eq_some {o : Outcome} {e : Error} : o.error? = some e ↔ o = .error e := by
  cases o <;> simp [error?]

theorem leniently_eq_flatMap (os : List Outcome) : leniently os = os.flatMap remotes := by
  induction os with
  | nil => rfl
  | cons o os ih =>
    rw [List.flatMap_cons, ← ih]
    match o with
    | .ok none | .ok (some r) | .error e => rfl

theorem strictly_of_ok (h : ∀ o ∈ os, o.error? = none) : strictly os = .ok (leniently os) := by
  induction os with
  | nil => rfl
  | cons o os ih =>
    have hos := ih fun o' ho' => h o' (List.mem_cons_of_mem _ ho')
    match o, h o List.mem_cons_self with
    | .ok none, _ | .ok (some r), _ => rw [strictly, hos]; rfl

/-- A strict answer is a failure exactly when something failed. -/
theorem strictly_cases (os : List Outcome) :
    (∃ e, .error e ∈ os ∧ strictly os = .error e) ∨
    ((∀ o ∈ os, o.error? = none) ∧ strictly os = .ok (leniently os)) := by
  by_cases h : ∀ o ∈ os, o.error? = none
  · exact .inr ⟨h, strictly_of_ok h⟩
  · refine .inl ?_
    induction os with
    | nil => exact absurd (fun _ ho => nomatch ho) h
    | cons o os ih =>
      match o with
      | .error e => exact ⟨e, List.mem_cons_self, rfl⟩
      | .ok r =>
        obtain ⟨e, he, hs⟩ := ih fun hos => h (List.forall_mem_cons.2 ⟨rfl, hos⟩)
        exact ⟨e, List.mem_cons_of_mem _ he, by rw [strictly, hs]; rfl⟩

end Outcome

/-- Calls that run together, and what came of those that have ended. -/
structure Gathering where
  /-- Whether a failure ends the whole. -/
  strict : Bool
  /-- The outcomes, in the order of the dependencies. -/
  slots : List (Option Outcome)
  failure : Option Error

namespace Gathering

def start (strict : Bool) (n : Nat) : Gathering := ⟨strict, List.replicate n none, none⟩

/-- The call at the place `i` ends. After a failure that ended the whole nobody waits for it. -/
def finish (g : Gathering) (i : Nat) (o : Outcome) : Gathering :=
  match g.failure with
  | some _ => g
  | none => { g with slots := g.slots.set i (some o), failure := if g.strict then o.error? else none }

/-- Of the calls that come to `os`, the one at the place `i` ends. -/
def step (os : List Outcome) (g : Gathering) (i : Nat) : Gathering :=
  match os[i]? with
  | some o => g.finish i o
  | none => g

/-- Calls that come to `os` end in an order. -/
def run (os : List Outcome) (g : Gathering) (order : List Nat) : Gathering := order.foldl (step os) g

/-- The answer of the whole, as soon as it is certain. -/
def answer? (g : Gathering) : Option (Except Error (List Remote)) :=
  match g.failure with
  | some e => some (.error e)
  | none => (g.slots.mapM id).map fun os => if g.strict then Outcome.strictly os else .ok (Outcome.leniently os)

variable {g : Gathering} {os : List Outcome} {done order : List Nat} {i : Nat} {o : Outcome} {strict : Bool}

/-- What is known when the calls at the places `done` have ended. -/
inductive Holds (os : List Outcome) (done : List Nat) (g : Gathering) : Prop
  | waiting (failure : g.failure = none)
      (slots : ∀ j, g.slots[j]? = os[j]?.map fun o => if j ∈ done then some o else none)
      (sound : g.strict = true → ∀ j ∈ done, ∀ o, os[j]? = some o → o.error? = none)
  | failed (e : Error) (failure : g.failure = some e) (strict : g.strict = true) (mem : .error e ∈ os)

theorem Holds.start (strict : Bool) (os : List Outcome) : Holds os [] (start strict os.length) := by
  refine .waiting rfl (fun j => ?_) (fun _ _ hj => nomatch hj)
  rw [Gathering.start, List.getElem?_replicate]
  split
  · rename_i hj
    rw [List.getElem?_eq_getElem hj]
    rfl
  · rename_i hj
    rw [List.getElem?_eq_none (Nat.le_of_not_lt hj)]
    rfl

theorem getElem?_set_slots (hslots : ∀ j, g.slots[j]? = os[j]?.map fun o => if j ∈ done then some o else none)
    (ho : os[i]? = some o) (j : Nat) :
    (g.slots.set i (some o))[j]? = os[j]?.map fun o => if j ∈ i :: done then some o else none := by
  have hi : i < g.slots.length := by
    by_contra hlt
    have hnone := hslots i
    rw [List.getElem?_eq_none (Nat.le_of_not_lt hlt), ho] at hnone
    cases hnone
  rw [List.getElem?_set]
  split
  · rename_i hij
    subst hij
    rw [ho, Option.map_some, if_pos List.mem_cons_self]
  · rename_i hij
    rw [hslots]
    simp [Ne.symm hij]

theorem Holds.finish (h : Holds os done g) (ho : os[i]? = some o) : Holds os (i :: done) (g.finish i o) := by
  cases h with
  | failed e hfail hstrict hmem =>
    rw [Gathering.finish, hfail]
    exact .failed e hfail hstrict hmem
  | waiting hfail hslots hsound =>
    rw [Gathering.finish, hfail]
    by_cases hstrict : g.strict = true
    · cases he : o.error? with
      | some e =>
        obtain rfl := Outcome.error?_eq_some.1 he
        exact .failed e (if_pos hstrict) hstrict (List.mem_of_getElem? ho)
      | none =>
        refine .waiting (if_pos hstrict) (getElem?_set_slots hslots ho) (fun _ j hj o' ho' => ?_)
        rcases List.mem_cons.1 hj with rfl | hj
        · rw [ho] at ho'
          cases ho'
          exact he
        · exact hsound hstrict j hj o' ho'
    · exact .waiting (if_neg hstrict) (getElem?_set_slots hslots ho) (fun hs => absurd hs hstrict)

theorem Holds.step (h : Holds os done g) (i : Nat) : Holds os (i :: done) (step os g i) := by
  unfold Gathering.step
  cases ho : os[i]? with
  | some o => exact h.finish ho
  | none =>
    -- A place without a call changes nothing, and nothing is known of it.
    cases h with
    | failed e hfail hstrict hmem => exact .failed e hfail hstrict hmem
    | waiting hfail hslots hsound =>
      refine .waiting hfail (fun j => ?_) (fun hstrict j hj o ho' => ?_)
      · rw [hslots]
        by_cases hij : j = i
        · rw [hij, ho]
          rfl
        · simp [hij]
      · rcases List.mem_cons.1 hj with rfl | hj
        · rw [ho] at ho'
          cases ho'
        · exact hsound hstrict j hj o ho'

theorem Holds.run (h : Holds os done g) (order : List Nat) : Holds os (order.reverse ++ done) (run os g order) := by
  induction order generalizing g done with
  | nil => exact h
  | cons i order ih =>
    rw [List.reverse_cons, List.append_assoc, List.singleton_append]
    exact ih (h.step i)

theorem strict_step (os : List Outcome) (g : Gathering) (i : Nat) : (step os g i).strict = g.strict := by
  unfold step finish
  cases os[i]? <;> cases g.failure <;> rfl

theorem strict_run (os : List Outcome) (g : Gathering) (order : List Nat) : (run os g order).strict = g.strict := by
  induction order generalizing g with
  | nil => rfl
  | cons i order ih => exact (ih _).trans (strict_step os g i)

variable (os) in
/-- When all calls have ended there is an answer: without a failure that counts it is the remotes of all, and a
strict failure is that of one of the calls. -/
theorem answer?_run (strict : Bool) (horder : ∀ i < os.length, i ∈ order) :
    ((strict = true → ∀ o ∈ os, o.error? = none) ∧
      (run os (start strict os.length) order).answer? = some (.ok (Outcome.leniently os))) ∨
    (strict = true ∧ ∃ e, .error e ∈ os ∧ (run os (start strict os.length) order).answer? = some (.error e)) := by
  have hstrict : (run os (start strict os.length) order).strict = strict := strict_run ..
  cases (Holds.start strict os).run order with
  | failed e hfail hs hmem => exact .inr ⟨hstrict ▸ hs, e, hmem, by rw [answer?, hfail]⟩
  | waiting hfail hslots hsound =>
    rw [List.append_nil] at hslots hsound
    have hall (o : Outcome) (ho : o ∈ os) : ∃ i ∈ order.reverse, os[i]? = some o := by
      obtain ⟨i, hi, rfl⟩ := List.mem_iff_getElem.1 ho
      exact ⟨i, List.mem_reverse.2 (horder i hi), List.getElem?_eq_getElem hi⟩
    have hok (hs : strict = true) (o : Outcome) (ho : o ∈ os) : o.error? = none := by
      obtain ⟨i, hi, hio⟩ := hall o ho
      exact hsound (hstrict.trans hs) i hi o hio
    have hfull : (run os (start strict os.length) order).slots = os.map some := by
      refine List.ext_getElem? fun i => ?_
      rw [hslots, List.getElem?_map]
      cases hi : os[i]? with
      | none => rfl
      | some o =>
        have hlt : i < os.length := (List.getElem?_eq_some_iff.1 hi).1
        rw [Option.map_some, if_pos (List.mem_reverse.2 (horder i hlt)), Option.map_some]
    have hgathered : (os.map some).mapM id = some os := by
      rw [List.mapM_map]
      exact (List.mapM_pure (m := Option) (f := id)).trans (by simp)
    refine .inl ⟨hok, ?_⟩
    rw [answer?, hfail, hfull, hgathered, hstrict]
    show some (if strict = true then Outcome.strictly os else .ok (Outcome.leniently os)) = _
    split
    · rename_i hs
      rw [Outcome.strictly_of_ok (hok hs)]
    · rfl

/-- Each failure is the strict answer of some order. -/
theorem exists_order_of_error {e : Error} (h : .error e ∈ os) :
    ∃ order : List Nat, order.Perm (List.range os.length) ∧
      (run os (start true os.length) order).answer? = some (.error e) := by
  obtain ⟨i, hi, hio⟩ := List.mem_iff_getElem.1 h
  refine ⟨i :: (List.range os.length).erase i, (List.perm_cons_erase (List.mem_range.2 hi)).symm, ?_⟩
  have hfail : (step os (start true os.length) i).failure = some e := by
    rw [step, List.getElem?_eq_getElem hi, hio]
    rfl
  have hkept (order : List Nat) (g : Gathering) (hg : g.failure = some e) : (run os g order).failure = some e := by
    induction order generalizing g with
    | nil => exact hg
    | cons j order ih =>
      refine ih _ ?_
      unfold step finish
      cases os[j]? <;> simp [hg]
  rw [answer?, run, List.foldl_cons, ← run, hkept _ _ hfail]

end Gathering

end Federation
