import Mathlib.Data.List.Count
import Federation.Proofs.Client.SingleFlight

/-!
# How often a fetch is reported

A client lets a report through unless the last one that it got on the subject was of the same generation. So it
takes repeated reports of a generation for one as long as they follow one another, and reports the generation
again when a report of another one came in between: callers of two generations may wait at the same time, and
they wake up in any order.

`Unbroken` says that nothing came in between. `told_once_iff` shows that this is just when a client reports a
fetch once, and `told_twice` shows that it may fail.

The invariant `Ledger` has two halves. The word of a client is the latest report (`word`), so that the reports
that were let through are counted by the `blocks` of the generation among the reports (`firsts`). And what was
told and what is left to be told is all that reports gave their callers to tell (`account`), no more and no less.
-/

namespace Federation

/-! ### Blocks of a list -/

/-- How many times a list comes from something else to `g`, read from its end. -/
def blocks (g : Nat) : List Nat → Nat
  | [] => 0
  | y :: l => blocks g l + if y = g ∧ l.head? ≠ some g then 1 else 0

/-- Nothing else comes between two members `g` of a list. -/
def Unbroken (g : Nat) (l : List Nat) : Prop := ∀ y, List.Sublist [g, y, g] l → y = g

section
variable {g y : Nat} {l : List Nat}

theorem blocks_of_not_mem (h : g ∉ l) : blocks g l = 0 := by
  induction l with
  | nil => rfl
  | cons y l ih =>
    obtain ⟨hy, hl⟩ := not_or.1 (List.mem_cons.not.1 h)
    rw [blocks, ih hl, if_neg fun hc => hy hc.1.symm]

theorem blocks_pos (h : g ∈ l) : 0 < blocks g l := by
  induction l with
  | nil => cases h
  | cons y l ih =>
    rw [blocks]
    by_cases hl : g ∈ l
    · exact Nat.add_pos_left (ih hl) _
    · obtain rfl : g = y := (List.mem_cons.1 h).resolve_right hl
      rw [if_pos ⟨rfl, fun hh => hl (List.mem_of_mem_head? hh)⟩]
      exact Nat.succ_pos _

theorem headD_eq_iff (h : 0 < g) : l.headD 0 = g ↔ l.head? = some g := by
  cases l with
  | nil => simpa using Nat.ne_of_lt h
  | cons y l => simp

theorem unbroken_of_not_mem (h : g ∉ l) : Unbroken g (g :: l) := by
  intro y hy
  rw [List.cons_sublist_cons] at hy
  exact absurd (hy.subset (by simp)) h

theorem unbroken_cons_of_ne (h : y ≠ g) : Unbroken g (y :: l) ↔ Unbroken g l := by
  constructor <;> intro hu z hz
  · exact hu z (hz.cons y)
  · rcases List.sublist_cons_iff.1 hz with hz | ⟨r, hr, -⟩
    · exact hu z hz
    · cases hr
      exact absurd rfl h

theorem unbroken_cons_cons_self : Unbroken g (g :: g :: l) ↔ Unbroken g (g :: l) := by
  constructor <;> intro hu z hz
  · exact hu z (hz.cons g)
  · rw [List.cons_sublist_cons] at hz
    rcases List.sublist_cons_iff.1 hz with hz | ⟨r, hr, -⟩
    · exact hu z (List.cons_sublist_cons.2 hz)
    · exact (List.cons.inj hr).1

theorem not_unbroken_cons_cons (h : y ≠ g) (hg : g ∈ l) : ¬ Unbroken g (g :: y :: l) := by
  intro hu
  exact h (hu y (List.cons_sublist_cons.2 (List.cons_sublist_cons.2 (List.singleton_sublist.2 hg))))

theorem blocks_eq_one_iff (h : g ∈ l) : blocks g l = 1 ↔ Unbroken g l := by
  induction l with
  | nil => cases h
  | cons y l ih =>
    by_cases hy : y = g
    · subst hy
      by_cases hl : y ∈ l
      · cases l with
        | nil => cases hl
        | cons z l =>
          by_cases hz : z = y
          · subst hz
            rw [unbroken_cons_cons_self, ← ih hl, blocks, if_neg (by simp), Nat.add_zero]
          · have hl' : y ∈ l := (List.mem_cons.1 hl).resolve_left (Ne.symm hz)
            have hpos := blocks_pos hl
            rw [blocks, if_pos ⟨rfl, by simpa using hz⟩]
            exact iff_of_false (by omega) (not_unbroken_cons_cons hz hl')
      · rw [blocks, blocks_of_not_mem hl, if_pos ⟨rfl, fun hh => hl (List.mem_of_mem_head? hh)⟩]
        exact iff_of_true rfl (unbroken_of_not_mem hl)
    · have hl : g ∈ l := (List.mem_cons.1 h).resolve_left (Ne.symm hy)
      rw [unbroken_cons_of_ne hy, ← ih hl, blocks, if_neg fun hc => hy hc.1, Nat.add_zero]

end

namespace Fleet
variable {s s' : Fleet} {i g : Nat} {x : Subject}

/-! ### What is counted -/

/-- The generations that callers took to a client on a subject, the latest first. -/
def reported (s : Fleet) (i : Nat) (x : Subject) : List Nat :=
  (s.reports.filter fun r => r.client = i ∧ r.subject = x).map (·.generation)

/-- How often a client let a generation through on a subject. -/
def firsts (s : Fleet) (i : Nat) (x : Subject) (g : Nat) : Nat :=
  s.reports.countP fun r => r.client = i ∧ r.subject = x ∧ r.generation = g ∧ r.first

def Caller.tellings (w : Caller) : List Telling := w.stage.untold.map fun x => ⟨w.client, w.ticket.generation, x⟩

def Report.tellings (r : Report) : List Telling := r.tells.map fun x => ⟨r.client, r.generation, x⟩

/-- All that callers are left to tell. -/
def untold (s : Fleet) : List Telling := s.callers.flatMap Caller.tellings

/-- All that reports gave their callers to tell. -/
def announced (s : Fleet) : List Telling := s.reports.flatMap Report.tellings

def subject : FetchOutcome → Subject
  | .error _ => .failure
  | .ok _ => .change

theorem subject_eq_of_subject? {call : ClientCall} {t : Ticket} {o : FetchOutcome}
    (h : ManifestClient.subject? call t o = some x) : subject o = x := by
  cases o with
  | error e => cases h; rfl
  | ok m =>
    obtain ⟨-, rfl⟩ : (call = .refresh ∧ t.previous.isSome) ∧ .change = x := by
      simpa [ManifestClient.subject?] using h
    rfl

/-! ### The ledger -/

/-- A report is about the outcome of its fetch, and gives its caller what is due when it is let through. -/
def Accurate (s : Fleet) (r : Report) : Prop :=
  ∃ m f o, s.member? r.client = some m ∧ f ∈ s.fetches ∧ f.generation = r.generation ∧ f.outcome = some o ∧
    subject o = r.subject ∧ r.tells = if r.first then m.client.due f.previous o else []

theorem reported_cons {r : Report} (hr : s'.reports = r :: s.reports) :
    s'.reported i x = if r.client = i ∧ r.subject = x then r.generation :: s.reported i x else s.reported i x := by
  rw [reported, reported, hr, List.filter_cons]
  by_cases h : r.client = i ∧ r.subject = x <;> simp [h]

theorem firsts_cons {r : Report} (hr : s'.reports = r :: s.reports) :
    s'.firsts i x g =
      s.firsts i x g + if r.client = i ∧ r.subject = x ∧ r.generation = g ∧ r.first then 1 else 0 := by
  rw [firsts, firsts, hr, List.countP_cons]
  simp

/-- Clients, reports and callers agree on what was reported and told. -/
structure Ledger (s : Fleet) : Prop where
  word : ∀ i c x, s.clients[i]? = some c → c.lastReported x = (s.reported i x).headD 0
  firsts : ∀ i x g, 0 < g → s.firsts i x g = blocks g (s.reported i x)
  accurate : ∀ r ∈ s.reports, s.Accurate r
  account : ∀ t, s.told.count t + s.untold.count t = s.announced.count t
  caller : ∀ w ∈ s.callers, ∀ o os x, w.stage = .reported o os → ManifestClient.subject? w.call w.ticket o = some x →
    w.ticket.generation ∈ s.reported w.client x

theorem Tracked.mem_fetches_step (h : s.Tracked) {a : Action} (hs : s.step a = some s') {f : Fetch} {o : FetchOutcome}
    (hf : f ∈ s.fetches) (ho : f.outcome = some o) : f ∈ s'.fetches := by
  cases a with
  | begin i call =>
    obtain ⟨c, -, ⟨m, -, -, rfl⟩ | ⟨y, -, rfl⟩ | ⟨p, -, -, rfl⟩⟩ := beginCall_eq_some hs
    · exact hf
    · exact hf
    · exact List.mem_cons_of_mem _ hf
  | arrive g o' =>
    obtain ⟨⟨f₀, hf₀, hg₀, ho₀⟩, rfl⟩ := arrive_eq_some hs
    have hne : f.generation ≠ g := by
      intro hg
      rw [h.eq_of_generation hf hf₀ (hg.trans hg₀.symm), ho₀] at ho
      cases ho
    exact List.mem_map.2 ⟨f, hf, Fetch.complete_of_ne hne⟩
  | settle k => obtain ⟨w, c, o, -, -, -, -, rfl⟩ := settle_eq_some hs; exact hf
  | report k => obtain ⟨w, c, o, -, -, -, rfl⟩ := report_eq_some hs; exact hf
  | tell k => obtain ⟨w, o, y, untold, -, -, rfl⟩ := tell_eq_some hs; exact hf
  | clear uid => cases hs; exact hf

theorem Accurate.step (h : s.Tracked) {a : Action} (hs : s.step a = some s') {r : Report} (hr : s.Accurate r) :
    s'.Accurate r := by
  obtain ⟨m, f, o, hm, hf, hg, ho, hx, ht⟩ := hr
  exact ⟨m, f, o, (member?_step hs r.client).trans hm, h.mem_fetches_step hs hf ho, hg, ho, hx, ht⟩

theorem count_flatMap_set {α β : Type} [DecidableEq β] {l : List α} {k : Nat} {a : α} (h : l[k]? = some a) (b : α)
    (f : α → List β) (y : β) :
    ((l.set k b).flatMap f).count y + (f a).count y = (l.flatMap f).count y + (f b).count y := by
  obtain ⟨hk, ha⟩ := List.getElem?_eq_some_iff.1 h
  obtain ⟨l₁, l₂, hl, -, hset⟩ : ∃ l₁ l₂, l = l₁ ++ l[k] :: l₂ ∧ l₁.length = k ∧ l.set k b = l₁ ++ b :: l₂ :=
    List.exists_of_set hk
  rw [ha] at hl
  rw [hset, hl]
  simp only [List.flatMap_append, List.flatMap_cons, List.count_append]
  omega

namespace Ledger

theorem start (ms : List Member) : (start ms).Ledger where
  word := by
    intro i c x hc
    obtain ⟨m, -, rfl⟩ : ∃ m, ms[i]? = some m ∧ m.client = c := by simpa [Fleet.start] using hc
    cases x <;> rfl
  firsts := fun _ _ _ _ => rfl
  accurate := nofun
  account := fun _ => rfl
  caller := nofun

theorem frame (h : s.Ledger) (ht : s.Tracked) {a : Action} (hs : s.step a = some s')
    (hclients : s'.clients = s.clients) (hreports : s'.reports = s.reports)
    (haccount : ∀ t, s'.told.count t + s'.untold.count t = s.told.count t + s.untold.count t)
    (hcallers : ∀ w' ∈ s'.callers, ∀ o os x, w'.stage = .reported o os →
      ManifestClient.subject? w'.call w'.ticket o = some x →
      ∃ w ∈ s.callers, ∃ os, w.stage = .reported o os ∧
        w.client = w'.client ∧ w.call = w'.call ∧ w.ticket = w'.ticket) :
    s'.Ledger where
  word := by
    intro i c x hc
    rw [hclients] at hc
    rw [reported, hreports]
    exact h.word i c x hc
  firsts := by
    intro i x g hg
    rw [Fleet.firsts, reported, hreports]
    exact h.firsts i x g hg
  accurate := by
    intro r hr
    rw [hreports] at hr
    exact (h.accurate r hr).step ht hs
  account := by
    intro t
    rw [haccount, announced, hreports]
    exact h.account t
  caller := by
    intro w' hw' o os x hst hx
    obtain ⟨w, hw, os, hst, hcl, hcall, htick⟩ := hcallers w' hw' o os x hst hx
    rw [reported, hreports, ← hcl, ← htick]
    exact h.caller w hw o os x hst (by rw [hcall, htick]; exact hx)

theorem beginCall (h : s.Ledger) (ht : s.Tracked) {i : Nat} {call : ClientCall}
    (hs : s.step (.begin i call) = some s') : s'.Ledger := by
  -- a caller that just got its ticket has nothing to tell and has not reported
  have happend (cache : ManifestCache) (fetches : List Fetch) (t : Ticket)
      (hs : s.step (.begin i call) =
        some { s with cache, fetches, callers := s.callers ++ [⟨i, call, t, .waiting⟩] }) :
      Ledger { s with cache, fetches, callers := s.callers ++ [⟨i, call, t, .waiting⟩] } := by
    refine h.frame ht hs rfl rfl (fun t => ?_) fun w hw o os x hst _ => ?_
    · simp [untold, Caller.tellings, Stage.untold]
    · rcases List.mem_append.1 hw with hw | hw
      · exact ⟨w, hw, os, hst, rfl, rfl, rfl⟩
      · rw [List.mem_singleton.1 hw] at hst
        cases hst
  obtain ⟨c, -, ⟨m, -, -, rfl⟩ | ⟨y, -, rfl⟩ | ⟨p, -, -, rfl⟩⟩ := beginCall_eq_some hs
  · exact h
  · exact happend _ _ _ hs
  · exact happend _ _ _ hs

theorem settle (h : s.Ledger) (ht : s.Tracked) {k : Nat} (hs : s.step (.settle k) = some s') : s'.Ledger := by
  obtain ⟨w, c, o, hw, -, hst, -, rfl⟩ := settle_eq_some hs
  refine h.frame ht hs rfl rfl (fun t => ?_) fun v hv o' os x hst' _ => ?_
  · have hcount := count_flatMap_set hw { w with stage := .settled o } Caller.tellings t
    simpa [Caller.tellings, hst, Stage.untold, untold] using hcount
  · rcases List.mem_or_eq_of_mem_set hv with hv | rfl
    · exact ⟨v, hv, os, hst', rfl, rfl, rfl⟩
    · cases hst'

theorem tell (h : s.Ledger) (ht : s.Tracked) {k : Nat} (hs : s.step (.tell k) = some s') : s'.Ledger := by
  obtain ⟨w, o, y, untold, hw, hst, rfl⟩ := tell_eq_some hs
  refine h.frame ht hs rfl rfl (fun t => ?_) fun v hv o' os x hst' _ => ?_
  · have hcount := count_flatMap_set hw { w with stage := .reported o untold } Caller.tellings t
    simp only [Caller.tellings, hst, Stage.untold, List.map_cons, List.count_cons] at hcount
    simp only [Fleet.untold, List.count_cons]
    omega
  · rcases List.mem_or_eq_of_mem_set hv with hv | rfl
    · exact ⟨v, hv, os, hst', rfl, rfl, rfl⟩
    · cases hst'
      exact ⟨w, List.mem_of_getElem? hw, _, hst, rfl, rfl, rfl⟩

theorem accurate_of_settled (ht : s.Tracked) {w : Caller} {c : ManifestClient} {o : FetchOutcome} (hw : w ∈ s.callers)
    (hc : s.clients[w.client]? = some c) (hst : w.stage = .settled o)
    (hx : ManifestClient.subject? w.call w.ticket o = some x) :
    s.Accurate ⟨w.client, x, w.ticket.generation, c.lastReported x ≠ w.ticket.generation,
      (c.report w.call w.ticket o).1⟩ := by
  obtain ⟨f, hf, hcar⟩ := ht.caller w hw
  refine ⟨_, f, o, member?_of_client hc, hf, hcar.generation, hcar.outcome o (by rw [hst]; rfl),
    subject_eq_of_subject? hx, ?_⟩
  have hdue : ManifestClient.due (Member.client ⟨c.url, c.applicationUid, c.observers⟩) f.previous o =
      c.due w.ticket.previous o := by
    rw [hcar.previous]
    exact ManifestClient.due_congr rfl _ _
  rw [hdue, ManifestClient.report_fst hx]
  by_cases hl : c.lastReported x = w.ticket.generation <;> simp [hl]

section
variable {w : Caller} {c : ManifestClient} {o : FetchOutcome} {os : List Observation}

/-- After a report the words of its client, and of the others, are the latest reports again. -/
theorem word_report (h : s.Ledger) (hc : s.clients[w.client]? = some c)
    (hx : ManifestClient.subject? w.call w.ticket o = some x)
    (hclients : s'.clients = s.clients.set w.client (c.report w.call w.ticket o).2) {first : Bool}
    (hreports : s'.reports = ⟨w.client, x, w.ticket.generation, first, os⟩ :: s.reports) {i : Nat}
    {c' : ManifestClient} (hc' : s'.clients[i]? = some c') (y : Subject) :
    c'.lastReported y = (s'.reported i y).headD 0 := by
  rw [reported_cons hreports]
  rw [hclients] at hc'
  by_cases hi : w.client = i
  · subst hi
    have hc' := (List.getElem?_set_self (List.getElem?_eq_some_iff.1 hc).1).symm.trans hc'
    obtain rfl := Option.some.inj hc'
    rw [ManifestClient.lastReported_report, hx]
    by_cases hy : x = y
    · subst hy
      rw [if_pos rfl, if_pos ⟨rfl, rfl⟩]
      rfl
    · rw [if_neg fun hs => hy (Option.some.inj hs), if_neg fun hs => hy hs.2]
      exact h.word w.client c y hc
  · rw [if_neg fun hs => hi hs.1]
    exact h.word i c' y ((List.getElem?_set_ne hi).symm.trans hc')

/-- A report is let through just when it begins a block. -/
theorem firsts_report (h : s.Ledger) (hc : s.clients[w.client]? = some c)
    (hreports : s'.reports = ⟨w.client, x, w.ticket.generation, c.lastReported x ≠ w.ticket.generation, os⟩ :: s.reports)
    (i : Nat) (y : Subject) (hg : 0 < g) : s'.firsts i y g = blocks g (s'.reported i y) := by
  rw [firsts_cons hreports, h.firsts i y g hg]
  by_cases hi : w.client = i ∧ x = y
  · obtain ⟨rfl, rfl⟩ := hi
    -- the word of the client is the report before this one
    have hword : c.lastReported x = g ↔ (s.reported w.client x).head? = some g := by
      rw [h.word w.client c x hc, headD_eq_iff hg]
    rw [(reported_cons hreports).trans (if_pos ⟨rfl, rfl⟩), blocks]
    refine congrArg _ (if_congr ?_ rfl rfl)
    constructor
    · rintro ⟨-, -, rfl, hfirst⟩
      exact ⟨rfl, hword.not.1 (of_decide_eq_true hfirst)⟩
    · rintro ⟨rfl, hhead⟩
      exact ⟨rfl, rfl, rfl, decide_eq_true (hword.not.2 hhead)⟩
  · rw [(reported_cons hreports).trans (if_neg hi), if_neg fun hs => hi ⟨hs.1, hs.2.1⟩, Nat.add_zero]

end

theorem report (h : s.Ledger) (ht : s.Tracked) {k : Nat} (hs : s.step (.report k) = some s') : s'.Ledger := by
  obtain ⟨w, c, o, hw, hc, hst, he⟩ := report_eq_some hs
  have hmem : w ∈ s.callers := List.mem_of_getElem? hw
  have huntold (t : Telling) : s'.untold.count t = s.untold.count t +
      ((c.report w.call w.ticket o).1.map fun y => ⟨w.client, w.ticket.generation, y⟩).count t := by
    subst he
    have hcount := count_flatMap_set hw { w with stage := .reported o (c.report w.call w.ticket o).1 }
      Caller.tellings t
    simpa [Caller.tellings, hst, Stage.untold, untold] using hcount
  cases hx : ManifestClient.subject? w.call w.ticket o with
  | none =>
    -- nothing is told, and the client stays as it was
    have hr := ManifestClient.report_of_subject_none (c := c) hx
    refine h.frame ht hs ?_ ?_ (fun t => ?_) fun v hv o' os y hst' hy => ?_
    · subst he
      show s.clients.set w.client (c.report w.call w.ticket o).2 = s.clients
      rw [hr]
      obtain ⟨hlt, rfl⟩ := List.getElem?_eq_some_iff.1 hc
      exact List.set_getElem_self hlt
    · simp [he, hx]
    · rw [huntold, hr, he]
      rfl
    · rw [he] at hv
      rcases List.mem_or_eq_of_mem_set hv with hv | rfl
      · exact ⟨v, hv, os, hst', rfl, rfl, rfl⟩
      · cases hst'
        cases hx.symm.trans hy
  | some x =>
    have hclients : s'.clients = s.clients.set w.client (c.report w.call w.ticket o).2 := by rw [he]
    have htold : s'.told = s.told := by rw [he]
    have hreports : s'.reports = ⟨w.client, x, w.ticket.generation, c.lastReported x ≠ w.ticket.generation,
        (c.report w.call w.ticket o).1⟩ :: s.reports := by simp [he, hx]
    refine ⟨fun i c' y hc' => h.word_report hc hx hclients hreports hc' y,
      fun i y g hg => h.firsts_report hc hreports i y hg, fun r hr => ?_, fun t => ?_,
      fun v hv o' os y hst' hy => ?_⟩
    · rw [hreports] at hr
      rcases List.mem_cons.1 hr with rfl | hr
      · exact (accurate_of_settled ht hmem hc hst hx).step ht hs
      · exact (h.accurate r hr).step ht hs
    · have hacc := h.account t
      rw [htold, huntold, announced, hreports, List.flatMap_cons, List.count_append]
      simp only [Report.tellings]
      rw [announced] at hacc
      omega
    · rw [reported_cons hreports]
      rw [he] at hv
      rcases List.mem_or_eq_of_mem_set hv with hv | rfl
      · have hold := h.caller v hv o' os y hst' hy
        split
        · exact List.mem_cons_of_mem _ hold
        · exact hold
      · cases hst'
        rw [if_pos ⟨rfl, Option.some.inj (hx.symm.trans hy)⟩]
        exact List.mem_cons_self

theorem step (h : s.Ledger) (ht : s.Tracked) {a : Action} (hs : s.step a = some s') : s'.Ledger := by
  cases a with
  | begin i call => exact h.beginCall ht hs
  | arrive g o =>
    have hs' := hs
    obtain ⟨-, rfl⟩ := arrive_eq_some hs'
    exact h.frame ht hs rfl rfl (fun _ => rfl) fun w hw o os x hst _ => ⟨w, hw, os, hst, rfl, rfl, rfl⟩
  | settle k => exact h.settle ht hs
  | report k => exact h.report ht hs
  | tell k => exact h.tell ht hs
  | clear uid =>
    have hs' := hs
    cases hs'
    exact h.frame ht hs rfl rfl (fun _ => rfl) fun w hw o os x hst _ => ⟨w, hw, os, hst, rfl, rfl, rfl⟩

end Ledger

/-- Generations are numbered from 1, so none is the number of no report. -/
def Positive (s : Fleet) : Prop := 0 < s.cache.nextGeneration ∧ ∀ f ∈ s.fetches, 0 < f.generation

theorem Positive.step (h : s.Positive) {a : Action} (hs : s.step a = some s') : s'.Positive := by
  obtain ⟨hnext, hpos⟩ := h
  cases a with
  | begin i call =>
    obtain ⟨c, -, ⟨m, -, -, rfl⟩ | ⟨y, -, rfl⟩ | ⟨p, -, -, rfl⟩⟩ := beginCall_eq_some hs
    · exact ⟨hnext, hpos⟩
    · exact ⟨hnext, hpos⟩
    · refine ⟨Nat.succ_pos _, fun f hf => ?_⟩
      rcases List.mem_cons.1 hf with rfl | hf
      · exact hnext
      · exact hpos f hf
  | arrive g o =>
    obtain ⟨-, rfl⟩ := arrive_eq_some hs
    refine ⟨hnext, fun f' hf' => ?_⟩
    obtain ⟨f, hf, rfl⟩ := List.mem_map.1 hf'
    rw [Fetch.generation_complete]
    exact hpos f hf
  | settle k =>
    obtain ⟨w, c, o, -, -, -, -, rfl⟩ := settle_eq_some hs
    rcases s.cache.settle_cases c.applicationUid w.ticket.generation o with ⟨-, he⟩ | ⟨-, he⟩ <;> rw [he] <;>
      exact ⟨hnext, hpos⟩
  | report k => obtain ⟨w, c, o, -, -, -, rfl⟩ := report_eq_some hs; exact ⟨hnext, hpos⟩
  | tell k => obtain ⟨w, o, y, untold, -, -, rfl⟩ := tell_eq_some hs; exact ⟨hnext, hpos⟩
  | clear uid =>
    cases hs
    rcases s.cache.clear_cases uid with ⟨he, -⟩ | ⟨he, -⟩
    · exact ⟨by rw [he]; exact hnext, hpos⟩
    · exact ⟨by rw [he]; exact hnext, hpos⟩

theorem ledger_run {ms : List Member} {as : List Action} (h : (start ms).run as = some s) :
    s.Tracked ∧ s.Positive ∧ s.Ledger :=
  run_induction (P := fun t => t.Tracked ∧ t.Positive ∧ t.Ledger)
    (fun ⟨ht, hp, hl⟩ ha => ⟨ht.step ha, hp.step ha, hl.step ht ha⟩) h
    ⟨Tracked.start ms, ⟨Nat.one_pos, nofun⟩, Ledger.start ms⟩

/-! ### What a client tells of a fetch -/

/-- Nobody who awaited a generation for a client has anything left to tell of it. -/
def Quiet (s : Fleet) (i g : Nat) : Prop :=
  ∀ w ∈ s.callers, w.client = i → w.ticket.generation = g → w.stage.untold = []

instance : Decidable (s.Quiet i g) :=
  inferInstanceAs (Decidable (∀ w ∈ s.callers, w.client = i → w.ticket.generation = g → w.stage.untold = []))

theorem count_tellings (os : List Observation) (j g' : Nat) (y : Observation) :
    (os.map fun x => (⟨j, g', x⟩ : Telling)).count ⟨i, g, y⟩ = if j = i ∧ g' = g then os.count y else 0 := by
  by_cases h : j = i ∧ g' = g
  · obtain ⟨rfl, rfl⟩ := h
    rw [if_pos ⟨rfl, rfl⟩]
    exact List.count_map_of_injective os _ (fun x x' hx => (Telling.mk.inj hx).2.2) y
  · rw [if_neg h, List.count_eq_zero]
    intro hm
    obtain ⟨x, -, hx⟩ := List.mem_map.1 hm
    obtain ⟨hj, hg, -⟩ := Telling.mk.inj hx
    exact h ⟨hj, hg⟩

theorem count_flatMap_eq_countP_mul {α β : Type} [DecidableEq β] {l : List α} {f : α → List β} {p : α → Bool} {y : β}
    {n : Nat} (h : ∀ a ∈ l, (f a).count y = if p a then n else 0) : (l.flatMap f).count y = l.countP p * n := by
  induction l with
  | nil => simp
  | cons a l ih =>
    rw [List.flatMap_cons, List.count_append, h a List.mem_cons_self,
      ih fun b hb => h b (List.mem_cons_of_mem _ hb), List.countP_cons]
    by_cases hp : p a
    · rw [if_pos hp, if_pos hp, Nat.add_one_mul, Nat.add_comm]
    · rw [if_neg hp, if_neg hp, Nat.zero_add, Nat.add_zero]

theorem Quiet.count_untold (h : s.Quiet i g) (y : Observation) : s.untold.count ⟨i, g, y⟩ = 0 := by
  rw [List.count_eq_zero]
  intro hm
  obtain ⟨w, hw, hy⟩ := List.mem_flatMap.1 hm
  obtain ⟨x, hx, he⟩ := List.mem_map.1 hy
  obtain ⟨hi, hg, -⟩ := Telling.mk.inj he
  rw [h w hw hi hg] at hx
  cases hx

/-- Of a fetch observers were told what is due, as often as their client let it through. -/
theorem count_told (ht : s.Tracked) (h : s.Ledger) {m : Member} (hm : s.member? i = some m) {f : Fetch}
    (hf : f ∈ s.fetches) (hq : s.Quiet i f.generation) {o : FetchOutcome} (ho : f.outcome = some o) (y : Observation) :
    s.told.count ⟨i, f.generation, y⟩ =
      s.firsts i (subject o) f.generation * (m.client.due f.previous o).count y := by
  have hacc := h.account ⟨i, f.generation, y⟩
  rw [hq.count_untold, Nat.add_zero] at hacc
  rw [hacc]
  refine count_flatMap_eq_countP_mul fun r hr => ?_
  rw [Report.tellings, count_tellings]
  by_cases hig : r.client = i ∧ r.generation = f.generation
  · obtain ⟨rfl, hg⟩ := hig
    obtain ⟨m', f', o', hm', hf', hg', ho', hx, htells⟩ := h.accurate r hr
    cases hm.symm.trans hm'
    obtain rfl := ht.eq_of_generation hf' hf (hg'.trans hg)
    cases ho.symm.trans ho'
    rw [if_pos ⟨rfl, hg⟩, htells]
    cases r.first <;> simp [hx, hg]
  · rw [if_neg hig, if_neg]
    rw [decide_eq_true_iff]
    exact fun hp => hig ⟨hp.1, hp.2.2.1⟩

theorem firsts_eq_one_iff (h : s.Ledger) (hg : 0 < g) (hm : g ∈ s.reported i x) :
    s.firsts i x g = 1 ↔ Unbroken g (s.reported i x) := by
  rw [h.firsts i x g hg, blocks_eq_one_iff hm]

theorem count_tell (c : ManifestClient) (e : ClientEvent) {k : Nat} (hk : k < c.observers) :
    (c.tell e).count ⟨k, e⟩ = 1 := by
  have hinj : Function.Injective fun j : Nat => (⟨j, e⟩ : Observation) := fun j j' hj => (Observation.mk.inj hj).1
  rw [ManifestClient.tell, List.count_map_of_injective _ _ hinj]
  exact List.count_eq_one_of_mem List.nodup_range (List.mem_range.2 hk)

/-- Somebody awaited a generation for a client to the end. -/
def Caller.Ended (w : Caller) (i g : Nat) : Prop :=
  w.client = i ∧ w.ticket.generation = g ∧ w.result?.isSome

instance (w : Caller) : Decidable (w.Ended i g) :=
  inferInstanceAs (Decidable (w.client = i ∧ w.ticket.generation = g ∧ w.result?.isSome))

theorem mem_reported_of_ended (ht : s.Tracked) (h : s.Ledger) {w : Caller} (hw : w ∈ s.callers) {f : Fetch}
    (hf : f ∈ s.fetches) (he : w.Ended i f.generation) {o : FetchOutcome} (ho : f.outcome = some o)
    (hx : ManifestClient.subject? w.call ⟨f.generation, f.previous, w.ticket.initiated⟩ o = some x) :
    f.generation ∈ s.reported i x := by
  obtain ⟨rfl, hg, hr⟩ := he
  obtain ⟨f', hf', hcar⟩ := ht.caller w hw
  obtain rfl := ht.eq_of_generation hf' hf (hcar.generation.trans hg)
  obtain ⟨r, hr⟩ := Option.isSome_iff_exists.1 hr
  obtain ⟨o', hst, -⟩ := Caller.stage_of_result? hr
  cases ho.symm.trans (hcar.outcome o' (by rw [hst]; rfl))
  rw [← hg]
  refine h.caller w hw o [] x hst ?_
  rw [← hx, hcar.generation, hcar.previous]

/-- When at least one caller of a client awaited a fetch to the end, and whoever else did has told all it had to,
then each observer was told of a failure at least once, and just once if no caller of the client took the failure
of another fetch to it between two that took this one; and likewise changes were reported for refreshes. -/
theorem told_once_iff {ms : List Member} {as : List Action} (h : (start ms).run as = some s) {m : Member}
    (hm : ms[i]? = some m) {f : Fetch} (hf : f ∈ s.fetches) (hq : s.Quiet i f.generation) :
    (∀ e, f.outcome = some (.error e) → (∃ w ∈ s.callers, w.Ended i f.generation) → ∀ k < m.observers,
      1 ≤ s.told.count ⟨i, f.generation, ⟨k, .fetchFailed e⟩⟩ ∧
      (s.told.count ⟨i, f.generation, ⟨k, .fetchFailed e⟩⟩ = 1 ↔ Unbroken f.generation (s.reported i .failure))) ∧
    (∀ old new, f.previous = some old → f.outcome = some (.ok new) →
      (∃ w ∈ s.callers, w.call = .refresh ∧ w.Ended i f.generation) →
      1 ≤ s.firsts i .change f.generation ∧
      (s.firsts i .change f.generation = 1 ↔ Unbroken f.generation (s.reported i .change)) ∧
      ∀ y, s.told.count ⟨i, f.generation, y⟩ =
        s.firsts i .change f.generation * (m.client.changeReport old new).count y) := by
  obtain ⟨ht, hp, hl⟩ := ledger_run h
  have hmember : s.member? i = some m := (member?_run h i).trans ((member?_start ms i).trans hm)
  have hpos := hp.2 f hf
  constructor
  · rintro e ho ⟨w, hw, he⟩ k hk
    have hmem : f.generation ∈ s.reported i .failure := mem_reported_of_ended ht hl hw hf he ho rfl
    have hcount : s.told.count ⟨i, f.generation, ⟨k, .fetchFailed e⟩⟩ = s.firsts i .failure f.generation := by
      rw [count_told ht hl hmember hf hq ho]
      exact (congrArg _ (count_tell m.client (.fetchFailed e) hk)).trans (Nat.mul_one _)
    rw [hcount, firsts_eq_one_iff hl hpos hmem, hl.firsts i .failure _ hpos]
    exact ⟨blocks_pos hmem, Iff.rfl⟩
  · rintro old new hold ho ⟨w, hw, hcall, he⟩
    have hmem : f.generation ∈ s.reported i .change :=
      mem_reported_of_ended ht hl hw hf he ho (if_pos ⟨hcall, by rw [hold]; rfl⟩)
    refine ⟨?_, firsts_eq_one_iff hl hpos hmem, fun y => ?_⟩
    · rw [hl.firsts i .change _ hpos]
      exact blocks_pos hmem
    · rw [count_told ht hl hmember hf hq ho, hold]
      rfl

def failure? (s : Fleet) (g : Nat) : Option FetchError :=
  (s.outcome? g).bind fun
    | .error e => some e
    | .ok _ => none

theorem failure?_eq_some {e : FetchError} (h : s.failure? g = some e) :
    ∃ f ∈ s.fetches, f.generation = g ∧ f.outcome = some (.error e) := by
  obtain ⟨o, ho, he⟩ := Option.bind_eq_some_iff.1 h
  cases o with
  | error e' => cases he; exact outcome?_eq_some ho
  | ok m => cases he

/-- Two callers of a client, of which each takes the failure of their fetch to it; a caller of the other client of
the application awaits another fetch in between. -/
theorem told_once_of_two : ∃ s f,
    (start [⟨"u", "host", 1⟩, ⟨"v", "host", 1⟩]).run [.begin 0 .current, .begin 0 .refresh,
      .arrive 1 (.error (.other "down")), .settle 0, .report 0, .tell 0, .begin 1 .current,
      .arrive 2 (.error (.other "down")), .settle 2, .report 2, .tell 2, .settle 1, .report 1] = some s ∧
    f ∈ s.fetches ∧ s.Quiet 0 f.generation ∧ s.reported 0 .failure = [1, 1] ∧
    s.told.count ⟨0, f.generation, ⟨0, .fetchFailed (.other "down")⟩⟩ = 1 := by
  have hview : ((start [⟨"u", "host", 1⟩, ⟨"v", "host", 1⟩]).run [.begin 0 .current, .begin 0 .refresh,
      .arrive 1 (.error (.other "down")), .settle 0, .report 0, .tell 0, .begin 1 .current,
      .arrive 2 (.error (.other "down")), .settle 2, .report 2, .tell 2, .settle 1, .report 1]).map
      (fun s => decide (s.failure? 1 = some (.other "down") ∧ s.reported 0 .failure = [1, 1] ∧ s.Quiet 0 1 ∧
        ∃ w ∈ s.callers, w.Ended 0 1)) = some true := by decide
  obtain ⟨s, hs, hview⟩ := Option.map_eq_some_iff.1 hview
  obtain ⟨hfailure, hreported, hq, hended⟩ := of_decide_eq_true hview
  obtain ⟨f, hf, hg, ho⟩ := failure?_eq_some hfailure
  rw [← hg] at hq hended
  refine ⟨s, f, hs, hf, hq, hreported, ?_⟩
  refine (((told_once_iff hs rfl hf hq).1 _ ho hended 0 Nat.one_pos).2).2 fun y hy => ?_
  rw [hreported, hg] at hy
  simpa [hg] using hy.subset (List.mem_cons_of_mem _ List.mem_cons_self)

/-- Two callers of a client wait for one failing fetch; before the second of them wakes up, another call of the
client fails too, and so the second reports the failure of the first fetch again. Everybody has ended, and the
observer was told of that failure twice. -/
theorem told_twice : ∃ s,
    (start [⟨"u", "host", 1⟩]).run [.begin 0 .current, .begin 0 .current, .arrive 1 (.error (.other "down")),
      .settle 0, .report 0, .tell 0, .begin 0 .current, .arrive 2 (.error (.other "broken")), .settle 2, .report 2,
      .tell 2, .settle 1, .report 1, .tell 1] = some s ∧
    s.failure? 1 = some (.other "down") ∧ s.reported 0 .failure = [1, 2, 1] ∧
    (∀ w ∈ s.callers, w.result? = some none) ∧
    s.told.count ⟨0, 1, ⟨0, .fetchFailed (.other "down")⟩⟩ = 2 := by
  have hview : ((start [⟨"u", "host", 1⟩]).run [.begin 0 .current, .begin 0 .current,
      .arrive 1 (.error (.other "down")), .settle 0, .report 0, .tell 0, .begin 0 .current,
      .arrive 2 (.error (.other "broken")), .settle 2, .report 2, .tell 2, .settle 1, .report 1, .tell 1]).map
      (fun s => decide (s.failure? 1 = some (.other "down") ∧ s.reported 0 .failure = [1, 2, 1] ∧
        (∀ w ∈ s.callers, w.result? = some none) ∧ s.told.count ⟨0, 1, ⟨0, .fetchFailed (.other "down")⟩⟩ = 2)) =
      some true := by decide
  obtain ⟨s, hs, hview⟩ := Option.map_eq_some_iff.1 hview
  exact ⟨s, hs, of_decide_eq_true hview⟩

end Fleet

end Federation
