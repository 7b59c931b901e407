import Mathlib.Algebra.Order.BigOperators.Group.Finset
import SpeechService.Proofs.Http.FrontDesk

/-!
# Fair turns

Clients that do not go away are served as long as everybody gets a turn again and again, in
whatever order. A **fair round** is a sequence of events in which every number gets its turn, among
whatever else may happen; nobody new comes. While there is something left to do, every fair round
gets something done (`FrontDesk.rank_run_lt`): it is somebody's turn all along, and what the others
do before cannot take that away.
-/

namespace SpeechService

variable {B : Backend} {encoder : Encoder}

/-- The **rank** of a stage. A client that is attended to has a task from then on. -/
def Visit.Stage.rank : Visit.Stage → Nat
  | .here => 10
  | .waiting => 1
  | .answered _ => 0
  | .gone => 0

namespace FrontDesk

/-- It is the **turn** of an event. -/
inductive Turn (d : FrontDesk B) : DeskEvent → Prop where
  | begin {n v} (hv : d.visit? n = some v) (hs : v.stage = .here) : d.Turn (.begin n)
  | advance {n} (h : d.service.turn? n = some (.advance n)) : d.Turn (.advance n)
  | answer {n} (h : d.service.turn? n = some (.answer n)) : d.Turn (.answer n)
  | respond {n v x} (hv : d.visit? n = some v) (hs : v.stage = .waiting)
    (hx : d.service.phase? n = some (.ended x)) : d.Turn (.respond n)

/-- Nothing that counts for anybody's turn has changed. -/
structure Still (d after : FrontDesk B) : Prop where
  visit? : after.visit? = d.visit?
  service : d.service.Still after.service

/-- In a **fair round** nobody new comes, and all that are known have their turn. -/
structure FairRound (d : FrontDesk B) (round : List DeskEvent) : Prop where
  old : ∀ e ∈ round, e.isNew = false
  begin : ∀ n, d.knows n = true → .begin n ∈ round
  advance : ∀ n, d.knows n = true → .advance n ∈ round
  answer : ∀ n, d.knows n = true → .answer n ∈ round
  respond : ∀ n, d.knows n = true → .respond n ∈ round

variable {d after : FrontDesk B} {n k : Nat} {v : Visit} {e x : DeskEvent}

theorem still_self (d : FrontDesk B) : d.Still d := ⟨rfl, Service.still_self d.service⟩

theorem Still.turn (h : d.Still after) (hx : d.Turn x) : after.Turn x := by
  cases hx with
  | begin hv hs => exact .begin (h.visit? ▸ hv) hs
  | advance ht => exact .advance ((h.service.turn?_eq _).trans ht)
  | answer ht => exact .answer ((h.service.turn?_eq _).trans ht)
  | respond hv hs hx => exact .respond (h.visit? ▸ hv) hs (h.service.phase? ▸ hx)

/-! ### Ranks -/

/-- How much is left to do for a number. -/
def rankAt (d : FrontDesk B) (n : Nat) : Nat :=
  (d.visit? n).elim 0 (·.stage.rank) + (d.service.phase? n).elim 0 Phase.rank

/-- How much is left to do for some numbers. -/
def rank (d : FrontDesk B) (numbers : Finset Nat) : Nat := ∑ n ∈ numbers, d.rankAt n

theorem rankAt_of_not_knows (h : d.knows n = false) : d.rankAt n = 0 := by
  obtain ⟨hv, hp⟩ := eq_none_of_not_knows h
  rw [rankAt, hv, hp]
  rfl

theorem rankAt_step_of_ne (h : n ≠ e.number) : (d.step encoder e).rankAt n = d.rankAt n := by
  rw [rankAt, rankAt, visit?_step_of_ne h, phase?_step_of_ne h]

/-- There are at most ten things to do for a number. -/
theorem Sound.rankAt_le (h : d.Sound) (n : Nat) : d.rankAt n ≤ 10 := by
  have hphase : (d.service.phase? n).elim 0 Phase.rank ≤ 8 := by
    cases d.service.phase? n with
    | none => exact Nat.zero_le _
    | some p => exact p.rank_le
  rw [rankAt]
  cases hv : d.visit? n with
  | none => simpa using Nat.le_trans hphase (by decide)
  | some v =>
    -- A client that is here has no task yet, so that the two ranks are never both at their
    -- greatest.
    cases hs : v.stage with
    | here =>
      rw [(h.paired n v hv).1 hs]
      simp [hs, Visit.Stage.rank]
    | waiting =>
      simp only [Option.elim_some, hs, Visit.Stage.rank]
      omega
    | answered y =>
      simp only [Option.elim_some, hs, Visit.Stage.rank]
      omega
    | gone =>
      simp only [Option.elim_some, hs, Visit.Stage.rank]
      omega

/-- A task that falls lowers the rank of its number. -/
private theorem rankAt_inside {y : ServiceEvent B} (h : d.service.Falls (d.service.step y) n) :
    (d.inside y).rankAt n < d.rankAt n := by
  obtain ⟨p, q, hp, hq, hlt⟩ := h
  rw [rankAt, rankAt, visit?_inside, service_inside, hp, hq]
  exact Nat.add_lt_add_left hlt _

/-- A client that comes to a lower stage lowers the rank of its number. -/
private theorem rankAt_put (hv : d.visit? n = some v) {w : Visit}
    (h : w.stage.rank < v.stage.rank) : (d.put n w).rankAt n < d.rankAt n := by
  rw [rankAt, rankAt, visit?_put_self, service_put, hv]
  exact Nat.add_lt_add_right h _

/-- **Falling.** An event whose turn it is lowers the rank of its number. -/
theorem rankAt_step_lt (hd : d.Sound) (h : d.Turn e) :
    (d.step encoder e).rankAt e.number < d.rankAt e.number := by
  cases h with
  | @begin n v hv hs =>
    have hnone : d.service.phase? n = none := (hd.paired n v hv).1 hs
    have hstep : d.service.step (.request n v.request) =
        d.service.enter n (.arrived v.request) := by
      rw [Service.step, hnone]
      rfl
    rw [step_begin hv hs, DeskEvent.number, rankAt, rankAt, visit?_put_self, service_put,
      service_inside, hstep, Service.phase?_enter_self, hv, hnone]
    simp [hs, Visit.Stage.rank, Phase.rank]
  | advance h => exact rankAt_inside (Service.falls_of_turn hd.load h)
  | answer h => exact rankAt_inside (Service.falls_of_turn hd.load h)
  | respond hv hs hx =>
    rw [step_respond hv hs hx]
    exact rankAt_put hv (by simp [hs, Visit.Stage.rank])

/-- An event that brings nobody new either lowers the rank of its number or changes nothing that
counts. -/
theorem falls_or_still (encoder : Encoder) (hd : d.Sound) (he : e.isNew = false) :
    (d.step encoder e).rankAt e.number < d.rankAt e.number ∨ d.Still (d.step encoder e) := by
  have hstep := d.stepped encoder e
  have hfall := @rankAt_step_lt _ encoder _ e hd
  generalize d.step encoder e = after at hstep hfall ⊢
  cases hstep with
  | still => exact .inr (still_self d)
  | come => cases he
  | summon => cases he
  | begin hv hs => exact .inl (hfall (.begin hv hs))
  | respond hv hs hx => exact .inl (hfall (.respond hv hs hx))
  -- Leaving gets something done too, though it is nobody's turn.
  | leave hv hs =>
    refine .inl (rankAt_put hv ?_)
    rcases hs with hs | hs <;> simp [hs, Visit.Stage.rank]
  | @advance n =>
    by_cases h : d.service.turn? n = some (.advance n)
    · exact .inl (hfall (.advance h))
    · exact .inr ⟨rfl, Service.still_of_advance h⟩
  | @answer n =>
    by_cases h : d.service.turn? n = some (.answer n)
    · exact .inl (hfall (.answer h))
    · exact .inr ⟨rfl, Service.still_of_answer h⟩

/-! ### Known numbers -/

theorem knows_step_of_ne (h : n ≠ e.number) : (d.step encoder e).knows n = d.knows n := by
  rw [knows, knows, visit?_step_of_ne h, phase?_step_of_ne h]

/-- Who is known stays known, and nobody else becomes so without being new. -/
theorem knows_step (hd : d.Sound) (he : e.isNew = false) (n : Nat) :
    (d.step encoder e).knows n = d.knows n := by
  by_cases hn : n = e.number
  · subst hn
    have hstep := d.stepped encoder e
    generalize d.step encoder e = after at hstep ⊢
    cases hstep with
    | still => rfl
    | come => cases he
    | summon => cases he
    | begin hv => simp [knows, DeskEvent.number, hv]
    | respond hv => simp [knows, DeskEvent.number, hv]
    | leave hv => simp [knows, DeskEvent.number, hv]
    | @advance n =>
      rw [knows, knows, DeskEvent.number, visit?_inside, service_inside,
        Service.isSome_phase?_advance hd.load]
    | @answer n =>
      rw [knows, knows, DeskEvent.number, visit?_inside, service_inside,
        Service.isSome_phase?_answer hd.load]
  · exact knows_step_of_ne hn

theorem knows_run (hd : d.Sound) {es : List DeskEvent} (hes : ∀ e ∈ es, e.isNew = false)
    (n : Nat) : (d.run encoder es).knows n = d.knows n := by
  induction es generalizing d with
  | nil => rfl
  | cons e es ih =>
    obtain ⟨he, hrest⟩ := List.forall_mem_cons.mp hes
    exact (ih (hd.step e) hrest).trans (knows_step hd he n)

/-- Nobody becomes known whose number does not come up. -/
theorem not_knows_run (hd : d.Sound) (hn : d.knows n = false) {es : List DeskEvent}
    (hes : ∀ e ∈ es, e.isNew = true → e.number ≠ n) : (d.run encoder es).knows n = false := by
  induction es generalizing d with
  | nil => exact hn
  | cons e es ih =>
    obtain ⟨he, hrest⟩ := List.forall_mem_cons.mp hes
    refine ih (hd.step e) ?_ hrest
    by_cases hnew : e.isNew = true
    · rwa [knows_step_of_ne (he hnew).symm]
    · rwa [knows_step hd (Bool.eq_false_iff.mpr hnew)]

/-- **Coming.** A client that comes under a new number has a visit from then on. -/
theorem exists_visit_of_come (hd : d.Sound) (hn : d.knows n = false) {before after : List DeskEvent}
    (hbefore : ∀ e ∈ before, e.isNew = true → e.number ≠ n) (r : Request) :
    ∃ v, (d.run encoder (before ++ .come n r :: after)).visit? n = some v ∧ v.request = r := by
  have hnew : (d.run encoder before).knows n = false := not_knows_run hd hn hbefore
  have hcome : (d.run encoder before).step encoder (.come n r)
      = (d.run encoder before).put n { request := r } := by
    rw [step, hnew]
    rfl
  -- The visit is put down when the client comes, and from then on it stays.
  have hput := visit?_put_self (d.run encoder before) n { request := r }
  rw [← hcome] at hput
  rw [run_append]
  exact request_run hput after

/-- Some numbers **cover** a front desk when nobody else is known to it. -/
def CoveredBy (d : FrontDesk B) (numbers : Finset Nat) : Prop :=
  ∀ n, d.knows n = true → n ∈ numbers

/-- Every event brings one number at most. -/
theorem CoveredBy.run {numbers : Finset Nat} (h : d.CoveredBy numbers) (es : List DeskEvent) :
    ∃ more : Finset Nat, (d.run encoder es).CoveredBy more ∧
      more.card ≤ numbers.card + es.length := by
  induction es generalizing d numbers with
  | nil => exact ⟨numbers, h, Nat.le_refl _⟩
  | cons e es ih =>
    have hstep : (d.step encoder e).CoveredBy (insert e.number numbers) := by
      intro n hn
      by_cases hne : n = e.number
      · exact Finset.mem_insert.mpr (.inl hne)
      · exact Finset.mem_insert_of_mem (h n ((knows_step_of_ne hne).symm.trans hn))
    obtain ⟨more, hcover, hcard⟩ := ih hstep
    have hinsert := Finset.card_insert_le e.number numbers
    refine ⟨more, hcover, ?_⟩
    rw [List.length_cons]
    omega

/-! ### Rounds -/

variable {numbers : Finset Nat} {round : List DeskEvent}

theorem rankAt_step_le (hd : d.Sound) (he : e.isNew = false) (n : Nat) :
    (d.step encoder e).rankAt n ≤ d.rankAt n := by
  by_cases hn : n = e.number
  · subst hn
    obtain hlt | hstill := falls_or_still encoder hd he
    · exact Nat.le_of_lt hlt
    · rw [rankAt, rankAt, hstill.visit?, hstill.service.phase?]
  · rw [rankAt_step_of_ne hn]

/-- What falls, falls among the numbers that cover the front desk. -/
private theorem rank_step_lt (hd : d.Sound) (hc : d.CoveredBy numbers) (he : e.isNew = false)
    (h : (d.step encoder e).rankAt e.number < d.rankAt e.number) :
    (d.step encoder e).rank numbers < d.rank numbers := by
  -- A number with nothing to do cannot fall.
  have hknown : d.knows e.number = true := by
    by_contra hno
    have hzero : d.rankAt e.number = 0 := rankAt_of_not_knows (by simpa using hno)
    omega
  exact Finset.sum_lt_sum (fun n _ => rankAt_step_le hd he n) ⟨e.number, hc _ hknown, h⟩

theorem rank_run_le (hd : d.Sound) (hround : ∀ e ∈ round, e.isNew = false) :
    (d.run encoder round).rank numbers ≤ d.rank numbers := by
  induction round generalizing d with
  | nil => exact Nat.le_refl _
  | cons e round ih =>
    obtain ⟨he, hrest⟩ := List.forall_mem_cons.mp hround
    exact Nat.le_trans (ih (hd.step e) hrest)
      (Finset.sum_le_sum fun n _ => rankAt_step_le hd he n)

/-- **Nobody's turn is taken away.** A round with an event whose turn it is gets something done. -/
theorem rank_run_lt (hd : d.Sound) (hc : d.CoveredBy numbers)
    (hround : ∀ e ∈ round, e.isNew = false) (hx : d.Turn x) (hmem : x ∈ round) :
    (d.run encoder round).rank numbers < d.rank numbers := by
  induction round generalizing d with
  | nil => cases hmem
  | cons e round ih =>
    obtain ⟨he, hrest⟩ := List.forall_mem_cons.mp hround
    have hle : (d.run encoder (e :: round)).rank numbers ≤ (d.step encoder e).rank numbers :=
      rank_run_le (hd.step e) hrest
    -- Either the event itself gets something done, or it is still the turn of `x` after it.
    obtain hlt | hstill := falls_or_still encoder hd he
    · exact Nat.lt_of_le_of_lt hle (rank_step_lt hd hc he hlt)
    rcases List.mem_cons.mp hmem with rfl | hmem
    · exact Nat.lt_of_le_of_lt hle (rank_step_lt hd hc he (rankAt_step_lt hd hx))
    · have hcover : (d.step encoder e).CoveredBy numbers :=
        fun n hn => hc n ((knows_step hd he n).symm.trans hn)
      have hrank : (d.step encoder e).rank numbers ≤ d.rank numbers :=
        Finset.sum_le_sum fun n _ => rankAt_step_le hd he n
      exact Nat.lt_of_lt_of_le (ih (hd.step e) hcover hrest (hstill.turn hx) hmem) hrank

/-- **Progress.** As long as something is left to do, it is somebody's turn. -/
theorem exists_turn (hd : d.Sound) (h : d.rank numbers ≠ 0) :
    ∃ x, d.Turn x ∧ d.knows x.number = true := by
  obtain ⟨n, -, hn⟩ := Finset.exists_ne_zero_of_sum_ne_zero h
  -- A task that has not ended waits for some task; otherwise its client has something to do.
  by_cases hphase : (d.service.phase? n).elim 0 Phase.rank = 0
  · have hvisit : (d.visit? n).elim 0 (·.stage.rank) ≠ 0 := by
      rw [rankAt, hphase] at hn
      exact hn
    cases hv : d.visit? n with
    | none => simp [hv] at hvisit
    | some v =>
      have hknown : d.knows n = true := by simp [knows, hv]
      cases hs : v.stage with
      | here => exact ⟨.begin n, .begin hv hs, hknown⟩
      | waiting =>
        obtain ⟨p, hp⟩ := Option.isSome_iff_exists.mp ((hd.paired n v hv).2 hs)
        rw [hp] at hphase
        obtain ⟨y, rfl⟩ := Phase.rank_eq_zero hphase
        exact ⟨.respond n, .respond hv hs hp, hknown⟩
      | answered y => simp [hv, hs, Visit.Stage.rank] at hvisit
      | gone => simp [hv, hs, Visit.Stage.rank] at hvisit
  · cases hp : d.service.phase? n with
    | none => simp [hp] at hphase
    | some p =>
      have hlive : p.ending? = none := by
        cases p <;> first | rfl | simp [hp, Phase.rank] at hphase
      obtain ⟨u, y, hy⟩ := Service.exists_turn hd.load hd.gate hp hlive
      have hknown : d.knows u = true := by
        obtain ⟨q, -, hq, -⟩ := Service.falls_of_turn hd.load hy
        simp [knows, hq]
      obtain rfl | rfl := Service.eq_of_turn hy
      · exact ⟨.advance u, .advance hy, hknown⟩
      · exact ⟨.answer u, .answer hy, hknown⟩

theorem FairRound.mem_of_turn {d' : FrontDesk B} (h : d.FairRound round) (hx : d'.Turn x)
    (hknown : d.knows x.number = true) : x ∈ round := by
  cases hx with
  | begin => exact h.begin _ hknown
  | advance => exact h.advance _ hknown
  | answer => exact h.answer _ hknown
  | respond => exact h.respond _ hknown

/-- The round is fair as well after another one. -/
theorem FairRound.run {other : List DeskEvent} (hd : d.Sound) (h : d.FairRound other)
    (hround : d.FairRound round) : (d.run encoder round).FairRound other where
  old := h.old
  begin n hn := h.begin n ((knows_run hd hround.old n).symm.trans hn)
  advance n hn := h.advance n ((knows_run hd hround.old n).symm.trans hn)
  answer n hn := h.answer n ((knows_run hd hround.old n).symm.trans hn)
  respond n hn := h.respond n ((knows_run hd hround.old n).symm.trans hn)

/-- Every fair round gets something done, until nothing is left. -/
theorem rank_run_flatten_le (hd : d.Sound) (hc : d.CoveredBy numbers)
    {rounds : List (List DeskEvent)} (h : ∀ round ∈ rounds, d.FairRound round) :
    (d.run encoder rounds.flatten).rank numbers ≤ d.rank numbers - rounds.length := by
  induction rounds generalizing d with
  | nil => exact Nat.le_refl _
  | cons round rounds ih =>
    obtain ⟨hround, hrest⟩ := List.forall_mem_cons.mp h
    have hcover : (d.run encoder round).CoveredBy numbers :=
      fun n hn => hc n ((knows_run hd hround.old n).symm.trans hn)
    have hlater := ih (hd.run round) hcover fun other ho => (hrest other ho).run hd hround
    have hnow : (d.run encoder round).rank numbers ≤ d.rank numbers - 1 := by
      by_cases hzero : d.rank numbers = 0
      · have hle : (d.run encoder round).rank numbers ≤ d.rank numbers :=
          rank_run_le hd hround.old
        omega
      · obtain ⟨x, hx, hknown⟩ := exists_turn hd hzero
        have hlt : (d.run encoder round).rank numbers < d.rank numbers :=
          rank_run_lt hd hc hround.old hx (hround.mem_of_turn hx hknown)
        omega
    rw [List.flatten_cons, run_append, List.length_cons]
    exact Nat.le_trans hlater (by omega)

/-- A client for which nothing is left to do was served or has gone. -/
theorem stage_of_rank_eq_zero (h : d.rank numbers = 0) (hn : n ∈ numbers)
    (hv : d.visit? n = some v) : v.stage = .gone ∨ ∃ y, v.stage = .answered y := by
  have hat : d.rankAt n = 0 := Finset.sum_eq_zero_iff.mp h n hn
  rw [rankAt, hv] at hat
  cases hs : v.stage with
  | here => simp [hs, Visit.Stage.rank] at hat
  | waiting => simp [hs, Visit.Stage.rank] at hat
  | answered y => exact .inr ⟨y, rfl⟩
  | gone => exact .inl rfl

/-- **Fairness.** After ten fair rounds for every number, nothing is left to do. -/
theorem rank_run_flatten_eq_zero (hd : d.Sound) (hc : d.CoveredBy numbers)
    {rounds : List (List DeskEvent)} (h : ∀ round ∈ rounds, d.FairRound round)
    (hlong : 10 * numbers.card ≤ rounds.length) :
    (d.run encoder rounds.flatten).rank numbers = 0 := by
  have hle : (d.run encoder rounds.flatten).rank numbers ≤ d.rank numbers - rounds.length :=
    rank_run_flatten_le hd hc h
  have hbound : d.rank numbers ≤ numbers.card * 10 :=
    Finset.sum_le_card_nsmul numbers _ 10 fun n _ => hd.rankAt_le n
  omega

end FrontDesk

end SpeechService
