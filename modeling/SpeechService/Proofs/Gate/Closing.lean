import SpeechService.Proofs.Gate.Conservation

/-!
# Closing a gate

A closed gate lets nobody in any more, and whoever is inside stays inside. `Gate.Closing` spells
out what this comes to for a gate that is closed after some history and goes on with any later
events: a client that was not inside is refused at its next poll, also one that had the slot in
hand; the owner goes on as if nothing had happened; and once the owner has come out, or the client
with the slot in hand was touched, the gate is never busy again.

Behind it are two facts about a closed gate. Its slot is owned by whoever owned it and has not come
out since (`Gate.Sound.owned_run_iff`), and it is in the hand of whoever had it and was not touched
since (`Gate.Sound.handed_run_iff`); so it never gets to anybody else.
-/

namespace SpeechService

/-- Where nobody goes in, nothing happens, or the one inside comes out. -/
theorem Turns.of_no_entry {κ : Type} {o o' : Option κ} {l : List (Passage κ)} (h : Turns o l o')
    (hn : ∀ c, .entry c ∉ l) : (l = [] ∧ o' = o) ∨ ∃ c, o = some c ∧ l = [.exit c] ∧ o' = none := by
  cases h with
  | nil => exact .inl ⟨rfl, rfl⟩
  | @entry c => exact absurd List.mem_cons_self (hn c)
  | @exit c l o' h =>
    cases h with
    | nil => exact .inr ⟨c, rfl, rfl, rfl⟩
    | @entry d => exact absurd (List.mem_cons_of_mem _ List.mem_cons_self) (hn d)

namespace Slot

variable {κ : Type} [DecidableEq κ] {s : Slot κ} {c d : κ}

/-- Others that stop waiting leave the slot in the hand that it is in. -/
theorem tenure_leave_of_ne (h : s.tenure = .handed c) (hd : d ≠ c) :
    (s.leave d).tenure = .handed c := by
  have hn : s.tenure ≠ .handed d := by
    rw [h]
    exact fun hcd => hd (Tenure.handed.inj hcd).symm
  rw [leave, if_neg hn]
  exact h

/-- Others that look leave the slot in the hand that it is in, and are not admitted. -/
theorem look_of_ne (h : s.tenure = .handed c) (hd : d ≠ c) :
    (s.look d).2 ≠ .admitted ∧ (s.look d).1.tenure = .handed c := by
  have hn : s.tenure ≠ .handed d := by
    rw [h]
    exact fun hcd => hd (Tenure.handed.inj hcd).symm
  refine ⟨fun ha => hn (look_admitted ha).1, ?_⟩
  rw [look, if_neg hn]
  split
  · exact tenure_leave_of_ne h hd
  · exact h

omit [DecidableEq κ] in
/-- Closing a closed slot without a line changes nothing. -/
theorem close_of_closed (hc : s.closed = true) (hl : s.line = []) : s.close = s := by
  cases s
  simp_all [close]

end Slot

namespace Gate

variable {κ α : Type} [DecidableEq κ] {g : Gate κ} {name c o : κ}

/-- What **closing** a gate means for all that comes later. -/
structure Closing (g : Gate κ) (later : List (GateEvent κ α)) : Prop where
  /-- Nobody gets a permit any more, and nobody's work starts. -/
  nobody_enters : ∀ c, .entry c ∉ g.passagesOf (.close :: later)
  /-- A client that is not inside is refused when it is polled, and is gone then. -/
  refuses : ∀ c client, (g.run (.close :: later)).client? c = some client →
    client.stage ≠ .inside → ∀ ending : Option α,
      ((g.run (.close :: later)).poll c ending).2 = .refused ∧
        ((g.run (.close :: later)).poll c ending).1.client? c = none
  /-- The owner stays until it comes out, and is told what it would have been told before. -/
  owner_stays : ∀ o ∈ g.insiders, .exit o ∉ g.passagesOf (.close :: later) →
    (g.run (.close :: later)).insiders = [o] ∧ (g.run (.close :: later)).isBusy = true ∧
      ∀ ending : Option α, ((g.run (.close :: later)).poll o ending).2 = (g.poll o ending).2
  /-- Work that runs ends with its value. -/
  work_ends : ∀ o, g.client? o = some ⟨.work, .inside⟩ →
    .exit o ∉ g.passagesOf (.close :: later) → ∀ value : α,
      ((g.run (.close :: later)).poll o (some value)).2 = .done value
  /-- The gate is busy until the owner comes out, or the client is touched that has the slot in
  hand. -/
  busy_iff : (g.run (.close :: later)).isBusy = true ↔
    (∃ o ∈ g.insiders, .exit o ∉ g.passagesOf (.close :: later)) ∨
      ∃ h ∈ g.heirs, ∀ e ∈ later, ¬e.isAbout h
  /-- Nobody else ever gets the slot. -/
  nobody_gets : (∀ c ∈ (g.run (.close :: later)).insiders, c ∈ g.insiders) ∧
    ∀ c ∈ (g.run (.close :: later)).heirs, c ∈ g.heirs
  /-- A gate that is not busy never is again. -/
  stays_free : (g.run (.close :: later)).isBusy = false → ∀ more : List (GateEvent κ α),
    ((g.run (.close :: later)).run more).isBusy = false
  /-- To close it once more changes nothing. -/
  close_again : ((g.run (.close :: later)).step (.close : GateEvent κ α)).1
    = g.run (.close :: later)

/-! ### Polls -/

/-- A closed gate refuses a client that is not inside. -/
theorem poll_refused (hcl : g.slot.closed = true) {client : Client}
    (hc : g.client? c = some client) (hs : client.stage ≠ .inside) (ending : Option α) :
    (g.poll c ending).2 = .refused ∧ (g.poll c ending).1.client? c = none := by
  obtain ⟨purpose, stage⟩ := client
  cases stage with
  | fresh =>
    have hp : g.poll c ending = ({ g.forget c with slot := g.slot }, .refused) := by
      rw [poll, hc]
      simp only [Slot.ask, hcl, if_true, heed]
    rw [hp]
    exact ⟨rfl, client?_forget_self g c⟩
  | waiting =>
    have hp : g.poll c ending = ({ g.forget c with slot := g.slot.leave c }, .refused) := by
      rw [poll, hc]
      simp only [Slot.look, hcl, if_true, heed]
    rw [hp]
    exact ⟨rfl, client?_forget_self g c⟩
  | inside => exact absurd rfl hs

/-- What is said about a client that is inside does not depend on the gate. -/
theorem poll_of_inside {g' : Gate κ} {purpose : Purpose}
    (hc : g.client? c = some ⟨purpose, .inside⟩) (hc' : g'.client? c = some ⟨purpose, .inside⟩)
    (ending : Option α) : (g.poll c ending).2 = (g'.poll c ending).2 := by
  rw [poll, poll, hc, hc']
  cases purpose with
  | permit => rfl
  | work => cases ending <;> rfl

/-- Nothing opens a gate that is closed. -/
theorem closed_step_of_closed (hcl : g.slot.closed = true) (e : GateEvent κ α) :
    (g.step e).1.slot.closed = true := by
  cases e with
  | close => rfl
  | _ => exact (closed_step g (by simp)).trans hcl

theorem closed_run_of_closed (hcl : g.slot.closed = true) (es : List (GateEvent κ α)) :
    (g.run es).slot.closed = true := by
  induction es generalizing g with
  | nil => exact hcl
  | cons e es ih => exact ih (closed_step_of_closed hcl e)

omit [DecidableEq κ] in
/-- A gate is busy when its slot is owned or in somebody's hand. -/
theorem isBusy_iff :
    g.isBusy = true ↔ (∃ c, g.slot.tenure = .owned c) ∨ ∃ c, g.slot.tenure = .handed c := by
  cases ht : g.slot.tenure <;> simp [isBusy, Slot.isBusy, ht]

namespace Sound

theorem exists_inside (h : g.Sound) (hc : c ∈ g.insiders) :
    ∃ purpose, g.client? c = some ⟨purpose, .inside⟩ :=
  client?_of_standing .inside (h.mem_insiders_iff.mp hc) (by decide)

/-- Nobody goes in at a closed gate. -/
theorem entry_not_mem (h : g.Sound) (hcl : g.slot.closed = true) (e : GateEvent κ α) (c : κ) :
    .entry c ∉ g.passages e := by
  cases e with
  | create name purpose =>
    rw [passages]
    split <;> simp
  | drop name =>
    rw [passages]
    split <;> simp
  | close => exact List.not_mem_nil
  | poll name ending =>
    have hnot : ¬(name ∉ g.insiders ∧ (g.poll name ending).2.isIn) := by
      rintro ⟨hout, hin⟩
      cases hc : g.client? name with
      | none => simp [Gate.poll, hc, ClientReport.isIn] at hin
      | some client =>
        have hs : client.stage ≠ .inside := by
          intro hs
          refine hout (h.mem_insiders_iff.mpr ?_)
          rw [standing_eq hc, hs]
          rfl
        simp [(poll_refused hcl hc hs ending).1, ClientReport.isIn] at hin
    rw [passages, if_neg hnot, List.nil_append]
    split <;> simp

/-! ### Who is inside -/

/-- A client that is inside stays as it is until it comes out. -/
theorem client?_step_of_inside (h : g.Sound) (ho : o ∈ g.insiders) {e : GateEvent κ α}
    (hx : .exit o ∉ g.passages e) : (g.step e).1.client? o = g.client? o := by
  -- Only an event about the client can touch it, and of those only a poll does not make it come
  -- out.
  by_cases he : e.isAbout o
  case neg => exact client?_step_of_ne g he
  cases e with
  | create name purpose =>
    cases he
    exact absurd (by simp [passages, ho]) hx
  | drop name =>
    cases he
    exact absurd (by simp [passages, ho]) hx
  | close => exact he.elim
  | poll name ending =>
    obtain rfl : name = o := he
    obtain ⟨purpose, hc⟩ := h.exists_inside ho
    have hp : g.poll name ending = g.attend name purpose ending := by rw [Gate.poll, hc]
    have hdone : (g.attend name purpose ending).2.isDone = false := by
      rw [passages, hp] at hx
      by_contra hd
      exact hx (by simp [hd])
    show (g.poll name ending).1.client? name = g.client? name
    rw [hp]
    cases purpose with
    | permit => rfl
    | work =>
      cases ending with
      | none => rfl
      | some value => cases hdone

/-- **Undisturbed.** Whatever happens, a client that is inside stays as it is until it comes out. -/
theorem client?_run_of_inside (h : g.Sound) (ho : o ∈ g.insiders) {es : List (GateEvent κ α)}
    (hx : .exit o ∉ g.passagesOf es) : (g.run es).client? o = g.client? o := by
  induction es generalizing g with
  | nil => rfl
  | cons e es ih =>
    obtain ⟨hnow, hlater⟩ := not_or.mp (mt List.mem_append.mpr hx)
    have hstep := h.client?_step_of_inside ho hnow
    have ho' : o ∈ (g.step e).1.insiders := by
      rw [(h.step e).mem_insiders_iff, standing, hstep, ← standing]
      exact h.mem_insiders_iff.mp ho
    exact (ih (h.step e) ho' hlater).trans hstep

/-! ### Who has the slot in hand -/

private theorem handed_drop (h : g.Sound) (hc : g.slot.tenure = .handed c) (hn : name ≠ c) :
    (g.drop name).slot.tenure = .handed c := by
  cases hclient : g.client? name with
  | none => rwa [Gate.drop, hclient]
  | some client =>
    obtain ⟨purpose, stage⟩ := client
    rw [Gate.drop, hclient]
    cases stage with
    | fresh => exact hc
    | waiting => exact Slot.tenure_leave_of_ne hc hn
    | inside =>
      have ho := (h.fits.inside_iff name).mp (standing_eq hclient)
      simp [hc] at ho

private theorem handed_poll (h : g.Sound) (hc : g.slot.tenure = .handed c) (hn : name ≠ c)
    (ending : Option α) : (g.poll name ending).1.slot.tenure = .handed c := by
  -- As long as nobody is admitted, the slot stays where the slot operation left it.
  have hheed (purpose : Purpose) (told : Slot κ × Admission) (ha : told.2 ≠ .admitted)
      (ht : told.1.tenure = .handed c) :
      (g.heed name purpose ending told).1.slot.tenure = .handed c := by
    obtain ⟨slot, admission⟩ := told
    cases admission with
    | refused => exact ht
    | waiting => exact ht
    | admitted => exact absurd rfl ha
  cases hclient : g.client? name with
  | none => rwa [Gate.poll, hclient]
  | some client =>
    obtain ⟨purpose, stage⟩ := client
    rw [Gate.poll, hclient]
    cases stage with
    | fresh =>
      have ha : (g.slot.ask name).2 ≠ .admitted := by
        intro ha
        have hfree := (Slot.ask_admitted ha).1
        simp [hc] at hfree
      exact hheed purpose _ ha ((Slot.tenure_ask ha).trans hc)
    | waiting =>
      obtain ⟨ha, ht⟩ := Slot.look_of_ne hc hn
      exact hheed purpose _ ha ht
    | inside =>
      have ho := (h.fits.inside_iff name).mp (standing_eq hclient)
      simp [hc] at ho

/-- The slot stays in a hand until the client is touched that has it. -/
theorem handed_step_of_untouched (h : g.Sound) (hc : g.slot.tenure = .handed c)
    {e : GateEvent κ α} (he : ¬e.isAbout c) : (g.step e).1.slot.tenure = .handed c := by
  cases e with
  | create name purpose => exact h.handed_drop hc he
  | drop name => exact h.handed_drop hc he
  | poll name ending => exact h.handed_poll hc he ending
  | close => exact hc

/-! ### The closed gate -/

theorem entry_not_mem_passagesOf (h : g.Sound) (hcl : g.slot.closed = true)
    (es : List (GateEvent κ α)) (c : κ) : .entry c ∉ g.passagesOf es := by
  induction es generalizing g with
  | nil => exact List.not_mem_nil
  | cons e es ih =>
    intro hm
    rcases List.mem_append.mp hm with hm | hm
    · exact h.entry_not_mem hcl e c hm
    · exact ih (h.step e) (closed_step_of_closed hcl e) hm

/-- **The owner.** The slot of a closed gate is owned by whoever owned it and has not come out
since. -/
theorem owned_run_iff (h : g.Sound) (hcl : g.slot.closed = true) (es : List (GateEvent κ α)) :
    (g.run es).slot.tenure = .owned c ↔ g.slot.tenure = .owned c ∧ .exit c ∉ g.passagesOf es := by
  have howner (s : Slot κ) : s.owner? = some c ↔ s.tenure = .owned c := by
    cases ht : s.tenure <;> simp [Slot.owner?, ht]
  rw [← howner, ← howner]
  -- Without an entry the turns are no passage at all, or the exit of the owner.
  rcases (h.turns_run es).of_no_entry (h.entry_not_mem_passagesOf hcl es) with
    ⟨hl, ho⟩ | ⟨d, hd, hl, ho⟩
  · simp [hl, ho]
  · simp [hl, ho, hd, eq_comm]

/-- **The client with the slot in hand.** The slot of a closed gate is in the hand of whoever had
it and was not touched since. -/
theorem handed_run_iff (h : g.Sound) (hcl : g.slot.closed = true) (es : List (GateEvent κ α)) :
    (g.run es).slot.tenure = .handed c ↔
      g.slot.tenure = .handed c ∧ ∀ e ∈ es, ¬e.isAbout c := by
  induction es generalizing g with
  | nil => simp
  | cons e es ih =>
    -- Nobody is in line at a closed gate, so that the slot is handed to no one else.
    have hstep : (g.step e).1.slot.tenure = .handed c ↔
        g.slot.tenure = .handed c ∧ ¬e.isAbout c := by
      refine ⟨fun hc => ?_, fun hc => h.handed_step_of_untouched hc.1 hc.2⟩
      refine (h.handed_step e hc).resolve_right ?_
      simp [h.fits.line_of_closed hcl]
    rw [run_cons, ih (h.step e) (closed_step_of_closed hcl e), hstep, List.forall_mem_cons,
      and_assoc]

/-- A closed gate that is not busy stays so. -/
theorem not_busy_run (h : g.Sound) (hcl : g.slot.closed = true) (hb : g.isBusy = false)
    (es : List (GateEvent κ α)) : (g.run es).isBusy = false := by
  refine Bool.eq_false_iff.mpr fun hbusy => Bool.eq_false_iff.mp hb (isBusy_iff.mpr ?_)
  rcases isBusy_iff.mp hbusy with ⟨c, hc⟩ | ⟨c, hc⟩
  · exact .inl ⟨c, ((h.owned_run_iff hcl es).mp hc).1⟩
  · exact .inr ⟨c, ((h.handed_run_iff hcl es).mp hc).1⟩

end Sound

/-- **Closing.** Whenever a gate is closed, and whatever comes later, it lets nobody in, leaves the
owner alone, and is free for good once the owner has come out. -/
theorem closing_run (history later : List (GateEvent κ α)) : Closing (run {} history) later := by
  have h0 : (run {} history).Sound := sound_new.run history
  -- From here on it only counts that the gate is sound, not how it came to be so.
  generalize run {} history = g at h0
  have h : ((g.step (.close : GateEvent κ α)).1).Sound := h0.step _
  have hcl : ((g.step (.close : GateEvent κ α)).1).slot.closed = true := rfl
  have hafter := h.run later
  have hclosed := closed_run_of_closed hcl later
  have howned (c : κ) := h.owned_run_iff (c := c) hcl later
  have hhanded (c : κ) := h.handed_run_iff (c := c) hcl later
  refine ⟨h.entry_not_mem_passagesOf hcl later,
    fun c client hc hs ending => poll_refused hclosed hc hs ending,
    fun o ho hx => ?_, fun o hc hx value => ?_, ?_, ⟨fun c hc => ?_, fun c hc => ?_⟩,
    fun hb more => hafter.not_busy_run hclosed hb more, ?_⟩
  · have ht := (howned o).mpr ⟨h0.mem_insiders.mp ho, hx⟩
    obtain ⟨purpose, hc⟩ := h0.exists_inside ho
    have hc' := (h.client?_run_of_inside ho hx).trans hc
    refine ⟨?_, isBusy_iff.mpr (.inl ⟨o, ht⟩), poll_of_inside hc' hc⟩
    rw [run_cons, hafter.insiders_eq, Slot.owner?, ht, Option.toList_some]
  · have ho : o ∈ g.insiders := h0.mem_insiders_iff.mpr (standing_eq hc)
    have hc' := (h.client?_run_of_inside ho hx).trans hc
    have hreport := poll_of_inside hc' hc (some value)
    rw [run_cons, hreport, poll, hc]
    rfl
  · rw [isBusy_iff]
    refine or_congr (exists_congr fun o => ?_) (exists_congr fun c => ?_)
    · rw [run_cons, howned o, h0.mem_insiders]
      rfl
    · rw [run_cons, hhanded c, h0.mem_heirs]
      rfl
  · exact h0.mem_insiders.mpr ((howned c).mp (hafter.mem_insiders.mp hc)).1
  · exact h0.mem_heirs.mpr ((hhanded c).mp (hafter.mem_heirs.mp hc)).1
  · have hslot := Slot.close_of_closed hclosed (hafter.fits.line_of_closed hclosed)
    show { (g.run (.close :: later)) with slot := (g.run (.close :: later)).slot.close } = _
    rw [run_cons, hslot]

/-- The owner has come out, so that the slot is in the hand of the first client in line while a
second one still waits. When the gate is closed then, both of them are refused. -/
theorem closing_run_after_hand_over :
    let history : List (GateEvent Nat Nat) := [.create 0 .permit, .create 1 .work,
      .create 2 .work, .poll 0 none, .poll 1 none, .poll 2 none, .drop 0]
    let g : Gate Nat := run {} history
    let closed : Gate Nat := g.run [(.close : GateEvent Nat Nat)]
    g.heirs = [1] ∧ g.slot.line = [2] ∧ Closing g ([] : List (GateEvent Nat Nat)) ∧
      (closed.poll 1 (some 7)).2 = .refused ∧ (closed.poll 2 (some 7)).2 = .refused := by
  intro history g closed
  have hclosing : Closing g ([] : List (GateEvent Nat Nat)) := closing_run history []
  have hfirst : closed.client? 1 = some ⟨.work, .waiting⟩ := by decide
  have hsecond : closed.client? 2 = some ⟨.work, .waiting⟩ := by decide
  exact ⟨by decide, by decide, hclosing, (hclosing.refuses 1 _ hfirst (by decide) (some 7)).1,
    (hclosing.refuses 2 _ hsecond (by decide) (some 7)).1⟩

end Gate

end SpeechService
