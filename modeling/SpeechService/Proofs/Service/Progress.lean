import SpeechService.Proofs.Service.Generating
import SpeechService.Proofs.Service.Loading

/-!
# Progress

Tasks that are not dropped come to their ends. Every phase has a **rank**, and a task whose turn it
is goes on to a lower one (`Service.falls_of_turn`). A task that stands in line has to wait for its
turn, and what it does until then changes nothing that counts (`Service.still_of_advance`). As long
as there is a task that has not ended, it is some task's turn (`Service.exists_turn`): who waits
waits for somebody who has the slot, or to whom it was handed.
-/

namespace SpeechService

variable {B : Backend}

/-- The **rank** of a phase; the phases that may follow have lower ones. -/
def Phase.rank : Phase B → Nat
  | .arrived _ => 8
  | .accepted _ => 7
  | .awaitingModel _ => 6
  | .loadingEngine .. => 5
  | .loadingProcessor .. => 4
  | .equipped .. => 3
  | .awaitingGate .. => 2
  | .generating .. => 1
  | .ended _ => 0

theorem Phase.rank_le (p : Phase B) : p.rank ≤ 8 := by
  cases p <;> simp [rank]

theorem Phase.rank_eq_zero {p : Phase B} (h : p.rank = 0) : ∃ x, p = .ended x := by
  cases p with
  | ended x => exact ⟨x, rfl⟩
  | _ => cases h

/-- Who waited for the model goes on below the rank of loading it. -/
theorem Errand.rank_withModel_le (errand : Errand) (m : LoadedModel B) :
    (errand.withModel m).rank ≤ 3 := by
  cases errand <;> simp [withModel, Phase.rank]

/-- A client whose turn it is does not look in vain. -/
theorem Slot.look_ne_waiting {slot : Slot Nat} {t : Nat}
    (h : slot.closed = true ∨ slot.tenure = .handed t) : (slot.look t).2 ≠ .waiting := by
  rw [look]
  split
  · simp
  · next hcl => simp [h.resolve_left hcl]

/-- Before that, it changes nothing by looking. -/
theorem Slot.look_in_vain {slot : Slot Nat} {t : Nat}
    (h : ¬(slot.closed = true ∨ slot.tenure = .handed t)) : slot.look t = (slot, .waiting) := by
  obtain ⟨hcl, hten⟩ := not_or.mp h
  rw [look, if_neg hcl, if_neg hten]

namespace Service

variable {s after : Service B} {t u : Nat} {p : Phase B} {e : ServiceEvent B}

/-- The event by which a task goes on if it is its **turn**. -/
def turn? (s : Service B) (t : Nat) : Option (ServiceEvent B) :=
  match s.phase? t with
  | none | some (.ended _) => none
  | some (.loadingEngine ..) | some (.loadingProcessor ..) | some (.generating ..) =>
    some (.answer t)
  | some (.awaitingModel _) =>
    if s.loading.closed = true ∨ s.loading.tenure = .handed t then some (.advance t) else none
  | some (.awaitingGate ..) =>
    if s.gate.closed = true ∨ s.gate.tenure = .handed t then some (.advance t) else none
  | some _ => some (.advance t)

theorem eq_of_turn (h : s.turn? t = some e) : e = .advance t ∨ e = .answer t := by
  rw [turn?] at h
  split at h <;> first
    | cases h; simp
    | cases h
    | (split at h <;> cases h; simp)

/-! ### Falling -/

/-- A task **falls** when it comes to a lower rank. -/
def Falls (s after : Service B) (t : Nat) : Prop :=
  ∃ p q, s.phase? t = some p ∧ after.phase? t = some q ∧ q.rank < p.rank

/-- A task that enters a lower phase falls. -/
theorem falls_enter (hp : s.phase? t = some p) {q : Phase B} (hq : q.rank < p.rank)
    (after : Service B) : s.Falls (after.enter t q) t :=
  ⟨p, q, hp, phase?_enter_self after t q, hq⟩

/-- Who is not left waiting for the model falls below the rank of those who are. -/
private theorem falls_heedLoading (hp : s.phase? t = some p) (errand : Errand)
    {told : Slot Nat × Admission} (hw : told.2 = .waiting → 6 < p.rank) (hr : 5 < p.rank)
    (hm : told.2 = .refused → s.model.isSome = true) :
    s.Falls (s.heedLoading t errand told) t := by
  obtain ⟨loading, admission⟩ := told
  cases admission with
  | admitted =>
    refine falls_enter hp ?_ _
    exact hr
  | waiting =>
    refine falls_enter hp ?_ _
    exact hw rfl
  | refused =>
    obtain ⟨m, hmodel⟩ := Option.isSome_iff_exists.mp (hm rfl)
    rw [heedLoading_refused hmodel]
    have hle := errand.rank_withModel_le m
    exact falls_enter hp (by omega) _

/-- Who is not left waiting at the gate falls below the rank of those who are. -/
private theorem falls_heedGate (hp : s.phase? t = some p) (m : LoadedModel B) (text : SpokenText)
    (q : Parameters) {told : Slot Nat × Admission} (hw : told.2 = .waiting → 2 < p.rank)
    (hr : 1 < p.rank) : s.Falls (s.heedGate t m text q told) t := by
  obtain ⟨gate, admission⟩ := told
  cases admission with
  | waiting =>
    refine falls_enter hp ?_ _
    exact hw rfl
  | refused =>
    refine falls_enter hp ?_ _
    exact Nat.zero_lt_of_lt hr
  | admitted =>
    rw [heedGate, startGenerating]
    split
    split
    · refine falls_enter hp ?_ _
      exact Nat.zero_lt_of_lt hr
    · refine falls_enter hp ?_ _
      exact hr

/-- A task that goes on by itself falls when it is its turn. -/
private theorem falls_of_advance (hl : s.LoadSound) (hp : s.phase? t = some p)
    (h : s.turn? t = some (.advance t)) : s.Falls (s.advance t p) t := by
  have hmodel (hr : s.loading.closed = true) : s.model.isSome = true := hl.closed_eq ▸ hr
  rw [turn?, hp] at h
  cases p with
  | arrived r =>
    rw [advance, accept]
    split
    · exact falls_enter hp (by simp [Phase.rank]) _
    · exact falls_enter hp (by simp [Phase.rank]) _
  | accepted errand =>
    rw [advance, seekModel]
    split
    · next m _ =>
      have hle := errand.rank_withModel_le m
      refine falls_enter hp ?_ _
      exact Nat.lt_of_le_of_lt hle (by simp [Phase.rank])
    · exact falls_heedLoading hp errand (fun _ => by simp [Phase.rank]) (by simp [Phase.rank])
        fun hr => hmodel (Slot.closed_of_ask hr)
  | awaitingModel errand =>
    -- The turn has come, so that looking is not in vain.
    have hturn : s.loading.closed = true ∨ s.loading.tenure = .handed t := by
      by_contra hno
      simp [hno] at h
    refine falls_heedLoading hp errand (fun hw => ?_) (by simp [Phase.rank])
      fun hr => hmodel (Slot.closed_of_look hr)
    exact absurd hw (Slot.look_ne_waiting hturn)
  | equipped m text q =>
    exact falls_heedGate hp m text q (fun _ => by simp [Phase.rank]) (by simp [Phase.rank])
  | awaitingGate m text q =>
    have hturn : s.gate.closed = true ∨ s.gate.tenure = .handed t := by
      by_contra hno
      simp [hno] at h
    refine falls_heedGate hp m text q (fun hw => ?_) (by simp [Phase.rank])
    exact absurd hw (Slot.look_ne_waiting hturn)
  | _ => simp at h

/-- A task whose call comes back falls. -/
private theorem falls_of_answer (hp : s.phase? t = some p) (h : s.turn? t = some (.answer t)) :
    s.Falls (s.answer t p) t := by
  rw [turn?, hp] at h
  cases p with
  | loadingEngine errand device call =>
    show s.Falls (s.takeEngine t errand device call.result) t
    cases call.result with
    | error x =>
      exact falls_enter hp (by simp [Phase.rank]) _
    | ok engine =>
      exact falls_enter hp (by simp [Phase.rank]) _
  | loadingProcessor errand device engine call =>
    show s.Falls (s.takeProcessor t errand device engine call.result) t
    cases call.result with
    | error x =>
      exact falls_enter hp (by simp [Phase.rank]) _
    | ok processor =>
      refine falls_enter hp ?_ _
      exact Nat.lt_of_le_of_lt (errand.rank_withModel_le _) (by simp [Phase.rank])
  | generating m call =>
    exact falls_enter hp (by simp [Phase.rank]) _
  | awaitingModel errand =>
    by_cases hturn : s.loading.closed = true ∨ s.loading.tenure = .handed t <;> simp [hturn] at h
  | awaitingGate m text q =>
    by_cases hturn : s.gate.closed = true ∨ s.gate.tenure = .handed t <;> simp [hturn] at h
  | _ => simp at h

/-- **Falling.** A task whose turn it is goes on to a lower rank. -/
theorem falls_of_turn (hl : s.LoadSound) (h : s.turn? t = some e) : s.Falls (s.step e) t := by
  cases hp : s.phase? t with
  | none => simp [turn?, hp] at h
  | some p =>
    obtain rfl | rfl := eq_of_turn h
    · rw [step_advance hp]
      exact falls_of_advance hl hp h
    · rw [step_answer hp]
      exact falls_of_answer hp h

/-! ### Standing still -/

/-- Nothing that counts for anybody's turn has changed. -/
structure Still (s after : Service B) : Prop where
  phase? : after.phase? = s.phase?
  loading : after.loading = s.loading
  gate : after.gate = s.gate

theorem still_self (s : Service B) : s.Still s := ⟨rfl, rfl, rfl⟩

theorem Still.turn?_eq (h : s.Still after) (t : Nat) : after.turn? t = s.turn? t := by
  rw [turn?, turn?, h.phase?, h.loading, h.gate]

/-- A task that enters its own phase again stands still. -/
private theorem still_enter (hp : s.phase? t = some p) : s.Still (s.enter t p) where
  phase? := by
    funext u
    by_cases hu : u = t
    · rw [hu, phase?_enter_self, hp]
    · exact phase?_enter_of_ne s p hu
  loading := rfl
  gate := rfl

/-- A task whose turn it is not to go on by itself stands still when it tries. -/
theorem still_of_advance (h : s.turn? t ≠ some (.advance t)) :
    s.Still (s.step (.advance t)) := by
  cases hp : s.phase? t with
  | none =>
    rw [step, withTask, hp]
    exact still_self s
  | some p =>
    rw [step_advance hp]
    rw [turn?, hp] at h
    cases p with
    | arrived r => exact absurd rfl h
    | accepted errand => exact absurd rfl h
    | equipped m text q => exact absurd rfl h
    | awaitingModel errand =>
      have hturn : ¬(s.loading.closed = true ∨ s.loading.tenure = .handed t) := by
        intro hyes
        simp [hyes] at h
      rw [advance, Slot.look_in_vain hturn]
      exact still_enter hp
    | awaitingGate m text q =>
      have hturn : ¬(s.gate.closed = true ∨ s.gate.tenure = .handed t) := by
        intro hyes
        simp [hyes] at h
      rw [advance, Slot.look_in_vain hturn]
      exact still_enter hp
    | _ => exact still_self s

/-- A task that waits for no call stands still when one comes back. -/
theorem still_of_answer (h : s.turn? t ≠ some (.answer t)) : s.Still (s.step (.answer t)) := by
  cases hp : s.phase? t with
  | none =>
    rw [step, withTask, hp]
    exact still_self s
  | some p =>
    rw [step_answer hp]
    rw [turn?, hp] at h
    cases p with
    | loadingEngine errand device call => exact absurd rfl h
    | loadingProcessor errand device engine call => exact absurd rfl h
    | generating m call => exact absurd rfl h
    | _ => exact still_self s

/-- Tasks that go on are not forgotten. -/
theorem isSome_phase?_advance (hl : s.LoadSound) (t : Nat) :
    ((s.step (.advance t)).phase? t).isSome = (s.phase? t).isSome := by
  by_cases h : s.turn? t = some (.advance t)
  · obtain ⟨p, q, hp, hq, -⟩ := falls_of_turn hl h
    rw [hp, hq]
    rfl
  · rw [(still_of_advance h).phase?]

theorem isSome_phase?_answer (hl : s.LoadSound) (t : Nat) :
    ((s.step (.answer t)).phase? t).isSome = (s.phase? t).isSome := by
  by_cases h : s.turn? t = some (.answer t)
  · obtain ⟨p, q, hp, hq, -⟩ := falls_of_turn hl h
    rw [hp, hq]
    rfl
  · rw [(still_of_answer h).phase?]

/-! ### Somebody's turn -/

/-- It is the turn of whoever loads the model. -/
private theorem turn_of_loading (h : s.loadingStanding t = .inside) :
    s.turn? t = some (.answer t) := by
  cases hp : s.phase? t with
  | none => simp [loadingStanding, hp] at h
  | some p =>
    rw [loadingStanding_eq hp] at h
    rw [turn?, hp]
    cases p <;> simp_all [Phase.loadingStanding]

/-- It is the turn of whoever generates. -/
private theorem turn_of_generating (h : s.gateStanding t = .inside) :
    s.turn? t = some (.answer t) := by
  cases hp : s.phase? t with
  | none => simp [gateStanding, hp] at h
  | some p =>
    rw [gateStanding_eq hp] at h
    rw [turn?, hp]
    cases p <;> simp_all [Phase.gateStanding]

/-- Somebody has the slot for which a task waits, or it was handed to somebody. -/
private theorem exists_turn_of_waiting {slot : Slot Nat} {standing : Nat → Standing}
    (h : slot.Fits standing) (ht : standing t = .waiting)
    (hin : ∀ c, standing c = .inside → s.turn? c = some (.answer c))
    (hout : ∀ c, standing c = .waiting → slot.closed = true ∨ slot.tenure = .handed c →
      s.turn? c = some (.advance c)) :
    ∃ c e, s.turn? c = some e := by
  cases hcl : slot.closed with
  | true => exact ⟨t, _, hout t ht (.inl hcl)⟩
  | false =>
    cases hten : slot.tenure with
    | owned c => exact ⟨c, _, hin c ((h.inside_iff c).mpr hten)⟩
    | handed c => exact ⟨c, _, hout c (h.handed c hten).1 (.inr hten)⟩
    | free =>
      -- A free slot has no line, so that nobody could be waiting for it.
      have hline : slot.line = [] := h.line_of_free hten
      obtain hh | hh := h.listed hcl t ht
      · simp [hten] at hh
      · simp [hline] at hh

/-- **Progress.** As long as there is a task that has not ended, it is somebody's turn. -/
theorem exists_turn (hl : s.LoadSound) (hg : s.GateSound) (hp : s.phase? t = some p)
    (hlive : p.ending? = none) : ∃ u e, s.turn? u = some e := by
  cases p with
  | ended x => cases hlive
  | awaitingModel errand =>
    refine exists_turn_of_waiting hl.fits (loadingStanding_eq hp) (fun c => turn_of_loading) ?_
    intro c hc hturn
    cases hq : s.phase? c with
    | none => simp [loadingStanding, hq] at hc
    | some q =>
      rw [loadingStanding_eq hq] at hc
      rw [turn?, hq]
      cases q <;> simp_all [Phase.loadingStanding]
  | awaitingGate m text q =>
    refine exists_turn_of_waiting hg (gateStanding_eq hp) (fun c => turn_of_generating) ?_
    intro c hc hturn
    cases hq : s.phase? c with
    | none => simp [gateStanding, hq] at hc
    | some q =>
      rw [gateStanding_eq hq] at hc
      rw [turn?, hq]
      cases q <;> simp_all [Phase.gateStanding]
  | _ => exact ⟨t, _, by rw [turn?, hp]⟩

end Service

end SpeechService
