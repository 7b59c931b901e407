import Mathlib.Data.List.Induction
import SpeechService.Proofs.Gate.Run

/-!
# Conservation of the slot

A gate has one slot, and it is always in one place: free, with one client inside, or handed to one
client that waits and has not looked since. `Gate.Conserved` spells this out for the gate after a
history of events, together with what follows from it: clients go in and come out by **turns**, so
that no two are ever inside at a time, and dropping everybody gets the slot back.
-/

namespace SpeechService

/-- What a step shows of the slot. -/
inductive Passage (κ : Type) where
  /-- A client gets its permit, or its work starts. -/
  | entry (client : κ)
  /-- A permit is dropped, or work ends or is dropped. -/
  | exit (client : κ)
deriving DecidableEq

/-- Passages by **turns**: nobody goes in before the one inside has come out. The ends say who is
inside at first and at last. -/
inductive Turns {κ : Type} : Option κ → List (Passage κ) → Option κ → Prop where
  | nil (o : Option κ) : Turns o [] o
  | entry {c : κ} {l : List (Passage κ)} {o : Option κ} :
      Turns (some c) l o → Turns none (.entry c :: l) o
  | exit {c : κ} {l : List (Passage κ)} {o : Option κ} :
      Turns none l o → Turns (some c) (.exit c :: l) o

theorem Turns.append {κ : Type} {a b c : Option κ} {l m : List (Passage κ)} (h : Turns a l b)
    (k : Turns b m c) : Turns a (l ++ m) c := by
  induction h with
  | nil o => exact k
  | entry _ ih => exact .entry (ih k)
  | exit _ ih => exact .exit (ih k)

/-- The client was let in, now or earlier. -/
def ClientReport.isIn {α : Type} : ClientReport α → Bool
  | .holding | .running | .done _ => true
  | _ => false

/-- The client's work has ended. -/
def ClientReport.isDone {α : Type} : ClientReport α → Bool
  | .done _ => true
  | _ => false

/-- The event is about the client of a name. -/
def GateEvent.isAbout {κ α : Type} (name : κ) : GateEvent κ α → Prop
  | .create c _ | .poll c _ | .drop c => c = name
  | .close => False

namespace Gate

variable {κ α : Type} [DecidableEq κ] {g : Gate κ} {name c : κ}

/-- **Frame.** A client that an event is not about stays as it is. -/
theorem client?_step_of_ne (g : Gate κ) {e : GateEvent κ α} (h : ¬e.isAbout c) :
    (g.step e).1.client? c = g.client? c := by
  cases e with
  | create name purpose =>
    have hne : c ≠ name := fun hc => h hc.symm
    exact (client?_put_of_ne _ _ hne).trans (client?_drop_of_ne g hne)
  | poll name ending => exact client?_poll_of_ne g (fun hc => h hc.symm) ending
  | drop name => exact client?_drop_of_ne g fun hc => h hc.symm
  | close => rfl

/-- The clients that are inside: those that hold a permit and those whose work runs. -/
def insiders (g : Gate κ) : List κ :=
  (g.clients.filter (·.2.stage = .inside)).map (·.1)

/-- The clients that wait though the slot was handed to them. -/
def heirs (g : Gate κ) : List κ :=
  (g.clients.filter fun p => p.2.stage = .waiting ∧ g.slot.tenure = .handed p.1).map (·.1)

/-- The passages of a step, by what is said about the client. -/
def passages (g : Gate κ) : GateEvent κ α → List (Passage κ)
  | .create name _ | .drop name => if name ∈ g.insiders then [.exit name] else []
  | .poll name ending =>
    let report := (g.poll name ending).2
    (if name ∉ g.insiders ∧ report.isIn then [.entry name] else [])
      ++ (if report.isDone then [.exit name] else [])
  | .close => []

/-- The passages of a run. -/
def passagesOf (g : Gate κ) : List (GateEvent κ α) → List (Passage κ)
  | [] => []
  | e :: es => g.passages e ++ (g.step e).1.passagesOf es

/-- The slot of a new gate is **conserved** over a history of events. -/
structure Conserved (history : List (GateEvent κ α)) : Prop where
  /-- The slot is in one place. -/
  one_place :
    let g := run {} history
    (if g.slot.tenure = .free then 1 else 0) + g.insiders.length + g.heirs.length = 1
  /-- The gate is busy unless the slot is free. -/
  busy_iff : (run {} history).isBusy = true ↔ (run {} history).slot.tenure ≠ .free
  /-- A client that the slot was handed to had come to the front of the line, and nothing was done
  with it since. -/
  untouched_since : ∀ c ∈ (run {} history).heirs, ∃ before e after,
    history = before ++ e :: after ∧ (run {} before).slot.line.head? = some c
      ∧ c ∈ (run {} (before ++ [e])).heirs ∧ ∀ f ∈ after, ¬f.isAbout c
  /-- Clients go in and come out by turns. -/
  by_turns : Turns none (passagesOf {} history) (run {} history).insiders.head?
  /-- Once every client is dropped, the gate is not busy. -/
  not_lost : ∀ names : List κ, (∀ c, ((run {} history).client? c).isSome → c ∈ names) →
    ((run {} history).run (names.map fun c => (.drop c : GateEvent κ α))).isBusy = false

/-! ### Who is inside and who is about to go in -/

/-- The clients of a stage in which they stand to the slot. -/
theorem Sound.mem_names_of_stage (h : g.Sound) {stage : Stage} (hs : stage ≠ .fresh) :
    c ∈ (g.clients.filter (·.2.stage = stage)).map (·.1) ↔ g.standing c = stage.standing := by
  rw [Roster.mem_names_filter h.names_nodup fun client => client.stage = stage]
  constructor
  · rintro ⟨client, hc, hst⟩
    rw [standing_eq hc, of_decide_eq_true hst]
  · intro hst
    obtain ⟨purpose, hc⟩ := client?_of_standing stage hst hs
    exact ⟨_, hc, by simp⟩

theorem Sound.mem_insiders_iff (h : g.Sound) : c ∈ g.insiders ↔ g.standing c = .inside :=
  h.mem_names_of_stage (by decide)

/-- Who is inside owns the slot. -/
theorem Sound.mem_insiders (h : g.Sound) : c ∈ g.insiders ↔ g.slot.tenure = .owned c :=
  h.mem_insiders_iff.trans (h.fits.inside_iff c)

/-- The heirs are those to whom the slot is handed. -/
theorem Sound.mem_heirs (h : g.Sound) : c ∈ g.heirs ↔ g.slot.tenure = .handed c := by
  rw [heirs, List.mem_map]
  constructor
  · rintro ⟨⟨d, client⟩, hd, rfl⟩
    have hst : client.stage = .waiting ∧ g.slot.tenure = .handed d := by
      simpa using (List.mem_filter.mp hd).2
    exact hst.2
  · intro hh
    obtain ⟨purpose, hc⟩ :=
      client?_of_standing .waiting (h.fits.handed c hh).1 (by decide)
    have hm := (Roster.mem_iff_lookup h.names_nodup).mpr hc
    exact ⟨(c, ⟨purpose, .waiting⟩), List.mem_filter.mpr ⟨hm, by simpa using hh⟩, rfl⟩

/-- There is one insider at most, who is the owner. -/
theorem Sound.insiders_eq (h : g.Sound) : g.insiders = g.slot.owner?.toList :=
  h.fits.insiders_eq (Roster.nodup_names_filter h.names_nodup fun client => client.stage = .inside)
    fun _ => h.mem_insiders_iff

/-- The slot is handed to one heir at a time. -/
theorem Sound.heirs_eq (h : g.Sound) (hh : g.slot.tenure = .handed c) : g.heirs = [c] := by
  have hn : g.heirs.Nodup := h.names_nodup.sublist (List.filter_sublist.map _)
  refine Roster.eq_singleton_of_mem_iff hn fun d => ?_
  rw [h.mem_heirs, hh, Tenure.handed.injEq, eq_comm]

theorem Sound.heirs_eq_nil (h : g.Sound) (hh : ∀ c, g.slot.tenure ≠ .handed c) : g.heirs = [] :=
  List.eq_nil_iff_forall_not_mem.mpr fun d hd => hh d (h.mem_heirs.mp hd)

/-- **One place.** The slot is free, or one client is inside, or one client has it in hand. -/
theorem Sound.one_place (h : g.Sound) :
    (if g.slot.tenure = .free then 1 else 0) + g.insiders.length + g.heirs.length = 1 := by
  rw [h.insiders_eq]
  cases ht : g.slot.tenure with
  | free => simp [Slot.owner?, ht, h.heirs_eq_nil (by simp [ht])]
  | owned c => simp [Slot.owner?, ht, h.heirs_eq_nil (by simp [ht])]
  | handed c => simp [Slot.owner?, ht, h.heirs_eq ht]

/-! ### Where the slot goes in a step -/

/-- The slot of a client that is inside goes on only when its work ends. -/
theorem slot_attend (g : Gate κ) (name : κ) (purpose : Purpose) (ending : Option α) :
    (g.attend name purpose ending).1.slot
      = if (g.attend name purpose ending).2.isDone then g.slot.release name else g.slot := by
  cases purpose with
  | permit => simp [attend, ClientReport.isDone]
  | work => cases ending <;> simp [attend, ClientReport.isDone]

theorem isIn_attend (g : Gate κ) (name : κ) (purpose : Purpose) (ending : Option α) :
    (g.attend name purpose ending).2.isIn = true := by
  cases purpose with
  | permit => simp [attend, ClientReport.isIn]
  | work => cases ending <;> simp [attend, ClientReport.isIn]

/-! ### What only closing does -/

theorem closed_attend (g : Gate κ) (name : κ) (purpose : Purpose) (ending : Option α) :
    (g.attend name purpose ending).1.slot.closed = g.slot.closed := by
  rw [slot_attend]
  split
  · exact Slot.closed_release g.slot name
  · rfl

theorem closed_heed (g : Gate κ) (name : κ) (purpose : Purpose) (ending : Option α)
    (told : Slot κ × Admission) :
    (g.heed name purpose ending told).1.slot.closed = told.1.closed := by
  obtain ⟨slot, admission⟩ := told
  cases admission with
  | refused => rfl
  | waiting => rfl
  | admitted => exact closed_attend _ name purpose ending

/-- A drop neither opens nor closes a gate. -/
theorem closed_drop (g : Gate κ) (name : κ) : (g.drop name).slot.closed = g.slot.closed := by
  rw [drop]
  split
  · rfl
  · rfl
  · exact Slot.closed_leave g.slot name
  · exact Slot.closed_release g.slot name

theorem closed_poll (g : Gate κ) (name : κ) (ending : Option α) :
    (g.poll name ending).1.slot.closed = g.slot.closed := by
  rw [poll]
  split
  · rfl
  · exact (closed_heed g name _ ending _).trans (Slot.closed_ask g.slot name)
  · exact (closed_heed g name _ ending _).trans (Slot.closed_look g.slot name)
  · exact closed_attend g name _ ending

/-- Only closing closes a gate, and nothing opens it. -/
theorem closed_step (g : Gate κ) {e : GateEvent κ α} (h : e ≠ .close) :
    (g.step e).1.slot.closed = g.slot.closed := by
  cases e with
  | create name purpose => exact closed_drop g name
  | poll name ending => exact closed_poll g name ending
  | drop name => exact closed_drop g name
  | close => exact absurd rfl h

namespace Sound

/-- A client that does not wait has nothing in hand. -/
theorem handedOn_self (h : g.Sound) (hst : g.standing name ≠ .waiting) :
    g.slot.HandedOn name g.slot := by
  refine fun d hd => .inl ⟨hd, ?_⟩
  rintro rfl
  exact h.fits.not_handed hst hd

/-- A client that is dropped hands on what it had. -/
theorem handedOn_drop (h : g.Sound) (name : κ) : g.slot.HandedOn name (g.drop name).slot := by
  cases hc : g.client? name with
  | none =>
    rw [Gate.drop, hc]
    exact h.handedOn_self (by simp [standing, hc])
  | some client =>
    obtain ⟨purpose, stage⟩ := client
    have hst := standing_eq hc
    rw [Gate.drop, hc]
    cases stage with
    | fresh => exact h.handedOn_self (by simp [hst, Stage.standing])
    | waiting => exact Slot.handedOn_leave g.slot name
    | inside => exact Slot.handedOn_release ((h.fits.inside_iff name).mp hst)

/-- Letting a client in hands the slot to nobody, unless its work ends at once. -/
theorem handedOn_heed {told : Slot κ × Admission} (hs : g.slot.HandedOn name told.1)
    (ha : told.2 = .admitted → told.1 = { g.slot with tenure := .owned name })
    (purpose : Purpose) (ending : Option α) :
    g.slot.HandedOn name (g.heed name purpose ending told).1.slot := by
  obtain ⟨slot, admission⟩ := told
  cases admission with
  | refused => exact hs
  | waiting => exact hs
  | admitted =>
    intro d hd
    rw [Gate.heed, slot_attend] at hd
    split at hd
    · have hd' : ({ g.slot with tenure := .owned name }.release name).tenure = .handed d :=
        ha rfl ▸ hd
      rcases Slot.handedOn_release rfl d hd' with ⟨ho, -⟩ | hl
      · simp at ho
      · exact .inr hl
    · exact hs d hd

/-- A client that is polled hands on what it does not keep. -/
theorem handedOn_poll (h : g.Sound) (name : κ) (ending : Option α) :
    g.slot.HandedOn name (g.poll name ending).1.slot := by
  cases hc : g.client? name with
  | none =>
    rw [Gate.poll, hc]
    exact h.handedOn_self (by simp [standing, hc])
  | some client =>
    obtain ⟨purpose, stage⟩ := client
    have hst := standing_eq hc
    rw [Gate.poll, hc]
    cases stage with
    | fresh =>
      refine handedOn_heed (fun d hd => ?_) (fun ha => (Slot.ask_admitted ha).2) purpose ending
      by_cases ha : (g.slot.ask name).2 = .admitted
      · rw [(Slot.ask_admitted ha).2] at hd
        simp at hd
      · rw [Slot.tenure_ask ha] at hd
        exact h.handedOn_self (by simp [hst, Stage.standing]) d hd
    | waiting =>
      exact handedOn_heed (Slot.handedOn_look g.slot name)
        (fun ha => (Slot.look_admitted ha).2) purpose ending
    | inside =>
      change g.slot.HandedOn name (g.attend name purpose ending).1.slot
      rw [slot_attend]
      split
      · exact Slot.handedOn_release ((h.fits.inside_iff name).mp hst)
      · exact h.handedOn_self (by simp [hst, Stage.standing])

/-- **The hand-over.** After a step the slot is in the hand of a client only if it was before and
the step was not about this client, or if the client was the first in line. -/
theorem handed_step (h : g.Sound) (e : GateEvent κ α)
    (hc : (g.step e).1.slot.tenure = .handed c) :
    g.slot.tenure = .handed c ∧ ¬e.isAbout c ∨ g.slot.line.head? = some c := by
  cases e with
  | close => exact .inl ⟨hc, id⟩
  | create name purpose =>
    exact (h.handedOn_drop name c hc).imp_left fun ⟨hh, hn⟩ => ⟨hh, Ne.symm hn⟩
  | drop name => exact (h.handedOn_drop name c hc).imp_left fun ⟨hh, hn⟩ => ⟨hh, Ne.symm hn⟩
  | poll name ending =>
    exact (h.handedOn_poll name ending c hc).imp_left fun ⟨hh, hn⟩ => ⟨hh, Ne.symm hn⟩

/-! ### Going in and coming out -/

/-- The passages of a drop. -/
theorem turns_drop (h : g.Sound) (name : κ) :
    Turns g.slot.owner? (if name ∈ g.insiders then [.exit name] else [])
      (g.drop name).slot.owner? := by
  cases hc : g.client? name with
  | none =>
    have hn : name ∉ g.insiders := by
      rw [h.mem_insiders]
      exact h.fits.not_owned (by simp [standing, hc])
    rw [if_neg hn, Gate.drop, hc]
    exact .nil _
  | some client =>
    obtain ⟨purpose, stage⟩ := client
    have hst := standing_eq hc
    -- Only a client inside comes out by being dropped.
    by_cases hin : stage = .inside
    · subst hin
      have ho := (h.fits.inside_iff name).mp hst
      rw [if_pos (h.mem_insiders.mpr ho), Gate.drop, hc]
      have hafter : (g.slot.release name).owner? = none := Slot.owner?_release ho
      rw [show g.slot.owner? = some name by rw [Slot.owner?, ho]]
      exact hafter ▸ .exit (.nil none)
    · have hn : name ∉ g.insiders := by
        rw [h.mem_insiders]
        exact h.fits.not_owned (by rw [hst]; cases stage <;> simp_all [Stage.standing])
      rw [if_neg hn, Gate.drop, hc]
      cases stage with
      | fresh => exact .nil _
      | waiting =>
        have hafter : (g.slot.leave name).owner? = g.slot.owner? := Slot.owner?_leave _ _
        exact hafter ▸ .nil _
      | inside => exact absurd rfl hin

/-- The client inside comes out if its work ends. -/
theorem turns_attend (ho : g.slot.tenure = .owned name) (purpose : Purpose)
    (ending : Option α) :
    Turns (some name)
      (if (g.attend name purpose ending).2.isDone then [.exit name] else [])
      (g.attend name purpose ending).1.slot.owner? := by
  rw [slot_attend]
  split
  · rw [Slot.owner?_release ho]
    exact .exit (.nil none)
  · rw [show g.slot.owner? = some name by rw [Slot.owner?, ho]]
    exact .nil _

/-- The passages of a client that is told whether it is let in. -/
theorem turns_heed {told : Slot κ × Admission}
    (hkeep : told.2 ≠ .admitted → told.1.owner? = g.slot.owner?)
    (hlet : told.2 = .admitted →
      g.slot.owner? = none ∧ told.1 = { g.slot with tenure := .owned name })
    (hn : name ∉ g.insiders) {purpose : Purpose} {ending : Option α}
    {after : Gate κ × ClientReport α} (hafter : g.heed name purpose ending told = after) :
    Turns g.slot.owner?
      ((if name ∉ g.insiders ∧ after.2.isIn then [.entry name] else [])
        ++ (if after.2.isDone then [.exit name] else []))
      after.1.slot.owner? := by
  obtain ⟨slot, admission⟩ := told
  subst hafter
  cases admission with
  | refused =>
    have hk := hkeep (by simp)
    simpa [Gate.heed, ClientReport.isIn, ClientReport.isDone, hk] using Turns.nil g.slot.owner?
  | waiting =>
    have hk := hkeep (by simp)
    simpa [Gate.heed, ClientReport.isIn, ClientReport.isDone, hk] using Turns.nil g.slot.owner?
  | admitted =>
    obtain ⟨hfree, hs⟩ := hlet rfl
    have hin : (g.heed name purpose ending (slot, .admitted)).2.isIn = true :=
      isIn_attend _ name purpose ending
    rw [hfree, if_pos ⟨hn, hin⟩]
    exact .entry (turns_attend (congrArg Slot.tenure hs) purpose ending)

/-- The passages of a poll lead from the owner before to the owner after it. -/
theorem turns_poll (h : g.Sound) (name : κ) (ending : Option α) :
    Turns g.slot.owner? (g.passages (.poll name ending)) (g.poll name ending).1.slot.owner? := by
  have hout (hst : g.standing name ≠ .inside) : name ∉ g.insiders := fun hm =>
    h.fits.not_owned hst (h.mem_insiders.mp hm)
  cases hc : g.client? name with
  | none =>
    have hp : g.poll name ending = (g, .absent) := by rw [Gate.poll, hc]
    simpa [passages, hp, ClientReport.isIn, ClientReport.isDone] using Turns.nil g.slot.owner?
  | some client =>
    obtain ⟨purpose, stage⟩ := client
    have hst := standing_eq hc
    cases stage with
    | fresh =>
      have hp : g.poll name ending = g.heed name purpose ending (g.slot.ask name) := by
        rw [Gate.poll, hc]
      refine turns_heed (fun ha => ?_) (fun ha => ?_) (hout (by simp [hst, Stage.standing])) hp.symm
      · rw [Slot.owner?, Slot.tenure_ask ha, ← Slot.owner?]
      · obtain ⟨hfree, hs⟩ := Slot.ask_admitted ha
        exact ⟨by rw [Slot.owner?, hfree], hs⟩
    | waiting =>
      have hp : g.poll name ending = g.heed name purpose ending (g.slot.look name) := by
        rw [Gate.poll, hc]
      refine turns_heed Slot.owner?_look (fun ha => ?_) (hout (by simp [hst, Stage.standing]))
        hp.symm
      obtain ⟨hh, hs⟩ := Slot.look_admitted ha
      exact ⟨by rw [Slot.owner?, hh], hs⟩
    | inside =>
      have hp : g.poll name ending = g.attend name purpose ending := by rw [Gate.poll, hc]
      have ho := (h.fits.inside_iff name).mp hst
      rw [passages, hp, if_neg (fun hn => hn.1 (h.mem_insiders.mpr ho)), List.nil_append,
        show g.slot.owner? = some name by rw [Slot.owner?, ho]]
      exact turns_attend ho purpose ending

/-- **Turns of a step.** -/
theorem turns_step (h : g.Sound) (e : GateEvent κ α) :
    Turns g.slot.owner? (g.passages e) (g.step e).1.slot.owner? := by
  cases e with
  | close => exact .nil _
  | create name purpose => exact h.turns_drop name
  | drop name => exact h.turns_drop name
  | poll name ending => exact h.turns_poll name ending

/-- **Turns of a run.** -/
theorem turns_run (h : g.Sound) (es : List (GateEvent κ α)) :
    Turns g.slot.owner? (g.passagesOf es) (g.run es).slot.owner? := by
  induction es generalizing g with
  | nil => exact .nil _
  | cons e es ih => exact (h.turns_step e).append (ih (h.step e))

end Sound

/-! ### Since the hand-over -/

/-- The history of a client that has the slot in hand: it came to the front of the line, the slot
was handed to it, and nothing was done with it since. -/
theorem untouched_since (history : List (GateEvent κ α))
    (hc : c ∈ (run {} history).heirs) : ∃ before e after,
      history = before ++ e :: after ∧ (run {} before).slot.line.head? = some c
        ∧ c ∈ (run {} (before ++ [e])).heirs ∧ ∀ f ∈ after, ¬f.isAbout c := by
  -- the last event either handed the slot over or left everything as it was
  induction history using List.reverseRecOn with
  | nil => simp [heirs] at hc
  | append_singleton es e ih =>
    have hs := sound_new.run es
    have hstep : run {} (es ++ [e]) = ((run {} es).step e).1 := by simp [run_append]
    have hh : ((run {} es).step e).1.slot.tenure = .handed c := by
      rw [← (hs.step e).mem_heirs, ← hstep]
      exact hc
    rcases hs.handed_step e hh with ⟨hbefore, habout⟩ | hline
    · obtain ⟨before, e', after, rfl, hfront, hheir, hafter⟩ := ih (hs.mem_heirs.mpr hbefore)
      refine ⟨before, e', after ++ [e], by simp, hfront, hheir, fun f hf => ?_⟩
      rcases List.mem_append.mp hf with hf | hf
      · exact hafter f hf
      · exact (List.mem_singleton.mp hf) ▸ habout
    · exact ⟨es, e, [], rfl, hline, hc, by simp⟩

/-! ### Dropping everybody -/

/-- Once all of its clients are dropped, nothing holds the slot of a sound gate. -/
theorem Sound.not_busy_of_dropped (h : g.Sound) {names : List κ}
    (hn : ∀ c, (g.client? c).isSome → c ∈ names) :
    (g.run (names.map fun c => (.drop c : GateEvent κ α))).isBusy = false := by
  induction names generalizing g with
  | nil =>
    have hnone : ∀ c, g.client? c = none := fun c =>
      Option.not_isSome_iff_eq_none.mp fun hc => List.not_mem_nil (hn c hc)
    -- Everybody is outside, and neither an owner nor an heir is.
    refine Slot.isBusy_eq_false_iff.mpr ?_
    change g.slot.tenure = .free
    cases ht : g.slot.tenure with
    | free => rfl
    | owned c => simpa [standing, hnone c] using (h.fits.inside_iff c).mpr ht
    | handed c => simpa [standing, hnone c] using (h.fits.handed c ht).1
  | cons name names ih =>
    refine ih (h.drop name) fun c hc => ?_
    have hc' : ((g.drop name).client? c).isSome := hc
    have hne : c ≠ name := by
      rintro rfl
      simp at hc'
    rw [client?_drop_of_ne g hne] at hc'
    exact (List.mem_cons.mp (hn c hc')).resolve_left hne

/-- **Conservation.** Over every history of events, the slot of a gate is conserved. -/
theorem slot_conserved (history : List (GateEvent κ α)) : Conserved history := by
  have hs := sound_new.run history
  refine ⟨hs.one_place, ?_, fun c hc => untouched_since history hc, ?_,
    fun names hn => hs.not_busy_of_dropped hn⟩
  · rw [← not_iff_not, Bool.not_eq_true, not_not]
    exact Slot.isBusy_eq_false_iff
  · have ht := (sound_new).turns_run history
    rw [show (run {} history).insiders.head? = (run {} history).slot.owner? by
      rw [hs.insiders_eq]; cases (run {} history).slot.owner? <;> rfl]
    exact ht

end Gate

end SpeechService
