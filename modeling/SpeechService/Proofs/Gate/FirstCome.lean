import SpeechService.Proofs.Gate.Conservation
import SpeechService.Proofs.Slot.Queue

/-!
# First come, first served

A client **arrives** at a gate when it is polled for the first time. While the gate is open the slot
goes from client to client in the order of their arrivals, whoever is dropped in between, and it
never lies idle while somebody is queued. `Gate.FirstCome` spells this out for the gate after a
history of events, and `Gate.firstCome_of_close_notMem` is that it holds of every history in which
the gate is not closed.

The proof carries one invariant along the history, for those who go in and for those who are given
the slot: the arrivals of those so far, followed by the arrivals of those who still wait for it,
increase (`Gate.Timely`).
-/

namespace SpeechService

/-- The client that goes in by a passage. -/
def Passage.entrant? {κ : Type} : Passage κ → Option κ
  | .entry c => some c
  | .exit _ => none

namespace Gate

variable {κ α : Type} [DecidableEq κ] {g : Gate κ} {name c d : κ}

/-- The **arrival** of the client of a name in a past, which has the latest event first: how many
events there were before the client was polled for the first time since it came into being. -/
def arrivalIn? (name : κ) : List (GateEvent κ α) → Option Nat
  | [] => none
  | .create c _ :: past => if c = name then none else arrivalIn? name past
  | .poll c _ :: past =>
    if c = name then (arrivalIn? name past).or (some past.length) else arrivalIn? name past
  | _ :: past => arrivalIn? name past

/-- The **arrival** of the client of a name in a history. -/
def arrival? (history : List (GateEvent κ α)) (name : κ) : Option Nat :=
  arrivalIn? name history.reverse

/-- A client arrived before another one. -/
def ArrivedBefore (history : List (GateEvent κ α)) (c d : κ) : Prop :=
  ∃ m n, arrival? history c = some m ∧ arrival? history d = some n ∧ m < n

/-- The clients that an event lets in: they get their permit, or their work starts. -/
def entrants (g : Gate κ) (e : GateEvent κ α) : List κ :=
  (g.passages e).filterMap Passage.entrant?

/-- The clients that an event gives the slot to, whether they know or not. -/
def grants (g : Gate κ) (e : GateEvent κ α) : List κ :=
  g.slot.given (g.step e).1.slot (g.entrants e)

/-- The arrivals of the clients that are picked at the events of a past, the latest one last. -/
def arrivalsIn (pick : Gate κ → GateEvent κ α → List κ) : List (GateEvent κ α) → List Nat
  | [] => []
  | e :: past =>
    arrivalsIn pick past ++ (pick (run {} past.reverse) e).filterMap (arrivalIn? · (e :: past))

/-- The arrivals of the clients that are picked at the events of a history. -/
def arrivals (pick : Gate κ → GateEvent κ α → List κ) (history : List (GateEvent κ α)) :
    List Nat := arrivalsIn pick history.reverse

/-- The clients that have asked for the slot and do not know of having it. -/
def waiters (g : Gate κ) : List κ := (g.clients.filter (·.2.stage = .waiting)).map (·.1)

/-- The clients that wait and have not got the slot in hand. -/
def queued (g : Gate κ) : List κ := g.waiters.filter (· ∉ g.heirs)

/-- A gate serves those who come **first** first, over a history of events. -/
structure FirstCome (history : List (GateEvent κ α)) : Prop where
  /-- While somebody is queued the slot is with a client that is inside, or in the hand of one that
  arrived before everybody who is queued. -/
  not_idle : (run {} history).queued ≠ [] →
    (run {} history).isBusy = true ∧
      ((∃ o, (run {} history).insiders = [o]) ∨
        ∃ h, (run {} history).heirs = [h] ∧
          ∀ c ∈ (run {} history).queued, ArrivedBefore history h c)
  /-- The slot is given in the order of arrivals. -/
  grants_in_order : (arrivals grants history).Pairwise (· < ·)
  /-- Clients go in in the order of arrivals. -/
  entries_in_order : (arrivals entrants history).Pairwise (· < ·)
  /-- Nobody is given the slot or goes in before one that arrived earlier and still waits. -/
  nobody_overtakes : ∀ before e after, history = before ++ e :: after →
    ∀ c ∈ (run {} before).grants e ++ (run {} before).entrants e,
      ∀ d ∈ (run {} (before ++ [e])).waiters, d ≠ c → ArrivedBefore (before ++ [e]) c d

/-! ### Arrivals -/

/-- An arrival is a moment of the past. -/
theorem arrivalIn?_lt {past : List (GateEvent κ α)} {n : Nat} (h : arrivalIn? c past = some n) :
    n < past.length := by
  induction past with
  | nil => cases h
  | cons e past ih =>
    have hkeep (hk : arrivalIn? c past = some n) : n < (e :: past).length :=
      Nat.lt_succ_of_lt (ih hk)
    cases e with
    | create name purpose =>
      rw [arrivalIn?] at h
      split at h
      · cases h
      · exact hkeep h
    | poll name ending =>
      rw [arrivalIn?] at h
      split at h
      · rcases Option.or_eq_some_iff.mp h with hk | ⟨-, hn⟩
        · exact hkeep hk
        · cases hn
          exact Nat.lt_succ_self _
      · exact hkeep h
    | drop name => exact hkeep h
    | close => exact hkeep h

theorem arrival?_lt {history : List (GateEvent κ α)} {n : Nat}
    (h : arrival? history c = some n) : n < history.length :=
  List.length_reverse ▸ arrivalIn?_lt h

theorem arrival?_concat (history : List (GateEvent κ α)) (e : GateEvent κ α) (c : κ) :
    arrival? (history ++ [e]) c = arrivalIn? c (e :: history.reverse) := by
  rw [arrival?, List.reverse_append]
  rfl

/-- An event leaves the arrivals of others alone. -/
theorem arrival?_concat_of_ne (history : List (GateEvent κ α)) {e : GateEvent κ α}
    (h : ¬e.isAbout c) : arrival? (history ++ [e]) c = arrival? history c := by
  rw [arrival?_concat, arrival?]
  cases e with
  | create name purpose =>
    have hne : name ≠ c := h
    rw [arrivalIn?, if_neg hne]
  | poll name ending =>
    have hne : name ≠ c := h
    rw [arrivalIn?, if_neg hne]
  | drop name => rfl
  | close => rfl

/-- Who comes into being has not arrived. -/
theorem arrival?_create (history : List (GateEvent κ α)) (c : κ) (purpose : Purpose) :
    arrival? (history ++ [.create c purpose]) c = none := by
  rw [arrival?_concat, arrivalIn?, if_pos rfl]

/-- Who is polled has arrived, now or earlier. -/
theorem arrival?_poll (history : List (GateEvent κ α)) (c : κ) (ending : Option α) :
    arrival? (history ++ [.poll c ending]) c
      = (arrival? history c).or (some history.length) := by
  rw [arrival?_concat, arrivalIn?, if_pos rfl, List.length_reverse, arrival?]

/-- Who has arrived does not arrive once more. -/
theorem arrival?_of_concat {history : List (GateEvent κ α)} {e : GateEvent κ α} {n : Nat}
    (hc : arrival? history c ≠ none) (h : arrival? (history ++ [e]) c = some n) :
    arrival? history c = some n := by
  by_cases he : e.isAbout c
  · cases e with
    | create name purpose =>
      cases he
      simp [arrival?_create] at h
    | poll name ending =>
      cases he
      obtain ⟨m, hm⟩ := Option.ne_none_iff_exists'.mp hc
      rw [arrival?_poll, hm, Option.some_or] at h
      rw [hm, h]
    | drop name =>
      rw [arrival?_concat] at h
      exact h
    | close => exact he.elim
  · rwa [arrival?_concat_of_ne history he] at h

/-- One more event brings the arrivals of those whom it picks. -/
theorem arrivals_concat (pick : Gate κ → GateEvent κ α → List κ)
    (history : List (GateEvent κ α)) (e : GateEvent κ α) :
    arrivals pick (history ++ [e]) = arrivals pick history
      ++ (pick (run {} history) e).filterMap (arrival? (history ++ [e])) := by
  have hp : (arrivalIn? · (e :: history.reverse)) = arrival? (history ++ [e]) :=
    funext fun c => (arrival?_concat history e c).symm
  rw [arrivals, List.reverse_append, List.reverse_singleton, List.singleton_append, arrivalsIn,
    List.reverse_reverse, hp, arrivals]

/-- Everybody who was picked has arrived. -/
theorem lt_length_of_mem_arrivals {pick : Gate κ → GateEvent κ α → List κ}
    {history : List (GateEvent κ α)} {n : Nat} (hn : n ∈ arrivals pick history) :
    n < history.length := by
  induction history using List.reverseRecOn with
  | nil => cases hn
  | append_singleton history e ih =>
    rw [arrivals_concat, List.mem_append] at hn
    rcases hn with hn | hn
    · rw [List.length_append]
      exact Nat.lt_add_right 1 (ih hn)
    · obtain ⟨c, -, hc⟩ := List.mem_filterMap.mp hn
      exact arrival?_lt hc

/-! ### One step -/

/-- The client that an event makes arrive. -/
def newcomers (g : Gate κ) : GateEvent κ α → List κ
  | .poll name _ => if (g.client? name).map (·.stage) = some .fresh then [name] else []
  | _ => []

/-- Only who is fresh can come anew. -/
theorem newcomers_of_stage {client : Client} (hc : g.client? name = some client)
    (hs : client.stage ≠ .fresh) (ending : Option α) : g.newcomers (.poll name ending) = [] := by
  simp [newcomers, hc, hs]

/-- A poll lets in the client that is polled, or nobody. -/
theorem entrants_poll (g : Gate κ) (name : κ) (ending : Option α) :
    g.entrants (.poll name ending) =
      if name ∉ g.insiders ∧ (g.poll name ending).2.isIn then [name] else [] := by
  rw [entrants, passages, List.filterMap_append]
  have hexit : (if (g.poll name ending).2.isDone then [Passage.exit name] else []).filterMap
      Passage.entrant? = [] := by
    split <;> rfl
  rw [hexit, List.append_nil]
  split <;> rfl

theorem entrants_eq_nil {e : GateEvent κ α} (h : ∀ c, .entry c ∉ g.passages e) :
    g.entrants e = [] := by
  refine List.filterMap_eq_nil_iff.mpr fun p hp => ?_
  cases p with
  | entry c => exact absurd hp (h c)
  | exit c => rfl

/-- Who enters was polled. -/
theorem eq_poll_of_mem_entrants {e : GateEvent κ α} (hc : c ∈ g.entrants e) :
    ∃ ending, e = .poll c ending := by
  cases e with
  | poll name ending =>
    rw [entrants_poll] at hc
    split at hc
    · obtain rfl := List.mem_singleton.mp hc
      exact ⟨ending, rfl⟩
    · cases hc
  | create name purpose =>
    rw [entrants, passages] at hc
    split at hc <;> simp [Passage.entrant?] at hc
  | drop name =>
    rw [entrants, passages] at hc
    split at hc <;> simp [Passage.entrant?] at hc
  | close => cases hc

/-- A client that hears whether it is let in goes in if it is. -/
theorem movesOn_heed {told : Slot κ × Admission} {came : List κ}
    (hm : g.slot.MovesOn told.1 (if told.2 = .admitted then [name] else []) came)
    (ho : told.2 = .admitted → told.1.tenure = .owned name) (purpose : Purpose)
    (ending : Option α) :
    g.slot.MovesOn (g.heed name purpose ending told).1.slot
      (if (g.heed name purpose ending told).2.isIn then [name] else []) came := by
  obtain ⟨slot, admission⟩ := told
  cases admission with
  | refused => exact hm
  | waiting => exact hm
  | admitted =>
    rw [heed, isIn_attend, slot_attend]
    split
    · exact hm.release (ho rfl)
    · exact hm

namespace Sound

/-- A drop moves the slot on without anybody entering or joining the line. -/
theorem movesOn_drop (h : g.Sound) (name : κ) : g.slot.MovesOn (g.drop name).slot [] [] := by
  cases hc : g.client? name with
  | none =>
    rw [Gate.drop, hc]
    exact .refl _
  | some client =>
    obtain ⟨purpose, stage⟩ := client
    have hst := standing_eq hc
    rw [Gate.drop, hc]
    cases stage with
    | fresh => exact .refl _
    | waiting => exact Slot.movesOn_leave g.slot name
    | inside => exact Slot.movesOn_release ((h.fits.inside_iff name).mp hst)

/-- A poll moves the slot on by the client that is polled. -/
theorem movesOn_poll (h : g.Sound) (name : κ) (ending : Option α) :
    g.slot.MovesOn (g.poll name ending).1.slot (g.entrants (.poll name ending))
      (g.newcomers (.poll name ending)) := by
  rw [entrants_poll]
  cases hc : g.client? name with
  | none =>
    have hp : g.poll name ending = (g, .absent) := by rw [Gate.poll, hc]
    simpa [hp, newcomers, hc, ClientReport.isIn] using Slot.MovesOn.refl g.slot
  | some client =>
    obtain ⟨purpose, stage⟩ := client
    have hst := standing_eq hc
    cases stage with
    | fresh =>
      have hp : g.poll name ending = g.heed name purpose ending (g.slot.ask name) := by
        rw [Gate.poll, hc]
      have hout : name ∉ g.insiders := by simp [h.mem_insiders_iff, hst, Stage.standing]
      have hnew : g.newcomers (.poll name ending) = [name] := by simp [newcomers, hc]
      rw [hp, hnew]
      simpa only [hout, not_false_eq_true, true_and] using
        movesOn_heed (h.fits.movesOn_ask name)
          (fun ha => by rw [(Slot.ask_admitted ha).2]) purpose ending
    | waiting =>
      have hp : g.poll name ending = g.heed name purpose ending (g.slot.look name) := by
        rw [Gate.poll, hc]
      have hout : name ∉ g.insiders := by simp [h.mem_insiders_iff, hst, Stage.standing]
      rw [hp, newcomers_of_stage hc (by simp)]
      simpa only [hout, not_false_eq_true, true_and] using
        movesOn_heed (Slot.movesOn_look g.slot name)
          (fun ha => by rw [(Slot.look_admitted ha).2]) purpose ending
    | inside =>
      have hp : g.poll name ending = g.attend name purpose ending := by rw [Gate.poll, hc]
      have ho := (h.fits.inside_iff name).mp hst
      rw [if_neg (fun hn => hn.1 (h.mem_insiders.mpr ho)), hp, newcomers_of_stage hc (by simp),
        slot_attend]
      split
      · exact Slot.movesOn_release ho
      · exact .refl _

/-- **One step.** Every event lets clients in from the front of the queue. -/
theorem movesOn_step (h : g.Sound) (e : GateEvent κ α) :
    g.slot.MovesOn (g.step e).1.slot (g.entrants e) (g.newcomers e) := by
  have hno (he : ∀ c, .entry c ∉ g.passages e) {after : Slot κ}
      (hm : g.slot.MovesOn after [] []) : g.slot.MovesOn after (g.entrants e) [] := by
    rwa [entrants_eq_nil he]
  cases e with
  | create name purpose =>
    refine hno (fun c => ?_) (h.movesOn_drop name)
    rw [passages]
    split <;> simp
  | drop name =>
    refine hno (fun c => ?_) (h.movesOn_drop name)
    rw [passages]
    split <;> simp
  | poll name ending => exact h.movesOn_poll name ending
  | close => exact hno (fun c => List.not_mem_nil) (Slot.movesOn_close g.slot)

end Sound

/-- Going on with its own function, a client does not change its stage. -/
private theorem client?_of_attend {client : Client} {purpose : Purpose} {ending : Option α}
    (hc : (g.attend name purpose ending).1.client? name = some client) :
    g.client? name = some client := by
  cases purpose with
  | permit => exact hc
  | work =>
    cases ending with
    | none => exact hc
    | some value =>
      have hgone : (g.forget name).client? name = some client := hc
      simp at hgone

/-- Who is told something is no longer fresh. -/
private theorem stage_heed {client : Client} {purpose : Purpose} {ending : Option α}
    {told : Slot κ × Admission}
    (hc : (g.heed name purpose ending told).1.client? name = some client) :
    client.stage ≠ .fresh := by
  obtain ⟨slot, admission⟩ := told
  cases admission with
  | refused =>
    have hgone : (g.forget name).client? name = some client := hc
    simp at hgone
  | waiting =>
    cases (client?_put_self g name ⟨purpose, .waiting⟩).symm.trans hc
    simp
  | admitted =>
    have hput : { g.put name ⟨purpose, .inside⟩ with slot }.client? name = some client :=
      client?_of_attend hc
    cases (client?_put_self g name ⟨purpose, .inside⟩).symm.trans hput
    simp

/-- A client that was polled is fresh no longer. -/
theorem stage_poll {client : Client} {ending : Option α}
    (hc : (g.poll name ending).1.client? name = some client) : client.stage ≠ .fresh := by
  rw [poll] at hc
  split at hc
  · next hnone => simp [hnone] at hc
  · exact stage_heed hc
  · exact stage_heed hc
  · next purpose hin =>
    cases hin.symm.trans (client?_of_attend hc)
    simp

/-! ### Every history -/

/-- A history is **timely** when its clients went in, and were given the slot, in the order of
their arrivals, and those who still wait for that come after them in the same order. -/
structure Timely (history : List (GateEvent κ α)) : Prop where
  fresh : ∀ c purpose, (run {} history).client? c = some ⟨purpose, .fresh⟩ →
    arrival? history c = none
  arrived : ∀ c, (run {} history).standing c ≠ .outside → arrival? history c ≠ none
  entries : (arrivals entrants history
    ++ (run {} history).slot.queue.filterMap (arrival? history)).Pairwise (· < ·)
  grants : (arrivals grants history
    ++ (run {} history).slot.line.filterMap (arrival? history)).Pairwise (· < ·)

/-- Arrivals increase on if those who are picked come from the front of those who wait, and
newcomers join at the end. -/
theorem increasing_concat {pick : Gate κ → GateEvent κ α → List κ}
    {history : List (GateEvent κ α)} {e : GateEvent κ α} {waiting after came : List κ}
    (hi : (arrivals pick history ++ waiting.filterMap (arrival? history)).Pairwise (· < ·))
    (hw : ∀ c ∈ waiting, arrival? history c ≠ none)
    (hm : (pick (run {} history) e ++ after).Sublist (waiting ++ came))
    (hc : (came.filterMap (arrival? (history ++ [e]))).Sublist [history.length]) :
    (arrivals pick (history ++ [e])
      ++ after.filterMap (arrival? (history ++ [e]))).Pairwise (· < ·) := by
  -- Those who wait keep their arrivals, unless somebody else takes over the name.
  have hkeep : (waiting.filterMap (arrival? (history ++ [e]))).Sublist
      (waiting.filterMap (arrival? history)) := by
    clear hi hm
    induction waiting with
    | nil => exact .slnil
    | cons c waiting ih =>
      have ih' := ih fun d hd => hw d (List.mem_cons_of_mem c hd)
      have hc := hw c List.mem_cons_self
      cases hn : arrival? (history ++ [e]) c with
      | none =>
        rw [List.filterMap_cons_none hn]
        exact ih'.trans ((List.sublist_cons_self c waiting).filterMap _)
      | some n =>
        rw [List.filterMap_cons_some hn,
          List.filterMap_cons_some (arrival?_of_concat hc hn)]
        exact ih'.cons_cons n
  have hrest : ((pick (run {} history) e ++ after).filterMap (arrival? (history ++ [e]))).Sublist
      (waiting.filterMap (arrival? history) ++ [history.length]) := by
    refine (hm.filterMap _).trans ?_
    rw [List.filterMap_append]
    exact hkeep.append hc
  have hnow : (arrivals pick history
      ++ (waiting.filterMap (arrival? history) ++ [history.length])).Pairwise (· < ·) := by
    rw [← List.append_assoc]
    refine List.pairwise_append.mpr ⟨hi, List.pairwise_singleton _ _, fun m hm n hn => ?_⟩
    obtain rfl := List.mem_singleton.mp hn
    rcases List.mem_append.mp hm with hm | hm
    · exact lt_length_of_mem_arrivals hm
    · obtain ⟨c, -, hc⟩ := List.mem_filterMap.mp hm
      exact arrival?_lt hc
  rw [arrivals_concat, List.append_assoc, ← List.filterMap_append]
  exact hnow.sublist (hrest.append_left _)

/-- Newcomers arrive now. -/
private theorem newcomers_arrive {history : List (GateEvent κ α)} (h : Timely history)
    (e : GateEvent κ α) :
    (((run {} history).newcomers e).filterMap (arrival? (history ++ [e]))).Sublist
      [history.length] := by
  cases e with
  | poll name ending =>
    by_cases hn : ((run {} history).client? name).map (·.stage) = some .fresh
    · obtain ⟨⟨purpose, stage⟩, hc, hfresh⟩ := Option.map_eq_some_iff.mp hn
      cases hfresh
      have hnow : arrival? (history ++ [.poll name ending]) name = some history.length := by
        rw [arrival?_poll, h.fresh name purpose hc, Option.none_or]
      rw [newcomers, if_pos hn, List.filterMap_cons_some hnow]
      exact .refl _
    · rw [newcomers, if_neg hn]
      exact List.nil_sublist _
  | _ => exact List.nil_sublist _

/-- Who is still fresh after an event has not arrived. -/
private theorem fresh_step {history : List (GateEvent κ α)} (h : Timely history)
    (e : GateEvent κ α) {purpose : Purpose}
    (hc : ((run {} history).step e).1.client? c = some ⟨purpose, .fresh⟩) :
    arrival? (history ++ [e]) c = none := by
  by_cases he : e.isAbout c
  · cases e with
    | create name purpose' =>
      cases he
      exact arrival?_create history c purpose'
    | poll name ending =>
      cases he
      exact absurd rfl (stage_poll hc)
    | drop name =>
      cases he
      exact absurd hc (by simp [step])
    | close => exact he.elim
  · rw [client?_step_of_ne _ he] at hc
    rw [arrival?_concat_of_ne history he]
    exact h.fresh c purpose hc

/-- Who is in line, has the slot handed or owns it has arrived. -/
private theorem arrived_step {history : List (GateEvent κ α)} (h : Timely history)
    (e : GateEvent κ α) (hc : ((run {} history).step e).1.standing c ≠ .outside) :
    arrival? (history ++ [e]) c ≠ none := by
  by_cases he : e.isAbout c
  · cases e with
    | create name purpose =>
      cases he
      exact absurd (standing_eq (client?_put_self _ c { purpose })) hc
    | poll name ending =>
      cases he
      simp [arrival?_poll]
    | drop name =>
      cases he
      exact absurd (by simp [standing, step]) hc
    | close => exact he.elim
  · rw [standing, client?_step_of_ne _ he, ← standing] at hc
    rw [arrival?_concat_of_ne history he]
    exact h.arrived c hc

/-- **Every history.** All histories are timely. -/
theorem timely (history : List (GateEvent κ α)) : Timely history := by
  induction history using List.reverseRecOn with
  | nil => constructor <;> simp [standing, client?, arrivals, arrivalsIn, Slot.queue, Slot.heir?]
  | append_singleton history e ih =>
    have hs := sound_new.run history
    have hmoves := hs.movesOn_step e
    have hcame := newcomers_arrive ih e
    refine ⟨fun c purpose hc => fresh_step ih e (run_concat {} history e ▸ hc),
      fun c hc => arrived_step ih e (run_concat {} history e ▸ hc), ?_, ?_⟩
    · rw [run_concat]
      refine increasing_concat ih.entries (fun c hc => ih.arrived c ?_) hmoves.queue hcame
      rw [hs.fits.waiting_of_mem_queue hc]
      simp
    · rw [run_concat]
      refine increasing_concat ih.grants (fun c hc => ih.arrived c ?_) hmoves.line hcame
      rw [hs.fits.line_waits c hc]
      simp

namespace Timely

variable {history : List (GateEvent κ α)}

/-- Whoever stands to the slot has arrived at some time. -/
theorem exists_arrival (h : Timely history) (hc : (run {} history).standing c = .waiting) :
    ∃ n, arrival? history c = some n :=
  Option.ne_none_iff_exists'.mp (h.arrived c (by rw [hc]; decide))

/-- Who has the slot in hand arrived before the line. -/
theorem heir_before (h : Timely history) (hc : (run {} history).slot.tenure = .handed c)
    (hd : d ∈ (run {} history).slot.line) : ArrivedBefore history c d := by
  have hs := sound_new.run history
  obtain ⟨m, hm⟩ := h.exists_arrival (hs.fits.handed c hc).1
  obtain ⟨n, hn⟩ := h.exists_arrival (hs.fits.line_waits d hd)
  have hqueue := (List.pairwise_append.mp h.entries).2.1
  rw [Slot.queue, Slot.heir?_eq_some_iff.mpr hc, Option.toList_some, List.singleton_append,
    List.filterMap_cons_some hm, List.pairwise_cons] at hqueue
  exact ⟨m, n, hm, hn, hqueue.1 n (List.mem_filterMap.mpr ⟨d, hd, hn⟩)⟩

/-- Who goes in arrived before everybody in the queue. -/
theorem entrant_before {e : GateEvent κ α} (h : Timely (history ++ [e]))
    (hc : c ∈ (run {} history).entrants e)
    (hd : d ∈ (run {} (history ++ [e])).slot.queue) : ArrivedBefore (history ++ [e]) c d := by
  have hs := sound_new.run (history ++ [e])
  obtain ⟨n, hn⟩ := h.exists_arrival (hs.fits.waiting_of_mem_queue hd)
  obtain ⟨ending, rfl⟩ := eq_poll_of_mem_entrants hc
  obtain ⟨m, hm⟩ : ∃ m, arrival? (history ++ [.poll c ending]) c = some m :=
    Option.ne_none_iff_exists'.mp (by simp [arrival?_poll])
  refine ⟨m, n, hm, hn, (List.pairwise_append.mp h.entries).2.2 m ?_ n ?_⟩
  · rw [arrivals_concat]
    exact List.mem_append_right _ (List.mem_filterMap.mpr ⟨c, hc, hm⟩)
  · exact List.mem_filterMap.mpr ⟨d, hd, hn⟩

end Timely

/-! ### The open gate -/

theorem Sound.mem_waiters (h : g.Sound) : c ∈ g.waiters ↔ g.standing c = .waiting :=
  h.mem_names_of_stage (by decide)

/-- Whoever is queued at an open gate stands in line. -/
theorem Sound.mem_line_of_queued (h : g.Sound) (ho : g.slot.closed = false)
    (hc : c ∈ g.queued) : c ∈ g.slot.line := by
  obtain ⟨hw, hn⟩ := List.mem_filter.mp hc
  refine (h.fits.listed ho c (h.mem_waiters.mp hw)).resolve_left fun hh => ?_
  simp [h.mem_heirs.mpr hh] at hn

/-- A gate that nobody closes is open. -/
theorem closed_run_of_open {history : List (GateEvent κ α)} (h : .close ∉ history) :
    (run {} history).slot.closed = false := by
  induction history using List.reverseRecOn with
  | nil => rfl
  | append_singleton history e ih =>
    obtain ⟨hrest, he⟩ := not_or.mp (mt List.mem_append.mpr h)
    rw [run_concat, closed_step _ fun hc => he (List.mem_singleton.mpr hc.symm)]
    exact ih hrest

/-- **Order.** Over a history in which the gate is not closed, those who come first are served
first. -/
theorem firstCome_of_close_notMem (history : List (GateEvent κ α)) (hopen : .close ∉ history) :
    FirstCome history := by
  have ht := timely history
  refine ⟨fun hq => ?_, (List.pairwise_append.mp ht.grants).1,
    (List.pairwise_append.mp ht.entries).1, ?_⟩
  · have hs := sound_new.run history
    have hline : ∀ c ∈ (run {} history).queued, c ∈ (run {} history).slot.line := fun c =>
      hs.mem_line_of_queued (closed_run_of_open hopen)
    obtain ⟨c, hc⟩ := List.exists_mem_of_ne_nil _ hq
    cases hten : (run {} history).slot.tenure with
    | free =>
      have hnil := hs.fits.line_of_free hten
      exact absurd (hline c hc) (by simp [hnil])
    | owned o =>
      refine ⟨by simp [isBusy, Slot.isBusy, hten], .inl ⟨o, ?_⟩⟩
      rw [hs.insiders_eq, Slot.owner?, hten, Option.toList_some]
    | handed h =>
      refine ⟨by simp [isBusy, Slot.isBusy, hten], .inr ⟨h, hs.heirs_eq hten, ?_⟩⟩
      exact fun d hd => ht.heir_before hten (hline d hd)
  · rintro before e after rfl c hc d hd hne
    have hs := sound_new.run (before ++ [e])
    have ht := timely (before ++ [e])
    have hopen' : .close ∉ before ++ [e] := fun hm => hopen (by simp_all)
    have hdq := hs.fits.mem_queue_of_waiting (closed_run_of_open hopen') (hs.mem_waiters.mp hd)
    have hgiven : c ∈ (run {} before).entrants e ∨
        (run {} (before ++ [e])).slot.tenure = .handed c := by
      rcases List.mem_append.mp hc with hg | he
      · rcases List.mem_append.mp hg with he | hh
        · exact .inl ((Slot.emptyHanded_sublist _ _).mem he)
        · have hmem := (Slot.emptyHanded_sublist _ _).mem hh
          rw [← run_concat, Option.mem_toList, Slot.heir?_eq_some_iff] at hmem
          exact .inr hmem
      · exact .inl he
    rcases hgiven with he | hh
    · exact ht.entrant_before he hdq
    · refine ht.heir_before hh ((Slot.mem_queue.mp hdq).resolve_left fun hdh => hne ?_)
      rw [hh] at hdh
      exact (Tenure.handed.inj hdh).symm

/-- Of four clients the second is dropped with the slot in its hand and the third in line. -/
theorem firstCome_after_drops :
    let history : List (GateEvent Nat Nat) :=
      [.create 0 .permit, .create 1 .work, .create 2 .permit, .create 3 .work, .poll 0 none,
        .poll 1 none, .poll 2 none, .poll 3 none, .drop 2, .drop 0, .drop 1, .poll 3 none]
    .close ∉ history ∧ arrivals grants history = [4, 5, 7]
      ∧ arrivals entrants history = [4, 7] ∧ FirstCome history :=
  ⟨by decide, by decide, by decide, firstCome_of_close_notMem _ (by decide)⟩

end Gate

end SpeechService
