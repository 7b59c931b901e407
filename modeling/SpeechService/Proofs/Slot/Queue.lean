import SpeechService.Proofs.Slot.Standing

/-!
# The queue of a slot

The **queue** of a slot is its line, and in front of it the client that has the slot in hand. An
operation lets clients in from the front of the queue, lets a newcomer join at its end, and may
take out somebody in between; it never puts anybody in front of anybody else. `Slot.MovesOn` says
so twice: once for those who go in, ahead of the queue, and once for those who are given the slot,
ahead of the line.
-/

namespace SpeechService

namespace Slot

variable {κ : Type} {s after : Slot κ} {c : κ} {entered came : List κ}

/-- The client that has the slot in hand. -/
def heir? (s : Slot κ) : Option κ :=
  match s.tenure with
  | .handed c => some c
  | _ => none

/-- The **queue**: who has the slot in hand, and the line. -/
def queue (s : Slot κ) : List κ := s.heir?.toList ++ s.line

theorem heir?_eq_some_iff : s.heir? = some c ↔ s.tenure = .handed c := by
  cases h : s.tenure <;> simp [heir?, h]

theorem mem_queue : c ∈ s.queue ↔ s.tenure = .handed c ∨ c ∈ s.line := by
  rw [queue, List.mem_append, Option.mem_toList, heir?_eq_some_iff]

/-- Passing on makes a queue of the line. -/
theorem queue_passOn (s : Slot κ) : s.passOn.queue = s.line := by
  cases hl : s.line <;> simp [passOn, hl, queue, heir?]

/-- Whoever is in the queue waits. -/
theorem Fits.waiting_of_mem_queue {standing : κ → Standing} (h : s.Fits standing)
    (hc : c ∈ s.queue) : standing c = .waiting := by
  rcases mem_queue.mp hc with hh | hl
  · exact (h.handed c hh).1
  · exact h.line_waits c hl

/-- While the slot is open, whoever waits is in the queue. -/
theorem Fits.mem_queue_of_waiting {standing : κ → Standing} (h : s.Fits standing)
    (ho : s.closed = false) (hc : standing c = .waiting) : c ∈ s.queue :=
  mem_queue.mpr (h.listed ho c hc)

variable [DecidableEq κ]

/-- Those of some clients that do not have the slot in hand. -/
def emptyHanded (s : Slot κ) (clients : List κ) : List κ := clients.filter (s.heir? ≠ some ·)

theorem emptyHanded_sublist (s : Slot κ) (clients : List κ) :
    (s.emptyHanded clients).Sublist clients :=
  List.filter_sublist

/-- Nobody but the client that has the slot in hand has it in hand. -/
theorem emptyHanded_heir? (s : Slot κ) : s.emptyHanded s.heir?.toList = [] := by
  cases h : s.heir? <;> simp [emptyHanded, h]

/-- The clients that are **given** the slot when it becomes another while some clients go in: those
who go in without having had it in hand, and the one that comes to have it in hand. -/
def given (s after : Slot κ) (entered : List κ) : List κ :=
  s.emptyHanded entered ++ s.emptyHanded after.heir?.toList

/-- A slot **moves on** to another while some clients go in and others come. -/
structure MovesOn (s after : Slot κ) (entered came : List κ) : Prop where
  /-- Who goes in comes from the front of the queue. -/
  queue : (entered ++ after.queue).Sublist (s.queue ++ came)
  /-- Who is given the slot comes from the front of the line. -/
  line : (s.given after entered ++ after.line).Sublist (s.line ++ came)

/-- While the tenure stays, nobody is given the slot. -/
theorem given_of_tenure_eq (h : after.tenure = s.tenure) : s.given after [] = [] := by
  have hh : after.heir? = s.heir? := by rw [heir?, heir?, h]
  rw [given, hh, emptyHanded_heir?, List.append_nil, emptyHanded, List.filter_nil]

/-- A line that others join, or that loses some, while the tenure stays. -/
theorem MovesOn.of_tenure_eq (ht : after.tenure = s.tenure)
    (hl : after.line.Sublist (s.line ++ came)) : s.MovesOn after [] came where
  queue := by
    have hh : after.heir? = s.heir? := by rw [heir?, heir?, ht]
    rw [List.nil_append, Slot.queue, Slot.queue, hh, List.append_assoc]
    exact hl.append_left _
  line := by rwa [given_of_tenure_eq ht]

theorem MovesOn.refl (s : Slot κ) : s.MovesOn s [] [] :=
  .of_tenure_eq rfl (by rw [List.append_nil])

/-- The client that has the slot passes it on. -/
theorem movesOn_passOn (s : Slot κ) : s.MovesOn s.passOn [] [] where
  queue := by
    rw [List.nil_append, queue_passOn, List.append_nil]
    exact List.sublist_append_right _ _
  line := by
    have hq : (s.passOn.heir?.toList ++ s.passOn.line).Sublist (s.line ++ []) := by
      rw [List.append_nil, ← queue_passOn s, Slot.queue]
    exact ((s.emptyHanded_sublist _).append_right _).trans hq

/-- Who has gone in gives the slot back at once. -/
theorem MovesOn.release (h : s.MovesOn after entered came) (ho : after.tenure = .owned c) :
    s.MovesOn (after.release c) entered came := by
  have hheir : after.heir? = none := by rw [heir?, ho]
  have hq : (after.release c).queue = after.line := by rw [Slot.release, if_pos ho, queue_passOn]
  constructor
  · have hqueue := h.queue
    rwa [Slot.queue, hheir, Option.toList_none, List.nil_append, ← hq] at hqueue
  · have hline := h.line
    rw [given, hheir, Option.toList_none, emptyHanded, emptyHanded, List.filter_nil,
      List.append_nil] at hline
    -- whom the slot is handed to was the first of the line that is left
    refine List.Sublist.trans ?_ hline
    rw [given, List.append_assoc, ← hq, Slot.queue]
    exact ((s.emptyHanded_sublist _).append_right _).append_left _

theorem movesOn_release (ho : s.tenure = .owned c) : s.MovesOn (s.release c) [] [] :=
  (MovesOn.refl s).release ho

theorem movesOn_leave (s : Slot κ) (c : κ) : s.MovesOn (s.leave c) [] [] := by
  by_cases hh : s.tenure = .handed c
  · rw [leave, if_pos hh]
    exact movesOn_passOn s
  · rw [leave, if_neg hh]
    refine .of_tenure_eq rfl ?_
    rw [List.append_nil]
    exact List.filter_sublist

theorem movesOn_close (s : Slot κ) : s.MovesOn s.close [] [] :=
  .of_tenure_eq rfl (List.nil_sublist _)

/-- A newcomer goes in or joins the line at its end, or is refused. -/
theorem Fits.movesOn_ask {standing : κ → Standing} (h : s.Fits standing) (c : κ) :
    s.MovesOn (s.ask c).1 (if (s.ask c).2 = .admitted then [c] else []) [c] := by
  by_cases ha : (s.ask c).2 = .admitted
  · obtain ⟨hfree, hs⟩ := ask_admitted ha
    have hline : s.line = [] := h.line_of_free hfree
    have hheir : s.heir? = none := by rw [heir?, hfree]
    rw [if_pos ha, hs]
    constructor <;> simp [Slot.queue, given, emptyHanded, heir?, hline, hfree]
  · rw [if_neg ha]
    refine .of_tenure_eq (tenure_ask ha) ?_
    rw [Slot.ask]
    split
    · exact List.sublist_append_left _ _
    · split
      · exact List.sublist_append_left _ _
      · exact List.Sublist.refl _

/-- A client that has the slot in hand goes in; any other one goes on waiting, or is refused. -/
theorem movesOn_look (s : Slot κ) (c : κ) :
    s.MovesOn (s.look c).1 (if (s.look c).2 = .admitted then [c] else []) [] := by
  by_cases ha : (s.look c).2 = .admitted
  · obtain ⟨hh, hs⟩ := look_admitted ha
    rw [if_pos ha, hs]
    constructor <;> simp [Slot.queue, given, emptyHanded, heir?, hh]
  · rw [if_neg ha]
    by_cases hcl : s.closed = true
    · rw [look, if_pos hcl]
      exact movesOn_leave s c
    by_cases hh : s.tenure = .handed c
    · simp [look, hcl, hh] at ha
    · rw [look, if_neg hcl, if_neg hh]
      exact MovesOn.refl s

end Slot

end SpeechService
