import SpeechService.Proofs.Slot.Standing

/-!
# A slot without a client

What the others see of a slot is the slot **without** the client: as it would be if the client had
never come, or gave back at once what it has. Whatever a client does by its own, from asking for
the slot to giving it back, leaves that as it is.
-/

namespace SpeechService

namespace Slot

variable {κ : Type} {s : Slot κ} {standing : κ → Standing} {c : κ}

/-- A client is **known** to a slot that it owns, has in hand or stands in line for. -/
def Knows (s : Slot κ) (c : κ) : Prop := s.tenure = .owned c ∨ s.tenure = .handed c ∨ c ∈ s.line

/-- Who is outside is not known. -/
theorem Fits.not_knows (h : s.Fits standing) (hc : standing c = .outside) : ¬s.Knows c := by
  have hinside : standing c ≠ .inside := by simp [hc]
  have hwaiting : standing c ≠ .waiting := by simp [hc]
  rintro (ho | hh | hl)
  · exact h.not_owned hinside ho
  · exact h.not_handed hwaiting hh
  · exact h.not_mem_line hwaiting hl

variable [DecidableEq κ]

/-- The slot **without** a client: passed on if it is the client's, and without it in line. -/
def without (s : Slot κ) (c : κ) : Slot κ :=
  if s.tenure = .owned c then s.passOn else s.leave c

theorem without_owned (s : Slot κ) (c : κ) :
    { s with tenure := .owned c }.without c = s.passOn := by
  rw [without, if_pos rfl]
  rfl

/-- A client that has not got the slot can only stand in line. -/
theorem without_of_ne (ho : s.tenure ≠ .owned c) (hh : s.tenure ≠ .handed c) :
    s.without c = { s with line := s.line.filter (· ≠ c) } := by
  rw [without, if_neg ho, leave, if_neg hh]

/-- Nobody is missed in a line that does not stand in it. -/
theorem filter_line (hl : c ∉ s.line) : s.line.filter (· ≠ c) = s.line := by
  refine List.filter_eq_self.mpr fun d hd => ?_
  have hne : d ≠ c := by
    rintro rfl
    exact hl hd
  simpa using hne

theorem without_of_not_knows (h : ¬s.Knows c) : s.without c = s := by
  obtain ⟨ho, hrest⟩ := not_or.mp h
  obtain ⟨hh, hl⟩ := not_or.mp hrest
  rw [without_of_ne ho hh, filter_line hl]

theorem closed_without (s : Slot κ) (c : κ) : (s.without c).closed = s.closed := by
  rw [without]
  split
  · exact closed_passOn s
  · exact closed_leave s c

namespace Fits

/-- To ask is not seen by others. -/
theorem without_ask (h : s.Fits standing) (hc : standing c = .outside) :
    (s.ask c).1.without c = s := by
  have hout := h.not_knows hc
  obtain ⟨ho, hrest⟩ := not_or.mp hout
  obtain ⟨hh, hl⟩ := not_or.mp hrest
  rw [Slot.ask]
  split
  · exact without_of_not_knows hout
  · split
    · next hfree =>
      -- A free slot has no line, so it comes free again.
      rw [without_owned, Slot.passOn, h.line_of_free hfree]
      simp only [← hfree, ← h.line_of_free hfree]
    · have hself : [c].filter (· ≠ c) = [] := by simp
      have hgone : (s.line ++ [c]).filter (· ≠ c) = s.line := by
        rw [List.filter_append, filter_line hl, hself, List.append_nil]
      rw [without_of_ne (s := { s with line := s.line ++ [c] }) ho hh]
      exact congrArg (fun line => { s with line }) hgone

/-- To stop waiting is not seen by others. -/
theorem without_leave (h : s.Fits standing) (hc : standing c = .waiting) :
    (s.leave c).without c = s.without c := by
  have hout := (h.leave hc).not_knows (c := c) (Function.update_self ..)
  rw [without_of_not_knows hout, without, if_neg (h.not_owned (by simp [hc]))]

/-- To look is not seen by others. -/
theorem without_look (h : s.Fits standing) (hc : standing c = .waiting) :
    (s.look c).1.without c = s.without c := by
  rw [Slot.look]
  split
  · exact h.without_leave hc
  · split
    · next hh =>
      have hhanded : s.without c = s.passOn := by
        rw [without, if_neg (h.not_owned (by simp [hc])), Slot.leave, if_pos hh]
      exact (without_owned s c).trans hhanded.symm
    · rfl

/-- To come out is not seen by others. -/
theorem without_release (h : s.Fits standing) (hc : standing c = .inside) :
    (s.release c).without c = s.without c := by
  have hout := (h.release hc).not_knows (c := c) (Function.update_self ..)
  have ho := (h.inside_iff c).mp hc
  rw [without_of_not_knows hout, Slot.release, if_pos ho, without, if_pos ho]

end Fits

end Slot

end SpeechService
