import SpeechService.Slot
import SpeechService.Proofs.Slot.Roster
import Mathlib.Data.List.Nodup
import Mathlib.Logic.Function.Basic

/-!
# Standing

A slot knows who has it and who is in line, and its clients know how far they have come. These
two views have to agree: `Slot.Fits` says that a slot fits the **standing** of the clients, which
is outside, waiting or inside.

Every operation of the slot keeps this up when the standing of the client that it is about changes
along with it (`Fits.ask`, `Fits.look`, `Fits.leave`, `Fits.release`, `Fits.close`). Whoever uses a
slot only has to tell the standing of its clients.
-/

namespace SpeechService

/-- How a client stands to a slot. -/
inductive Standing where
  | outside
  /-- It has asked for the slot and does not know of having it. -/
  | waiting
  /-- It has the slot and knows it. -/
  | inside
deriving DecidableEq

/-- The standing of a client that was told something. -/
def Admission.standing : Admission → Standing
  | .admitted => .inside
  | .waiting => .waiting
  | .refused => .outside

namespace Slot

variable {κ : Type} {s : Slot κ} {standing : κ → Standing} {c : κ}

/-- A slot **fits** the standing of the clients. -/
structure Fits (s : Slot κ) (standing : κ → Standing) : Prop where
  /-- The owner is inside, and nobody else is. -/
  inside_iff : ∀ c, standing c = .inside ↔ s.tenure = .owned c
  /-- The slot is handed to a client that waits and has left the line. -/
  handed : ∀ c, s.tenure = .handed c → standing c = .waiting ∧ c ∉ s.line
  line_waits : ∀ c ∈ s.line, standing c = .waiting
  /-- Nobody is forgotten while the slot is open. -/
  listed : s.closed = false → ∀ c, standing c = .waiting → s.tenure = .handed c ∨ c ∈ s.line
  line_nodup : s.line.Nodup
  line_of_free : s.tenure = .free → s.line = []
  line_of_closed : s.closed = true → s.line = []

/-- A new slot has only clients outside. -/
theorem fits_new : ({} : Slot κ).Fits fun _ => .outside := by
  constructor <;> simp

/-- The slot is taken exactly when it is not free. -/
theorem isBusy_eq_false_iff : s.isBusy = false ↔ s.tenure = .free := by
  cases h : s.tenure <;> simp [isBusy, h]

namespace Fits

/-- A client that is not inside does not own the slot. -/
theorem not_owned (h : s.Fits standing) (hc : standing c ≠ .inside) : s.tenure ≠ .owned c :=
  fun ho => hc ((h.inside_iff c).mpr ho)

theorem not_mem_line (h : s.Fits standing) (hc : standing c ≠ .waiting) : c ∉ s.line :=
  fun hl => hc (h.line_waits c hl)

/-- The slot is handed only to somebody who waits. -/
theorem not_handed (h : s.Fits standing) (hc : standing c ≠ .waiting) : s.tenure ≠ .handed c :=
  fun hh => hc (h.handed c hh).1

/-- Closing wakes everybody in line, who then wait outside of it. -/
theorem close (h : s.Fits standing) : s.close.Fits standing where
  inside_iff := h.inside_iff
  handed d hd := ⟨(h.handed d hd).1, List.not_mem_nil⟩
  line_waits _ hd := absurd hd List.not_mem_nil
  listed hc := absurd hc (by simp [Slot.close])
  line_nodup := List.nodup_nil
  line_of_free _ := rfl
  line_of_closed _ := rfl

/-- Nobody but the client that has the slot is inside or has it in hand. -/
theorem of_ne_holder (h : s.Fits standing) (hc : s.tenure = .owned c ∨ s.tenure = .handed c)
    {d : κ} (hd : d ≠ c) : standing d ≠ .inside ∧ s.tenure ≠ .handed d := by
  refine ⟨fun hi => ?_, fun hh => ?_⟩
  · have ho := (h.inside_iff d).mp hi
    rcases hc with hc | hc <;> simp_all
  · rcases hc with hc | hc <;> simp_all

variable [DecidableEq κ]

/-- The client that had the slot goes outside, and without a line the slot comes free. -/
theorem vacate (h : s.Fits standing) (hc : s.tenure = .owned c ∨ s.tenure = .handed c)
    (hl : s.line = []) :
    { s with tenure := .free }.Fits (Function.update standing c .outside) where
  inside_iff d := by
    by_cases hd : d = c
    · simp [hd]
    · simpa [Function.update_of_ne hd] using (h.of_ne_holder hc hd).1
  handed := by simp
  line_waits := by simp [hl]
  listed ho d hw := by
    by_cases hd : d = c
    · simp [hd] at hw
    · rw [Function.update_of_ne hd] at hw
      rcases h.listed ho d hw with hh | hm
      · exact absurd hh (h.of_ne_holder hc hd).2
      · simp [hl] at hm
  line_nodup := h.line_nodup
  line_of_free _ := hl
  line_of_closed _ := hl

/-- The client that had the slot goes outside, and the first in line gets it. -/
theorem handOver (h : s.Fits standing) (hc : s.tenure = .owned c ∨ s.tenure = .handed c)
    {next : κ} {rest : List κ} (hl : s.line = next :: rest) :
    { s with tenure := .handed next, line := rest }.Fits
      (Function.update standing c .outside) := by
  -- Who had the slot is not in line, so that its new standing leaves the line as it is.
  have hcl : c ∉ s.line := by
    rcases hc with hc | hc
    · exact h.not_mem_line (by rw [(h.inside_iff c).mpr hc]; decide)
    · exact (h.handed c hc).2
  have hnd : next ∉ rest ∧ rest.Nodup := List.nodup_cons.mp (hl ▸ h.line_nodup)
  have hwait : ∀ d ∈ next :: rest, Function.update standing c .outside d = .waiting := by
    intro d hd
    have hdl : d ∈ s.line := hl ▸ hd
    rw [Function.update_of_ne (by rintro rfl; exact hcl hdl)]
    exact h.line_waits d hdl
  constructor
  · intro d
    by_cases hd : d = c
    · simp [hd]
    · simpa [Function.update_of_ne hd] using (h.of_ne_holder hc hd).1
  · intro d hd
    obtain rfl : next = d := by simpa using hd
    exact ⟨hwait next List.mem_cons_self, hnd.1⟩
  · exact fun d hd => hwait d (List.mem_cons_of_mem next hd)
  · intro ho d hw
    by_cases hd : d = c
    · simp [hd] at hw
    · rw [Function.update_of_ne hd] at hw
      rcases h.listed ho d hw with hh | hm
      · exact absurd hh (h.of_ne_holder hc hd).2
      · rw [hl, List.mem_cons] at hm
        simpa [eq_comm] using hm
  · exact hnd.2
  · simp
  · intro hclosed
    have hnil := h.line_of_closed hclosed
    simp [hl] at hnil

/-- The client that had the slot goes outside, and the slot passes on. -/
theorem passOn (h : s.Fits standing) (hc : s.tenure = .owned c ∨ s.tenure = .handed c) :
    s.passOn.Fits (Function.update standing c .outside) := by
  cases hl : s.line with
  | nil =>
    have hp : s.passOn = { s with tenure := .free } := by rw [Slot.passOn, hl]
    rw [hp]
    exact h.vacate hc hl
  | cons next rest =>
    have hp : s.passOn = { s with tenure := .handed next, line := rest } := by
      rw [Slot.passOn, hl]
    rw [hp]
    exact h.handOver hc hl

/-- A client goes inside when the slot is free or was handed to it. -/
theorem letIn (h : s.Fits standing) (hc : s.tenure = .free ∨ s.tenure = .handed c) :
    { s with tenure := .owned c }.Fits (Function.update standing c .inside) := by
  -- Nobody is in line for a free slot, and who has it in hand has left the line.
  have hcl : c ∉ s.line := by
    rcases hc with hc | hc
    · simp [h.line_of_free hc]
    · exact (h.handed c hc).2
  have hne : ∀ d ∈ s.line, d ≠ c := by
    rintro d hd rfl
    exact hcl hd
  constructor
  · intro d
    by_cases hd : d = c
    · simp [hd]
    · have hn : standing d ≠ .inside := fun hi => by
        have ho := (h.inside_iff d).mp hi
        rcases hc with hc | hc <;> simp [hc] at ho
      simpa [Function.update_of_ne hd, hn] using Ne.symm hd
  · simp
  · intro d hd
    rw [Function.update_of_ne (hne d hd)]
    exact h.line_waits d hd
  · intro ho d hw
    by_cases hd : d = c
    · simp [hd] at hw
    · rw [Function.update_of_ne hd] at hw
      rcases h.listed ho d hw with hh | hm
      · rcases hc with hc | hc
        · simp [hc] at hh
        · exact absurd (by simpa [hc] using hh) (Ne.symm hd)
      · exact .inr hm
  · exact h.line_nodup
  · simp
  · exact h.line_of_closed

/-- A client joins the line while the slot is open and taken. -/
theorem enqueue (h : s.Fits standing) (hc : standing c = .outside) (ho : s.closed = false)
    (ht : s.tenure ≠ .free) :
    { s with line := s.line ++ [c] }.Fits (Function.update standing c .waiting) := by
  have hcl : c ∉ s.line := h.not_mem_line (by rw [hc]; decide)
  constructor
  · intro d
    by_cases hd : d = c
    · have hn : standing c ≠ .inside := by rw [hc]; decide
      simpa [hd] using h.not_owned hn
    · rw [Function.update_of_ne hd]
      exact h.inside_iff d
  · intro d hd
    obtain ⟨hw, hm⟩ := h.handed d hd
    -- The slot may be in a hand, but not in that of a client that was outside.
    have hdc : d ≠ c := by
      rintro rfl
      simp [hc] at hw
    rw [Function.update_of_ne hdc]
    exact ⟨hw, by simpa using ⟨hm, hdc⟩⟩
  · intro d hd
    by_cases hdc : d = c
    · simp [hdc]
    · rw [Function.update_of_ne hdc]
      exact h.line_waits d (by simpa [hdc] using hd)
  · intro _ d hw
    by_cases hdc : d = c
    · simp [hdc]
    · rw [Function.update_of_ne hdc] at hw
      simpa [hdc] using h.listed ho d hw
  · refine List.nodup_append.mpr ⟨h.line_nodup, List.nodup_singleton c, ?_⟩
    rintro d hd e he rfl
    exact hcl (List.mem_singleton.mp he ▸ hd)
  · exact fun hf => absurd hf ht
  · simp [ho]

/-- A client outside asks. -/
theorem ask (h : s.Fits standing) (hc : standing c = .outside) :
    (s.ask c).1.Fits (Function.update standing c (s.ask c).2.standing) := by
  cases hclosed : s.closed with
  | true =>
    have ha : s.ask c = (s, .refused) := by rw [Slot.ask, if_pos hclosed]
    rw [ha, show Admission.refused.standing = standing c from hc.symm, Function.update_eq_self]
    exact h
  | false =>
    -- An open slot is taken if it is free, and waited for if it is not.
    by_cases hfree : s.tenure = .free
    · have ha : s.ask c = ({ s with tenure := .owned c }, .admitted) := by
        simp [Slot.ask, hclosed, hfree]
      rw [ha]
      exact h.letIn (.inl hfree)
    · have ha : s.ask c = ({ s with line := s.line ++ [c] }, .waiting) := by
        cases ht : s.tenure <;> simp_all [Slot.ask]
      rw [ha]
      exact h.enqueue hc hclosed hfree

/-- A client that waits gives up. -/
theorem leave (h : s.Fits standing) (hc : standing c = .waiting) :
    (s.leave c).Fits (Function.update standing c .outside) := by
  by_cases hh : s.tenure = .handed c
  · rw [Slot.leave, if_pos hh]
    exact h.passOn (.inr hh)
  -- Who has nothing in hand only leaves the line.
  · have hn : standing c ≠ .inside := by rw [hc]; decide
    rw [Slot.leave, if_neg hh]
    constructor
    · intro d
      by_cases hd : d = c
      · simpa [hd] using h.not_owned hn
      · rw [Function.update_of_ne hd]
        exact h.inside_iff d
    · intro d hd
      have hdc : d ≠ c := by rintro rfl; exact hh hd
      obtain ⟨hw, hm⟩ := h.handed d hd
      rw [Function.update_of_ne hdc]
      exact ⟨hw, fun hf => hm (List.mem_of_mem_filter hf)⟩
    · intro d hd
      obtain ⟨hm, hdc⟩ : d ∈ s.line ∧ d ≠ c := by simpa using hd
      rw [Function.update_of_ne hdc]
      exact h.line_waits d hm
    · intro ho d hw
      by_cases hdc : d = c
      · simp [hdc] at hw
      · rw [Function.update_of_ne hdc] at hw
        simpa [hdc] using h.listed ho d hw
    · exact h.line_nodup.filter _
    · intro hf
      simp [h.line_of_free hf]
    · intro hcl
      simp [h.line_of_closed hcl]

/-- A client that waits looks again. -/
theorem look (h : s.Fits standing) (hc : standing c = .waiting) :
    (s.look c).1.Fits (Function.update standing c (s.look c).2.standing) := by
  by_cases hclosed : s.closed = true
  · have hl : s.look c = (s.leave c, .refused) := by rw [Slot.look, if_pos hclosed]
    rw [hl]
    exact h.leave hc
  by_cases hh : s.tenure = .handed c
  · have hl : s.look c = ({ s with tenure := .owned c }, .admitted) := by
      rw [Slot.look, if_neg hclosed, if_pos hh]
    rw [hl]
    exact h.letIn (.inr hh)
  · have hl : s.look c = (s, .waiting) := by rw [Slot.look, if_neg hclosed, if_neg hh]
    rw [hl, show Admission.waiting.standing = standing c from hc.symm, Function.update_eq_self]
    exact h

/-- The owner gives the slot back. -/
theorem release (h : s.Fits standing) (hc : standing c = .inside) :
    (s.release c).Fits (Function.update standing c .outside) := by
  have ho := (h.inside_iff c).mp hc
  rw [Slot.release, if_pos ho]
  exact h.passOn (.inl ho)

end Fits

/-! ### Who has the slot next

Whatever is done, the slot is handed on only to the first in line, and only who is admitted
becomes its owner. -/

variable {d : κ}

/-- The owner of the slot. -/
def owner? (s : Slot κ) : Option κ :=
  match s.tenure with
  | .owned c => some c
  | _ => none

/-- A list of those who are inside holds the owner and nobody else. -/
theorem Fits.insiders_eq (h : s.Fits standing) {insiders : List κ} (hn : insiders.Nodup)
    (hl : ∀ c, c ∈ insiders ↔ standing c = .inside) : insiders = s.owner?.toList := by
  have hnil (ho : ∀ d, s.tenure ≠ .owned d) : insiders = [] :=
    List.eq_nil_iff_forall_not_mem.mpr fun d hd => ho d ((h.inside_iff d).mp ((hl d).mp hd))
  cases ht : s.tenure with
  | owned c =>
    have hc : insiders = [c] := Roster.eq_singleton_of_mem_iff hn fun d => by
      rw [hl, h.inside_iff, ht, Tenure.owned.injEq, eq_comm]
    simp [hc, owner?, ht]
  | free => simp [hnil (by simp [ht]), owner?, ht]
  | handed c => simp [hnil (by simp [ht]), owner?, ht]

/-- The slot is handed to whom it was handed before, unless this is the given client, or to the
first in line. -/
def HandedOn (s : Slot κ) (c : κ) (after : Slot κ) : Prop :=
  ∀ d, after.tenure = .handed d → s.tenure = .handed d ∧ d ≠ c ∨ s.line.head? = some d

/-- The slot is passed on to the head of the line, or becomes free. -/
theorem tenure_passOn (s : Slot κ) : s.passOn.tenure = s.line.head?.elim .free .handed := by
  cases hl : s.line <;> simp [passOn, hl]

theorem handed_passOn (h : s.passOn.tenure = .handed d) : s.line.head? = some d := by
  rw [tenure_passOn] at h
  cases hl : s.line.head? with
  | none => simp [hl] at h
  | some next => simpa [hl] using h

theorem owner?_passOn (s : Slot κ) : s.passOn.owner? = none := by
  cases hl : s.line <;> simp [passOn, hl, owner?]

/-- Only a closed slot refuses a client that asks. -/
theorem closed_of_ask (h : (s.ask c).2 = .refused) : s.closed = true := by
  cases hcl : s.closed with
  | true => rfl
  | false => cases ht : s.tenure <;> simp [ask, hcl, ht] at h

/-- A closed slot admits nobody. -/
theorem open_of_ask (h : (s.ask c).2 = .admitted) : s.closed = false := by
  cases hcl : s.closed with
  | true => simp [ask, hcl] at h
  | false => rfl

@[simp]
theorem closed_ask (s : Slot κ) (c : κ) : (s.ask c).1.closed = s.closed := by
  rw [ask]
  split
  · rfl
  · split <;> rfl

@[simp]
theorem closed_passOn (s : Slot κ) : s.passOn.closed = s.closed := by
  rw [passOn]
  split <;> rfl

/-- Asking admits a client only to a free slot. -/
theorem ask_admitted (h : (s.ask c).2 = .admitted) :
    s.tenure = .free ∧ (s.ask c).1 = { s with tenure := .owned c } := by
  cases hcl : s.closed with
  | true => simp [ask, hcl] at h
  | false => cases ht : s.tenure <;> simp_all [ask]

/-- Without being admitted, a client that asks leaves the tenure alone. -/
theorem tenure_ask (h : (s.ask c).2 ≠ .admitted) : (s.ask c).1.tenure = s.tenure := by
  cases hcl : s.closed with
  | true => simp [ask, hcl]
  | false => cases ht : s.tenure <;> simp_all [ask]

variable [DecidableEq κ]

@[simp]
theorem closed_leave (s : Slot κ) (c : κ) : (s.leave c).closed = s.closed := by
  rw [leave]
  split
  · exact closed_passOn s
  · rfl

@[simp]
theorem closed_look (s : Slot κ) (c : κ) : (s.look c).1.closed = s.closed := by
  rw [look]
  split
  · exact closed_leave s c
  · split <;> rfl

@[simp]
theorem closed_release (s : Slot κ) (c : κ) : (s.release c).closed = s.closed := by
  rw [release]
  split
  · exact closed_passOn s
  · rfl

/-- Only an open slot admits. -/
theorem open_of_look (h : (s.look c).2 = .admitted) : s.closed = false := by
  cases hcl : s.closed with
  | true => simp [look, hcl] at h
  | false => rfl

/-- Only a closed slot refuses a client that looks. -/
theorem closed_of_look (h : (s.look c).2 = .refused) : s.closed = true := by
  by_contra hcl
  rw [look, if_neg hcl] at h
  split at h <;> simp at h

/-- Without a line, who waits in vain leaves a free slot as it was. -/
theorem leave_of_free (ht : s.tenure = .free) (hl : s.line = []) : s.leave c = s := by
  rw [leave, if_neg (by simp [ht]), hl, List.filter_nil, ← hl]

/-- Looking admits a client only to a slot that was handed to it. -/
theorem look_admitted (h : (s.look c).2 = .admitted) :
    s.tenure = .handed c ∧ (s.look c).1 = { s with tenure := .owned c } := by
  cases hcl : s.closed with
  | true => simp [look, hcl] at h
  | false => by_cases hh : s.tenure = .handed c <;> simp_all [look]

/-- Who leaves hands the slot on if it was handed to them. -/
theorem handedOn_leave (s : Slot κ) (c : κ) : s.HandedOn c (s.leave c) := by
  intro d hd
  by_cases hh : s.tenure = .handed c
  · rw [leave, if_pos hh] at hd
    exact .inr (handed_passOn hd)
  · rw [leave, if_neg hh] at hd
    exact .inl ⟨hd, by rintro rfl; exact hh hd⟩

theorem handedOn_look (s : Slot κ) (c : κ) : s.HandedOn c (s.look c).1 := by
  intro d hd
  by_cases hcl : s.closed = true
  · rw [look, if_pos hcl] at hd
    exact handedOn_leave s c d hd
  by_cases hh : s.tenure = .handed c
  · simp [look, hcl, hh] at hd
  · have hd' : s.tenure = .handed d := by simpa [look, hcl, hh] using hd
    exact .inl ⟨hd', by rintro rfl; exact hh hd'⟩

/-- An owner that releases the slot hands it on. -/
theorem handedOn_release (h : s.tenure = .owned c) : s.HandedOn c (s.release c) := by
  intro d hd
  rw [release, if_pos h] at hd
  exact .inr (handed_passOn hd)

theorem owner?_leave (s : Slot κ) (c : κ) : (s.leave c).owner? = s.owner? := by
  by_cases hh : s.tenure = .handed c
  · rw [leave, if_pos hh, owner?_passOn, owner?, hh]
  · rw [leave, if_neg hh]
    rfl

/-- A look changes the owner only when it admits. -/
theorem owner?_look (h : (s.look c).2 ≠ .admitted) : (s.look c).1.owner? = s.owner? := by
  by_cases hcl : s.closed = true
  · rw [look, if_pos hcl]
    exact owner?_leave s c
  by_cases hh : s.tenure = .handed c
  · simp [look, hcl, hh] at h
  · rw [look, if_neg hcl, if_neg hh]

theorem tenure_release (h : s.tenure = .owned c) :
    (s.release c).tenure = s.line.head?.elim .free .handed := by
  rw [release, if_pos h, tenure_passOn]

theorem owner?_release (h : s.tenure = .owned c) : (s.release c).owner? = none := by
  rw [release, if_pos h, owner?_passOn]

end Slot

end SpeechService
