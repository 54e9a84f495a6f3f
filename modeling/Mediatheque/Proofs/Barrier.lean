import Mathlib.Data.List.Nodup
import Mediatheque.Barrier
import Mediatheque.Proofs.List

/-!
# What a barrier waits for

A pending barrier has a tag, and what it waits for from a participant is that the
participant reports in for this tag (`due`). A report takes away what was due from that
participant and nothing else (`due_complete`), and with the last report the tag is given
back (`tag?_complete`).
-/

namespace Mediatheque

namespace Barrier

variable {τ : Type}

/-- The tag of a pending barrier. -/
def tag? : Barrier τ → Option τ
  | idle => none
  | pending tag _ => some tag

/-- The tag for which a participant has to report in, if it has to. -/
def due (b : Barrier τ) (name : String) : List τ := if name ∈ b.waiting then b.tag?.toList else []

/-- The tag that a report of a participant gives back, if it is the last. -/
def finishes (b : Barrier τ) (name : String) : List τ :=
  match (b.complete name).2 with
  | .done tag => [tag]
  | _ => []

theorem mem_due_iff {b : Barrier τ} {name : String} {t : τ} :
    t ∈ b.due name ↔ name ∈ b.waiting ∧ b.tag? = some t := by
  rw [due]
  split <;> simp [*]

theorem due_of_mem {b : Barrier τ} {name : String} {t : τ} (h : t ∈ b.due name) :
    b.due name = [t] := by
  obtain ⟨hn, ht⟩ := mem_due_iff.1 h
  rw [due, if_pos hn, ht, Option.toList_some]

/-- A request is begun, or is refused or complete at once and changes nothing. -/
theorem begin_cases (b : Barrier τ) (tag : τ) (participants : List String) :
    (∃ t waiting, b = pending t waiting ∧ b.begin tag participants = (b, .rejected tag)) ∨
      (b = idle ∧ participants = [] ∧ b.begin tag participants = (b, .immediate tag)) ∨
      (b = idle ∧ participants ≠ [] ∧
        b.begin tag participants = (pending tag participants.eraseDups, .started)) := by
  cases b with
  | pending t waiting => exact .inl ⟨t, waiting, rfl, rfl⟩
  | idle =>
    cases hnames : participants.eraseDups with
    | nil =>
      refine .inr (.inl ⟨rfl, eraseDups_eq_nil_iff.1 hnames, ?_⟩)
      rw [begin, hnames]
    | cons name rest =>
      refine .inr (.inr ⟨rfl, fun hnil => ?_, ?_⟩)
      · rw [eraseDups_eq_nil_iff.2 hnil] at hnames
        cases hnames
      · simp only [begin, hnames]

/-- A report is not waited for and changes nothing, or is the last, or others are missing. -/
theorem complete_spec (b : Barrier τ) (name : String) :
    (name ∉ b.waiting ∧ b.complete name = (b, .ignored)) ∨
      ∃ tag waiting, b = pending tag waiting ∧ name ∈ waiting ∧
        ((waiting.erase name = [] ∧ b.complete name = (idle, .done tag)) ∨
          (waiting.erase name ≠ [] ∧ b.complete name =
            (pending tag (waiting.erase name), .waiting (waiting.erase name).length))) := by
  cases b with
  | idle => exact .inl ⟨List.not_mem_nil, rfl⟩
  | pending tag waiting =>
    by_cases h : name ∈ waiting
    · refine .inr ⟨tag, waiting, rfl, h, ?_⟩
      rw [complete, if_pos h]
      cases he : waiting.erase name with
      | nil => exact .inl ⟨rfl, rfl⟩
      | cons n rest => exact .inr ⟨List.cons_ne_nil n rest, rfl⟩
    · exact .inl ⟨h, by rw [complete, if_neg h]⟩

/-- A report is one of these: it is not waited for, it is the last, or others are missing. -/
theorem complete_cases (b : Barrier τ) (name : String) :
    (name ∉ b.waiting ∧ (b.complete name).1 = b ∧ b.finishes name = []) ∨
      ∃ tag waiting, b = pending tag waiting ∧ name ∈ waiting ∧
        ((waiting.erase name = [] ∧ (b.complete name).1 = idle ∧ b.finishes name = [tag]) ∨
          (waiting.erase name ≠ [] ∧ (b.complete name).1 = pending tag (waiting.erase name) ∧
            b.finishes name = [])) := by
  rw [finishes]
  rcases b.complete_spec name with ⟨h, hb⟩ | ⟨tag, waiting, hpending, h, ⟨he, hb⟩ | ⟨he, hb⟩⟩
  · rw [hb]
    exact .inl ⟨h, rfl, rfl⟩
  · rw [hb]
    exact .inr ⟨tag, waiting, hpending, h, .inl ⟨he, rfl, rfl⟩⟩
  · rw [hb]
    exact .inr ⟨tag, waiting, hpending, h, .inr ⟨he, rfl, rfl⟩⟩

theorem waiting_complete (b : Barrier τ) (name : String) :
    (b.complete name).1.waiting = b.waiting.erase name := by
  rcases b.complete_cases name with ⟨h, hb, -⟩ | ⟨tag, waiting, rfl, h, ⟨he, hb, -⟩ | ⟨he, hb, -⟩⟩
  · rw [hb, List.erase_of_not_mem h]
  · rw [hb]
    exact he.symm
  · rw [hb]
    rfl

/-- A report gives the tag back, or leaves it. -/
theorem tag?_complete (b : Barrier τ) (name : String) :
    b.tag?.toList = b.finishes name ++ (b.complete name).1.tag?.toList := by
  rcases b.complete_cases name with
    ⟨h, hb, hf⟩ | ⟨tag, waiting, rfl, h, ⟨he, hb, hf⟩ | ⟨he, hb, hf⟩⟩
  · rw [hb, hf, List.nil_append]
  · rw [hb, hf]
    rfl
  · rw [hb, hf]
    rfl

/-- A report takes away what was due from its participant, and nothing else. -/
theorem due_complete {b : Barrier τ} (hb : b.waiting.Nodup) (name other : String) :
    (b.complete name).1.due other = if other = name then [] else b.due other := by
  rw [due, waiting_complete]
  by_cases h : other ∈ b.waiting.erase name
  · obtain ⟨hne, hw⟩ := hb.mem_erase_iff.1 h
    rw [if_pos h, if_neg hne, due, if_pos hw]
    rcases b.complete_cases name with ⟨-, hc, -⟩ | ⟨tag, waiting, rfl, -, ⟨he, -, -⟩ | ⟨-, hc, -⟩⟩
    · rw [hc]
    · have hmem : other ∈ waiting.erase name := h
      rw [he] at hmem
      cases hmem
    · rw [hc]
      rfl
  · rw [if_neg h]
    by_cases ho : other = name
    · rw [if_pos ho]
    · rw [if_neg ho, due, if_neg fun hm => h (hb.mem_erase_iff.2 ⟨ho, hm⟩)]

/-- The tag is given back with the report after which nothing is waited for. -/
theorem length_finishes (b : Barrier τ) (name : String) :
    (if b.waiting = [] then 1 else 0) + (b.finishes name).length =
      if (b.complete name).1.waiting = [] then 1 else 0 := by
  rcases b.complete_cases name with
    ⟨-, hb, hf⟩ | ⟨tag, names, rfl, hmem, ⟨-, hb, hf⟩ | ⟨hne, hb, hf⟩⟩
  · rw [hb, hf]
    rfl
  · have hnames : (pending tag names).waiting ≠ [] := List.ne_nil_of_mem hmem
    rw [hb, hf, if_neg hnames]
    rfl
  · have hnames : (pending tag names).waiting ≠ [] := List.ne_nil_of_mem hmem
    have hleft : (pending tag (names.erase name)).waiting ≠ [] := hne
    rw [hb, hf, if_neg hnames, if_neg hleft]
    rfl

/-- What is due from a participant stays so through the reports of others. -/
theorem mem_due_complete_of_ne {b : Barrier τ} {name other : String} {t : τ}
    (h : t ∈ b.due name) (hne : name ≠ other) : t ∈ (b.complete other).1.due name := by
  obtain ⟨hname, htag⟩ := mem_due_iff.1 h
  have hleft : name ∈ b.waiting.erase other := (List.mem_erase_of_ne hne).2 hname
  refine mem_due_iff.2 ⟨?_, ?_⟩
  · rw [waiting_complete]
    exact hleft
  · rcases b.complete_cases other with ⟨-, hc, -⟩ | ⟨tag, waiting, rfl, -, ⟨he, -⟩ | ⟨-, hc, -⟩⟩
    · rw [hc]
      exact htag
    · have hnone : name ∈ waiting.erase other := hleft
      rw [he] at hnone
      cases hnone
    · rw [hc]
      exact htag

end Barrier

end Mediatheque
