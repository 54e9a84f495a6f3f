import Mathlib.Data.Finset.Card
import Mediatheque.Proofs.Barrier
import Mediatheque.Proofs.List

/-!
# The course of a barrier

What a barrier answers can be told from the calls before and from what it has answered to them
(`Course`): which requests were begun (`Began`), who has reported since (`reporters`), and which
participants of a request are missing then (`missing`).

A request that was begun either has been answered, when nobody was missing any more, or is the one
that the barrier waits for, and then the barrier waits for those who are missing (`Tracks`). Every
call keeps that (`tracks_begin`, `tracks_complete`), and with it each answer follows from what was
called and answered before (`lawful_afterAll`).
-/

namespace Mediatheque

namespace Barrier

variable {τ : Type}

/-! ## Calls -/

/-- What a barrier is asked. -/
inductive Call (τ : Type) where
  | begin (tag : τ) (participants : List String)
  | complete (name : String)

/-- What a barrier answers. -/
inductive Answer (τ : Type) where
  | began (answer : Begin τ)
  | completed (answer : Completion τ)

/-- What a barrier was asked and has answered, the latest at the end. -/
abbrev Log (τ : Type) := List (Call τ × Answer τ)

/-- A barrier, and the calls that it has had. -/
structure Course (τ : Type) where
  barrier : Barrier τ := idle
  log : Log τ := []

namespace Course

def after (k : Course τ) : Call τ → Course τ
  | .begin tag participants =>
    let (b, answer) := k.barrier.begin tag participants
    ⟨b, k.log ++ [(.begin tag participants, .began answer)]⟩
  | .complete name =>
    let (b, answer) := k.barrier.complete name
    ⟨b, k.log ++ [(.complete name, .completed answer)]⟩

def afterAll (k : Course τ) (calls : List (Call τ)) : Course τ := calls.foldl after k

end Course

/-! ## What a log tells -/

/-- A request was begun, and that is what has been called since. -/
def Began (log : Log τ) (tag : τ) (participants : List String) (since : Log τ) : Prop :=
  ∃ before, log = before ++ (.begin tag participants, .began .started) :: since

/-- A report was told that it was the last one for a tag. -/
def Answered (log : Log τ) (tag : τ) : Prop :=
  ∃ name, (.complete name, .completed (.done tag)) ∈ log

/-- A request was begun that has not been answered. -/
def Pends (log : Log τ) : Prop :=
  ∃ tag participants since, Began log tag participants since ∧ ¬ Answered since tag

/-- Who has reported, each as often as that. -/
def reporters (log : Log τ) : List String :=
  log.filterMap fun
    | (.complete name, _) => some name
    | _ => none

/-- The participants who are not among the reporters. -/
def missing (participants reporters : List String) : Finset String :=
  participants.toFinset \ reporters.toFinset

theorem mem_missing {participants reporters : List String} {name : String} :
    name ∈ missing participants reporters ↔ name ∈ participants ∧ name ∉ reporters := by
  rw [missing, Finset.mem_sdiff, List.mem_toFinset, List.mem_toFinset]

/-- With a further report one name less is missing, if it was. -/
theorem missing_append_singleton (participants reporters : List String) (name : String) :
    missing participants (reporters ++ [name]) = (missing participants reporters).erase name := by
  ext other
  rw [Finset.mem_erase, mem_missing, mem_missing, List.mem_append, List.mem_singleton, not_or]
  tauto

theorem reporters_append_complete (log : Log τ) (name : String) (a : Answer τ) :
    reporters (log ++ [(.complete name, a)]) = reporters log ++ [name] := List.filterMap_append

theorem reporters_append_begin (log : Log τ) (tag : τ) (participants : List String)
    (a : Answer τ) : reporters (log ++ [(.begin tag participants, a)]) = reporters log := by
  rw [reporters, List.filterMap_append]
  exact List.append_nil _

theorem answered_append_singleton_iff {log : Log τ} {e : Call τ × Answer τ} {tag : τ} :
    Answered (log ++ [e]) tag ↔
      Answered log tag ∨ ∃ name, e = (.complete name, .completed (.done tag)) := by
  simp only [Answered, List.mem_append, List.mem_singleton, exists_or, eq_comm]

/-- A request of a longer log is the last entry, or was there before. -/
theorem began_append_singleton_iff {log since : Log τ} {e : Call τ × Answer τ} {tag : τ}
    {participants : List String} :
    Began (log ++ [e]) tag participants since ↔
      (e = (.begin tag participants, .began .started) ∧ since = []) ∨
        ∃ earlier, since = earlier ++ [e] ∧ Began log tag participants earlier := by
  constructor
  · rintro ⟨before, h⟩
    rcases List.eq_nil_or_concat since with rfl | ⟨earlier, last, rfl⟩
    · exact .inl ⟨(List.append_inj_right' h rfl |> List.singleton_inj.1), rfl⟩
    · rw [List.concat_eq_append, ← List.cons_append, ← List.append_assoc] at h
      obtain ⟨hlog, hlast⟩ := List.append_inj' h rfl
      obtain rfl := List.singleton_inj.1 hlast
      exact .inr ⟨earlier, List.concat_eq_append, before, hlog⟩
  · rintro (⟨rfl, rfl⟩ | ⟨earlier, rfl, before, rfl⟩)
    · exact ⟨log, rfl⟩
    · exact ⟨before, by simp⟩

/-! ## What a barrier keeps track of -/

/-- A request that was begun has been answered, or is waited for. -/
structure Tracks (b : Barrier τ) (log : Log τ) : Prop where
  nodup : b.waiting.Nodup
  requests : ∀ tag participants since, Began log tag participants since →
    (Answered since tag ∧ missing participants (reporters since) = ∅) ∨
      (¬ Answered since tag ∧ b.tag? = some tag ∧
        ∀ name, name ∈ b.waiting ↔ name ∈ missing participants (reporters since))
  open_of_tag : ∀ tag, b.tag? = some tag → b.waiting ≠ [] ∧
    ∃ participants since, Began log tag participants since ∧ ¬ Answered since tag
  single : ∀ tag participants since, Began log tag participants since → ¬ Answered since tag →
    ∀ tag' participants' since', Began log tag' participants' since' → ¬ Answered since' tag' →
      since = since'

theorem tracks_idle : Tracks (idle : Barrier τ) [] := by
  have hnone (tag : τ) (participants : List String) (since : Log τ) :
      ¬ Began [] tag participants since := by
    rintro ⟨before, h⟩
    simp at h
  exact ⟨List.nodup_nil, fun t names s h => absurd h (hnone t names s), nofun,
    fun t names s h => absurd h (hnone t names s)⟩

/-- A call that begins nothing leaves at most one request without an answer. -/
theorem Tracks.single_append {b : Barrier τ} {log : Log τ} (h : Tracks b log)
    {e : Call τ × Answer τ} (he : e.2 ≠ .began .started) {tag tag' : τ}
    {participants participants' : List String} {since since' : Log τ}
    (hbegan : Began (log ++ [e]) tag participants since) (hopen : ¬ Answered since tag)
    (hbegan' : Began (log ++ [e]) tag' participants' since') (hopen' : ¬ Answered since' tag') :
    since = since' := by
  rcases began_append_singleton_iff.1 hbegan with ⟨rfl, -⟩ | ⟨earlier, rfl, hearlier⟩
  · exact absurd rfl he
  rcases began_append_singleton_iff.1 hbegan' with ⟨rfl, -⟩ | ⟨earlier', rfl, hearlier'⟩
  · exact absurd rfl he
  rw [answered_append_singleton_iff, not_or] at hopen hopen'
  rw [h.single _ _ _ hearlier hopen.1 _ _ _ hearlier' hopen'.1]

/-- A call to begin that begins nothing is of no account. -/
theorem Tracks.append_begin {b : Barrier τ} {log : Log τ} (h : Tracks b log) (tag : τ)
    (participants : List String) {a : Begin τ} (ha : a ≠ .started) :
    Tracks b (log ++ [(.begin tag participants, .began a)]) := by
  have hsame (since : Log τ) (t : τ) :
      Answered (since ++ [(.begin tag participants, .began a)]) t ↔ Answered since t := by
    simp [answered_append_singleton_iff]
  have hnew : Answer.began a ≠ .began .started := fun heq => ha (by injection heq)
  refine ⟨h.nodup, fun t names since hbegan => ?_, fun t ht => ?_,
    fun _ _ _ hbegan hopen _ _ _ => h.single_append hnew hbegan hopen⟩
  · rcases began_append_singleton_iff.1 hbegan with ⟨he, -⟩ | ⟨earlier, rfl, hearlier⟩
    · cases he
      exact absurd rfl ha
    · rw [hsame, reporters_append_begin]
      exact h.requests t names earlier hearlier
  · obtain ⟨hwaiting, names, since, hbegan, hanswered⟩ := h.open_of_tag t ht
    refine ⟨hwaiting, names, _, began_append_singleton_iff.2 (.inr ⟨since, rfl, hbegan⟩), ?_⟩
    rwa [hsame]

/-- A request that is begun is the only one that is waited for. -/
theorem tracks_begin {b : Barrier τ} {log : Log τ} (h : Tracks b log) (tag : τ)
    (participants : List String) :
    Tracks (b.begin tag participants).1
      (log ++ [(.begin tag participants, .began (b.begin tag participants).2)]) := by
  rcases b.begin_cases tag participants with ⟨-, -, -, hb⟩ | ⟨-, -, hb⟩ | ⟨hidle, hnames, hb⟩
  · rw [hb]
    exact h.append_begin tag participants nofun
  · rw [hb]
    exact h.append_begin tag participants nofun
  · rw [hb]
    have hnone : ¬ Answered ([] : Log τ) tag := by simp [Answered]
    -- Whatever was begun before has been answered, as the barrier was idle.
    have hdone (t : τ) (names : List String) (since : Log τ) (hbegan : Began log t names since) :
        Answered since t ∧ missing names (reporters since) = ∅ := by
      rcases h.requests t names since hbegan with hdone | ⟨-, htag, -⟩
      · exact hdone
      · rw [hidle] at htag
        cases htag
    refine ⟨nodup_eraseDups participants, fun t names since hbegan => ?_, fun t ht => ?_, ?_⟩
    · rcases began_append_singleton_iff.1 hbegan with ⟨he, rfl⟩ | ⟨earlier, rfl, hearlier⟩
      · cases he
        refine .inr ⟨hnone, rfl, fun name => ?_⟩
        rw [mem_missing]
        simp [waiting, reporters]
      · obtain ⟨hanswered, hmissing⟩ := hdone t names earlier hearlier
        rw [answered_append_singleton_iff, reporters_append_begin]
        exact .inl ⟨.inl hanswered, hmissing⟩
    · cases ht
      refine ⟨?_, participants, [], began_append_singleton_iff.2 (.inl ⟨rfl, rfl⟩), hnone⟩
      rwa [waiting, Ne, eraseDups_eq_nil_iff]
    · have hlast (t : τ) (names : List String) (since : Log τ)
          (hbegan : Began (log ++ [(.begin tag participants, .began .started)]) t names since)
          (hopen : ¬ Answered since t) : since = [] := by
        rcases began_append_singleton_iff.1 hbegan with ⟨-, hnil⟩ | ⟨earlier, rfl, hearlier⟩
        · exact hnil
        · rw [answered_append_singleton_iff, not_or] at hopen
          exact absurd (hdone t names earlier hearlier).1 hopen.1
      intro t names since hbegan hopen t' names' since' hbegan' hopen'
      rw [hlast t names since hbegan hopen, hlast t' names' since' hbegan' hopen']

/-- A report that is waited for takes its name from those who are missing, and answers the request
if it was the last of them. -/
theorem tracks_complete {b : Barrier τ} {log : Log τ} (h : Tracks b log) (name : String) :
    Tracks (b.complete name).1
      (log ++ [(.complete name, .completed (b.complete name).2)]) := by
  have hmissing (participants : List String) (since : Log τ) (a : Answer τ) :
      missing participants (reporters (since ++ [(.complete name, a)])) =
        (missing participants (reporters since)).erase name := by
    rw [reporters_append_complete, missing_append_singleton]
  have hnew : Answer.completed (b.complete name).2 ≠ .began .started := nofun
  have hwaiting : (b.complete name).1.waiting.Nodup := by
    rw [waiting_complete]
    exact h.nodup.erase name
  refine ⟨hwaiting, fun t names since hbegan => ?_, fun t ht => ?_,
    fun _ _ _ hbegan hopen _ _ _ => h.single_append hnew hbegan hopen⟩
  · rcases began_append_singleton_iff.1 hbegan with ⟨he, -⟩ | ⟨earlier, rfl, hearlier⟩
    · cases he
    rw [answered_append_singleton_iff, hmissing]
    rcases h.requests t names earlier hearlier with ⟨hanswered, hnone⟩ | ⟨hanswered, htag, hnames⟩
    · refine .inl ⟨.inl hanswered, ?_⟩
      rw [hnone, Finset.erase_empty]
    rcases b.complete_spec name with ⟨hname, hb⟩ | ⟨tag, waiting, rfl, hname, ⟨he, hb⟩ | ⟨he, hb⟩⟩
    · -- Nobody waits for the name, so it is not missing.
      have hnot : name ∉ missing names (reporters earlier) := fun hm => hname ((hnames name).2 hm)
      rw [hb, Finset.erase_eq_of_notMem hnot]
      exact .inr ⟨by simpa using hanswered, htag, hnames⟩
    · -- It was the last, and the tag of the request is given back.
      cases htag
      rw [hb]
      refine .inl ⟨.inr ⟨name, rfl⟩, Finset.eq_empty_of_forall_notMem fun other hother => ?_⟩
      have hleft : other ∈ waiting.erase name := h.nodup.mem_erase_iff.2
        ⟨Finset.ne_of_mem_erase hother, (hnames other).2 (Finset.mem_of_mem_erase hother)⟩
      rw [he] at hleft
      cases hleft
    · rw [hb]
      refine .inr ⟨by simpa using hanswered, htag, fun other => ?_⟩
      rw [Finset.mem_erase, ← hnames other]
      exact h.nodup.mem_erase_iff
  · rcases b.complete_spec name with ⟨-, hb⟩ | ⟨tag, waiting, rfl, -, ⟨-, hb⟩ | ⟨he, hb⟩⟩
    · rw [hb] at ht ⊢
      obtain ⟨hwaiting, names, since, hbegan, hanswered⟩ := h.open_of_tag t ht
      refine ⟨hwaiting, names, _, began_append_singleton_iff.2 (.inr ⟨since, rfl, hbegan⟩), ?_⟩
      simpa [answered_append_singleton_iff] using hanswered
    · rw [hb] at ht
      cases ht
    · rw [hb] at ht ⊢
      obtain ⟨-, names, since, hbegan, hanswered⟩ := h.open_of_tag t ht
      refine ⟨he, names, _, began_append_singleton_iff.2 (.inr ⟨since, rfl, hbegan⟩), ?_⟩
      simpa [answered_append_singleton_iff] using hanswered

theorem tracks_afterAll (calls : List (Call τ)) :
    Tracks (({} : Course τ).afterAll calls).barrier (({} : Course τ).afterAll calls).log := by
  induction calls using List.reverseRecOn with
  | nil => exact tracks_idle
  | append_singleton calls call ih =>
    rw [Course.afterAll, List.foldl_concat]
    cases call with
    | begin tag participants => exact tracks_begin ih tag participants
    | complete name => exact tracks_complete ih name

/-! ## Answers -/

section Answers

variable {b : Barrier τ} {log since : Log τ} {tag : τ} {participants : List String} {name : String}

/-- A request that is not answered is the one that the barrier waits for. -/
theorem Tracks.eq_pending (h : Tracks b log) (hbegan : Began log tag participants since)
    (hanswered : ¬ Answered since tag) :
    ∃ waiting, b = pending tag waiting ∧
      ∀ name, name ∈ waiting ↔ name ∈ missing participants (reporters since) := by
  rcases h.requests tag participants since hbegan with ⟨hdone, -⟩ | ⟨-, htag, hnames⟩
  · exact absurd hdone hanswered
  · cases b with
    | idle => cases htag
    | pending t waiting =>
      cases htag
      exact ⟨waiting, rfl, hnames⟩

/-- A request has been answered if and only if nobody is missing. -/
theorem Tracks.answered_iff (h : Tracks b log) (hbegan : Began log tag participants since) :
    Answered since tag ↔ missing participants (reporters since) = ∅ := by
  rcases h.requests tag participants since hbegan with ⟨hdone, hnone⟩ | ⟨hopen, htag, hnames⟩
  · exact iff_of_true hdone hnone
  · refine iff_of_false hopen fun hnone => (h.open_of_tag tag htag).1 ?_
    refine List.eq_nil_iff_forall_not_mem.2 fun name hname => ?_
    simpa [hnone] using (hnames name).1 hname

theorem Tracks.not_answered (h : Tracks b log) (hbegan : Began log tag participants since)
    (hname : name ∈ missing participants (reporters since)) : ¬ Answered since tag := by
  rw [h.answered_iff hbegan]
  exact Finset.ne_empty_of_mem hname

theorem Tracks.isPending_iff (h : Tracks b log) : b.isPending ↔ Pends log := by
  constructor
  · intro hpending
    cases b with
    | idle => cases hpending
    | pending tag waiting =>
      obtain ⟨-, participants, since, hbegan⟩ := h.open_of_tag tag rfl
      exact ⟨tag, participants, since, hbegan⟩
  · rintro ⟨tag, participants, since, hbegan, hanswered⟩
    obtain ⟨waiting, rfl, -⟩ := h.eq_pending hbegan hanswered
    rfl

theorem length_eq_card {names : List String} {s : Finset String} (hnames : names.Nodup)
    (h : ∀ name, name ∈ names ↔ name ∈ s) : names.length = s.card := by
  have hsame : names.toFinset = s := by
    ext name
    rw [List.mem_toFinset, h name]
  rw [← hsame, List.toFinset_card_of_nodup hnames]

/-- A report of someone who is missing tells how many are missing then, or that nobody is. -/
theorem Tracks.complete_of_mem (h : Tracks b log) (hbegan : Began log tag participants since)
    (hname : name ∈ missing participants (reporters since)) :
    (missing participants (reporters since ++ [name]) = ∅ ∧ (b.complete name).2 = .done tag) ∨
      (0 < (missing participants (reporters since ++ [name])).card ∧ (b.complete name).2 =
        .waiting (missing participants (reporters since ++ [name])).card) := by
  obtain ⟨waiting, rfl, hnames⟩ := h.eq_pending hbegan (h.not_answered hbegan hname)
  have hleft : (waiting.erase name).length =
      (missing participants (reporters since ++ [name])).card := by
    refine length_eq_card (h.nodup.erase name) fun other => ?_
    rw [missing_append_singleton, Finset.mem_erase, ← hnames other]
    exact h.nodup.mem_erase_iff
  rcases (pending tag waiting).complete_spec name with
    ⟨hnot, -⟩ | ⟨t, names, heq, -, ⟨he, hb⟩ | ⟨he, hb⟩⟩
  · exact absurd ((hnames name).2 hname) hnot
  · cases heq
    rw [he, List.length_nil] at hleft
    exact .inl ⟨Finset.card_eq_zero.1 hleft.symm, by rw [hb]⟩
  · cases heq
    rw [hb, ← hleft]
    exact .inr ⟨List.length_pos_of_ne_nil he, rfl⟩

/-- A report of anybody else is of no account. -/
theorem Tracks.complete_of_not_mem (h : Tracks b log)
    (hname : ∀ tag participants since, Began log tag participants since →
      name ∉ missing participants (reporters since)) : b.complete name = (b, .ignored) := by
  rcases b.complete_spec name with ⟨-, hb⟩ | ⟨tag, waiting, rfl, hmem, -⟩
  · exact hb
  · obtain ⟨-, participants, since, hbegan, hanswered⟩ := h.open_of_tag tag rfl
    obtain ⟨names, heq, hnames⟩ := h.eq_pending hbegan hanswered
    cases heq
    exact absurd ((hnames name).1 hmem) (hname tag participants since hbegan)

/-- Either a participant is missing whose report this is, or none is. -/
theorem missing_or_not (log : Log τ) (name : String) :
    (∃ tag participants since, Began log tag participants since ∧
        name ∈ missing participants (reporters since)) ∨
      ∀ tag participants since, Began log tag participants since →
        name ∉ missing participants (reporters since) := by
  by_cases hname : ∃ tag participants since, Began log tag participants since ∧
      name ∈ missing participants (reporters since)
  · exact .inl hname
  · refine .inr fun tag participants since hbegan hmem => ?_
    exact hname ⟨tag, participants, since, hbegan, hmem⟩

theorem Tracks.done_iff (h : Tracks b log) : (b.complete name).2 = .done tag ↔
    ∃ participants since, Began log tag participants since ∧
      missing participants (reporters since) ≠ ∅ ∧
      missing participants (reporters since ++ [name]) = ∅ := by
  constructor
  · intro hdone
    rcases missing_or_not log name with ⟨t, names, since, hbegan, hname⟩ | hnone
    · rcases h.complete_of_mem hbegan hname with ⟨hempty, hb⟩ | ⟨-, hb⟩
      · cases hdone.symm.trans hb
        exact ⟨names, since, hbegan, Finset.ne_empty_of_mem hname, hempty⟩
      · cases hdone.symm.trans hb
    · rw [h.complete_of_not_mem hnone] at hdone
      cases hdone
  · rintro ⟨names, since, hbegan, hopen, hempty⟩
    have hname : name ∈ missing names (reporters since) := by
      by_contra hnot
      rw [missing_append_singleton, Finset.erase_eq_of_notMem hnot] at hempty
      exact hopen hempty
    rcases h.complete_of_mem hbegan hname with ⟨-, hb⟩ | ⟨hpos, -⟩
    · exact hb
    · exact absurd hempty (Finset.card_pos.1 hpos).ne_empty

theorem Tracks.waiting_iff (h : Tracks b log) {n : Nat} : (b.complete name).2 = .waiting n ↔
    ∃ tag participants since, Began log tag participants since ∧
      name ∈ missing participants (reporters since) ∧
      n = (missing participants (reporters since ++ [name])).card ∧ 0 < n := by
  constructor
  · intro hwaiting
    rcases missing_or_not log name with ⟨tag, names, since, hbegan, hname⟩ | hnone
    · rcases h.complete_of_mem hbegan hname with ⟨-, hb⟩ | ⟨hpos, hb⟩
      · cases hwaiting.symm.trans hb
      · cases hwaiting.symm.trans hb
        exact ⟨tag, names, since, hbegan, hname, rfl, hpos⟩
    · rw [h.complete_of_not_mem hnone] at hwaiting
      cases hwaiting
  · rintro ⟨tag, names, since, hbegan, hname, rfl, hpos⟩
    rcases h.complete_of_mem hbegan hname with ⟨hempty, -⟩ | ⟨-, hb⟩
    · exact absurd hempty (Finset.card_pos.1 hpos).ne_empty
    · exact hb

theorem Tracks.ignored_iff (h : Tracks b log) : (b.complete name).2 = .ignored ↔
    ∀ tag participants since, Began log tag participants since →
      name ∉ missing participants (reporters since) := by
  constructor
  · intro hignored tag names since hbegan hname
    rcases h.complete_of_mem hbegan hname with ⟨-, hb⟩ | ⟨-, hb⟩
    · cases hignored.symm.trans hb
    · cases hignored.symm.trans hb
  · intro hnone
    rw [h.complete_of_not_mem hnone]

/-- A request is refused, complete at once or begun. -/
theorem Tracks.begin_spec (h : Tracks b log) (tag : τ) (participants : List String) :
    (Pends log ∧ b.begin tag participants = (b, .rejected tag)) ∨
      (¬ Pends log ∧ participants = [] ∧ b.begin tag participants = (b, .immediate tag)) ∨
      (¬ Pends log ∧ participants ≠ [] ∧ (b.begin tag participants).2 = .started) := by
  rw [← h.isPending_iff]
  rcases b.begin_cases tag participants with ⟨t, names, rfl, he⟩ | ⟨rfl, hp, he⟩ | ⟨rfl, hp, he⟩
  · exact .inl ⟨rfl, he⟩
  · exact .inr (.inl ⟨Bool.false_ne_true, hp, he⟩)
  · exact .inr (.inr ⟨Bool.false_ne_true, hp, by rw [he]⟩)

theorem Tracks.begin_answers (h : Tracks b log) (tag : τ) (participants : List String) :
    ((b.begin tag participants).2 = .rejected tag ↔ Pends log) ∧
      ((b.begin tag participants).2 = .immediate tag ↔ ¬ Pends log ∧ participants = []) ∧
      ((b.begin tag participants).2 = .started ↔ ¬ Pends log ∧ participants ≠ []) ∧
      ((b.begin tag participants).2 ≠ .started → (b.begin tag participants).1 = b) := by
  rcases h.begin_spec tag participants with ⟨hb, he⟩ | ⟨hb, hp, he⟩ | ⟨hb, hp, he⟩
  · rw [he]
    simp [hb]
  · rw [he]
    simp [hb, hp]
  · rw [he]
    simp [hb, hp]

/-- A request without an answer is one and the same wherever it is found in the log. -/
theorem Tracks.eq_of_open (h : Tracks b log) {tag' : τ} {participants' : List String}
    {since' : Log τ} (hbegan : Began log tag participants since) (hopen : ¬ Answered since tag)
    (hbegan' : Began log tag' participants' since') (hopen' : ¬ Answered since' tag') :
    since = since' ∧ tag = tag' ∧ participants = participants' := by
  obtain rfl := h.single _ _ _ hbegan hopen _ _ _ hbegan' hopen'
  obtain ⟨before, rfl⟩ := hbegan
  obtain ⟨before', heq⟩ := hbegan'
  cases (List.append_inj' heq rfl).2
  exact ⟨rfl, rfl, rfl⟩

/-- The barrier waits for those who are missing of a request without an answer. -/
theorem Tracks.waits (h : Tracks b log) (hbegan : Began log tag participants since)
    (hopen : ¬ Answered since tag) :
    b.remaining = (missing participants (reporters since)).card ∧
      ∀ name, b.isWaitingFor name ↔ name ∈ missing participants (reporters since) := by
  obtain ⟨waiting, rfl, hnames⟩ := h.eq_pending hbegan hopen
  exact ⟨length_eq_card h.nodup hnames, fun name => decide_eq_true_iff.trans (hnames name)⟩

theorem Tracks.rests (h : Tracks b log) (hrests : ¬ Pends log) :
    b.remaining = 0 ∧ ∀ name, ¬ b.isWaitingFor name := by
  rw [← h.isPending_iff] at hrests
  cases b with
  | idle => exact ⟨rfl, fun name => by simp [isWaitingFor, waiting]⟩
  | pending tag waiting => exact absurd rfl hrests

end Answers

/-- A barrier answers what follows from the log of its calls. -/
structure Lawful (b : Barrier τ) (log : Log τ) : Prop where
  /-- A request is refused if and only if another one has not been answered. -/
  rejected_iff : ∀ tag participants, (b.begin tag participants).2 = .rejected tag ↔ Pends log
  immediate_iff : ∀ tag participants,
    (b.begin tag participants).2 = .immediate tag ↔ ¬ Pends log ∧ participants = []
  started_iff : ∀ tag participants,
    (b.begin tag participants).2 = .started ↔ ¬ Pends log ∧ participants ≠ []
  unbegun : ∀ tag participants, (b.begin tag participants).2 ≠ .started →
    (b.begin tag participants).1 = b
  /-- A request has been answered if and only if all of its participants have reported since. -/
  answered_iff : ∀ tag participants since, Began log tag participants since →
    (Answered since tag ↔ missing participants (reporters since) = ∅)
  /-- At most one request at a time has not been answered. -/
  single : ∀ tag participants since, Began log tag participants since → ¬ Answered since tag →
    ∀ tag' participants' since', Began log tag' participants' since' → ¬ Answered since' tag' →
      since = since' ∧ tag = tag' ∧ participants = participants'
  /-- It is answered to the first report with which they all have. -/
  done_iff : ∀ name tag, (b.complete name).2 = .done tag ↔
    ∃ participants since, Began log tag participants since ∧
      missing participants (reporters since) ≠ ∅ ∧
      missing participants (reporters since ++ [name]) = ∅
  /-- The other first reports of participants are told how many are missing. -/
  waiting_iff : ∀ name n, (b.complete name).2 = .waiting n ↔
    ∃ tag participants since, Began log tag participants since ∧
      name ∈ missing participants (reporters since) ∧
      n = (missing participants (reporters since ++ [name])).card ∧ 0 < n
  ignored_iff : ∀ name, (b.complete name).2 = .ignored ↔
    ∀ tag participants since, Began log tag participants since →
      name ∉ missing participants (reporters since)
  ignored : ∀ name, (b.complete name).2 = .ignored → (b.complete name).1 = b
  /-- The barrier waits for those who are missing of a request without an answer. -/
  waits : ∀ tag participants since, Began log tag participants since → ¬ Answered since tag →
    b.remaining = (missing participants (reporters since)).card ∧
      ∀ name, b.isWaitingFor name ↔ name ∈ missing participants (reporters since)
  rests : ¬ Pends log → b.remaining = 0 ∧ ∀ name, ¬ b.isWaitingFor name

/-- Whatever is called of a barrier that was idle, its answers follow from the calls before. -/
theorem lawful_afterAll (calls : List (Call τ)) :
    Lawful (({} : Course τ).afterAll calls).barrier (({} : Course τ).afterAll calls).log := by
  have h := tracks_afterAll calls
  generalize (({} : Course τ).afterAll calls).barrier = b at h ⊢
  generalize (({} : Course τ).afterAll calls).log = log at h ⊢
  exact {
    rejected_iff := fun tag participants => (h.begin_answers tag participants).1
    immediate_iff := fun tag participants => (h.begin_answers tag participants).2.1
    started_iff := fun tag participants => (h.begin_answers tag participants).2.2.1
    unbegun := fun tag participants => (h.begin_answers tag participants).2.2.2
    answered_iff := fun _ _ _ hbegan => h.answered_iff hbegan
    single := fun _ _ _ hbegan hopen _ _ _ hbegan' hopen' =>
      h.eq_of_open hbegan hopen hbegan' hopen'
    done_iff := fun _ _ => h.done_iff
    waiting_iff := fun _ _ => h.waiting_iff
    ignored_iff := fun _ => h.ignored_iff
    ignored := fun name hignored => by rw [h.complete_of_not_mem (h.ignored_iff.1 hignored)]
    waits := fun _ _ _ hbegan hopen => h.waits hbegan hopen
    rests := h.rests }

end Barrier

end Mediatheque
