import Mathlib.Data.List.Induction
import Mediatheque.Media.Acceptance
import Mediatheque.Proofs.Text.Glob

/-!
# What a container has come to accept

A container is marked editable, is told patterns of classes, and is cleared, in any order
(`Permission`, `permitAll`). What it accepts then goes by what has been done since it was cleared
last (`Since`): one change is forgotten with the next clearing and with nothing else
(`since_append_singleton`), so that the mark and the list of patterns are those that have been set
since (`remembers_permitAll`). In which order, and how often, does not matter
(`accepts_permitAll`).
-/

namespace Mediatheque

/-- A pattern names a class: it matches the name, or is that very text if it is no pattern. -/
def Names (pattern name : String) : Prop :=
  (∃ tokens, Glob.ofChars? pattern.toList = some tokens ∧ Glob.Matches tokens name.toList) ∨
    (Glob.ofChars? pattern.toList = none ∧ pattern = name)

theorem patternNamesClass_iff {pattern name : String} :
    patternNamesClass pattern name = true ↔ Names pattern name := by
  rw [patternNamesClass, Names]
  cases htokens : Glob.ofChars? pattern.toList with
  | some tokens => simp [Glob.matchesText_iff htokens]
  | none => simp

namespace Container

/-! ## Changes -/

/-- A change of what a container accepts. -/
inductive Permission where
  | setEditable
  | allow (pattern : String)
  | clear
deriving DecidableEq

/-- The container after a change. -/
def permit (c : Container) : Permission → Container
  | .setEditable => c.setEditable
  | .allow pattern => c.allowChildClass pattern
  | .clear => c.clearEditable

/-- The container after several changes. -/
def permitAll (c : Container) (changes : List Permission) : Container := changes.foldl permit c

/-- A change is among some changes, and no clearing comes behind it. -/
def Since (changes : List Permission) (change : Permission) : Prop :=
  ∃ before after, changes = before ++ change :: after ∧ .clear ∉ after

variable {c d : Container} {changes : List Permission}

theorem permitAll_append_singleton (c : Container) (changes : List Permission)
    (change : Permission) :
    c.permitAll (changes ++ [change]) = (c.permitAll changes).permit change :=
  List.foldl_append

@[simp] theorem not_since_nil {change : Permission} : ¬ Since [] change := by
  rintro ⟨before, after, h, -⟩
  simp at h

/-- What has been done since the last clearing, if one more change is made. -/
@[simp] theorem since_append_singleton {change x : Permission} :
    Since (changes ++ [change]) x ↔ x = change ∨ (change ≠ .clear ∧ Since changes x) := by
  constructor
  · rintro ⟨before, after, h, hclear⟩
    -- Either `x` is the last change itself, or that comes behind it and clears nothing.
    rcases List.eq_nil_or_concat after with rfl | ⟨rest, last, rfl⟩
    · obtain ⟨-, hlast⟩ := List.append_inj' h rfl
      exact .inl (List.cons.inj hlast).1.symm
    · rw [List.concat_eq_append] at h hclear
      rw [← List.cons_append, ← List.append_assoc] at h
      obtain ⟨rfl, hlast⟩ := List.append_inj' h rfl
      obtain rfl := (List.cons.inj hlast).1
      rw [List.mem_append, not_or, List.mem_singleton] at hclear
      exact .inr ⟨Ne.symm hclear.2, before, rest, rfl, hclear.1⟩
  · rintro (rfl | ⟨hne, before, after, rfl, hclear⟩)
    · exact ⟨changes, [], rfl, List.not_mem_nil⟩
    · refine ⟨before, after ++ [change], by simp, ?_⟩
      rw [List.mem_append, not_or, List.mem_singleton]
      exact ⟨hclear, Ne.symm hne⟩

/-! ## What is left of them -/

/-- What a container has of the changes that it has gone through. -/
structure Remembers (c : Container) (changes : List Permission) (d : Container) : Prop where
  mediaClass : d.mediaClass = c.mediaClass
  editable : d.editable = true ↔ Since changes .setEditable
  absent : d.childClasses = none ↔ ∀ pattern, ¬ Since changes (.allow pattern)
  allowed : ∀ pattern, pattern ∈ d.childClasses.getD [] ↔ Since changes (.allow pattern)

theorem remembers_nil (hc : c.editable = false) (hnone : c.childClasses = none) :
    c.Remembers [] c where
  mediaClass := rfl
  editable := by simp [hc]
  absent := by simp [hnone]
  allowed := by simp [hnone]

theorem Remembers.permit (h : c.Remembers changes d) (change : Permission) :
    c.Remembers (changes ++ [change]) (d.permit change) := by
  cases change with
  | setEditable =>
    exact ⟨h.mediaClass, by simp [Container.permit, setEditable],
      by simp [Container.permit, setEditable, h.absent],
      by simp [Container.permit, setEditable, h.allowed]⟩
  | allow pattern =>
    refine ⟨h.mediaClass, ?_, ?_, fun p => ?_⟩
    · simp [Container.permit, allowChildClass, h.editable]
    · refine iff_of_false (by simp [Container.permit, allowChildClass]) fun hnone => ?_
      exact hnone pattern (since_append_singleton.2 (.inl rfl))
    · rw [since_append_singleton, ← h.allowed]
      simp only [Container.permit, allowChildClass, Option.getD_some]
      split
      · rename_i hmem
        simp only [Permission.allow.injEq, ne_eq, reduceCtorEq, not_false_iff, true_and]
        exact ⟨.inr, fun hp => hp.elim (fun heq => heq ▸ hmem) fun hin => hin⟩
      · simp [or_comm]
  | clear =>
    exact ⟨h.mediaClass, by simp [Container.permit, clearEditable],
      by simp [Container.permit, clearEditable],
      by simp [Container.permit, clearEditable]⟩

/-- The mark and the patterns of a container are those that have been set since it was cleared. -/
theorem remembers_permitAll (hc : c.editable = false) (hnone : c.childClasses = none)
    (changes : List Permission) : c.Remembers changes (c.permitAll changes) := by
  induction changes using List.reverseRecOn with
  | nil => exact remembers_nil hc hnone
  | append_singleton changes change ih =>
    rw [permitAll_append_singleton]
    exact ih.permit change

/-! ## What is accepted -/

theorem accepts_iff {name : String} : d.accepts name = true ↔ d.editable = true ∧
    ((name = "directory" ∧ (d.mediaClass = .rootPhotos ∨ d.mediaClass = .rootDirectories)) ∨
      (name ≠ "directory" ∧ (d.childClasses = none ∨
        ∃ pattern ∈ d.childClasses.getD [], Names pattern name))) := by
  have hname : MediaClass.directory.name = "directory" := rfl
  rw [accepts, hname]
  cases d.editable with
  | false => simp
  | true =>
    by_cases hdirectory : name = "directory"
    · simp [hdirectory]
    · cases d.childClasses <;> simp [hdirectory, patternNamesClass_iff]

/-- A container that accepts nothing at first accepts what the changes since its last clearing
allow: it has been marked editable since then, and either the class is that of directories, which
go to the folders of photos and directories alone, or it is another and no pattern has been added
since then, or one that names it. All that matters of these changes is which of them there are. -/
theorem accepts_permitAll (hc : c.editable = false) (hnone : c.childClasses = none) :
    (∀ changes name, (c.permitAll changes).accepts name = true ↔
      Since changes .setEditable ∧
        ((name = "directory" ∧ (c.mediaClass = .rootPhotos ∨ c.mediaClass = .rootDirectories)) ∨
          (name ≠ "directory" ∧ ((∀ pattern, ¬ Since changes (.allow pattern)) ∨
            ∃ pattern, Since changes (.allow pattern) ∧ Names pattern name)))) ∧
      ∀ changes others, (∀ change, change ≠ .clear → (Since changes change ↔ Since others change)) →
        ∀ name, (c.permitAll changes).accepts name = (c.permitAll others).accepts name := by
  have haccepts (changes : List Permission) (name : String) :
      (c.permitAll changes).accepts name = true ↔
        Since changes .setEditable ∧
          ((name = "directory" ∧ (c.mediaClass = .rootPhotos ∨ c.mediaClass = .rootDirectories)) ∨
            (name ≠ "directory" ∧ ((∀ pattern, ¬ Since changes (.allow pattern)) ∨
              ∃ pattern, Since changes (.allow pattern) ∧ Names pattern name))) := by
    have h := remembers_permitAll hc hnone changes
    rw [accepts_iff, h.editable, h.mediaClass, h.absent]
    simp only [h.allowed]
  refine ⟨haccepts, fun changes others hsame name => ?_⟩
  have hallow (pattern : String) := hsame (.allow pattern) (by simp)
  rw [Bool.eq_iff_iff, haccepts, haccepts, hsame .setEditable (by simp)]
  simp only [hallow]

/-- A playlist that is told of one class, is cleared, and is told of others before it is marked
editable again. -/
theorem accepts_permitAll_cleared :
    (new "/library/x" "X" .playlist).editable = false ∧
      (new "/library/x" "X" .playlist).childClasses = none ∧
      ((new "/library/x" "X" .playlist).permitAll [.setEditable, .allow "movie", .clear,
        .allow "[a", .allow "*ng", .setEditable]).accepts "song" = true := by
  refine ⟨rfl, rfl, ((accepts_permitAll rfl rfl).1 _ _).2
    ⟨?_, .inr ⟨by decide, .inr ⟨"*ng", ?_, ?_⟩⟩⟩⟩
  · exact ⟨[.setEditable, .allow "movie", .clear, .allow "[a", .allow "*ng"], [], rfl, by decide⟩
  · exact ⟨[.setEditable, .allow "movie", .clear, .allow "[a"], [.setEditable], rfl, by decide⟩
  · refine .inl ⟨[.anySequence, .char 'n', .char 'g'], by decide, ?_⟩
    exact .run (t := ['n', 'g']) ⟨['s', 'o'], by decide⟩ (.one rfl (.one rfl .nil))

end Container

end Mediatheque
