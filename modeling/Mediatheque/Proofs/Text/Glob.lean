import Mediatheque.Text.Glob

/-!
# What a glob pattern matches

A pattern matches a text that can be cut up for its tokens (`Matches`): one character for most of
them, any run for `*`, and for `**` a run of whole components. The matcher tries the runs from the
shortest on and gives up as soon as the text ends too early, since what follows a longer run is
shorter still. Behind `**` only the rests at the starts of components are tried (`Below`), so that
this is sound as long as `**` stands at the start of a component itself (`Placed`). The patterns
that texts write are such (`placed_of_ofChars?`), and for them the matcher is right
(`matchesText_iff`).
-/

namespace Mediatheque

namespace Glob

/-! ## Patterns and texts -/

/-- A character that a token for one character stands for. -/
def Token.Admits (c : Char) : Token → Prop
  | char a => c = a
  | anyChar => True
  | within sets => ∃ set ∈ sets, set.contains c = true
  | except sets => ∀ set ∈ sets, set.contains c = false
  | anySequence | anyComponents => False

/-- What is left of a text behind a run of whole components, or behind all of it. -/
def AtComponent (s t : List Char) : Prop := t = s ∨ t = [] ∨ ∃ run, s = run ++ '/' :: t

/-- A text is made up of what the tokens of a pattern stand for. -/
inductive Matches : List Token → List Char → Prop where
  | nil : Matches [] []
  | one {token : Token} {p : List Token} {c : Char} {s : List Char} (hc : token.Admits c)
      (h : Matches p s) : Matches (token :: p) (c :: s)
  | run {p : List Token} {s t : List Char} (ht : t <:+ s) (h : Matches p t) :
    Matches (.anySequence :: p) s
  | components {p : List Token} {s t : List Char} (ht : AtComponent s t) (h : Matches p t) :
    Matches (.anyComponents :: p) s

variable {p : List Token} {s t u : List Char}

theorem matches_nil_iff : Matches [] s ↔ s = [] := by
  constructor
  · rintro ⟨⟩
    rfl
  · rintro rfl
    exact .nil

theorem matches_one_iff {token : Token} (hrun : token ≠ .anySequence)
    (hcomponents : token ≠ .anyComponents) :
    Matches (token :: p) s ↔ ∃ c t, s = c :: t ∧ token.Admits c ∧ Matches p t := by
  constructor
  · intro h
    cases h with
    | one hc h => exact ⟨_, _, rfl, hc, h⟩
    | run ht h => exact absurd rfl hrun
    | components ht h => exact absurd rfl hcomponents
  · rintro ⟨c, t, rfl, hc, h⟩
    exact .one hc h

theorem matches_run_iff : Matches (.anySequence :: p) s ↔ ∃ t, t <:+ s ∧ Matches p t := by
  constructor
  · intro h
    cases h with
    | one hc h => exact hc.elim
    | run ht h => exact ⟨_, ht, h⟩
  · rintro ⟨t, ht, h⟩
    exact .run ht h

theorem matches_components_iff :
    Matches (.anyComponents :: p) s ↔ ∃ t, AtComponent s t ∧ Matches p t := by
  constructor
  · intro h
    cases h with
    | one hc h => exact hc.elim
    | components ht h => exact ⟨_, ht, h⟩
  · rintro ⟨t, ht, h⟩
    exact .components ht h

theorem AtComponent.refl (s : List Char) : AtComponent s s := .inl rfl

theorem AtComponent.trans (hst : AtComponent s t) (htu : AtComponent t u) : AtComponent s u := by
  rcases htu with rfl | rfl | ⟨run, rfl⟩
  · exact hst
  · exact .inr (.inl rfl)
  · rcases hst with rfl | hnil | ⟨front, rfl⟩
    · exact .inr (.inr ⟨run, rfl⟩)
    · exact absurd hnil (by simp)
    · exact .inr (.inr ⟨front ++ '/' :: run, by simp⟩)

theorem AtComponent.isSuffix (h : AtComponent s t) : t <:+ s := by
  rcases h with rfl | rfl | ⟨run, rfl⟩
  · exact List.suffix_rfl
  · exact List.nil_suffix
  · exact (List.suffix_cons '/' t).trans (List.suffix_append run _)

/-! ## The matcher -/

/-- The rests of a text that an end of the text rules out: all of them, or those at the starts of
components alone. -/
def Below (atStart : Bool) (s t : List Char) : Prop :=
  if atStart then AtComponent s t else t <:+ s

/-- A matcher is right about what matches, and when a text ends too early none of the rests below
it matches. -/
structure Decides (atStart : Bool) (next : List Char → Outcome) (m : List Char → Prop) :
    Prop where
  matched : ∀ s, next s = .matched ↔ m s
  exhausted : ∀ s t, next s = .exhausted → Below atStart s t → ¬ m t

variable {atStart : Bool} {next : List Char → Outcome} {m : List Char → Prop}

theorem Decides.weaken (h : Decides false next m) : Decides atStart next m := by
  refine ⟨h.matched, fun s t hs ht => h.exhausted s t hs ?_⟩
  cases atStart with
  | false => exact ht
  | true => exact AtComponent.isSuffix ht

theorem Decides.congr (h : Decides atStart next m) {m' : List Char → Prop}
    (hm : ∀ s, m' s ↔ m s) : Decides atStart next m' :=
  ⟨fun s => (h.matched s).trans (hm s).symm,
    fun s t hs ht hmt => h.exhausted s t hs ht ((hm t).1 hmt)⟩

theorem Decides.not_of_mismatched (h : Decides atStart next m) (hs : next s = .mismatched) :
    ¬ m s := by
  rw [← h.matched, hs]
  exact Outcome.noConfusion

/-- One character. Rests at the starts of components will do if it is a slash. -/
theorem Decides.one (h : Decides atStart next m) {test : Char → Bool}
    (htest : atStart = true → ∀ c, test c = true → c = '/') :
    Decides false (matchOne test next) fun s => ∃ c t, s = c :: t ∧ test c = true ∧ m t := by
  constructor
  · intro s
    cases s with
    | nil => simp [matchOne]
    | cons c r =>
      rw [matchOne]
      cases hc : test c with
      | false => simp [hc]
      | true =>
        refine (h.matched r).trans ⟨fun hm => ⟨c, r, rfl, hc, hm⟩, ?_⟩
        rintro ⟨c', t, heq, -, hm⟩
        rw [(List.cons.inj heq).2]
        exact hm
  · rintro s t hs ht ⟨c, u, rfl, hc, hu⟩
    cases s with
    | nil => cases List.suffix_nil.1 ht
    | cons c' r =>
      rw [matchOne] at hs
      split at hs
      · refine h.exhausted r u hs ?_ hu
        cases atStart with
        | false =>
          rcases List.suffix_cons_iff.1 ht with heq | hsuffix
          · rw [(List.cons.inj heq).2]
            exact List.suffix_rfl
          · exact (List.suffix_cons c u).trans hsuffix
        | true =>
          obtain rfl := htest rfl c hc
          rcases List.suffix_cons_iff.1 ht with heq | ⟨run, hrun⟩
          · exact .inl (List.cons.inj heq).2
          · exact .inr (.inr ⟨run, hrun.symm⟩)
      · cases hs

theorem matchRun_eq_matched_iff (h : Decides false next m) :
    matchRun next s = .matched ↔ ∃ t, t <:+ s ∧ m t := by
  induction s with
  | nil =>
    rw [matchRun, h.matched]
    simp
  | cons c r ih =>
    rw [matchRun]
    cases hs : next (c :: r) with
    | matched => exact iff_of_true rfl ⟨c :: r, List.suffix_rfl, (h.matched _).1 hs⟩
    | exhausted =>
      refine iff_of_false Outcome.noConfusion ?_
      rintro ⟨t, ht, hm⟩
      exact h.exhausted _ t hs ht hm
    | mismatched =>
      refine ih.trans ⟨fun ⟨t, ht, hm⟩ => ⟨t, ht.trans (List.suffix_cons c r), hm⟩, ?_⟩
      rintro ⟨t, ht, hm⟩
      rcases List.suffix_cons_iff.1 ht with rfl | hsuffix
      · exact absurd hm (h.not_of_mismatched hs)
      · exact ⟨t, hsuffix, hm⟩

theorem Decides.run (h : Decides false next m) :
    Decides false (matchRun next) fun s => ∃ t, t <:+ s ∧ m t := by
  refine ⟨fun s => matchRun_eq_matched_iff h, ?_⟩
  rintro s t hs ht ⟨u, hu, hm⟩
  rw [(matchRun_eq_matched_iff h).2 ⟨u, hu.trans ht, hm⟩] at hs
  cases hs

theorem matchAfterSeparators_eq_matched_iff (h : Decides true next m) :
    matchAfterSeparators next s = .matched ↔ m [] ∨ ∃ run t, s = run ++ '/' :: t ∧ m t := by
  induction s with
  | nil =>
    rw [matchAfterSeparators, h.matched]
    simp
  | cons c r ih =>
    -- Either the first character is the slash in question or it stands before it.
    have hcons : (∃ run t, c :: r = run ++ '/' :: t ∧ m t) ↔
        (c = '/' ∧ m r) ∨ ∃ run t, r = run ++ '/' :: t ∧ m t := by
      constructor
      · rintro ⟨run, t, heq, hm⟩
        cases run with
        | nil =>
          obtain ⟨rfl, rfl⟩ := List.cons.inj heq
          exact .inl ⟨rfl, hm⟩
        | cons c' run => exact .inr ⟨run, t, (List.cons.inj heq).2, hm⟩
      · rintro (⟨rfl, hm⟩ | ⟨run, t, rfl, hm⟩)
        · exact ⟨[], r, rfl, hm⟩
        · exact ⟨c :: run, t, rfl, hm⟩
    rw [matchAfterSeparators, hcons]
    split
    · rename_i hc
      cases hr : next r with
      | matched => exact iff_of_true rfl (.inr (.inl ⟨hc, (h.matched r).1 hr⟩))
      | exhausted =>
        refine iff_of_false Outcome.noConfusion ?_
        rintro (hm | ⟨-, hm⟩ | ⟨run, t, hrun, hm⟩)
        · exact h.exhausted r [] hr (.inr (.inl rfl)) hm
        · exact h.exhausted r r hr (.inl rfl) hm
        · exact h.exhausted r t hr (.inr (.inr ⟨run, hrun⟩)) hm
      | mismatched =>
        have hnot := h.not_of_mismatched hr
        simp [ih, hnot]
    · rename_i hc
      simp [ih, hc]

theorem Decides.components (h : Decides true next m) :
    Decides true (Token.matchThen next .anyComponents) fun s => ∃ t, AtComponent s t ∧ m t := by
  have hmatched (s : List Char) : Token.matchThen next .anyComponents s = .matched ↔
      ∃ t, AtComponent s t ∧ m t := by
    unfold Token.matchThen
    dsimp only
    cases hs : next s with
    | matched => exact iff_of_true rfl ⟨s, .refl s, (h.matched s).1 hs⟩
    | exhausted =>
      refine iff_of_false Outcome.noConfusion ?_
      rintro ⟨t, ht, hm⟩
      exact h.exhausted s t hs ht hm
    | mismatched =>
      refine (matchAfterSeparators_eq_matched_iff h).trans ?_
      constructor
      · rintro (hm | ⟨run, t, hrun, hm⟩)
        · exact ⟨[], .inr (.inl rfl), hm⟩
        · exact ⟨t, .inr (.inr ⟨run, hrun⟩), hm⟩
      · rintro ⟨t, rfl | rfl | ⟨run, hrun⟩, hm⟩
        · exact absurd hm (h.not_of_mismatched hs)
        · exact .inl hm
        · exact .inr ⟨run, t, hrun, hm⟩
  refine ⟨hmatched, ?_⟩
  rintro s t hs ht ⟨u, hu, hm⟩
  rw [(hmatched s).2 ⟨u, AtComponent.trans ht hu, hm⟩] at hs
  cases hs

/-! ## Patterns whose components stand apart -/

/-- The runs of components of a pattern stand at its start, if that is the start of a component,
behind slashes, and behind one another. -/
def Placed : Bool → List Token → Prop
  | _, [] => True
  | atStart, .anyComponents :: p => atStart = true ∧ Placed true p
  | _, .char c :: p => Placed (c = '/') p
  | _, .anyChar :: p | _, .anySequence :: p | _, .within _ :: p | _, .except _ :: p =>
    Placed false p

theorem decides_outcome (h : Placed atStart p) : Decides atStart (outcome p) (Matches p) := by
  induction p generalizing atStart with
  | nil =>
    refine ⟨fun s => ?_, fun s t hs => ?_⟩
    · rw [matches_nil_iff, outcome, ← List.isEmpty_iff]
      cases s <;> simp
    · rw [outcome] at hs
      split at hs <;> cases hs
  | cons token p ih =>
    have hone {rest : Bool} (test : Char → Bool) (hp : Placed rest p)
        (hrest : rest = true → ∀ c, test c = true → c = '/')
        (htest : ∀ c, test c = true ↔ token.Admits c) (hrun : token ≠ .anySequence)
        (hcomponents : token ≠ .anyComponents) :
        Decides atStart (matchOne test (outcome p)) (Matches (token :: p)) := by
      refine (((ih hp).one hrest).congr fun s => ?_).weaken
      rw [matches_one_iff hrun hcomponents]
      simp only [htest]
    cases token with
    | char c =>
      refine hone (· = c) h ?_ (fun x => by simp [Token.Admits]) (by simp) (by simp)
      intro hc x hx
      rw [of_decide_eq_true hx]
      exact of_decide_eq_true hc
    | anyChar =>
      exact hone (fun _ => true) h (by simp) (fun x => by simp [Token.Admits]) (by simp)
        (by simp)
    | within sets =>
      exact hone (fun c => sets.any (·.contains c)) h (by simp)
        (fun x => by simp [Token.Admits]) (by simp) (by simp)
    | except sets =>
      exact hone (fun c => !sets.any (·.contains c)) h (by simp)
        (fun x => by simp [Token.Admits]) (by simp) (by simp)
    | anySequence =>
      exact ((ih h).run.congr fun s => matches_run_iff).weaken
    | anyComponents =>
      obtain ⟨rfl, hp⟩ := h
      exact (ih hp).components.congr fun s => matches_components_iff

/-! ## Patterns that texts write -/

/-- What has been read, in reverse, goes on to a pattern whose components stand apart. -/
def Ready (atStart : Bool) (read : List Token) : Prop :=
  ∀ p, Placed atStart p → Placed true (read.reverse ++ p)

namespace Ready

variable {read : List Token}

theorem placed (h : Ready atStart read) : Placed true read.reverse := by
  have hnil := h [] (by simp [Placed])
  rwa [List.append_nil] at hnil

theorem push {token : Token} {rest : Bool} (h : Ready atStart read)
    (htoken : ∀ p, Placed rest p → Placed atStart (token :: p)) : Ready rest (token :: read) := by
  intro p hp
  rw [List.reverse_cons, List.append_assoc]
  exact h _ (htoken p hp)

theorem pushComponents (h : Ready true read) : Ready true (pushComponents read) := by
  unfold Glob.pushComponents
  split
  · exact h
  · exact h.push fun p hp => ⟨rfl, hp⟩

end Ready

/-- Whether a component starts behind a character. -/
def startsComponent (previous : Option Char) : Bool := previous = none ∨ previous = some '/'

theorem placed_of_readTokens {fuel : Nat} {read : List Token} {previous : Option Char}
    {rest : List Char} (hread : Ready (startsComponent previous) read)
    (h : readTokens fuel read previous rest = some p) : Placed true p := by
  have hstart {previous : Option Char} (hprevious : previous = none ∨ previous = some '/')
      {read : List Token} (hread : Ready (startsComponent previous) read) : Ready true read := by
    rwa [startsComponent, decide_eq_true hprevious] at hread
  revert hread h
  refine readTokens.induct_unfolding
    (motive := fun _ read previous _ read? =>
      Ready (startsComponent previous) read → read? = some p → Placed true p)
    ?ended ?noFuel ?anyChar ?threeStars ?lastComponents ?components ?unended ?unstarted
    ?anySequence ?except ?exceptUnclosed ?exceptEmpty ?within ?withinUnclosed ?withinEmpty ?char
    fuel read previous rest
  case ended =>
    intro _ read previous hread h
    exact Option.some.inj h ▸ hread.placed
  case anyChar =>
    intro _ read previous rest ih hread h
    exact ih (hread.push fun _ hp => hp) h
  case lastComponents =>
    intro _ read previous hprevious _ hread h
    exact Option.some.inj h ▸ (hstart hprevious hread).pushComponents.placed
  case components =>
    intro _ read previous hprevious rest _ ih hread h
    exact ih (hstart hprevious hread).pushComponents h
  case anySequence =>
    intro _ read previous rest _ _ ih hread h
    exact ih (hread.push fun _ hp => hp) h
  case except =>
    intro _ read previous a rest set behind _ ih hread h
    exact ih (hread.push fun _ hp => hp) h
  case within =>
    intro _ read previous a rest _ _ set behind _ ih hread h
    exact ih (hread.push fun _ hp => hp) h
  case char =>
    intro _ read previous c rest _ _ _ _ _ _ _ _ ih hread h
    refine ih (hread.push fun p hp => ?_) h
    simpa [startsComponent, Placed] using hp
  -- Elsewhere nothing is read.
  all_goals
    intros
    contradiction

theorem placed_of_ofChars? {pattern : List Char} (h : ofChars? pattern = some p) :
    Placed true p := by
  have hnil : Ready (startsComponent none) [] := fun _ hp => hp
  exact placed_of_readTokens hnil h

/-- The matcher is right for every pattern that a text writes. -/
theorem matchesText_iff {pattern : List Char} (h : ofChars? pattern = some p) (text : List Char) :
    matchesText p text = true ↔ Matches p text := by
  rw [matchesText, decide_eq_true_eq]
  exact (decides_outcome (placed_of_ofChars? h)).matched text

/-- Behind `*` a run of components would be given up too early. -/
example : outcome [.anySequence, .anyComponents, .char 'a', .char 'b', .char '/', .char 'a']
    "xab/a".toList = .exhausted := by decide

end Glob

end Mediatheque
