import Bendable.Proofs.Score.RoundTrip

/-!
# What a short text says

The short text of a score leaves out its zeros, a group that holds nothing else, and an init score
of zero; if nothing is left it is a single zero. What it shows it shows unmistakably: the first
bracket ends the init score, the next one ends the levels of a group, and the label behind it says
which group it was. So two scores have one short text exactly if they are the same up to zeros.

## Main definitions

* `Score.nonzero levels`: the levels that are not zero
* `Score.shownGroups s`: the groups that a short text shows, with the levels that it shows of them
* `Score.shortStart s`: what a short text shows in front of its groups

## Main results

* `Score.short_eq`: the short text, part by part
* `Score.shownText_append_inj`: a group can be told from whatever follows it
* `Score.slashed_groups_inj`: the text of several groups belongs to these groups only
* `Score.short_eq_short_iff`: scores with one short text are the same up to zeros
-/

namespace Bendable.Score

/-! ## What is shown -/

/-- The levels that are not zero. -/
def nonzero (levels : List Level) : List Level := levels.filter (· ≠ 0)

/-- **The groups that a short text shows**, with the levels that it shows of them. -/
def shownGroups (s : Score) : List (Group × List Level) :=
  [Group.hard, Group.soft].filterMap fun g =>
    if nonzero (s.group g) = [] then none else some (g, nonzero (s.group g))

/-- The text of a group that is shown. -/
def shownText (g : Group × List Level) : List Char := groupText g.1 g.2

/-- What a short text shows in front of its groups: the init score, or the zero that stands for a
score of zeros. -/
def shortStart (s : Score) : List Char :=
  if s.init = 0 ∧ shownGroups s = [] then ['0'] else initText s.init

theorem shortGroup?_eq (group : Group) (levels : List Level) :
    shortGroup? group levels =
      if nonzero levels = [] then none else some (groupText group (nonzero levels)) := by
  unfold shortGroup? nonzero
  split
  · rename_i h
    rw [if_pos h]
  · rename_i h
    rw [if_neg h]

/-- **The short text, part by part.** -/
theorem short_eq (s : Score) :
    s.short = shortStart s ++ slashed ((shownGroups s).map shownText) := by
  have hgroups : ([Group.hard, Group.soft].filterMap fun g => shortGroup? g (s.group g)) =
      (shownGroups s).map shownText := by
    rw [shownGroups, List.map_filterMap]
    refine List.filterMap_congr fun g _ => ?_
    rw [shortGroup?_eq]
    split <;> rfl
  rw [short, hgroups, shortStart]
  simp only [List.map_eq_nil_iff]
  split
  · rename_i h
    rw [h.2]
    rfl
  · rfl

theorem mem_shownGroups_iff {s : Score} {g : Group} {as : List Level} :
    (g, as) ∈ shownGroups s ↔ nonzero (s.group g) = as ∧ as ≠ [] := by
  have hg : g ∈ [Group.hard, Group.soft] := by cases g <;> simp
  rw [shownGroups, List.mem_filterMap]
  constructor
  · rintro ⟨g', -, h⟩
    split at h
    · cases h
    · rename_i hne
      cases h
      exact ⟨rfl, hne⟩
  · rintro ⟨rfl, hne⟩
    exact ⟨g, hg, if_neg hne⟩

/-- The groups that are shown say all of the levels that are not zero. -/
theorem shownGroups_inj {s t : Score} :
    shownGroups s = shownGroups t ↔ ∀ g, nonzero (s.group g) = nonzero (t.group g) := by
  constructor
  · intro h g
    by_cases hs : nonzero (s.group g) = []
    · by_cases ht : nonzero (t.group g) = []
      · rw [hs, ht]
      · -- shown of `t`, so shown of `s`
        have hm : (g, nonzero (t.group g)) ∈ shownGroups s :=
          h ▸ mem_shownGroups_iff.mpr ⟨rfl, ht⟩
        exact (mem_shownGroups_iff.mp hm).1
    · have hm : (g, nonzero (s.group g)) ∈ shownGroups t :=
        h ▸ mem_shownGroups_iff.mpr ⟨rfl, hs⟩
      exact (mem_shownGroups_iff.mp hm).1.symm
  · intro h
    simp only [shownGroups, h]

/-! ## Groups -/

/-- The levels of a group can be told from the text between its brackets. -/
theorem slashed_levelText_inj {as bs : List Level}
    (h : slashed (as.map levelText) = slashed (bs.map levelText)) : as = bs := by
  have hp := congrArg pieces h
  rw [(pieces_slashed_levelText as).1, (pieces_slashed_levelText bs).1] at hp
  exact List.map_injective_iff.mpr (fun _ _ => levelText_inj.mp) hp

/-- **A group can be told from whatever follows it**: its levels end at the first bracket, and the
labels have one length. -/
theorem shownText_append_inj {g g' : Group × List Level} {rest rest' : List Char}
    (h : shownText g ++ rest = shownText g' ++ rest') : g = g' ∧ rest = rest' := by
  obtain ⟨group, as⟩ := g
  obtain ⟨group', bs⟩ := g'
  simp only [shownText, groupText, List.cons_append, List.append_assoc, List.cons.injEq,
    true_and] at h
  obtain ⟨hbody, htail⟩ := Separated.append_cons_inj (pieces_slashed_levelText as).2
    (pieces_slashed_levelText bs).2 h
  obtain rfl : as = bs := slashed_levelText_inj hbody
  -- Behind the bracket stands one of two labels, each of four letters.
  cases group <;> cases group'
  · exact ⟨rfl, List.append_cancel_left htail⟩
  · cases htail
  · cases htail
  · exact ⟨rfl, List.append_cancel_left htail⟩

theorem slashed_groups_cons_ne_nil (g : Group × List Level) (gs : List (Group × List Level)) :
    slashed ((g :: gs).map shownText) ≠ [] := by
  obtain ⟨tail, h, -⟩ := slashed_cons_append (shownText g) (gs.map shownText)
  rw [List.map_cons, h]
  exact List.cons_ne_nil _ _

/-- **The text of several groups belongs to these groups only.** -/
theorem slashed_groups_inj {gs hs : List (Group × List Level)}
    (h : slashed (gs.map shownText) = slashed (hs.map shownText)) : gs = hs := by
  -- Induction on the groups: the first is told from what follows, and so are the others.
  induction gs generalizing hs with
  | nil =>
    cases hs with
    | nil => rfl
    | cons g' hs => exact absurd h.symm (slashed_groups_cons_ne_nil g' hs)
  | cons g gs ih =>
    cases hs with
    | nil => exact absurd h (slashed_groups_cons_ne_nil g gs)
    | cons g' hs =>
      obtain ⟨tail, hg, hgs⟩ := slashed_cons_append (shownText g) (gs.map shownText)
      obtain ⟨tail', hg', hhs⟩ := slashed_cons_append (shownText g') (hs.map shownText)
      rw [List.map_cons, List.map_cons, hg, hg'] at h
      obtain ⟨rfl, rfl⟩ := shownText_append_inj h
      rw [ih (hgs.trans hhs.symm)]

/-! ## The start -/

theorem initText_inj {a b : Level} : initText a = initText b ↔ a = b := by
  refine ⟨fun h => ?_, congrArg initText⟩
  unfold initText at h
  split at h <;> split at h
  · rename_i ha hb
    rw [ha, hb]
  · exact absurd h (by simp [initLabel])
  · exact absurd h (by simp [initLabel])
  · exact levelText_inj.mp (List.append_cancel_right h)

/-- An init score is not shown as a zero. -/
theorem initText_ne_zero (a : Level) : initText a ≠ ['0'] := by
  unfold initText
  split
  · simp
  · intro h
    exact absurd (congrArg List.getLast? h) (by simp [initLabel])

/-- The start of a short text holds no bracket. -/
theorem not_mem_shortStart (s : Score) : '[' ∉ shortStart s := by
  have hlevel : '[' ∉ levelText s.init := (readable_levelText s.init).1.not_mem.1
  unfold shortStart initText
  split
  · simp
  · split
    · simp
    · simp [hlevel, initLabel]

/-- The groups of a short text start with a bracket, if there are any. -/
theorem slashed_groups_takeWhile (gs : List (Group × List Level)) :
    (slashed (gs.map shownText)).takeWhile (· ≠ '[') = [] := by
  cases gs with
  | nil => rfl
  | cons g gs =>
    obtain ⟨tail, h, -⟩ := slashed_cons_append (shownText g) (gs.map shownText)
    rw [List.map_cons, h]
    rfl

/-- **The start of a short text is what stands before the first bracket.** -/
theorem takeWhile_short (s : Score) : s.short.takeWhile (· ≠ '[') = shortStart s := by
  have hstart : ∀ c ∈ shortStart s, decide (c ≠ '[') = true := by
    intro c hc
    refine decide_eq_true ?_
    rintro rfl
    exact not_mem_shortStart s hc
  rw [short_eq, List.takeWhile_append_of_pos hstart, slashed_groups_takeWhile, List.append_nil]

/-! ## The whole text -/

/-- **A short text says what it shows**: the init score and the groups. -/
theorem short_inj {s t : Score} :
    s.short = t.short ↔ s.init = t.init ∧ shownGroups s = shownGroups t := by
  constructor
  · intro h
    have hstart : shortStart s = shortStart t := by
      rw [← takeWhile_short s, ← takeWhile_short t, h]
    have hgroups : shownGroups s = shownGroups t := by
      rw [short_eq, short_eq, hstart] at h
      exact slashed_groups_inj (List.append_cancel_left h)
    refine ⟨?_, hgroups⟩
    -- A single zero is the start of no other score.
    unfold shortStart at hstart
    split at hstart <;> split at hstart
    · rename_i hs ht
      rw [hs.1, ht.1]
    · exact absurd hstart.symm (initText_ne_zero t.init)
    · exact absurd hstart (initText_ne_zero s.init)
    · exact initText_inj.mp hstart
  · rintro ⟨hinit, hgroups⟩
    rw [short_eq, short_eq, shortStart, shortStart, hinit, hgroups]

/-- **Scores with one short text are the same up to zeros**: they have the same init score, and the
same hard and soft levels other than zero, in the same order. A single zero is the short text of the
scores of zeros. -/
theorem short_eq_short_iff (s t : Score) :
    (s.short = t.short ↔ s.init = t.init ∧
        s.hard.filter (· ≠ 0) = t.hard.filter (· ≠ 0) ∧
        s.soft.filter (· ≠ 0) = t.soft.filter (· ≠ 0)) ∧
      (s.short = ['0'] ↔ s.init = 0 ∧ ∀ level ∈ s.levels, level = 0) := by
  have hiff : ∀ t : Score, s.short = t.short ↔ s.init = t.init ∧
      nonzero s.hard = nonzero t.hard ∧ nonzero s.soft = nonzero t.soft := by
    intro t
    rw [short_inj, shownGroups_inj]
    refine and_congr_right fun _ => ⟨fun h => ⟨h .hard, h .soft⟩, ?_⟩
    rintro ⟨hh, hs⟩ (_ | _)
    · exact hh
    · exact hs
  refine ⟨hiff t, ?_⟩
  -- The score without levels is one of the scores of zeros.
  have hzero : ∀ levels : List Level, nonzero levels = [] ↔ ∀ level ∈ levels, level = 0 := by
    intro levels
    simp [nonzero, List.filter_eq_nil_iff]
  refine (hiff (zero 0 0)).trans (and_congr_right fun _ => ?_)
  change nonzero s.hard = [] ∧ nonzero s.soft = [] ↔ _
  rw [hzero, hzero, levels, List.forall_mem_append]

end Bendable.Score
