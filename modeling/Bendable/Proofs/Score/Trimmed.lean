import Bendable.Proofs.Score.Overlong
import Bendable.Proofs.Score.Short

/-!
# Reading short texts back

A short text that shows both groups is the canonical text of the score without its zeros, so the
reader gives that score back. A short text that leaves a group out is refused: every group that it
shows closes one bracket, and the reader needs two of them, one behind the hard and one behind the
soft levels. So a short text is never read as anything else than the levels that it shows.

## Main definitions

* `Score.trimmed s`: the score `s` without the zeros among its levels

## Main results

* `Score.short_eq_canonical_trimmed`: a short text with both groups is a canonical text
* `Score.readInit_short`: the reader takes the init score off a short text
* `Score.two_le_count_of_bodies`: the reader needs two brackets that close a group
* `Score.parse_short_iff_shows_both`: which short texts are read, and as which scores
-/

namespace Bendable.Score

/-- **The score without its zeros.** -/
def trimmed (s : Score) : Score := ⟨s.init, nonzero s.hard, nonzero s.soft⟩

variable {s : Score}

/-! ## Both groups -/

theorem shownGroups_of_both (hh : nonzero s.hard ≠ []) (hs : nonzero s.soft ≠ []) :
    shownGroups s = [(.hard, nonzero s.hard), (.soft, nonzero s.soft)] := by
  simp [shownGroups, group, hh, hs]

/-- **A short text with both groups** is the canonical text of the score without its zeros. -/
theorem short_eq_canonical_trimmed (hh : nonzero s.hard ≠ []) (hs : nonzero s.soft ≠ []) :
    s.short = s.trimmed.canonical := by
  have hgroups := shownGroups_of_both hh hs
  have hstart : shortStart s = initText s.init := by
    rw [shortStart, hgroups]
    exact if_neg fun h => absurd h.2 (List.cons_ne_nil _ _)
  rw [short_eq, hstart, hgroups]
  rfl

theorem nonzero_ne_nil_iff {levels : List Level} :
    nonzero levels ≠ [] ↔ ∃ level ∈ levels, level ≠ 0 := by
  simp [nonzero, List.filter_eq_nil_iff]

/-! ## Closing brackets -/

theorem count_shownText (g : Group × List Level) : (shownText g).count ']' = 1 := by
  obtain ⟨group, levels⟩ := g
  have hlevels : (slashed (levels.map levelText)).count ']' = 0 :=
    List.count_eq_zero_of_not_mem (pieces_slashed_levelText levels).2
  cases group <;> simp [shownText, groupText, Group.label, hlevels]

/-- **Every group that is shown closes one bracket.** -/
theorem count_slashed_groups (gs : List (Group × List Level)) :
    (slashed (gs.map shownText)).count ']' = gs.length := by
  -- Induction on the groups: what stands between two of them is a slash.
  induction gs with
  | nil => rfl
  | cons g gs ih =>
    by_cases hgs : gs = []
    · subst hgs
      exact count_shownText g
    · have hne : gs.map shownText ≠ [] := fun h => hgs (List.map_eq_nil_iff.mp h)
      rw [List.map_cons, slashed_cons _ hne, List.count_append, count_shownText,
        List.count_cons_of_ne (by decide), ih, List.length_cons, Nat.add_comm]

/-- **The reader needs two brackets that close a group.** -/
theorem two_le_count_of_bodies {text : List Char} {p : List Char × List Char}
    (h : bodies text = .ok p) : 2 ≤ text.count ']' := by
  obtain ⟨hard, soft⟩ := p
  rw [eq_of_bodies h]
  have hmiddle : middle.count ']' = 1 := by decide
  have hending : ending.count ']' = 1 := by decide
  simp only [List.count_cons_of_ne (show '[' ≠ ']' by decide), List.count_append, hmiddle, hending]
  omega

/-! ## The reader on a short text -/

/-- **The reader takes the init score off a short text**; only the single zero has none. -/
theorem readInit_short (h : ¬(s.init = 0 ∧ shownGroups s = [])) :
    readInit s.short = .ok (s.init, slashed ((shownGroups s).map shownText)) := by
  rw [short_eq, shortStart, if_neg h]
  cases hg : shownGroups s with
  | nil =>
    -- There is nothing behind the label.
    have hinit : s.init ≠ 0 := fun h0 => h ⟨h0, hg⟩
    rw [initText, if_neg hinit, List.append_assoc]
    exact readInit_label (readable_levelText s.init) []
  | cons g gs =>
    obtain ⟨tail, htail, -⟩ := slashed_cons_append (shownText g) (gs.map shownText)
    rw [List.map_cons, htail]
    exact readInit_append (startSpells_initText readable_levelText s.init) _

/-- **A short text that leaves a group out is refused**, and not for too many digits. -/
theorem read_short_of_missing (h : (shownGroups s).length < 2) :
    ∃ r, read s.short = .error r ∧ r ≠ .tooManyDigits := by
  by_cases hzero : s.init = 0 ∧ shownGroups s = []
  · -- the single zero
    have htext : s.short = ['0'] := by
      rw [short_eq, shortStart, if_pos hzero, hzero.2]
      rfl
    rw [htext]
    exact ⟨.segment ['0'] .missingStart, rfl, by simp⟩
  · have hinit := readInit_short hzero
    cases hb : bodies (slashed ((shownGroups s).map shownText)) with
    | ok p =>
      -- Too few brackets are closed.
      have hcount := two_le_count_of_bodies hb
      rw [count_slashed_groups] at hcount
      exact absurd hcount (Nat.not_le.mpr h)
    | error r =>
      refine ⟨r, ?_, ?_⟩
      · rw [read, hinit]
        simp only [bind, Except.bind, hb]
      · rintro rfl
        exact bodies_ne_tooManyDigits _ hb

theorem length_shownGroups_lt (h : ¬(nonzero s.hard ≠ [] ∧ nonzero s.soft ≠ [])) :
    (shownGroups s).length < 2 := by
  by_cases hh : nonzero s.hard = []
  · by_cases hs : nonzero s.soft = [] <;> simp [shownGroups, group, hh, hs]
  · have hs : nonzero s.soft = [] := by
      by_contra hs
      exact h ⟨hh, hs⟩
    simp [shownGroups, group, hh, hs]

/-! ## Parsing -/

/-- **Reading a short text back is faithful or refused.** It is parsed exactly if a hard and a soft
level are not zero, and then as the init score with the levels that are not zero. Every other short
text is refused with a parse error about it. -/
theorem parse_short_iff_shows_both (s : Score) :
    (∀ t, parse (.string (String.ofList s.short)) none none = .ok t ↔
      ((∃ level ∈ s.hard, level ≠ 0) ∧ ∃ level ∈ s.soft, level ≠ 0) ∧
        t = ⟨s.init, s.hard.filter (· ≠ 0), s.soft.filter (· ≠ 0)⟩) ∧
    (¬((∃ level ∈ s.hard, level ≠ 0) ∧ ∃ level ∈ s.soft, level ≠ 0) →
      ∃ f, parse (.string (String.ofList s.short)) none none = .error f ∧
        f.IsParseError (String.ofList s.short)) := by
  rw [← nonzero_ne_nil_iff, ← nonzero_ne_nil_iff]
  change (∀ t, _ ↔ _ ∧ t = s.trimmed) ∧ _
  by_cases hboth : nonzero s.hard ≠ [] ∧ nonzero s.soft ≠ []
  · have hparse : parse (.string (String.ofList s.short)) none none = .ok s.trimmed := by
      rw [short_eq_canonical_trimmed hboth.1 hboth.2]
      exact parse_toString_eq s.trimmed none none
    refine ⟨fun t => ?_, fun hn => absurd hboth hn⟩
    rw [hparse, Except.ok.injEq]
    constructor
    · intro ht
      exact ⟨hboth, ht.symm⟩
    · rintro ⟨-, ht⟩
      exact ht.symm
  · obtain ⟨r, hr, hne⟩ := read_short_of_missing (length_shownGroups_lt hboth)
    -- The text as a string is read like its characters.
    rw [← String.toList_ofList (l := s.short)] at hr
    have hparse := parseText_of_read_error hr none none
    refine ⟨fun t => ⟨fun ht => ?_, fun ht => absurd ht.1 hboth⟩, fun _ => ⟨_, hparse, ?_⟩⟩
    · rw [parse, hparse] at ht
      cases ht
    · have hblames : r.Blames (String.ofList s.short).toList := refusesWith_read _ r hr
      exact hblames.isParseError_of_ne hne

/-- With a hard level of three a short text is read without its zeros; with zero in its place the
hard group is left out, and the text is refused. -/
theorem parse_short_hard_level :
    let s : Level → Score := fun a => ⟨Level.wrap (-7), [0, a], [Level.wrap 5, 0]⟩
    parse (.string (String.ofList (s (Level.wrap 3)).short)) none none =
        .ok ⟨Level.wrap (-7), [Level.wrap 3], [Level.wrap 5]⟩ ∧
      ¬((∃ level ∈ (s 0).hard, level ≠ 0) ∧ ∃ level ∈ (s 0).soft, level ≠ 0) ∧
      ∃ f, parse (.string (String.ofList (s 0).short)) none none = .error f ∧
        f.IsParseError "-7init[5]soft" := by
  intro s
  have hmissing : ¬((∃ level ∈ (s 0).hard, level ≠ 0) ∧ ∃ level ∈ (s 0).soft, level ≠ 0) := by
    rintro ⟨⟨level, hm, hne⟩, -⟩
    simp only [s, List.mem_cons, List.not_mem_nil, or_false, or_self] at hm
    exact hne hm
  have htext : String.ofList (s 0).short = "-7init[5]soft" := by decide
  refine ⟨?_, hmissing, htext ▸ (parse_short_iff_shows_both (s 0)).2 hmissing⟩
  refine ((parse_short_iff_shows_both (s (Level.wrap 3))).1 _).mpr ⟨⟨?_, ?_⟩, rfl⟩
  · exact ⟨Level.wrap 3, by simp [s], by decide⟩
  · exact ⟨Level.wrap 5, by simp [s], by decide⟩

end Bendable.Score
