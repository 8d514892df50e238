import Bendable.Proofs.Score.RoundTrip

/-!
# The first token to blame

A text may be laid out as the text of a score and still hold anything between its marks: stray
brackets, further labels, empty pieces. Its tokens are what stands before the label of the init
score, and the pieces of the hard and of the soft levels. They are read in the order of the text, so
the token that is reported is the first that is no level, with the place that it has and with the
fault that it has, however many others follow it and whatever numbers of levels are expected. These
numbers come last, and the hard one before the soft one.

## Main definitions

* `Score.Opening start first`: what stands before the first bracket, with the token in it
* `Score.tokens first hard soft`: the tokens of a text with their places
* `Level.Faulty token fault`: why a token is no level
* `Score.FirstFault tokens place token fault`: the first token that is no level
* `Score.CountsJudged`: what the expected numbers of levels make of a text whose tokens are levels

## Main results

* `Score.read_laidOut`: a text that is laid out is read token by token
* `Score.exists_firstFault`: tokens that are not all levels have a first fault
* `Score.parse_blames_first`: the first fault is reported, and then the first number that differs
-/

namespace Bendable

/-! ## Faults of tokens -/

/-- The faults of a token that is no level. -/
inductive LevelFault where
  | notInteger
  | outOfRange

namespace LevelFault

/-- The reason that is given for a token in a place. -/
def reason : LevelFault → Place → ParseReason
  | notInteger => .notInteger
  | outOfRange => .outOfRange

/-- The wording of a fault, behind the name of a place. -/
def text : LevelFault → String
  | notInteger => " is not a valid integer"
  | outOfRange => " is out of int32 range"

/-- A reason names the place and the fault. -/
theorem message_reason (fault : LevelFault) (place : Place) :
    (fault.reason place).message = place.name ++ fault.text := by
  cases fault <;> rfl

end LevelFault

namespace Level

/-- **Why a token is no level**: it is no numeral, or the numeral of an integer out of the range. -/
inductive Faulty (token : List Char) : LevelFault → Prop
  | notInteger (h : ∀ n, ¬Numeral.Spells token n) : Faulty token .notInteger
  | outOfRange {n : Int} (h : Numeral.Spells token n) (hr : ¬InRange n) : Faulty token .outOfRange

variable {token : List Char} {fault : LevelFault}

/-- A token is a level or has a fault. -/
theorem exists_faulty (h : ¬∃ a, Spells token a) : ∃ fault, Faulty token fault := by
  by_cases hn : ∃ n, Numeral.Spells token n
  · obtain ⟨n, hn⟩ := hn
    refine ⟨.outOfRange, .outOfRange hn fun hr => h ?_⟩
    exact ⟨⟨n, hr.1, hr.2⟩, hn⟩
  · exact ⟨.notInteger, .notInteger fun n hs => hn ⟨n, hs⟩⟩

/-- **A faulty token is refused** for its fault, within the digit limit. -/
theorem read_of_faulty (h : Faulty token fault) (hk : Numeral.KeepsLimit token) (place : Place) :
    read place token = .error (.segment token (fault.reason place)) := by
  unfold read
  cases h with
  | notInteger h =>
    rw [Numeral.ofSigned?_eq_none_iff.mpr h]
    rfl
  | outOfRange h hr =>
    -- The limit on digits is looked at before the range, and the token keeps to it.
    have hle : ¬Numeral.digitLimit < (Numeral.splitSign token).2.length :=
      Nat.not_lt.mpr (hk.digits_le h)
    have hn : ofInt? _ = none := dif_neg hr
    rw [h.ofSigned?]
    dsimp only
    rw [if_neg hle, hn]
    rfl

theorem read_of_spells {a : Level} (h : Spells token a) (hk : Numeral.KeepsLimit token)
    (place : Place) : read place token = .ok a :=
  read_eq_ok_iff.mpr ⟨h, hk.digits_le h⟩

end Level

namespace Score

/-! ## Tokens -/

/-- The pieces of a group with their places; `index` is that of the first of them. -/
def placed (group : Group) (index : Nat) (pieces : List (List Char)) : List (Place × List Char) :=
  (pieces.zipIdx index).map fun piece => (.level group piece.2, piece.1)

/-- **What stands before the first bracket**: nothing, or a token with the label of the init score and
at most one slash. The token holds no label and does not start with a bracket. -/
inductive Opening : List Char → List (Place × List Char) → Prop
  | none : Opening [] []
  | label {token : List Char} (hb : ¬['['] <+: token) (hi : ¬['i', 'n', 'i', 't'] <:+: token) :
    Opening (token ++ ['i', 'n', 'i', 't']) [(.init, token)]
  | slash {token : List Char} (hb : ¬['['] <+: token) (hi : ¬['i', 'n', 'i', 't'] <:+: token) :
    Opening (token ++ ['i', 'n', 'i', 't', '/']) [(.init, token)]

/-- **The tokens of a text**, with their places and in their order: that of the opening, if it has
one, and the pieces of both groups. -/
def tokens (first : List (Place × List Char)) (hard soft : List Char) : List (Place × List Char) :=
  first ++ (placed .hard 0 (pieces hard) ++ placed .soft 0 (pieces soft))

/-- **The first fault of tokens**: those before it are levels. -/
def FirstFault (tokens : List (Place × List Char)) (place : Place) (token : List Char)
    (fault : LevelFault) : Prop :=
  ∃ good rest, tokens = good ++ (place, token) :: rest ∧
    (∀ t ∈ good, ∃ a, Level.Spells t.2 a) ∧ Level.Faulty token fault

/-- Tokens that are not all levels have a first fault. -/
theorem exists_firstFault {tokens : List (Place × List Char)}
    (h : ∃ t ∈ tokens, ¬∃ a, Level.Spells t.2 a) :
    ∃ place token fault, FirstFault tokens place token fault := by
  induction tokens with
  | nil =>
    obtain ⟨t, ht, -⟩ := h
    cases ht
  | cons t rest ih =>
    by_cases hg : ∃ a, Level.Spells t.2 a
    · -- a level: the fault is behind it
      obtain ⟨t', ht', hbad⟩ := h
      rcases List.mem_cons.mp ht' with rfl | ht'
      · exact absurd hg hbad
      · obtain ⟨place, token, fault, good, rest', rfl, hgood, hf⟩ := ih ⟨t', ht', hbad⟩
        exact ⟨place, token, fault, t :: good, rest', rfl,
          List.forall_mem_cons.mpr ⟨hg, hgood⟩, hf⟩
    · obtain ⟨fault, hf⟩ := Level.exists_faulty hg
      exact ⟨t.1, t.2, fault, [], rest, rfl, by simp, hf⟩

/-! ## Reading token by token -/

/-- The levels that tokens stand for. -/
def readTokens (tokens : List (Place × List Char)) : Except Rejection (List Level) :=
  tokens.mapM fun t => Level.read t.1 t.2

theorem readTokens_placed (group : Group) (index : Nat) (pieces : List (List Char)) :
    readTokens (placed group index pieces) = Level.readAll group index pieces := by
  induction pieces generalizing index with
  | nil => rfl
  | cons piece rest ih =>
    rw [Level.readAll, ← ih, placed, List.zipIdx_cons, List.map_cons, readTokens, List.mapM_cons]
    rfl

/-- **An opening is read as its token**; without one the init score is zero. -/
theorem readInit_opening {start : List Char} {first : List (Place × List Char)}
    (h : Opening start first) (rest : List Char) :
    readInit (start ++ '[' :: rest) =
      readTokens first >>= fun as => .ok (as.headD 0, '[' :: rest) := by
  cases h with
  | none => rfl
  | label hb hi =>
    rw [List.append_assoc]
    refine (readInit_cut hb hi ('[' :: rest)).trans ?_
    rw [readTokens, List.mapM_cons, List.mapM_nil, bind_assoc]
    rfl
  | slash hb hi =>
    rw [List.append_assoc]
    refine (readInit_cut hb hi ('/' :: '[' :: rest)).trans ?_
    rw [readTokens, List.mapM_cons, List.mapM_nil, bind_assoc]
    rfl

section LaidOut

variable {start hard soft : List Char} {first : List (Place × List Char)}

/-- **A text that is laid out as a score** is read token by token. -/
theorem read_laidOut (ho : Opening start first) (hh : ¬middle <:+: hard) (soft : List Char) :
    read (start ++ '[' :: (hard ++ middle ++ (soft ++ ending))) =
      readTokens first >>= fun as => Level.readAll .hard 0 (pieces hard) >>= fun hs =>
        Level.readAll .soft 0 (pieces soft) >>= fun ss => .ok ⟨as.headD 0, hs, ss⟩ := by
  have hb : bodies ('[' :: (hard ++ middle ++ (soft ++ ending))) = .ok (hard, soft) :=
    bodies_eq_ok_iff.mpr ⟨rfl, hh⟩
  rw [read, readInit_opening ho, bind_assoc]
  refine bind_congr fun as => ?_
  change (bodies _ >>= fun _ => _) = _
  rw [hb]
  rfl

/-- It is refused exactly as its tokens are, one after the other. -/
theorem read_laidOut_eq_error_iff (ho : Opening start first) (hh : ¬middle <:+: hard)
    {r : Rejection} : read (start ++ '[' :: (hard ++ middle ++ (soft ++ ending))) = .error r ↔
      readTokens (tokens first hard soft) = .error r := by
  have happ : ∀ xs ys, readTokens (xs ++ ys) =
      readTokens xs >>= fun as => readTokens ys >>= fun bs => .ok (as ++ bs) := by
    intro xs ys
    exact List.mapM_append
  rw [read_laidOut ho hh, tokens, happ, happ, readTokens_placed, readTokens_placed]
  simp only [bind_eq_error_iff, reduceCtorEq, and_false, exists_false, or_false]

/-- Every token is a part of the text. -/
theorem infix_of_mem_tokens (ho : Opening start first) {t : Place × List Char}
    (ht : t ∈ tokens first hard soft) :
    t.2 <:+: start ++ '[' :: (hard ++ middle ++ (soft ++ ending)) := by
  have hp : ∀ {group : Group} {body : List Char}, t ∈ placed group 0 (pieces body) →
      t.2 <:+: body := by
    intro group body h
    obtain ⟨piece, hm, rfl⟩ := List.mem_map.mp h
    exact infix_of_mem_pieces (List.fst_mem_of_mem_zipIdx hm)
  rw [tokens, List.mem_append, List.mem_append] at ht
  rcases ht with ht | ht | ht
  · -- the token of the opening
    refine List.IsInfix.trans ?_ (List.prefix_append start _).isInfix
    cases ho with
    | none => cases ht
    | label hb hi =>
      obtain rfl := List.mem_singleton.mp ht
      exact (List.prefix_append _ _).isInfix
    | slash hb hi =>
      obtain rfl := List.mem_singleton.mp ht
      exact (List.prefix_append _ _).isInfix
  · exact (hp ht).trans ⟨start ++ ['['], middle ++ (soft ++ ending), by simp⟩
  · exact (hp ht).trans ⟨start ++ '[' :: (hard ++ middle), ending, by simp⟩

end LaidOut

section Tokens

variable {tokens : List (Place × List Char)} (hk : ∀ t ∈ tokens, Numeral.KeepsLimit t.2)
include hk

/-- **Tokens are refused for the first of them that is no level.** -/
theorem readTokens_of_firstFault {place : Place} {token : List Char} {fault : LevelFault}
    (h : FirstFault tokens place token fault) :
    readTokens tokens = .error (.segment token (fault.reason place)) := by
  obtain ⟨good, rest, rfl, hg, hf⟩ := h
  refine mapM_eq_error_iff.mpr ⟨good, (place, token), rest, rfl, ?_, ?_⟩
  · intro t ht
    obtain ⟨a, ha⟩ := hg t ht
    exact ⟨a, Level.read_of_spells ha (hk t (List.mem_append_left _ ht)) t.1⟩
  · have hkt := hk (place, token) (List.mem_append_right _ List.mem_cons_self)
    exact Level.read_of_faulty hf hkt place

/-- Tokens that are levels are not refused. -/
theorem readTokens_ne_error (h : ∀ t ∈ tokens, ∃ a, Level.Spells t.2 a) (r : Rejection) :
    readTokens tokens ≠ .error r := by
  intro he
  obtain ⟨good, bad, rest, rfl, -, hbad⟩ := mapM_eq_error_iff.mp he
  have hm : bad ∈ good ++ bad :: rest := List.mem_append_right _ List.mem_cons_self
  obtain ⟨a, ha⟩ := h bad hm
  rw [Level.read_of_spells ha (hk bad hm)] at hbad
  cases hbad

end Tokens

/-! ## Expected numbers of levels -/

/-- **Expected numbers of levels are judged in order**: a hard number that differs is reported, or
else a soft one; if none differs, there is a score with these numbers of levels. -/
structure CountsJudged (text : String) (hardCount softCount : Nat)
    (expectedHard expectedSoft : Option Value) (result : Except Fault Score) : Prop where
  hard : ∀ v ∈ expectedHard, (Value.int hardCount).equals v = false →
    result = .error (countFault text .hard v hardCount)
  soft : (∀ v ∈ expectedHard, (Value.int hardCount).equals v = true) →
    ∀ v ∈ expectedSoft, (Value.int softCount).equals v = false →
      result = .error (countFault text .soft v softCount)
  ok : (∀ v ∈ expectedHard, (Value.int hardCount).equals v = true) →
    (∀ v ∈ expectedSoft, (Value.int softCount).equals v = true) →
      ∃ s, result = .ok s ∧ s.shape = (hardCount, softCount)

/-- Of a text that is read, the numbers of levels are judged. -/
theorem countsJudged_parse {text : String} {s : Score} (hr : read text.toList = .ok s)
    (hard soft : Option Value) : CountsJudged text s.hard.length s.soft.length hard soft
      (parse (.string text) hard soft) := by
  have hp : parse (.string text) hard soft = _ := parseText_of_read hr hard soft
  have hc : ∀ group {v}, (Value.int (s.group group).length).equals v = false →
      (checkCount group s (some v)).mapError (Rejection.fault text) =
        .error (countFault text group v (s.group group).length) := by
    intro group v hv
    rw [checkCount_some, hv, if_neg Bool.false_ne_true]
  have hok : ∀ group {expected}, (∀ v ∈ expected, (Value.int (s.group group).length).equals v) →
      (checkCount group s expected).mapError (Rejection.fault text) = .ok () := fun _ {_} h =>
    mapError_eq_ok_iff.mpr (checkCount_eq_ok_iff.mpr h)
  constructor
  · rintro v rfl hv
    rw [hp]
    exact bind_eq_error_iff.mpr (.inl (hc .hard hv))
  · rintro hh v rfl hv
    rw [hp]
    refine bind_eq_error_iff.mpr (.inr ⟨(), hok .hard hh, ?_⟩)
    exact bind_eq_error_iff.mpr (.inl (hc .soft hv))
  · intro hh hs
    refine ⟨s, ?_, rfl⟩
    rw [hp]
    refine bind_eq_ok_iff.mpr ⟨(), hok .hard hh, ?_⟩
    exact bind_eq_ok_iff.mpr ⟨(), hok .soft hs, rfl⟩

/-! ## Parsing -/

/-- A fault of a token is reported in a parse error. -/
theorem fault_levelFault (text : String) (token : List Char) (fault : LevelFault) (place : Place) :
    Rejection.fault text (.segment token (fault.reason place)) =
      .score (.parse ⟨text, String.ofList token, fault.reason place⟩) := by
  cases fault <;> rfl

/-- **The first fault of a text is reported.** A text that is laid out as the text of a score, within
the digit limit, is refused with a parse error about its first token that is no level, in its place
and for its fault, whatever numbers of levels are expected. If all its tokens are levels, the
expected numbers are judged, the hard one before the soft one; one that is beyond the digit limit is
judged but cannot be reported. -/
theorem parse_blames_first {start hard soft : List Char} {first : List (Place × List Char)}
    {text : String} (ho : Opening start first)
    (hh : ¬[']', 'h', 'a', 'r', 'd', '/', '['] <:+: hard)
    (ht : text.toList = start ++ '[' :: (hard ++ [']', 'h', 'a', 'r', 'd', '/', '['] ++
      (soft ++ [']', 's', 'o', 'f', 't'])))
    (hk : Numeral.KeepsLimit text.toList) :
    ((∃ t ∈ tokens first hard soft, ¬∃ a, Level.Spells t.2 a) →
      ∃ place token fault, FirstFault (tokens first hard soft) place token fault) ∧
    (∀ place token fault, FirstFault (tokens first hard soft) place token fault →
      (fault.reason place).message = place.name ++ fault.text ∧
        ∀ hardCount softCount, parse (.string text) hardCount softCount =
          .error (.score (.parse ⟨text, String.ofList token, fault.reason place⟩))) ∧
    ((∀ t ∈ tokens first hard soft, ∃ a, Level.Spells t.2 a) →
      ∀ hardCount softCount, CountsJudged text (pieces hard).length (pieces soft).length
        hardCount softCount (parse (.string text) hardCount softCount)) := by
  -- The digits of a token are digits of the text.
  have hkt : ∀ t ∈ tokens first hard soft, Numeral.KeepsLimit t.2 := by
    intro t hm
    refine hk.of_infix ?_
    rw [ht]
    exact infix_of_mem_tokens ho hm
  have herr : ∀ {r}, read text.toList = .error r ↔
      readTokens (tokens first hard soft) = .error r := by
    intro r
    rw [ht]
    exact read_laidOut_eq_error_iff ho hh
  refine ⟨exists_firstFault, ?_, ?_⟩
  · intro place token fault hf
    refine ⟨fault.message_reason place, fun hardCount softCount => ?_⟩
    have hr := herr.mpr (readTokens_of_firstFault hkt hf)
    exact (parseText_of_read_error hr hardCount softCount).trans
      (congrArg Except.error (fault_levelFault text token fault place))
  · intro hg hardCount softCount
    cases hr : read text.toList with
    | error r => exact absurd (herr.mp hr) (readTokens_ne_error hkt hg r)
    | ok s =>
      -- There is one level for each piece, so the numbers that are judged are those of the pieces.
      have hlen : s.hard.length = (pieces hard).length ∧
          s.soft.length = (pieces soft).length := by
        rw [ht] at hr
        have hr' := (read_laidOut ho hh soft).symm.trans hr
        obtain ⟨as, -, hr'⟩ := bind_eq_ok_iff.mp hr'
        obtain ⟨hs, hhs, hr'⟩ := bind_eq_ok_iff.mp hr'
        obtain ⟨ss, hss, hr'⟩ := bind_eq_ok_iff.mp hr'
        cases hr'
        exact ⟨(Level.readAll_eq_ok_iff.mp hhs).length_eq.symm,
          (Level.readAll_eq_ok_iff.mp hss).length_eq.symm⟩
      rw [← hlen.1, ← hlen.2]
      exact countsJudged_parse hr hardCount softCount

/-- A hard level is to blame, though a later one is out of the range, the soft levels are none and an
expected number differs. -/
theorem parse_stray_brackets :
    Opening "+7init/".toList [(.init, ['+', '7'])] ∧
      ¬[']', 'h', 'a', 'r', 'd', '/', '['] <:+: "1/]h[/99999999999".toList ∧
      "+7init/[1/]h[/99999999999]hard/[]hard/[/x]soft".toList = "+7init/".toList ++ '[' ::
        ("1/]h[/99999999999".toList ++ [']', 'h', 'a', 'r', 'd', '/', '['] ++
          ("]hard/[/x".toList ++ [']', 's', 'o', 'f', 't'])) ∧
      Numeral.KeepsLimit "+7init/[1/]h[/99999999999]hard/[]hard/[/x]soft".toList ∧
      parse (.string "+7init/[1/]h[/99999999999]hard/[]hard/[/x]soft") (some (.int 0)) none =
        .error (.score (.parse ⟨"+7init/[1/]h[/99999999999]hard/[]hard/[/x]soft",
          String.ofList [']', 'h', '['], .notInteger (.level .hard 1)⟩)) := by
  have ho : Opening "+7init/".toList [(.init, ['+', '7'])] := by
    change Opening (['+', '7'] ++ ['i', 'n', 'i', 't', '/']) _
    exact .slash (by decide) (by decide)
  have hh : ¬[']', 'h', 'a', 'r', 'd', '/', '['] <:+: "1/]h[/99999999999".toList := by decide
  have ht : "+7init/[1/]h[/99999999999]hard/[]hard/[/x]soft".toList = "+7init/".toList ++ '[' ::
      ("1/]h[/99999999999".toList ++ [']', 'h', 'a', 'r', 'd', '/', '['] ++
        ("]hard/[/x".toList ++ [']', 's', 'o', 'f', 't'])) := rfl
  have hk : Numeral.KeepsLimit "+7init/[1/]h[/99999999999]hard/[]hard/[/x]soft".toList :=
    Numeral.keepsLimit_of_length_le (by decide)
  have hinit : Level.Spells ['+', '7'] (Level.wrap 7) := Numeral.ofSigned?_eq_some_iff.mp rfl
  have hone : Level.Spells ['1'] (Level.wrap 1) := Numeral.ofSigned?_eq_some_iff.mp rfl
  have hf : FirstFault
      (tokens [(.init, ['+', '7'])] "1/]h[/99999999999".toList "]hard/[/x".toList)
      (.level .hard 1) [']', 'h', '['] .notInteger := by
    refine ⟨[(.init, ['+', '7']), (.level .hard 0, ['1'])], _, rfl, ?_, ?_⟩
    · exact List.forall_mem_cons.mpr ⟨⟨_, hinit⟩, List.forall_mem_cons.mpr ⟨⟨_, hone⟩, by simp⟩⟩
    · exact .notInteger (Numeral.ofSigned?_eq_none_iff.mp rfl)
  obtain ⟨-, hblame, -⟩ := parse_blames_first ho hh ht hk
  exact ⟨ho, hh, ht, hk, (hblame _ _ _ hf).2 (some (.int 0)) none⟩

/-- An expected number beyond the digit limit differs, and there is no parse error. -/
theorem parse_hard_count_beyond_limit :
    (∀ t ∈ tokens [] [] ['2', '/', '3'], ∃ a, Level.Spells t.2 a) ∧
      (Value.int 0).equals (.int (Numeral.leastLonger Numeral.digitLimit)) = false ∧
      parse (.string "[]hard/[2/3]soft") (some (.int (Numeral.leastLonger Numeral.digitLimit)))
          (some (.int 5)) = .error .tooManyDigits ∧
      ¬∃ e, parse (.string "[]hard/[2/3]soft")
          (some (.int (Numeral.leastLonger Numeral.digitLimit))) (some (.int 5)) =
        .error (.score (.parse e)) := by
  have h2 : Level.Spells ['2'] (Level.wrap 2) := Numeral.ofSigned?_eq_some_iff.mp rfl
  have h3 : Level.Spells ['3'] (Level.wrap 3) := Numeral.ofSigned?_eq_some_iff.mp rfl
  have hr : read "[]hard/[2/3]soft".toList = .ok ⟨0, [], [Level.wrap 2, Level.wrap 3]⟩ := rfl
  have hv : (Value.int 0).equals (.int (Numeral.leastLonger Numeral.digitLimit)) = false := by
    rw [Bool.eq_false_iff, Ne, Value.equals_int_iff rfl]
    exact Int.natCast_ne_zero.mpr (Nat.ne_of_gt (Numeral.leastLonger_pos _))
  have hw : Value.isWritable (.int (Numeral.leastLonger Numeral.digitLimit)) = false := by
    rw [Value.isWritable, Numeral.isWritable_leastLonger rfl]
  have hp : parse (.string "[]hard/[2/3]soft")
      (some (.int (Numeral.leastLonger Numeral.digitLimit))) (some (.int 5)) =
        .error .tooManyDigits := by
    rw [(countsJudged_parse hr _ _).hard _ rfl hv, countFault, hw]
    rfl
  refine ⟨?_, hv, hp, ?_⟩
  · exact List.forall_mem_cons.mpr ⟨⟨_, h2⟩, List.forall_mem_cons.mpr ⟨⟨_, h3⟩, by simp⟩⟩
  · rintro ⟨e, he⟩
    rw [hp] at he
    cases he

end Score

end Bendable
