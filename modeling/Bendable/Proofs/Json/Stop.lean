import Mathlib.Data.List.Infix
import Bendable.Proofs.Json.Layout
import Bendable.Proofs.Json.Limit

/-!
# Where the reader of JSON stops

Every reader takes something from the front of its text and leaves an ending of it. It stops for a
problem in the text, or because one of the limits is reached. The integer with more digits than the
limit is part of the text, and so is every opening mark of the lists and dictionaries that nest too
deep; a text that has neither that many digits in a row nor that many opening marks is read or has a
problem.

## Main definitions

* `Json.Exceeds limit text`: the text has a run of more digits than the limit
* `Json.Deepens limits depth text`: with the depth around it, the text has more opening marks than
  may nest
* `Json.Within limits depth text x`: the run `x` of a reader stays within `text`

## Main results

* `Json.readers_within`: the readers stay within their texts
* `Json.exceeds_of_read`, `Json.deepens_of_read`: a text that runs into a limit exceeds it
* `Json.read_ne_tooManyDigits`: a text that keeps to the digit limit does not run into it
* `Json.read_overlong`: a written integer with more digits than the limit runs into it
* `Json.read_opened`: a text that opens more lists than may nest runs into the other limit
-/

namespace Bendable.Json

variable {α β : Type} {limit : Option Nat} {limits : Limits} {depth : Nat}

/-! ## Texts and limits -/

/-- **A text beyond a limit**: it has a run of more digits. -/
def Exceeds (limit : Option Nat) (text : List Char) : Prop :=
  ∃ k ∈ limit, ∃ run, run <:+: text ∧ (∀ c ∈ run, c.isDigit = true) ∧ k < run.length

theorem Exceeds.of_part {part text : List Char} (h : Exceeds limit part) (hp : part <:+: text) :
    Exceeds limit text := by
  obtain ⟨k, hk, run, hr, hd, hl⟩ := h
  exact ⟨k, hk, run, hr.trans hp, hd, hl⟩

theorem not_exceeds_none (text : List Char) : ¬Exceeds none text := by
  rintro ⟨k, hk, -⟩
  cases hk

theorem not_exceeds_of_keepsLimit {text : List Char} (h : Numeral.KeepsLimit text) :
    ¬Exceeds (some Numeral.digitLimit) text := by
  rintro ⟨k, hk, run, hr, hd, hl⟩
  cases hk
  exact Nat.not_lt.mpr (h run hr hd) hl

/-- A mark that opens a list or a dictionary. -/
def opens (c : Char) : Bool := c == '[' || c == '\x7b'

/-- **A text that may nest too deep**: the outermost mark included, more than one mark beyond the
limit is open or opens in it. -/
def Deepens (limits : Limits) (depth : Nat) (text : List Char) : Prop :=
  ∃ k ∈ limits.nesting, k + 1 < depth + text.countP opens

theorem Deepens.of_suffix {rest text : List Char} (h : Deepens limits depth rest)
    (hr : rest <:+ text) : Deepens limits depth text := by
  obtain ⟨k, hk, hlt⟩ := h
  exact ⟨k, hk, Nat.lt_of_lt_of_le hlt (Nat.add_le_add_left hr.sublist.countP_le _)⟩

/-- What is behind an opening mark is one deeper. -/
theorem deepens_cons {c : Char} (hc : opens c = true) {rest : List Char} :
    Deepens limits depth (c :: rest) ↔ Deepens limits (depth + 1) rest := by
  rw [Deepens, Deepens, List.countP_cons_of_pos hc]
  simp only [Nat.add_right_comm, Nat.add_assoc]

theorem not_deepens_unlimited (h : limits.nesting = none) (text : List Char) :
    ¬Deepens limits depth text := by
  rintro ⟨k, hk, -⟩
  rw [h] at hk
  cases hk

/-! ## Runs within a text -/

/-- **A run within a text**: it leaves an ending of the text, or stops for a problem, or stops at a
limit that the text exceeds. -/
structure Within (limits : Limits) (depth : Nat) (text : List Char)
    (x : Except Stop (α × List Char)) : Prop where
  rest : Yields (fun r => r.2 <:+ text) x
  digits : RefusesWith (fun e => e = .tooManyDigits → Exceeds limits.digits text) x
  nesting : RefusesWith (fun e => e = .tooDeep → Deepens limits depth text) x

namespace Within

variable {text rest : List Char}

theorem ok {a : α} (h : rest <:+ text) : Within limits depth text (.ok (a, rest)) :=
  ⟨.ok h, .ok _, .ok _⟩

theorem problem (p : Problem) (place : List Char) :
    Within limits depth text (.error (.problem p place) : Except Stop (α × List Char)) :=
  ⟨.error _, .error nofun, .error nofun⟩

/-- A run within an ending of a text is within the text. -/
theorem of_suffix {x : Except Stop (α × List Char)} (hx : Within limits depth rest x)
    (h : rest <:+ text) : Within limits depth text x where
  rest := hx.rest.mono fun _ hr => hr.trans h
  digits := hx.digits.mono fun _ hs he => (hs he).of_part h.isInfix
  nesting := hx.nesting.mono fun _ hs he => (hs he).of_suffix h

theorem map {x : Except Stop (α × List Char)} (hx : Within limits depth text x)
    {f : α × List Char → β × List Char} (hf : ∀ r, (f r).2 = r.2) :
    Within limits depth text (x.map f) where
  rest := hx.rest.map fun r hr => by rwa [hf r]
  digits := hx.digits.map f
  nesting := hx.nesting.map f

/-- A run that goes on within what was left stays within the text. -/
theorem bind {x : Except Stop (α × List Char)} {f : α × List Char → Except Stop (β × List Char)}
    (hx : Within limits depth text x) (hf : ∀ a rest, Within limits depth rest (f (a, rest))) :
    Within limits depth text (x >>= f) where
  rest := hx.rest.bind fun r hr => ((hf r.1 r.2).of_suffix hr).rest
  digits := hx.digits.bind fun r hr => ((hf r.1 r.2).of_suffix (hx.rest r hr)).digits
  nesting := hx.nesting.bind fun r hr => ((hf r.1 r.2).of_suffix (hx.rest r hr)).nesting

/-- A run behind an opening mark, if the mark is allowed. -/
theorem opened {c : Char} (hc : opens c = true) {x : Except Stop (α × List Char)}
    (hx : Within limits (depth + 1) rest x) :
    Within limits depth (c :: rest) (limits.checkNesting depth >>= fun _ => x) := by
  unfold Limits.checkNesting
  split
  · -- the mark is one more than the depth that is too great
    rename_i hany
    obtain ⟨k, hk, hlt⟩ := (Option.any_eq_true _ _).mp hany
    refine ⟨.error _, .error nofun, .error fun _ => (deepens_cons hc).mpr ⟨k, hk, ?_⟩⟩
    have hlt : k < depth := by simpa using hlt
    omega
  · exact
      { rest := hx.rest.mono fun _ hr => hr.trans (List.suffix_cons c rest)
        digits := hx.digits.mono fun _ hs he => (hs he).of_part (List.suffix_cons c rest).isInfix
        nesting := hx.nesting.mono fun _ hs he => (deepens_cons hc).mpr (hs he) }

end Within

theorem skipBlanks_suffix (text : List Char) : skipBlanks text <:+ text :=
  List.dropWhile_suffix _

/-- A mark that was looked for behind blanks is taken with them. -/
theorem suffix_of_skipBlanks {text rest : List Char} {c : Char} (h : skipBlanks text = c :: rest) :
    rest <:+ text :=
  (List.suffix_cons c rest).trans (h ▸ skipBlanks_suffix text)

/-! ## Strings -/

theorem prepend_within {text rest : List Char} {x : Except Stop (List Nat × List Char)} (code : Nat)
    (hx : Within limits depth rest x) (h : rest <:+ text) :
    Within limits depth text (prepend code x) :=
  (hx.of_suffix h).map fun _ => rfl

theorem readCodes_within (whole text : List Char) :
    Within limits depth text (readCodes whole text) := by
  -- One case for each way to go on: a closing quote, an escape of either kind, a plain character.
  fun_induction readCodes whole text with
  | case2 rest => exact .ok (List.suffix_cons _ _)
  | case4 a b c d next tail code _ _ ih =>
    exact prepend_within code ih ⟨['\\', 'u', a, b, c, d], rfl⟩
  | case7 letter after _ e _ _ ih => exact prepend_within _ ih ⟨['\\', letter], rfl⟩
  | case10 c after _ _ _ ih => exact prepend_within _ ih (List.suffix_cons _ _)
  | case1 | case3 | case5 | case6 | case8 | case9 => exact .problem _ _

theorem readString_within (whole text : List Char) :
    Within limits depth text (readString whole text) :=
  (readCodes_within whole text).map fun _ => rfl

/-! ## Numbers -/

theorem splitWhole_append (text : List Char) :
    (splitWhole text).1 ++ (splitWhole text).2 = text := by
  unfold splitWhole
  split
  · rfl
  · exact List.takeWhile_append_dropWhile

theorem splitFraction_suffix (text : List Char) : (splitFraction text).2 <:+ text := by
  unfold splitFraction
  split
  · split
    · exact List.suffix_rfl
    · exact (List.dropWhile_suffix _).trans (List.suffix_cons _ _)
  · exact List.suffix_rfl

theorem splitExponent_suffix {text rest : List Char} {e : Int}
    (h : splitExponent text = some (e, rest)) : rest <:+ text := by
  unfold splitExponent at h
  dsimp only at h
  split at h
  · cases h
  · cases h
    exact (List.dropWhile_suffix _).trans (Numeral.splitSign_suffix text)

theorem readNumber_within (text : List Char) :
    Within limits depth text (readNumber limits.digits text) := by
  unfold readNumber
  split
  rename_i negative unsigned hsign
  have hu : unsigned <:+ text := by
    split at hsign
    · cases hsign
      exact List.suffix_cons _ _
    · cases hsign
      exact List.suffix_rfl
  have hw : (splitWhole unsigned).1 <:+: text :=
    List.IsInfix.trans ⟨[], (splitWhole unsigned).2, splitWhole_append unsigned⟩ hu.isInfix
  have hr : (splitWhole unsigned).2 <:+ text :=
    List.IsSuffix.trans ⟨(splitWhole unsigned).1, splitWhole_append unsigned⟩ hu
  have hf : (splitFraction (splitWhole unsigned).2).2 <:+ text :=
    (splitFraction_suffix _).trans hr
  dsimp only
  split
  · exact .problem _ _
  split
  · -- what an exponent leaves is an ending of what the fraction left
    rename_i e rest he
    refine .ok (List.IsSuffix.trans ?_ hf)
    split at he
    · rename_i mark tail hm
      rw [hm]
      split at he
      · exact (splitExponent_suffix he).trans (List.suffix_cons _ _)
      · cases he
    · cases he
  split
  · exact .ok hf
  split
  · -- the whole part is a run of more digits than the limit
    rename_i hl
    obtain ⟨k, hk, hlt⟩ := (Option.any_eq_true _ _).mp hl
    refine ⟨.error _, .error fun _ => ⟨k, hk, _, hw, splitWhole_digits unsigned, ?_⟩, .error nofun⟩
    simpa using hlt
  · exact .ok hf

theorem readPlain_within (text : List Char) :
    Within limits depth text (readPlain limits.digits text) := by
  unfold readPlain
  split
  · exact .ok (List.drop_suffix _ _)
  · exact readNumber_within text

/-! ## One step of the readers -/

section Step

variable {fuel : Nat}
  (hv : ∀ depth text, Within limits depth text (readValue limits fuel depth text))
  (hi : ∀ depth text, Within limits depth text (readItems limits fuel depth text))
  (hm : ∀ depth text, Within limits depth text (readMembers limits fuel depth text))

include hi hm in
theorem readValue_within (depth : Nat) (text : List Char) :
    Within limits depth text (readValue limits (fuel + 1) depth text) := by
  rw [readValue.eq_def]
  dsimp only
  split
  · exact ((readString_within _ _).of_suffix (List.suffix_cons _ _)).map fun _ => rfl
  · rename_i rest
    refine .opened rfl ?_
    split
    · rename_i he
      exact .ok (suffix_of_skipBlanks he)
    · exact ((hi _ _).of_suffix (skipBlanks_suffix rest)).map fun _ => rfl
  · rename_i rest
    refine .opened rfl ?_
    split
    · rename_i he
      exact .ok (suffix_of_skipBlanks he)
    · exact ((hm _ _).of_suffix (skipBlanks_suffix rest)).map fun _ => rfl
  · exact readPlain_within _

include hv hi in
theorem readItems_within (depth : Nat) (text : List Char) :
    Within limits depth text (readItems limits (fuel + 1) depth text) := by
  rw [readItems]
  refine .bind (hv _ text) fun v rest => ?_
  dsimp only
  split
  · rename_i he
    exact .ok (suffix_of_skipBlanks he)
  · rename_i rest' he
    refine Within.of_suffix ?_ (suffix_of_skipBlanks he)
    exact .bind ((hi _ _).of_suffix (skipBlanks_suffix rest')) fun items after =>
      .ok List.suffix_rfl
  · exact .problem _ _

include hv hm in
theorem readMembers_within (depth : Nat) (text : List Char) :
    Within limits depth text (readMembers limits (fuel + 1) depth text) := by
  rw [readMembers.eq_def]
  dsimp only
  split
  · rename_i quoted
    refine .bind ((readString_within _ _).of_suffix (List.suffix_cons '"' quoted))
      fun name rest => ?_
    dsimp only
    split
    · rename_i rest' he
      refine Within.of_suffix ?_ (suffix_of_skipBlanks he)
      refine .bind ((hv _ _).of_suffix (skipBlanks_suffix rest')) fun v rest => ?_
      dsimp only
      split
      · rename_i he
        exact .ok (suffix_of_skipBlanks he)
      · rename_i rest'' he
        refine Within.of_suffix ?_ (suffix_of_skipBlanks he)
        exact .bind ((hm _ _).of_suffix (skipBlanks_suffix rest'')) fun members after =>
          .ok List.suffix_rfl
      · exact .problem _ _
    · exact .problem _ _
  · exact .problem _ _

end Step

/-! ## Whole texts -/

/-- **The readers stay within their texts**, whatever the fuel and the depth. -/
theorem readers_within (limits : Limits) (fuel : Nat) :
    (∀ depth text, Within limits depth text (readValue limits fuel depth text)) ∧
      (∀ depth text, Within limits depth text (readItems limits fuel depth text)) ∧
      ∀ depth text, Within limits depth text (readMembers limits fuel depth text) := by
  -- Induction on the fuel: a step calls the readers with less of it.
  induction fuel with
  | zero =>
    refine ⟨fun depth text => ?_, fun depth text => ?_, fun depth text => ?_⟩
    · rw [readValue]
      exact .problem _ _
    · rw [readItems]
      exact .problem _ _
    · rw [readMembers]
      exact .problem _ _
  | succ fuel ih =>
    obtain ⟨hv, hi, hm⟩ := ih
    exact ⟨readValue_within hi hm, readItems_within hv hi, readMembers_within hv hm⟩

/-- **A whole text stops at a limit** only if it exceeds the limit. -/
theorem readDocument_stops (limits : Limits) (text : List Char) :
    RefusesWith (fun e => (e = .tooManyDigits → Exceeds limits.digits text) ∧
      (e = .tooDeep → Deepens limits 0 text)) (readDocument limits text) := by
  unfold readDocument
  split
  · exact .error ⟨nofun, nofun⟩
  · have hw := ((readers_within limits (2 * text.length + 2)).1 0 (skipBlanks text)).of_suffix
      (skipBlanks_suffix text)
    refine .bind (fun e he => ⟨hw.digits e he, hw.nesting e he⟩) fun ⟨v, rest⟩ _ => ?_
    dsimp only
    split
    · exact .ok _
    · exact .error ⟨nofun, nofun⟩

/-- A failure to read is the failure of a stop. -/
theorem exists_stop_of_read {text : List Char} {f : Failure} (h : read limits text = .error f) :
    ∃ e, readDocument limits text = .error e ∧ e.failure text = f := by
  rw [read] at h
  cases hd : readDocument limits text with
  | ok v =>
    rw [hd] at h
    cases h
  | error e =>
    rw [hd] at h
    exact ⟨e, rfl, Except.error.inj h⟩

/-- **A text that runs into the digit limit exceeds it.** -/
theorem exceeds_of_read {text : List Char} (h : read limits text = .error .tooManyDigits) :
    Exceeds limits.digits text := by
  obtain ⟨e, hd, he⟩ := exists_stop_of_read h
  cases e with
  | tooManyDigits => exact (readDocument_stops limits text _ hd).1 rfl
  | _ => cases he

/-- **A text that nests too deep** has more opening marks than may nest. -/
theorem deepens_of_read {text : List Char} (h : read limits text = .error .tooDeep) :
    Deepens limits 0 text := by
  obtain ⟨e, hd, he⟩ := exists_stop_of_read h
  cases e with
  | tooDeep => exact (readDocument_stops limits text _ hd).2 rfl
  | _ => cases he

/-- **A text that keeps to the digit limit does not run into it.** -/
theorem read_ne_tooManyDigits {nesting : Option Nat} {text : List Char}
    (hk : Numeral.KeepsLimit text) : read (.standard nesting) text ≠ .error .tooManyDigits :=
  fun h => not_exceeds_of_keepsLimit hk (exceeds_of_read h)

/-- A text that starts with a value is read from there on, so it stops where that value does. -/
theorem read_of_stop {text : List Char} (ho : OpensValue text) {e : Stop}
    (h : readValue limits (2 * text.length + 2) 0 text = .error e) :
    read limits text = .error (e.failure text) := by
  have hmark : text.head? ≠ some '\ufeff' := ho.head?_ne_mark blanks_nil
  have hskip : skipBlanks text = text := ho.skipBlanks_gap blanks_nil
  rw [read, readDocument, if_neg hmark, hskip, h]
  rfl

/-- **A written integer with more digits than the limit runs into it.** -/
theorem read_overlong (nesting : Option Nat) {n : Int} (h : Numeral.isWritable n = false) :
    read (.standard nesting) (Numeral.ofInt n) = .error .tooManyDigits := by
  rw [Numeral.isWritable_eq_false_iff] at h
  have hends : EndsNumber [] := by simp [EndsNumber]
  have hstop : ∀ fuel, readValue (.standard nesting) (fuel + 1) 0 (Numeral.ofInt n) =
      .error .tooManyDigits := by
    intro fuel
    have hv := readValue_ofInt (.standard nesting) fuel 0 (n := n) hends
    rwa [List.append_nil, if_pos (by simpa using h)] at hv
  exact read_of_stop (opensValue_ofInt n) (hstop _)

/-! ## Lists that nest too deep -/

/-- Brackets that are opened inside each other are read up to the one that is too deep. -/
theorem readValue_opened {k : Nat} (hk : limits.nesting = some k) (n : Nat) {fuel depth : Nat}
    (hf : 2 * n ≤ fuel) (hd : depth + n = k + 1) (rest : List Char) :
    readValue limits (fuel + 1) depth (List.replicate (n + 1) '[' ++ rest) = .error .tooDeep := by
  -- Induction on the brackets that are still allowed; the last one has too many around it.
  induction n generalizing fuel depth with
  | zero =>
    have hcheck : limits.checkNesting depth = .error .tooDeep := by
      rw [Limits.checkNesting, hk, if_pos]
      simp only [Option.any_some, decide_eq_true_eq]
      omega
    rw [List.replicate_succ, List.cons_append, readValue, hcheck]
    rfl
  | succ n ih =>
    obtain ⟨fuel, rfl⟩ : ∃ m, fuel = m + 2 := ⟨fuel - 2, by omega⟩
    have hallows : limits.Allows depth := by
      rintro j hj
      rw [hk] at hj
      cases hj
      omega
    have hopens : OpensValue (List.replicate (n + 1) '[' ++ rest) :=
      ⟨_, _, rfl, by decide, by decide, by decide, by decide⟩
    have hitems : readItems limits (fuel + 2) (depth + 1) (List.replicate (n + 1) '[' ++ rest) =
        .error .tooDeep := by
      rw [readItems, ih (by omega) (by omega)]
      rfl
    have hlist := readValue_items (fuel + 2) hallows blanks_nil hopens
    rw [List.nil_append, hitems] at hlist
    exact hlist

/-- **A text that opens more lists than may nest runs into that limit**, whatever follows. -/
theorem read_opened {k : Nat} (hk : limits.nesting = some k) {n : Nat} (hn : k + 1 < n)
    (rest : List Char) : read limits (List.replicate n '[' ++ rest) = .error .tooDeep := by
  obtain ⟨m, rfl⟩ : ∃ m, n = k + 2 + m := ⟨n - (k + 2), by omega⟩
  have hsplit : List.replicate (k + 2 + m) '[' ++ rest =
      List.replicate (k + 2) '[' ++ (List.replicate m '[' ++ rest) := by
    rw [List.replicate_add, List.append_assoc]
  have hopens : OpensValue (List.replicate (k + 2) '[' ++ (List.replicate m '[' ++ rest)) :=
    ⟨_, _, rfl, by decide, by decide, by decide, by decide⟩
  rw [hsplit]
  -- the fuel is more than twice the brackets
  refine read_of_stop hopens (readValue_opened hk (k + 1) ?_ (Nat.zero_add _) _)
  simp only [List.length_append, List.length_replicate]
  omega

end Bendable.Json
