import Mathlib.Tactic.Basic

/-!
# Runs that may refuse

A run gives a result or refuses for a reason. A sequence of runs succeeds if each of them does,
and refuses for the reason of the first that refuses, so what holds of the reasons of the parts
holds of the reasons of the whole.

## Main definitions

* `RefusesWith P x`: if the run `x` refuses, then for a reason with the property `P`
* `Yields P x`: if the run `x` succeeds, then with a result with the property `P`

## Main results

* `bind_eq_ok_iff`: a sequence succeeds exactly if its parts do
* `RefusesWith.bind`: the reasons of the parts are the reasons of a sequence
* `Yields.foldlM`: what one step preserves, a run of steps preserves
-/

namespace Bendable

variable {ε δ α β : Type}

/-! ## Results -/

theorem bind_eq_ok_iff {x : Except ε α} {f : α → Except ε β} {b : β} :
    x >>= f = .ok b ↔ ∃ a, x = .ok a ∧ f a = .ok b := by
  cases x <;> simp [bind, Except.bind]

theorem bind_eq_error_iff {x : Except ε α} {f : α → Except ε β} {e : ε} :
    x >>= f = .error e ↔ x = .error e ∨ ∃ a, x = .ok a ∧ f a = .error e := by
  cases x <;> simp [bind, Except.bind]

/-- A check gives nothing to the run that follows it. -/
theorem check_bind_eq_ok_iff {x : Except ε Unit} {f : Unit → Except ε β} {b : β} :
    x >>= f = .ok b ↔ x = .ok () ∧ f () = .ok b := by
  cases x <;> simp [bind, Except.bind]

/-- **A list of runs refuses for the first that refuses**: those before it succeed. -/
theorem mapM_eq_error_iff {f : α → Except ε β} {xs : List α} {e : ε} :
    xs.mapM f = .error e ↔ ∃ good bad rest, xs = good ++ bad :: rest ∧
      (∀ x ∈ good, ∃ b, f x = .ok b) ∧ f bad = .error e := by
  induction xs with
  | nil =>
    constructor
    · intro h
      cases h
    · rintro ⟨good, bad, rest, h, -⟩
      exact absurd h.symm (List.append_ne_nil_of_right_ne_nil good (List.cons_ne_nil bad rest))
  | cons x xs ih =>
    rw [List.mapM_cons]
    simp only [bind_eq_error_iff, ih]
    constructor
    · rintro (h | ⟨b, hb, (⟨good, bad, rest, rfl, hg, he⟩ | ⟨bs, -, h⟩)⟩)
      · exact ⟨[], x, xs, rfl, by simp, h⟩
      · exact ⟨x :: good, bad, rest, rfl, List.forall_mem_cons.mpr ⟨⟨b, hb⟩, hg⟩, he⟩
      · cases h
    · rintro ⟨good, bad, rest, h, hg, he⟩
      cases good with
      | nil =>
        obtain ⟨rfl, rfl⟩ := List.cons.inj h
        exact .inl he
      | cons y good =>
        obtain ⟨rfl, rfl⟩ := List.cons.inj h
        obtain ⟨⟨b, hb⟩, hg⟩ := List.forall_mem_cons.mp hg
        exact .inr ⟨b, hb, .inl ⟨good, bad, rest, rfl, hg, he⟩⟩

theorem mapError_eq_ok_iff {x : Except ε α} {f : ε → δ} {a : α} :
    x.mapError f = .ok a ↔ x = .ok a := by
  constructor
  · intro h
    cases x with
    | error e => cases h
    | ok b =>
      cases h
      rfl
  · rintro rfl
    rfl

theorem mapError_eq_error_iff {x : Except ε α} {f : ε → δ} {d : δ} :
    x.mapError f = .error d ↔ ∃ e, x = .error e ∧ f e = d := by
  constructor
  · intro h
    cases x with
    | error e => exact ⟨e, rfl, Except.error.inj h⟩
    | ok a => cases h
  · rintro ⟨e, rfl, rfl⟩
    rfl

theorem mapError_bind (x : Except ε α) (f : α → Except ε β) (g : ε → δ) :
    (x >>= f).mapError g = x.mapError g >>= fun a => (f a).mapError g := by
  cases x <;> rfl

/-! ## Reasons -/

/-- **Refusal with a property**: the run succeeds, or refuses for a reason that has the
property. -/
def RefusesWith (P : ε → Prop) (x : Except ε α) : Prop := ∀ e, x = .error e → P e

namespace RefusesWith

variable {P Q : ε → Prop}

theorem ok (a : α) : RefusesWith P (.ok a) := by
  intro e h
  cases h

theorem error {e : ε} (h : P e) : RefusesWith P (.error e : Except ε α) := by
  intro e' he
  cases he
  exact h

theorem mono {x : Except ε α} (h : RefusesWith P x) (hpq : ∀ e, P e → Q e) : RefusesWith Q x :=
  fun e he => hpq e (h e he)

/-- A sequence refuses for the reasons of its parts; the second part is judged on the results of
the first. -/
theorem bind {x : Except ε α} {f : α → Except ε β} (hx : RefusesWith P x)
    (hf : ∀ a, x = .ok a → RefusesWith P (f a)) : RefusesWith P (x >>= f) := by
  cases x with
  | error e => exact error (hx e rfl)
  | ok a => exact hf a rfl

theorem map {x : Except ε α} (f : α → β) (hx : RefusesWith P x) : RefusesWith P (x.map f) := by
  cases x with
  | error e => exact error (hx e rfl)
  | ok a => exact ok (f a)

theorem mapError {Q : δ → Prop} {f : ε → δ} {x : Except ε α} (hx : RefusesWith P x)
    (hpq : ∀ e, P e → Q (f e)) : RefusesWith Q (x.mapError f) := by
  cases x with
  | error e => exact error (hpq e (hx e rfl))
  | ok a => exact ok a

/-- A check that never refuses for a reason is passed by the runs that do. -/
theorem check_bind_eq_error_iff {x : Except ε Unit} {f : Unit → Except ε β} {e : ε}
    (hx : RefusesWith P x) (he : ¬P e) : x >>= f = .error e ↔ x = .ok () ∧ f () = .error e := by
  rw [bind_eq_error_iff]
  constructor
  · rintro (h | ⟨⟨⟩, hok, h⟩)
    · exact absurd (hx e h) he
    · exact ⟨hok, h⟩
  · intro h
    exact .inr ⟨(), h⟩

/-- A result that may be missing is refused for the reason given for that. -/
theorem elim {e : ε} (h : P e) (x : Option α) : RefusesWith P (x.elim (.error e) .ok) := by
  cases x with
  | none => exact error h
  | some a => exact ok a

/-- A run succeeds, or refuses for a reason with the property. -/
theorem ok_or_error {x : Except ε α} (hx : RefusesWith P x) :
    (∃ a, x = .ok a) ∨ ∃ e, x = .error e ∧ P e := by
  cases x with
  | error e => exact .inr ⟨e, rfl, hx e rfl⟩
  | ok a => exact .inl ⟨a, rfl⟩

/-- A run that does not succeed refuses for a reason with the property. -/
theorem exists_error {x : Except ε α} (hx : RefusesWith P x) (h : ∀ a, x ≠ .ok a) :
    ∃ e, x = .error e ∧ P e := by
  cases x with
  | error e => exact ⟨e, rfl, hx e rfl⟩
  | ok a => exact absurd rfl (h a)

end RefusesWith

/-! ## Results with a property -/

/-- **A result with a property**: the run refuses, or gives a result that has the property. -/
def Yields (P : α → Prop) (x : Except ε α) : Prop := ∀ a, x = .ok a → P a

namespace Yields

variable {P : α → Prop} {Q : β → Prop}

theorem ok {a : α} (h : P a) : Yields P (.ok a : Except ε α) := by
  intro b hb
  cases hb
  exact h

theorem error (e : ε) : Yields P (.error e : Except ε α) := by
  intro a h
  cases h

theorem mono {R : α → Prop} {x : Except ε α} (h : Yields P x) (hpr : ∀ a, P a → R a) :
    Yields R x :=
  fun a ha => hpr a (h a ha)

/-- A sequence gives what its second part gives on the results of the first. -/
theorem bind {x : Except ε α} {f : α → Except ε β} (hx : Yields P x)
    (hf : ∀ a, P a → Yields Q (f a)) : Yields Q (x >>= f) := by
  cases x with
  | error e => exact error e
  | ok a => exact hf a (hx a rfl)

theorem map {x : Except ε α} {f : α → β} (hx : Yields P x) (hf : ∀ a, P a → Q (f a)) :
    Yields Q (x.map f) := by
  cases x with
  | error e => exact error e
  | ok a => exact ok (hf a (hx a rfl))

/-- **What one step preserves, a run preserves**, however many steps it takes. -/
theorem foldlM {f : α → β → Except ε α} (hf : ∀ a b, P a → Yields P (f a b)) (bs : List β) {a : α}
    (ha : P a) : Yields P (bs.foldlM f a) := by
  induction bs generalizing a with
  | nil => exact ok ha
  | cons b rest ih =>
    rw [List.foldlM_cons]
    exact .bind (hf a b ha) fun a' ha' => ih ha'

end Yields

end Bendable
