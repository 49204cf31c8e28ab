import MotionRack.Proofs.Success

/-!
# Computations that come to the same

Two computations come to the same if both give one value or both fail. What an error says does not
count, so this is what can be said of two readings of one description in different places.
-/
namespace MotionRack

variable {ε α β : Type}

/-- Whether two computations give the same value or both fail. -/
def SameOutcome (x y : Except ε α) : Prop :=
  (∃ a, x = .ok a ∧ y = .ok a) ∨ ∃ e e', x = .error e ∧ y = .error e'

theorem sameOutcome_iff {x y : Except ε α} : SameOutcome x y ↔ x.toOption = y.toOption := by
  unfold SameOutcome
  cases x <;> cases y <;> simp [Except.toOption, eq_comm]

section

variable (x y : Except ε α)

@[simp] theorem toOption_ok (a : α) : (Except.ok a : Except ε α).toOption = some a := rfl

@[simp] theorem toOption_error (e : ε) : (Except.error e : Except ε α).toOption = none := rfl

@[simp] theorem toOption_throw (e : ε) : (throw e : Except ε α).toOption = none := rfl

@[simp] theorem toOption_pure (a : α) : (pure a : Except ε α).toOption = some a := rfl

@[simp] theorem toOption_bind (f : α → Except ε β) :
    (x >>= f).toOption = x.toOption.bind fun a => (f a).toOption := by
  cases x <;> rfl

theorem toOption_bind_congr {x y : Except ε α} {f g : α → Except ε β}
    (h : x.toOption = y.toOption) (hf : ∀ a, (f a).toOption = (g a).toOption) :
    (x >>= f).toOption = (y >>= g).toOption := by
  simp only [toOption_bind, h, hf]

@[simp] theorem toOption_map (f : α → β) : (f <$> x).toOption = x.toOption.map f := by
  cases x <;> rfl

@[simp] theorem toOption_ite {p : Prop} [Decidable p] :
    (if p then x else y).toOption = if p then x.toOption else y.toOption :=
  apply_ite _ p x y

end

theorem toOption_mapM_congr {f g : α → Except ε β} (h : ∀ a, (f a).toOption = (g a).toOption)
    (xs : List α) : (xs.mapM f).toOption = (xs.mapM g).toOption := by
  induction xs with
  | nil => rfl
  | cons x xs ih => simp [h, ih]

theorem toOption_foldlM_congr {f g : β → α → Except ε β}
    (h : ∀ b a, (f b a).toOption = (g b a).toOption) (start : β) (xs : List α) :
    (xs.foldlM f start).toOption = (xs.foldlM g start).toOption := by
  induction xs generalizing start with
  | nil => rfl
  | cons x xs ih => simp [h, ih]

end MotionRack
