import Mathlib.Data.List.Induction
import MotionRack.Config.Attribute
import MotionRack.Proofs.Sequence

/-!
# When a computation succeeds

A result that was assembled step by step is there only if every step gave one. A number is read
from an attribute exactly if its text is one.
-/
namespace MotionRack

variable {ε α β : Type}

theorem bind_eq_ok {x : Except ε α} {f : α → Except ε β} {b : β} :
    x >>= f = .ok b ↔ ∃ a, x = .ok a ∧ f a = .ok b := by
  cases x <;> simp [bind, Except.bind]

theorem ok_bind (a : α) (f : α → Except ε β) : Except.ok a >>= f = f a := rfl

theorem pure_eq_ok {a b : α} : (pure a : Except ε α) = .ok b ↔ a = b := by
  simp [pure, Except.pure]

theorem mapError_eq_ok {ε' : Type} {x : Except ε α} {f : ε → ε'} {a : α} :
    x.mapError f = .ok a ↔ x = .ok a := by
  constructor
  · intro h
    cases x with
    | error e => cases h
    | ok b => exact congrArg _ (Except.ok.inj h)
  · rintro rfl
    rfl

theorem map_eq_ok {x : Except ε α} {f : α → β} {b : β} :
    f <$> x = .ok b ↔ ∃ a, x = .ok a ∧ f a = b := by
  cases x <;> simp [Functor.map, Except.map]

/-- What was read from an element that need not be there. -/
theorem mapM_option_eq_ok {f : α → Except ε β} {x : Option α} {y : Option β}
    (h : x.mapM f = .ok y) {b : β} (hb : y = some b) : ∃ a, x = some a ∧ f a = .ok b := by
  cases x with
  | none =>
    obtain rfl : none = y := pure_eq_ok.mp h
    cases hb
  | some a =>
    obtain ⟨b', hread, rfl⟩ := map_eq_ok.mp h
    obtain rfl := Option.some.inj hb
    exact ⟨a, rfl, hread⟩

theorem mapM_option_eq_none {f : α → Except ε β} {x : Option α} (h : x.mapM f = .ok none) :
    x = none := by
  cases x with
  | none => rfl
  | some a =>
    obtain ⟨b, _, hb⟩ := map_eq_ok.mp h
    cases hb

instance decidableExistsOk (x : Except ε α) : Decidable (∃ a, x = .ok a) :=
  match x with
  | .ok a => isTrue ⟨a, rfl⟩
  | .error _ => isFalse fun ⟨_, h⟩ => nomatch h

theorem toOption_eq_some {x : Except ε α} {a : α} : x.toOption = some a ↔ x = .ok a := by
  cases x <;> simp [Except.toOption]

/-- A property that every step keeps holds at the end of a successful fold. -/
theorem foldlM_induction {step : α → β → Except ε α} {P : α → Prop} {xs : List β}
    {start last : α} (h : xs.foldlM step start = .ok last) (hstart : P start)
    (hstep : ∀ a x b, P a → step a x = .ok b → P b) : P last := by
  induction xs generalizing start with
  | nil =>
    cases h
    exact hstart
  | cons x xs ih =>
    rw [List.foldlM_cons] at h
    obtain ⟨next, hnext, hrest⟩ := bind_eq_ok.mp h
    exact ih hrest (hstep start x next hstart hnext)

/-- Every element that a successful fold reads is read with success at some point. -/
theorem exists_step_of_foldlM {step : α → β → Except ε α} {xs : List β} {start last : α}
    (h : xs.foldlM step start = .ok last) {x : β} (hx : x ∈ xs) : ∃ a b, step a x = .ok b := by
  induction xs generalizing start with
  | nil => cases hx
  | cons y xs ih =>
    rw [List.foldlM_cons] at h
    obtain ⟨next, hnext, hrest⟩ := bind_eq_ok.mp h
    rcases List.mem_cons.mp hx with rfl | hx
    · exact ⟨start, next, hnext⟩
    · exact ih hrest hx

/-- A change of the state that no step looks at can be made in the end. -/
theorem foldlM_map_comm {step : α → β → Except ε α} {f : α → α}
    (h : ∀ a x, step (f a) x = f <$> step a x) (xs : List β) (start : α) :
    xs.foldlM step (f start) = f <$> xs.foldlM step start := by
  induction xs generalizing start with
  | nil => rfl
  | cons x xs ih =>
    rw [List.foldlM_cons, List.foldlM_cons, h]
    cases step start x with
    | error e => rfl
    | ok next => exact ih next

/-- A property of the elements read so far and of the state, which every step keeps, holds of all
elements at the end of a successful fold. -/
theorem foldlM_prefix_induction {step : α → β → Except ε α} {P : List β → α → Prop} {xs : List β}
    {start last : α} (h : xs.foldlM step start = .ok last) (hstart : P [] start)
    (hstep : ∀ seen a x b, P seen a → step a x = .ok b → P (seen ++ [x]) b) : P xs last := by
  induction xs using List.reverseRecOn generalizing last with
  | nil =>
    cases h
    exact hstart
  | append_singleton xs x ih =>
    rw [List.foldlM_append] at h
    obtain ⟨next, hnext, h⟩ := bind_eq_ok.mp h
    rw [List.foldlM_cons] at h
    obtain ⟨last', hlast, h⟩ := bind_eq_ok.mp h
    obtain rfl := pure_eq_ok.mp h
    exact hstep xs next x last' (ih hnext) hlast

/-- A fold that takes or refuses an element whatever it took before succeeds exactly if it takes
every element. -/
theorem exists_foldlM_iff {step : α → β → Except ε α} {Taken : β → Prop}
    (hstep : ∀ a x, (∃ b, step a x = .ok b) ↔ Taken x) {xs : List β} {start : α} :
    (∃ last, xs.foldlM step start = .ok last) ↔ ∀ x ∈ xs, Taken x := by
  induction xs generalizing start with
  | nil => exact iff_of_true ⟨start, rfl⟩ (List.forall_mem_nil Taken)
  | cons x xs ih =>
    rw [List.forall_mem_cons, ← hstep start x, List.foldlM_cons]
    constructor
    · rintro ⟨last, h⟩
      obtain ⟨next, hnext, hrest⟩ := bind_eq_ok.mp h
      exact ⟨⟨next, hnext⟩, ih.mp ⟨last, hrest⟩⟩
    · rintro ⟨⟨next, hnext⟩, hrest⟩
      obtain ⟨last, hlast⟩ := ih.mpr hrest
      exact ⟨last, bind_eq_ok.mpr ⟨next, hnext, hlast⟩⟩

/-- What a fold keeps of the elements that it reads, if each of them takes the place of the one
before, is what it reads from the last of them, or else what it started from. -/
theorem foldlM_last_or {γ : Type} {step : α → β → Except ε α} {kept : α → γ} {read : β → Except ε γ}
    {reads : β → Bool} {xs : List β} {start last : α} (h : xs.foldlM step start = .ok last)
    (hread : ∀ a x b, reads x = true → step a x = .ok b → read x = .ok (kept b))
    (hskip : ∀ a x b, reads x = false → step a x = .ok b → kept b = kept a) :
    ∃ o, (xs.filter reads).getLast?.mapM read = .ok o ∧ kept last = o.getD (kept start) := by
  induction xs using List.reverseRecOn generalizing last with
  | nil =>
    cases h
    exact ⟨none, rfl, rfl⟩
  | append_singleton xs x ih =>
    rw [List.foldlM_append] at h
    obtain ⟨next, hnext, h⟩ := bind_eq_ok.mp h
    rw [List.foldlM_cons] at h
    obtain ⟨last', hstep, h⟩ := bind_eq_ok.mp h
    obtain rfl := pure_eq_ok.mp h
    rw [List.filter_append]
    cases hx : reads x with
    | true => exact ⟨some (kept last'), by simp [hx, hread next x last' hx hstep], rfl⟩
    | false =>
      rw [hskip next x last' hx hstep]
      simpa [hx] using ih hnext

/-- The same of a fold that starts from nothing. -/
theorem foldlM_last {γ : Type} {step : α → β → Except ε α} {kept : α → Option γ}
    {read : β → Except ε γ} {reads : β → Bool} {xs : List β} {start last : α}
    (h : xs.foldlM step start = .ok last) (hstart : kept start = none)
    (hread : ∀ a x b, reads x = true → step a x = .ok b → ∃ v, read x = .ok v ∧ kept b = some v)
    (hskip : ∀ a x b, reads x = false → step a x = .ok b → kept b = kept a) :
    (xs.filter reads).getLast?.mapM read = .ok (kept last) := by
  have hsome : ∀ a x b, reads x = true → step a x = .ok b → some <$> read x = .ok (kept b) :=
    fun a x b hx hstep => by
      obtain ⟨v, hv, hkept⟩ := hread a x b hx hstep
      rw [hv, hkept]
      rfl
  obtain ⟨o, ho, hlast⟩ := foldlM_last_or h hsome hskip
  rw [hlast, hstart]
  cases hx : (xs.filter reads).getLast? with
  | none =>
    rw [hx] at ho
    cases ho
    rfl
  | some x =>
    rw [hx] at ho
    obtain ⟨w, hw, rfl⟩ := map_eq_ok.mp ho
    obtain ⟨v, hv, rfl⟩ := map_eq_ok.mp hw
    exact map_eq_ok.mpr ⟨v, hv, rfl⟩

/-- What a fold collects from the elements that it reads is what is read from them, in order. -/
theorem foldlM_collect {γ : Type} {step : α → β → Except ε α} {kept : α → List γ}
    {read : β → Except ε γ} {reads : β → Bool} {xs : List β} {start last : α}
    (h : xs.foldlM step start = .ok last)
    (hread : ∀ a x b, reads x = true → step a x = .ok b →
      ∃ v, read x = .ok v ∧ kept b = kept a ++ [v])
    (hskip : ∀ a x b, reads x = false → step a x = .ok b → kept b = kept a) :
    ∃ vs, (xs.filter reads).mapM read = .ok vs ∧ kept last = kept start ++ vs := by
  induction xs generalizing start with
  | nil =>
    cases h
    exact ⟨[], rfl, (List.append_nil _).symm⟩
  | cons x xs ih =>
    rw [List.foldlM_cons] at h
    obtain ⟨next, hnext, h⟩ := bind_eq_ok.mp h
    obtain ⟨vs, hvs, hkept⟩ := ih h
    cases hx : reads x with
    | true =>
      obtain ⟨v, hv, hnew⟩ := hread start x next hx hnext
      refine ⟨v :: vs, ?_, by rw [hkept, hnew, List.append_assoc, List.singleton_append]⟩
      rw [List.filter_cons_of_pos hx, List.mapM_cons, hv, hvs]
      rfl
    | false =>
      refine ⟨vs, ?_, by rw [hkept, hskip start x next hx hnext]⟩
      rw [List.filter_cons_of_neg (by simp [hx]), hvs]

/-- The results of a traversal are those of its steps, one by one. -/
theorem forall₂_of_mapM {f : α → Except ε β} {xs : List α} {ys : List β}
    (h : xs.mapM f = .ok ys) : List.Forall₂ (fun x y => f x = .ok y) xs ys := by
  induction xs generalizing ys with
  | nil =>
    rw [List.mapM_nil] at h
    cases h
    exact .nil
  | cons x xs ih =>
    rw [List.mapM_cons] at h
    obtain ⟨y, hy, h⟩ := bind_eq_ok.mp h
    obtain ⟨rest, hrest, h⟩ := bind_eq_ok.mp h
    obtain rfl := pure_eq_ok.mp h
    exact .cons hy (ih hrest)

/-- Every result of a traversal is the result of one of its steps. -/
theorem exists_of_mem_mapM {f : α → Except ε β} {xs : List α} {ys : List β}
    (h : xs.mapM f = .ok ys) {y : β} (hy : y ∈ ys) : ∃ x ∈ xs, f x = .ok y :=
  exists_of_mem_forall₂ (forall₂_of_mapM h) hy

/-- What holds of the result of every step holds of all results of a traversal. -/
theorem forall_of_mapM {f : α → Except ε β} {P : β → Prop} {xs : List α} {ys : List β}
    (h : xs.mapM f = .ok ys) (hf : ∀ x y, f x = .ok y → P y) : ∀ y ∈ ys, P y := by
  intro y hy
  obtain ⟨x, _, hx⟩ := exists_of_mem_mapM h hy
  exact hf x y hx

theorem mem_mapM_iff {f : α → Except ε β} {xs : List α} {ys : List β} (h : xs.mapM f = .ok ys)
    {y : β} : y ∈ ys ↔ ∃ x ∈ xs, f x = .ok y := by
  refine ⟨exists_of_mem_mapM h, ?_⟩
  rintro ⟨x, hx, hy⟩
  obtain ⟨before, after, rfl⟩ := List.append_of_mem hx
  rw [List.mapM_append] at h
  obtain ⟨front, _, h⟩ := bind_eq_ok.mp h
  obtain ⟨back, hback, h⟩ := bind_eq_ok.mp h
  obtain rfl := pure_eq_ok.mp h
  rw [List.mapM_cons] at hback
  obtain ⟨z, hz, hback⟩ := bind_eq_ok.mp hback
  obtain rfl : y = z := Except.ok.inj (hy.symm.trans hz)
  obtain ⟨rest, _, hback⟩ := bind_eq_ok.mp hback
  obtain rfl := pure_eq_ok.mp hback
  exact List.mem_append_right front List.mem_cons_self

/-- A traversal whose steps give what a function gives is the map of that function. -/
theorem mapM_eq_map {f : α → Except ε β} {g : α → β} {xs : List α} {ys : List β}
    (hf : ∀ x y, f x = .ok y → g x = y) (h : xs.mapM f = .ok ys) : xs.map g = ys := by
  have hsame := map_eq_of_forall₂ (g := id) (forall₂_of_mapM h) fun x y hy => (hf x y hy).symm
  rw [← hsame, List.map_id]

/-- What is counted among the results of a traversal can be counted before it. -/
theorem countP_of_mapM {f : α → Except ε β} {p : α → Bool} {q : β → Bool} {xs : List α}
    {ys : List β} (h : xs.mapM f = .ok ys) (hf : ∀ x y, f x = .ok y → q y = p x) :
    ys.countP q = xs.countP p := by
  have hcount := congrArg (List.countP id) (map_eq_of_forall₂ (forall₂_of_mapM h) hf)
  rwa [List.countP_map, List.countP_map] at hcount

/-- The same of a traversal in which every result has a say in how the next one is numbered. -/
theorem forall_of_numbered {ν : Type} (run : ν → List α → Except ε (List β))
    (read : ν → α → Except ε β) (next : ν → β → ν) {P : β → Prop} (hnil : ∀ n, run n [] = .ok [])
    (hcons : ∀ n x xs, run n (x :: xs) =
      read n x >>= fun y => run (next n y) xs >>= fun ys => pure (y :: ys))
    (hread : ∀ n x y, read n x = .ok y → P y) {n : ν} {xs : List α} {ys : List β}
    (h : run n xs = .ok ys) : ∀ y ∈ ys, P y := by
  induction xs generalizing n ys with
  | nil =>
    rw [hnil] at h
    cases h
    exact List.forall_mem_nil P
  | cons x xs ih =>
    rw [hcons] at h
    obtain ⟨y, hy, h⟩ := bind_eq_ok.mp h
    obtain ⟨rest, hrest, h⟩ := bind_eq_ok.mp h
    obtain rfl := pure_eq_ok.mp h
    exact List.forall_mem_cons.mpr ⟨hread n x y hy, ih hrest⟩

/-- The last result of a traversal is that of its last step. -/
theorem getLast?_of_mapM {f : α → Except ε β} {xs : List α} {ys : List β}
    (h : xs.mapM f = .ok ys) : xs.getLast?.mapM f = .ok ys.getLast? := by
  induction xs using List.reverseRecOn generalizing ys with
  | nil =>
    rw [List.mapM_nil] at h
    cases h
    rfl
  | append_singleton xs x _ =>
    rw [List.mapM_append] at h
    obtain ⟨front, _, h⟩ := bind_eq_ok.mp h
    obtain ⟨back, hback, h⟩ := bind_eq_ok.mp h
    obtain rfl := pure_eq_ok.mp h
    rw [List.mapM_cons] at hback
    obtain ⟨y, hy, hback⟩ := bind_eq_ok.mp hback
    obtain ⟨rest, hrest, hback⟩ := bind_eq_ok.mp hback
    obtain rfl := pure_eq_ok.mp hback
    rw [List.mapM_nil] at hrest
    cases hrest
    simp [hy]

/-- A traversal succeeds exactly if every step does. -/
theorem exists_mapM_iff {f : α → Except ε β} {xs : List α} :
    (∃ ys, xs.mapM f = .ok ys) ↔ ∀ x ∈ xs, ∃ y, f x = .ok y := by
  induction xs with
  | nil => exact iff_of_true ⟨[], List.mapM_nil⟩ (List.forall_mem_nil _)
  | cons x xs ih =>
    rw [List.forall_mem_cons, ← ih, List.mapM_cons]
    constructor
    · rintro ⟨ys, h⟩
      obtain ⟨y, hy, h⟩ := bind_eq_ok.mp h
      obtain ⟨rest, hrest, _⟩ := bind_eq_ok.mp h
      exact ⟨⟨y, hy⟩, rest, hrest⟩
    · rintro ⟨⟨y, hy⟩, rest, hrest⟩
      exact ⟨y :: rest, by rw [hy, hrest]; rfl⟩

theorem mapM_eq_error {f : α → Except ε β} {before after : List α} {x : α} {e : ε}
    (hbefore : ∀ y ∈ before, ∃ v, f y = .ok v) (hx : f x = .error e) :
    (before ++ x :: after).mapM f = .error e := by
  induction before with
  | nil =>
    rw [List.nil_append, List.mapM_cons, hx]
    rfl
  | cons y before ih =>
    obtain ⟨⟨v, hv⟩, hrest⟩ := List.forall_mem_cons.mp hbefore
    rw [List.cons_append, List.mapM_cons, hv, ih hrest]
    rfl

/-- The error of a traversal is that of the first step that fails. -/
theorem mapM_eq_error_iff {f : α → Except ε β} {xs : List α} {e : ε} :
    xs.mapM f = .error e ↔ ∃ before x after, xs = before ++ x :: after ∧
      (∀ y ∈ before, ∃ v, f y = .ok v) ∧ f x = .error e := by
  constructor
  · intro h
    induction xs with
    | nil =>
      rw [List.mapM_nil] at h
      cases h
    | cons first rest ih =>
      rw [List.mapM_cons] at h
      cases hfirst : f first with
      | error e' =>
        rw [hfirst] at h
        cases h
        exact ⟨[], first, rest, rfl, List.forall_mem_nil _, hfirst⟩
      | ok v =>
        cases hrest : rest.mapM f with
        | error e' =>
          rw [hfirst, hrest] at h
          cases h
          obtain ⟨before, x, after, rfl, hbefore, hx⟩ := ih hrest
          have hall : ∀ y ∈ first :: before, ∃ v, f y = .ok v :=
            List.forall_mem_cons.mpr ⟨⟨v, hfirst⟩, hbefore⟩
          exact ⟨first :: before, x, after, rfl, hall, hx⟩
        | ok ys =>
          rw [hfirst, hrest] at h
          cases h
  · rintro ⟨before, x, after, rfl, hbefore, hx⟩
    exact mapM_eq_error hbefore hx

/-- A traversal succeeds if every step does; otherwise its error is that of a step. -/
theorem mapM_cases (f : α → Except ε β) (xs : List α) :
    (∃ ys, xs.mapM f = .ok ys ∧ ∀ x ∈ xs, ∃ y, f x = .ok y) ∨
      ∃ e, xs.mapM f = .error e ∧ ∃ x ∈ xs, f x = .error e := by
  cases h : xs.mapM f with
  | ok ys => exact Or.inl ⟨ys, rfl, exists_mapM_iff.mp ⟨ys, h⟩⟩
  | error e =>
    obtain ⟨before, x, after, rfl, _, hx⟩ := mapM_eq_error_iff.mp h
    exact Or.inr ⟨e, rfl, x, List.mem_append_right before List.mem_cons_self, hx⟩

/-- A traversal in which no step fails. -/
theorem mapM_eq_some {f : α → Option β} {g : α → β} {xs : List α}
    (h : ∀ x ∈ xs, f x = some (g x)) : xs.mapM f = some (xs.map g) := by
  induction xs with
  | nil => rfl
  | cons x xs ih =>
    obtain ⟨hx, hxs⟩ := List.forall_mem_cons.mp h
    rw [List.mapM_cons, hx, ih hxs]
    rfl

/-! ### Attributes -/

/-- Reading an attribute succeeds exactly if it is there. -/
theorem Attribute.text_eq_ok {e : Element} {key value : String} :
    Attribute.text e key = .ok value ↔ e.attr? key = some value := by
  rw [Attribute.text]
  cases e.attr? key <;> simp

theorem Attribute.orMalformed_eq_ok {α : Type} {e : Element} {key raw : String} {found : Option α}
    {value : α} : Attribute.orMalformed e key raw found = .ok value ↔ found = some value := by
  cases found <;> simp [Attribute.orMalformed]

theorem Numeral.natOf?_lt {bits n : Nat} {raw : String} (h : natOf? bits raw = some n) :
    n < pow2 bits :=
  of_decide_eq_true (Option.filter_eq_some_iff.mp h).2

theorem Numeral.i32?_lt {raw : String} {v : Int} (h : i32? raw = some v) : v < pow2 31 :=
  (of_decide_eq_true (Option.filter_eq_some_iff.mp h).2).2

theorem Attribute.natural_eq_ok {bits n : Nat} {e : Element} {key : String} :
    natural bits e key = .ok n ↔ (e.attr? key).bind (Numeral.natOf? bits) = some n := by
  simp only [natural, bind_eq_ok, text_eq_ok, orMalformed_eq_ok, Option.bind_eq_some_iff]

theorem Attribute.exists_u16_iff {e : Element} {key : String} :
    (∃ v, u16 e key = .ok v) ↔
      ∃ raw n, e.attr? key = some raw ∧ Numeral.natOf? 16 raw = some n := by
  simp only [u16, map_eq_ok, natural_eq_ok, Option.bind_eq_some_iff]
  constructor
  · rintro ⟨v, n, ⟨raw, hraw, hn⟩, -⟩
    exact ⟨raw, n, hraw, hn⟩
  · rintro ⟨raw, n, hraw, hn⟩
    exact ⟨_, n, ⟨raw, hraw, hn⟩, rfl⟩

/-- An attribute that may be missing has no value exactly if it is missing. -/
theorem Attribute.natural?_eq_none (bits : Nat) {e : Element} {key : String} :
    Attribute.natural? bits e key = .ok none ↔ e.hasAttr key = false := by
  unfold natural?
  cases e.hasAttr key with
  | false => exact iff_of_true rfl rfl
  | true => cases natural bits e key <;> simp [Functor.map, Except.map]

theorem Attribute.u8?_eq_none {e : Element} {key : String} :
    Attribute.u8? e key = .ok none ↔ e.hasAttr key = false := by
  simp [u8?, map_eq_ok, ← natural?_eq_none 8]

theorem Attribute.u16?_eq_none {e : Element} {key : String} :
    Attribute.u16? e key = .ok none ↔ e.hasAttr key = false := by
  simp [u16?, map_eq_ok, ← natural?_eq_none 16]

/-- A number that may be missing is read exactly if it is missing or a number. -/
theorem Attribute.natural?_eq_ok {bits : Nat} {e : Element} {key : String} {found : Option Nat} :
    natural? bits e key = .ok found ↔
      (∀ raw, e.attr? key = some raw → ∃ n, Numeral.natOf? bits raw = some n) ∧
        found = (e.attr? key).bind (Numeral.natOf? bits) := by
  unfold natural? natural text Element.hasAttr
  cases e.attr? key with
  | none => simp [eq_comm]
  | some raw =>
    cases hn : Numeral.natOf? bits raw with
    | none => simp [map_eq_ok, bind_eq_ok, orMalformed, hn]
    | some n =>
      simp only [Option.isSome_some, if_true, map_eq_ok, bind_eq_ok, orMalformed]
      simp [hn, eq_comm]

theorem Attribute.u16?_eq_ok {e : Element} {key : String} {found : Option UInt16} :
    u16? e key = .ok found ↔
      (∀ raw, e.attr? key = some raw → ∃ n, Numeral.natOf? 16 raw = some n) ∧
        found = ((e.attr? key).bind (Numeral.natOf? 16)).map UInt16.ofNat := by
  simp only [u16?, map_eq_ok, natural?_eq_ok]
  constructor
  · rintro ⟨_, ⟨hread, rfl⟩, rfl⟩
    exact ⟨hread, rfl⟩
  · rintro ⟨hread, rfl⟩
    exact ⟨_, ⟨hread, rfl⟩, rfl⟩

end MotionRack
