import Mathlib.Data.List.Nodup
import Mathlib.Data.List.Perm.Subperm
import MotionRack.Device.Joystick
import MotionRack.Proofs.Config.FirstCollision
import MotionRack.Proofs.Sequence
import MotionRack.Proofs.Success

/-!
# Numbers in a byte

Controls and ports have numbers of one byte. An element names its number or gets the one behind the
number of the element before it, and behind 255 comes 0. Which number that is does not matter for
reading the rest of the element. Only then is it checked that the numbers of a list are different;
several lists are checked in order, and the first one with a repeated number is reported.
-/
namespace MotionRack

namespace Attribute

/-- The number that an element names. -/
def named? (key : String) (e : Element) : Option UInt8 := (e.attr? key).bind Numeral.u8?

/-- Whether an element names a number if it names anything. -/
def NamesNumber (key : String) (e : Element) : Prop :=
  ∀ raw, e.attr? key = some raw → ∃ n, Numeral.u8? raw = some n

instance (key : String) (e : Element) : Decidable (NamesNumber key e) :=
  decidable_of_iff (∀ raw ∈ e.attr? key, (Numeral.u8? raw).isSome) (by
    simp only [NamesNumber, Option.mem_def, Option.isSome_iff_exists])

/-- Elements with their numbers, modulo 256; `next` is the number of a first one that names none. -/
def withNumbers (key : String) (next : UInt8) (es : List Element) : List (UInt8 × Element) :=
  MotionRack.numbered (named? key) (· + 1) next es

theorem withNumbers_cons (key : String) (next : UInt8) (e : Element) (es : List Element) :
    withNumbers key next (e :: es) = ((named? key e).getD next, e) ::
      withNumbers key ((named? key e).getD next + 1) es :=
  rfl

theorem numbered_eq_ok {key : String} {next n : UInt8} {e : Element} :
    numbered next e key = .ok n ↔ NamesNumber key e ∧ (named? key e).getD next = n := by
  have hnamed : named? key e = ((e.attr? key).bind (Numeral.natOf? 8)).map UInt8.ofNat := by
    rw [named?, Option.map_bind]
    rfl
  have hnames : NamesNumber key e ↔
      ∀ raw, e.attr? key = some raw → ∃ n, Numeral.natOf? 8 raw = some n := by
    simp [NamesNumber, Numeral.u8?, Option.map_eq_some_iff]
  rw [numbered, bind_eq_ok, hnamed, hnames]
  constructor
  · intro ⟨found, hfound, hn⟩
    obtain ⟨number, hnumber, rfl⟩ := map_eq_ok.mp hfound
    obtain ⟨hread, rfl⟩ := natural?_eq_ok.mp hnumber
    exact ⟨hread, pure_eq_ok.mp hn⟩
  · intro ⟨hread, hn⟩
    have hnumber := natural?_eq_ok.mpr ⟨hread, rfl⟩
    exact ⟨_, map_eq_ok.mpr ⟨_, hnumber, rfl⟩, pure_eq_ok.mpr hn⟩

theorem NamesNumber.eq_getD {key : String} {e : Element} (h : NamesNumber key e) (next : UInt8)
    {raw : String} (hraw : e.attr? key = some raw) :
    Numeral.u8? raw = some ((named? key e).getD next) := by
  obtain ⟨n, hn⟩ := h raw hraw
  rw [named?, hraw, Option.bind_some, hn, Option.getD_some]

section

variable {β : Type}

/-- Whether an element that has a number was read as something that has it too. If the element names
a number, it is this one. -/
structure ReadAs (key : String) (read : UInt8 → Element → Except ConfigError β)
    (number : β → UInt8) (p : UInt8 × Element) (b : β) : Prop where
  number : number b = p.1
  named : ∀ raw, p.2.attr? key = some raw → Numeral.u8? raw = some p.1
  read : read p.1 p.2 = .ok b

/-- Whether a reader takes the number from the element or the next one, and nothing else depends on
which number comes next. -/
structure Numbers (key : String) (read : UInt8 → Element → Except ConfigError β)
    (number : β → UInt8) : Prop where
  eq_getD : ∀ {next e b}, read next e = .ok b → number b = (named? key e).getD next
  readAs : ∀ {next e b}, read next e = .ok b →
    ReadAs key read number ((named? key e).getD next, e) b
  whatever : ∀ {next e b}, read next e = .ok b → ∀ next', ∃ b', read next' e = .ok b'

/-- A reader that sets a number which it does not look at again. -/
theorem numbers_of_bind {key : String} {number : β → UInt8}
    {read : UInt8 → Element → Except ConfigError β}
    (body : UInt8 → Element → Except ConfigError β) (withNumber : UInt8 → β → β)
    (hread : ∀ next e, read next e = Attribute.numbered next e key >>= fun n => body n e)
    (hbody : ∀ n e, body n e = withNumber n <$> body 0 e)
    (hnumber : ∀ n b, number (withNumber n b) = n) : Numbers key read number := by
  have hok : ∀ {next e b}, read next e = .ok b ↔ NamesNumber key e ∧
      ∃ b₀, body 0 e = .ok b₀ ∧ withNumber ((named? key e).getD next) b₀ = b := by
    intro next e b
    rw [hread, bind_eq_ok]
    simp only [numbered_eq_ok]
    constructor
    · intro ⟨n, ⟨hnames, hn⟩, hb⟩
      rw [hbody, map_eq_ok, ← hn] at hb
      exact ⟨hnames, hb⟩
    · intro ⟨hnames, hb⟩
      refine ⟨_, ⟨hnames, rfl⟩, ?_⟩
      rw [hbody, map_eq_ok]
      exact hb
  have hagain : ∀ {e next}, (named? key e).getD ((named? key e).getD next) =
      (named? key e).getD next := by
    intro e next
    cases named? key e <;> rfl
  constructor
  · intro next e b h
    obtain ⟨-, b₀, -, rfl⟩ := hok.mp h
    exact hnumber _ b₀
  · intro next e b h
    obtain ⟨hnames, b₀, hb₀, rfl⟩ := hok.mp h
    exact ⟨hnumber _ b₀, fun raw hraw => hnames.eq_getD next hraw,
      hok.mpr ⟨hnames, b₀, hb₀, by rw [hagain]⟩⟩
  · intro next e b h next'
    obtain ⟨hnames, b₀, hb₀, -⟩ := hok.mp h
    exact ⟨_, hok.mpr ⟨hnames, b₀, hb₀, rfl⟩⟩

theorem map_number_of_forall₂ {key : String} {read : UInt8 → Element → Except ConfigError β}
    {number : β → UInt8} {ps : List (UInt8 × Element)} {bs : List β}
    (h : List.Forall₂ (ReadAs key read number) ps bs) : bs.map number = ps.map Prod.fst :=
  map_eq_of_forall₂ h fun _ _ hread => hread.number

end

end Attribute

/-- Of the numbers in a byte there are 256 different ones. -/
theorem length_le_of_nodup_uint8 {numbers : List UInt8} (h : numbers.Nodup) :
    numbers.length ≤ 256 := by
  have hnodup : (numbers.map UInt8.toNat).Nodup := List.Nodup.map (fun _ _ => UInt8.toNat_inj.mp) h
  have hrange : numbers.map UInt8.toNat ⊆ List.range 256 := by
    intro n hn
    obtain ⟨number, -, rfl⟩ := List.mem_map.mp hn
    exact List.mem_range.mpr number.toNat_lt
  have hle := (List.subperm_of_subset hnodup hrange).length_le
  rwa [List.length_map, List.length_range] at hle

/-- Numbers of which no two may be equal, with the place where they are declared and what they
number. -/
structure Numbering where
  place : String
  kind : CollisionKind
  numbers : List UInt8

namespace Numbering

/-- A value, if no number is repeated in any of several lists. The lists are checked in order. -/
def checked {β : Type} : List Numbering → β → Except ConfigError β
  | [], b => .ok b
  | l :: ls, b =>
    match Collision.unique (· == ·) l.numbers with
    | .ok _ => checked ls b
    | .error c => .error (.collision l.place l.kind c.first c.second)

/-- What is wrong with the first list that repeats a number: its first two numbers that are equal,
by their ranks in the list. -/
def FirstClash (ls : List Numbering) (fault : ConfigError) : Prop :=
  ∃ before l after c, ls = before ++ l :: after ∧ (∀ k ∈ before, k.numbers.Nodup) ∧
    Collision.IsFirst (· == ·) l.numbers c ∧
    fault = .collision l.place l.kind c.first c.second

section

variable {β γ : Type} {ls : List Numbering} {b : β}

theorem nodup_iff_pairwise {numbers : List UInt8} :
    numbers.Nodup ↔ numbers.Pairwise fun m n => (m == n) = false := by
  simp [List.Nodup]

theorem checked_nil (b : β) : checked [] b = .ok b := rfl

theorem checked_cons_of_nodup {l : Numbering} (h : l.numbers.Nodup) (ls : List Numbering) (b : β) :
    checked (l :: ls) b = checked ls b := by
  rw [checked, Collision.unique_of_pairwise (nodup_iff_pairwise.mp h)]

theorem checked_cons_of_isFirst {l : Numbering} {c : Collision}
    (h : Collision.IsFirst (· == ·) l.numbers c) (ls : List Numbering) (b : β) :
    checked (l :: ls) b = .error (.collision l.place l.kind c.first c.second) := by
  rw [checked, Collision.unique_eq_error_iff.mpr h]

theorem nodup_or_isFirst (numbers : List UInt8) :
    numbers.Nodup ∨ ∃ c, Collision.IsFirst (· == ·) numbers c := by
  cases h : Collision.unique (· == ·) numbers with
  | ok kept =>
    obtain rfl := Collision.unique_eq_ok h
    exact Or.inl (nodup_iff_pairwise.mpr (Collision.pairwise_of_unique h))
  | error c => exact Or.inr ⟨c, Collision.unique_eq_error_iff.mp h⟩

theorem not_nodup_of_isFirst {numbers : List UInt8} {c : Collision}
    (h : Collision.IsFirst (· == ·) numbers c) : ¬ numbers.Nodup := by
  intro hnodup
  have hok := Collision.unique_of_pairwise (nodup_iff_pairwise.mp hnodup)
  rw [Collision.unique_eq_error_iff.mpr h] at hok
  cases hok

/-- What comes after a check and is checked itself is checked in order. -/
theorem checked_bind (ls : List Numbering) (f : β → Except ConfigError γ) {ks : List Numbering}
    {c : γ} (h : f b = checked ks c) : checked ls b >>= f = checked (ls ++ ks) c := by
  induction ls with
  | nil => exact h
  | cons l ls ih =>
    rcases nodup_or_isFirst l.numbers with hnodup | ⟨d, hfirst⟩
    · rw [List.cons_append, checked_cons_of_nodup hnodup, checked_cons_of_nodup hnodup, ih]
    · rw [List.cons_append, checked_cons_of_isFirst hfirst, checked_cons_of_isFirst hfirst]
      rfl

theorem checked_eq_ok_iff {b' : β} :
    checked ls b = .ok b' ↔ (∀ l ∈ ls, l.numbers.Nodup) ∧ b = b' := by
  induction ls with
  | nil => simp [checked]
  | cons l ls ih =>
    rw [List.forall_mem_cons]
    rcases nodup_or_isFirst l.numbers with hnodup | ⟨c, hfirst⟩
    · rw [checked_cons_of_nodup hnodup, ih, and_iff_right hnodup]
    · rw [checked_cons_of_isFirst hfirst]
      simp [not_nodup_of_isFirst hfirst]

theorem checked_eq_error_iff {fault : ConfigError} :
    checked ls b = .error fault ↔ FirstClash ls fault := by
  unfold FirstClash
  induction ls with
  | nil => simp [checked]
  | cons l ls ih =>
    rcases nodup_or_isFirst l.numbers with hnodup | ⟨c, hfirst⟩
    · rw [checked_cons_of_nodup hnodup, ih]
      constructor
      · intro ⟨before, k, after, c, hls, hbefore, hc⟩
        refine ⟨l :: before, k, after, c, by rw [hls, List.cons_append], ?_, hc⟩
        exact List.forall_mem_cons.mpr ⟨hnodup, hbefore⟩
      · intro ⟨before, k, after, c, hls, hbefore, hfirst, hfault⟩
        cases before with
        | nil =>
          obtain ⟨rfl, rfl⟩ := List.cons.inj hls
          exact absurd hnodup (not_nodup_of_isFirst hfirst)
        | cons first before =>
          obtain ⟨rfl, rfl⟩ := List.cons.inj hls
          exact ⟨before, k, after, c, rfl, (List.forall_mem_cons.mp hbefore).2, hfirst, hfault⟩
    · rw [checked_cons_of_isFirst hfirst]
      constructor
      · intro h
        exact ⟨[], l, ls, c, rfl, List.forall_mem_nil _, hfirst, (Except.error.inj h).symm⟩
      · intro ⟨before, k, after, d, hls, hbefore, hd, hfault⟩
        cases before with
        | nil =>
          obtain ⟨rfl, rfl⟩ := List.cons.inj hls
          rw [hfault, hd.unique hfirst]
        | cons first before =>
          obtain ⟨rfl, -⟩ := List.cons.inj hls
          exact absurd (hbefore _ List.mem_cons_self) (not_nodup_of_isFirst hfirst)

/-- What has numbers is accepted exactly if the list of its numbers is. -/
theorem unique_by_number {α : Type} {collides : α → α → Bool} {number : α → UInt8}
    (hcollides : ∀ a b, collides a b = (number a == number b)) (items : List α) :
    (items.map number).Nodup ∧ Collision.unique collides items = .ok items ∨
      ∃ c, Collision.IsFirst (· == ·) (items.map number) c ∧
        Collision.unique collides items = .error c := by
  cases h : Collision.unique collides items with
  | ok kept =>
    obtain rfl := Collision.unique_eq_ok h
    refine Or.inl ⟨?_, rfl⟩
    rw [List.Nodup, List.pairwise_map]
    exact (Collision.pairwise_of_unique h).imp fun hapart => by simpa [hcollides] using hapart
  | error c =>
    have hfirst := Collision.unique_eq_error_iff.mp h
    exact Or.inr ⟨c, (Collision.isFirst_map hcollides).mpr hfirst, rfl⟩

end

end Numbering
end MotionRack
