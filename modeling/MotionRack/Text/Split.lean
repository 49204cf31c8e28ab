/-!
# Texts cut at a separator

Texts cut at a separator, and parts joined by it. Cutting looks for nothing but the separator, so
the parts of two texts with a separator between them are those of the first and then the others.
-/
namespace MotionRack.Split

/-- The parts between the separators; a text has one part more than separators. -/
def cut (separator : Char) : List Char → List (List Char)
  | [] => [[]]
  | c :: rest =>
    if c = separator then [] :: cut separator rest
    else match cut separator rest with
      | part :: parts => (c :: part) :: parts
      | [] => [[c]]

/-- The parts with one separator between neighbours. -/
def join (separator : Char) : List (List Char) → List Char
  | [] => []
  | [part] => part
  | part :: parts => part ++ separator :: join separator parts

theorem cut_ne_nil (separator : Char) (cs : List Char) : cut separator cs ≠ [] := by
  cases cs with
  | nil => simp [cut]
  | cons c rest =>
    rw [cut]
    split
    · simp
    · split <;> simp

theorem cut_append (separator : Char) (a b : List Char) :
    cut separator (a ++ separator :: b) = cut separator a ++ cut separator b := by
  induction a with
  | nil => simp [cut]
  | cons c a ih =>
    rw [List.cons_append, cut, cut, ih]
    by_cases hc : c = separator
    · rw [if_pos hc, if_pos hc, List.cons_append]
    · rw [if_neg hc, if_neg hc]
      cases hcut : cut separator a with
      | nil => exact absurd hcut (cut_ne_nil separator a)
      | cons part parts => rfl

/-- A text without the separator is its own only part. -/
theorem cut_of_notMem {separator : Char} {cs : List Char} (h : separator ∉ cs) :
    cut separator cs = [cs] := by
  induction cs with
  | nil => rfl
  | cons c rest ih =>
    obtain ⟨hc, hrest⟩ := not_or.mp (mt List.mem_cons.mpr h)
    rw [cut, if_neg (Ne.symm hc), ih hrest]

theorem forall_bne_of_notMem {separator : Char} {cs : List Char} (h : separator ∉ cs) :
    ∀ c ∈ cs, (c != separator) = true := by
  intro c hc
  rw [bne_iff_ne]
  rintro rfl
  exact h hc

end MotionRack.Split
