import Mathlib.Data.List.Basic
import MotionRack.Files.Path

/-!
# Joining a path twice

A path as seen from a directory, and that path as seen from the directory once more.
Two texts are told apart here, and also the steps that they describe: empty parts and
the current directory describe none, so different texts can lead to the same place.
-/
namespace MotionRack.Path

/-- What stands in front of a relative path once it is taken from a base directory. -/
def stem (base : String) : List Char :=
  if base.toList.getLast? = some '/' then base.toList else base.toList ++ ['/']

theorem join_of_isAbsolute (base : String) {path : String} (h : isAbsolute path = true) :
    join base path = path := by
  rw [join, h, Bool.true_or]
  rfl

theorem join_empty (path : String) : join "" path = path := by
  unfold join
  rw [show ("" : String).isEmpty = true from rfl, Bool.or_true]
  rfl

theorem toList_join {base path : String} (hbase : base ≠ "") (hpath : isAbsolute path = false) :
    (join base path).toList = stem base ++ path.toList := by
  have hempty : base.isEmpty = false := by
    rw [Bool.eq_false_iff]
    exact fun h => hbase (String.isEmpty_iff.mp h)
  unfold join stem
  rw [hpath, hempty, Bool.or_false, if_neg Bool.false_ne_true]
  by_cases hlast : base.toList.getLast? = some '/'
  · rw [if_pos (beq_iff_eq.mpr hlast), if_pos hlast, String.toList_append]
  · rw [if_neg (mt beq_iff_eq.mp hlast), if_neg hlast, String.toList_append, String.toList_append]
    rfl

theorem stem_ne_nil {base : String} : stem base ≠ [] := by
  unfold stem
  split
  next h => exact fun hnil => by rw [hnil] at h; cases h
  next => exact List.concat_ne_nil _ _

theorem head?_stem_append {base : String} (h : base ≠ "") (cs : List Char) :
    (stem base ++ cs).head? = base.toList.head? := by
  obtain ⟨c, rest, hbase⟩ := List.exists_cons_of_ne_nil (mt String.toList_eq_nil_iff.mp h)
  unfold stem
  split <;> rw [hbase] <;> rfl

/-- A relative path is as absolute as the directory that it is taken from. -/
theorem isAbsolute_join {base path : String} (hbase : base ≠ "")
    (hpath : isAbsolute path = false) : isAbsolute (join base path) = isAbsolute base := by
  rw [isAbsolute, toList_join hbase hpath, head?_stem_append hbase, ← isAbsolute]

/-- Taking a relative path from a directory a second time changes it, unless the
directory is absolute or there is none. -/
theorem join_join_iff (base : String) {path : String} (hpath : isAbsolute path = false) :
    join base (join base path) = join base path ↔ base = "" ∨ isAbsolute base = true := by
  constructor
  · intro h
    by_contra hnot
    obtain ⟨hbase, habsolute⟩ := not_or.mp hnot
    have hrelative : isAbsolute base = false := Bool.eq_false_iff.mpr habsolute
    have hjoin : isAbsolute (join base path) = false := by
      rw [isAbsolute_join hbase hpath, hrelative]
    have htext := congrArg String.toList h
    rw [toList_join hbase hjoin] at htext
    exact stem_ne_nil (List.append_left_eq_self.mp htext)
  · rintro (rfl | habsolute)
    · rw [join_empty, join_empty]
    · by_cases hbase : base = ""
      · rw [hbase, join_empty, join_empty]
      · exact join_of_isAbsolute base ((isAbsolute_join hbase hpath).trans habsolute)

/-! ### Steps -/

/-- The names that a path goes through. -/
def names (path : String) : List (List Char) := (Split.cut '/' path.toList).filter (!isIdle ·)

/-- Where a path starts, and the names that it goes through from there. -/
def components (path : String) : List Char × List (List Char) := (lead path.toList, names path)

theorem names_join {base path : String} (hbase : base ≠ "") (hpath : isAbsolute path = false) :
    names (join base path) = names base ++ names path := by
  unfold names
  rw [toList_join hbase hpath, stem]
  split
  next hlast =>
    -- The separator at the end of the base leaves one empty part, which is idle.
    obtain ⟨front, hfront⟩ := List.getLast?_eq_some_iff.mp hlast
    rw [hfront, List.append_assoc, List.singleton_append, Split.cut_append, Split.cut_append,
      List.filter_append, List.filter_append]
    rw [show (Split.cut '/' []).filter (!isIdle ·) = [] from rfl, List.append_nil]
  next =>
    rw [List.append_assoc, List.singleton_append, Split.cut_append, List.filter_append]

theorem lead_append {cs : List Char} (h : 2 ≤ cs.length) (rest : List Char) :
    lead (cs ++ rest) = lead cs := by
  match cs, h with
  | c :: d :: cs, _ =>
    rw [List.cons_append, List.cons_append]
    unfold lead
    grind

theorem two_le_length_stem {base : String} (hbase : base ≠ "")
    (hrelative : isAbsolute base = false) : 2 ≤ (stem base).length := by
  obtain ⟨c, rest, hcs⟩ := List.exists_cons_of_ne_nil (mt String.toList_eq_nil_iff.mp hbase)
  have hc : c ≠ '/' := by
    intro hc
    rw [isAbsolute, hcs, hc] at hrelative
    cases hrelative
  unfold stem
  split
  next hlast =>
    cases rest with
    | nil =>
      rw [hcs, List.getLast?_singleton] at hlast
      exact absurd (Option.some.inj hlast) hc
    | cons d rest =>
      rw [hcs]
      simp
  next =>
    rw [hcs]
    simp

/-- The second time leads to another place, unless the directory is absolute, or there is
none, or it is the current one in some spelling. -/
theorem components_join_join_iff (base : String) {path : String}
    (hpath : isAbsolute path = false) :
    components (join base (join base path)) = components (join base path) ↔
      base = "" ∨ isAbsolute base = true ∨ names base = [] := by
  by_cases hsame : base = "" ∨ isAbsolute base = true
  · rw [(join_join_iff base hpath).mpr hsame, ← or_assoc]
    exact iff_of_true rfl (Or.inl hsame)
  · have hnot := not_or.mp hsame
    have hbase := hnot.1
    have hrelative : isAbsolute base = false := Bool.eq_false_iff.mpr hnot.2
    have hjoin : isAbsolute (join base path) = false := by
      rw [isAbsolute_join hbase hpath, hrelative]
    have hlead : lead (join base (join base path)).toList = lead (join base path).toList := by
      have hlength := two_le_length_stem hbase hrelative
      rw [toList_join hbase hjoin, toList_join hbase hpath, lead_append hlength,
        lead_append hlength]
    unfold components
    rw [hlead, names_join hbase hjoin, Prod.mk.injEq, names_join hbase hpath,
      List.append_left_eq_self, ← or_assoc]
    constructor
    · exact fun h => Or.inr h.2
    · rintro (h | h)
      · exact absurd h hsame
      · exact ⟨rfl, h⟩

end MotionRack.Path
