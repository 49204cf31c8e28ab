import MotionRack.Proofs.Device.Origin
import Mathlib.Data.List.Forall2

/-!
# Stages in segments

A stage may come in documents of their own for its sections, each with the number of its section.
Read from them it is the stage that one element with these sections gives, in whatever order the
documents are given and whatever else is among them; of several documents for one section the last
one counts.
-/
namespace MotionRack

namespace SectionId

/-- The number of a section in the documents for one section each. -/
def number (id : SectionId) : Int := all.idxOf id

theorem ofInt?_eq_some_iff {n : Int} {id : SectionId} : ofInt? n = some id ↔ n = id.number := by
  constructor
  · intro h
    unfold ofInt? at h
    split at h
    next hn =>
      obtain ⟨hlt, hget⟩ := List.getElem?_eq_some_iff.mp h
      have hidx : all.idxOf id = n.toNat := by
        rw [← hget]
        exact List.Nodup.idxOf_getElem (by decide) n.toNat hlt
      rw [number, hidx, Int.toNat_of_nonneg hn]
    next => cases h
  · rintro rfl
    cases id <;> rfl

end SectionId

namespace Sections

/-! ### Segments -/

/-- Whether a document is a segment: a `Struct` whose signature tells a number, and with data. -/
def IsSegment (document : Element) (number : Int) (data : Element) : Prop :=
  document.name = "Struct" ∧ document.child? "Data" = some data ∧
    ∃ signature tag raw, document.child? "Signature" = some signature ∧
      signature.child? "StructID" = some tag ∧ tag.attr? "value" = some raw ∧
      Numeral.i32? raw = some number

/-- Whether a document is no segment, or one with a number that no section has. -/
def Foreign (document : Element) : Prop :=
  ∀ (id : SectionId) data, ¬ IsSegment document id.number data

/-- Whether a document is the segment of a section of an element: its data has the children of the
first child for that section. -/
def Holds (e : Element) (id : SectionId) (document : Element) : Prop :=
  ∃ part data, e.child? id.elementName = some part ∧ IsSegment document id.number data ∧
    Element.agreesAll data.children part.children = true

/-- The sections that are present in an element. -/
def present (e : Element) : List SectionId :=
  SectionId.all.filter fun id => (e.child? id.elementName).isSome

theorem select?_struct {document found : Element} {name : String} {query : String}
    (hquery : Element.Query.parse query = .absolute ["Struct", name]) :
    document.select? query = some found ↔
      document.name = "Struct" ∧ document.child? name = some found := by
  rw [Element.select?, hquery, Element.run?]
  by_cases hname : "Struct" = document.name
  · rw [if_pos hname, Element.walk?, ← hname]
    cases document.child? name <;> simp [Element.walk?]
  · rw [if_neg hname]
    simp [Ne.symm hname]

theorem segment?_eq_some_iff {document data : Element} {id : SectionId} :
    segment? document = some (id, data) ↔ IsSegment document id.number data := by
  have hsignature : ∀ found, document.select? "/Struct/Signature" = some found ↔
      document.name = "Struct" ∧ document.child? "Signature" = some found :=
    fun found => select?_struct rfl
  have hdata : ∀ found, document.select? "/Struct/Data" = some found ↔
      document.name = "Struct" ∧ document.child? "Data" = some found :=
    fun found => select?_struct rfl
  simp only [segment?, IsSegment, Option.bind_eq_bind, Option.pure_def, Option.bind_eq_some_iff,
    hsignature, hdata, Option.some.injEq, Prod.mk.injEq, SectionId.ofInt?_eq_some_iff]
  constructor
  · rintro ⟨signature, ⟨hname, hsig⟩, found, ⟨-, hfound⟩, tag, htag, raw, hraw, n, hn, id', hid,
      rfl, rfl⟩
    exact ⟨hname, hfound, signature, tag, raw, hsig, htag, hraw, hid ▸ hn⟩
  · rintro ⟨hname, hfound, signature, tag, raw, hsig, htag, hraw, hn⟩
    exact ⟨signature, ⟨hname, hsig⟩, data, ⟨hname, hfound⟩, tag, htag, raw, hraw, _, hn, id, rfl,
      rfl, rfl⟩

theorem foreign_iff {document : Element} : Foreign document ↔ segment? document = none := by
  rw [Option.eq_none_iff_forall_ne_some, Prod.forall]
  exact forall₂_congr fun id data => not_congr segment?_eq_some_iff.symm

instance : DecidablePred Foreign := fun _ => decidable_of_iff _ foreign_iff.symm

/-! ### Whatever the order -/

section

variable {e : Element} {ids : List SectionId} {segments : List Element} {id : SectionId}
  (h : List.Forall₂ (Holds e) ids segments)

include h

theorem filter_segments_of_not_mem (hid : id ∉ ids) :
    (segments.filterMap segment?).filter (·.1 == id) = [] := by
  induction h with
  | nil => rfl
  | @cons own document ids segments hholds hrest ih =>
    obtain ⟨-, data, -, hsegment, -⟩ := hholds
    rw [List.mem_cons, not_or] at hid
    obtain ⟨hother, hid⟩ := hid
    rw [List.filterMap_cons_some (segment?_eq_some_iff.mpr hsegment),
      List.filter_cons_of_neg (by simpa using Ne.symm hother), ih hid]

theorem filter_segments_of_mem (hnodup : ids.Nodup) (hid : id ∈ ids) :
    ∃ part data, e.child? id.elementName = some part ∧
      Element.agreesAll data.children part.children = true ∧
      (segments.filterMap segment?).filter (·.1 == id) = [(id, data)] := by
  induction h with
  | nil => exact absurd hid List.not_mem_nil
  | @cons own document ids segments hholds hrest ih =>
    obtain ⟨part, data, hpart, hsegment, hagrees⟩ := hholds
    obtain ⟨hown, hnodup⟩ := List.nodup_cons.mp hnodup
    rw [List.filterMap_cons_some (segment?_eq_some_iff.mpr hsegment)]
    by_cases hsame : own = id
    · subst hsame
      refine ⟨part, data, hpart, hagrees, ?_⟩
      rw [List.filter_cons_of_pos (by simp), filter_segments_of_not_mem hrest hown]
    · rw [List.filter_cons_of_neg (by simpa using hsame)]
      exact ih hnodup ((List.mem_cons.mp hid).resolve_left (Ne.symm hsame))

end

theorem mem_present {e : Element} {id : SectionId} :
    id ∈ present e ↔ (e.child? id.elementName).isSome := by
  have hall : id ∈ SectionId.all := by cases id <;> decide
  rw [present, List.mem_filter, and_iff_right hall]

theorem nodup_present (e : Element) : (present e).Nodup :=
  (by decide : SectionId.all.Nodup).filter _

/-- Documents with one segment for each section of an element hold what its sections hold. -/
theorem inner_ofDocuments {e : Element} {documents segments others : List Element}
    (hperm : documents.Perm (segments ++ others))
    (hholds : List.Forall₂ (Holds e) (present e) segments)
    (hothers : ∀ document ∈ others, Foreign document) :
    (ofDocuments documents).inner = (ofElement e).inner := by
  funext id
  have hnone : others.filterMap segment? = [] :=
    List.filterMap_eq_nil_iff.mpr fun document hmem => foreign_iff.mp (hothers document hmem)
  have hfound : ((segments.filterMap segment?).filter (·.1 == id)).Perm
      ((documents.filterMap segment?).filter (·.1 == id)) := by
    have hall := (hperm.filterMap segment?).symm
    rw [List.filterMap_append, hnone, List.append_nil] at hall
    exact hall.filter _
  rw [inner, inner, ofDocuments, ofElement]
  by_cases hid : id ∈ present e
  · obtain ⟨part, data, hpart, hagrees, hone⟩ :=
      filter_segments_of_mem hholds (nodup_present e) hid
    rw [hone] at hfound
    rw [← List.singleton_perm.mp hfound, hpart]
    exact congrArg some (Element.inner_eq_of_agreesAll hagrees)
  · rw [filter_segments_of_not_mem hholds hid] at hfound
    rw [List.nil_perm.mp hfound]
    have hpart : e.child? id.elementName = none := by
      rwa [mem_present, Option.not_isSome_iff_eq_none] at hid
    rw [hpart]
    rfl

/-! ### Several documents for one section -/

/-- Whether a document is a segment for a section. -/
def Carries (id : SectionId) (document : Element) : Prop :=
  ∃ data, IsSegment document id.number data

instance (id : SectionId) : DecidablePred (Carries id) := fun document =>
  decidable_of_iff ((segment? document).map (·.1) = some id) (by
    simp only [Carries, ← segment?_eq_some_iff, Option.map_eq_some_iff, Prod.exists,
      exists_and_right, exists_eq_right])

/-- Documents without those for a section that have another one for it behind them. -/
def latest (id : SectionId) : List Element → List Element
  | [] => []
  | document :: rest =>
    if Carries id document ∧ ∃ later ∈ rest, Carries id later then latest id rest
    else document :: latest id rest

theorem ofDocuments_cons (document : Element) (rest : List Element) (id : SectionId) :
    ofDocuments (document :: rest) id = (ofDocuments rest id).or
      (((segment? document).filter (·.1 == id)).map (·.2)) := by
  rw [ofDocuments, ofDocuments]
  cases hsegment : segment? document with
  | none =>
    rw [List.filterMap_cons_none hsegment]
    simp
  | some found =>
    rw [List.filterMap_cons_some hsegment]
    by_cases hid : found.1 = id
    · rw [List.filter_cons_of_pos (by simpa using hid), List.getLast?_cons]
      cases ((rest.filterMap segment?).filter (·.1 == id)).getLast? <;> simp [Option.filter, hid]
    · have hnone : (some found).filter (·.1 == id) = none := by simp [Option.filter, hid]
      rw [List.filter_cons_of_neg (by simpa using hid), hnone, Option.map_none, Option.or_none]

theorem isSome_ofDocuments {documents : List Element} {id : SectionId} {document : Element}
    (hmem : document ∈ documents) (h : Carries id document) :
    (ofDocuments documents id).isSome := by
  obtain ⟨data, hsegment⟩ := h
  have hfound : (id, data) ∈ (documents.filterMap segment?).filter (·.1 == id) := by
    rw [List.mem_filter, List.mem_filterMap]
    exact ⟨⟨document, hmem, segment?_eq_some_iff.mpr hsegment⟩, by simp⟩
  rw [ofDocuments, Option.isSome_map, List.getLast?_isSome]
  exact List.ne_nil_of_mem hfound

theorem ofDocuments_latest (id : SectionId) (documents : List Element) :
    ofDocuments (latest id documents) = ofDocuments documents := by
  induction documents with
  | nil => rfl
  | cons document rest ih =>
    rw [latest]
    split
    next h =>
      obtain ⟨⟨data, hsegment⟩, later, hlater, hcarries⟩ := h
      rw [ih]
      funext id'
      rw [ofDocuments_cons, segment?_eq_some_iff.mpr hsegment]
      by_cases hid : id = id'
      · subst hid
        rw [Option.or_of_isSome (isSome_ofDocuments hlater hcarries)]
      · simp [Option.filter, hid]
    next =>
      funext id'
      rw [ofDocuments_cons, ofDocuments_cons, ih]

end Sections

/-! ### Segments and one element -/

namespace StageParameters

/-- Documents that hold the sections of an element, one each, give the stage that the element
gives, whatever their order is and whatever else is among them; those for a section that are
followed by another one for it can be left out. -/
theorem segments_agree (slot : UInt16) :
    (∀ (e : Element) (documents segments others : List Element),
      documents.Perm (segments ++ others) →
      List.Forall₂ (Sections.Holds e) (Sections.present e) segments →
      (∀ document ∈ others, Sections.Foreign document) →
      ∀ stage, ofDocuments documents slot = .ok stage ↔ ofElement e slot = .ok stage) ∧
    ∀ (id : SectionId) (documents : List Element),
      ofDocuments documents slot = ofDocuments (Sections.latest id documents) slot := by
  constructor
  · intro e documents segments others hperm hholds hothers stage
    rw [← toOption_eq_some, ← toOption_eq_some, ofDocuments, ofElement, ← toOption_ofSections,
      Sections.inner_ofDocuments hperm hholds hothers, toOption_ofSections]
  · intro id documents
    rw [ofDocuments, ofDocuments, Sections.ofDocuments_latest]

section

open Document (unplaced)

/-- A child with a value. -/
def field (name value : String) : Element := unplaced name [("value", value)] []

/-- The data of a segment. -/
def segmentData (fields : List Element) : Element := unplaced "Data" [("size", "1")] fields

/-- A segment with the number of a section and the children of its data. -/
def segment (number : String) (fields : List Element) : Element :=
  unplaced "Struct" [] [unplaced "Signature" [] [field "StructID" number], segmentData fields]

/-- Gains of a controller. -/
def gains : List Element :=
  [field "Kp" "1", field "Ki" "2", field "Kd" "3", field "IMax" "4", field "FilterControl" "5"]

/-- A stage that tells its gains and, twice, its deadband. -/
def tunedStage : Element :=
  unplaced "StageParameters" [] [unplaced "PID" [] gains,
    unplaced "Store" [] [field "Deadband" "3"], unplaced "Store" [] [field "Deadband" "x"]]

/-- The same stage in segments, with a remark and a segment of no section among them. -/
def tunedSegments : List Element :=
  [segment "8" [field "Deadband" "3"], unplaced "Remark" [] [], segment "42" [], segment "7" gains]

/-- The segments give the frames of the stage, also when one for another deadband comes first. -/
theorem segments_agree_tuned :
    ∃ stage, ofElement tunedStage 3 = .ok stage ∧ stage.frames.length = 3 ∧
      ofDocuments tunedSegments 3 = .ok stage ∧
      ofDocuments (segment "8" [field "Deadband" "9"] :: tunedSegments) 3 = .ok stage := by
  obtain ⟨hagree, hlatest⟩ := segments_agree 3
  have hholds : List.Forall₂ (Sections.Holds tunedStage) (Sections.present tunedStage)
      [segment "7" gains, segment "8" [field "Deadband" "3"]] := by
    refine .cons ⟨_, segmentData gains, rfl, ?_, by decide⟩
      (.cons ⟨_, segmentData [field "Deadband" "3"], rfl, ?_, by decide⟩ .nil)
    · exact Sections.segment?_eq_some_iff.mp rfl
    · exact Sections.segment?_eq_some_iff.mp rfl
  have hsame := hagree tunedStage tunedSegments
    [segment "7" gains, segment "8" [field "Deadband" "3"]]
    [unplaced "Remark" [] [], segment "42" []] (by decide) hholds (by decide)
  have hwhole : ∃ stage, ofElement tunedStage 3 = .ok stage ∧ stage.frames.length = 3 :=
    ⟨_, rfl, rfl⟩
  obtain ⟨stage, hstage, hframes⟩ := hwhole
  refine ⟨stage, hstage, hframes, (hsame stage).mpr hstage, ?_⟩
  rw [hlatest .store]
  exact (hsame stage).mpr hstage

end

end StageParameters
end MotionRack
