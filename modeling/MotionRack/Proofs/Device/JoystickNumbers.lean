import MotionRack.Document.Reader
import MotionRack.Proofs.Device.Joystick
import MotionRack.Proofs.Device.Numbering

/-!
# Numbers of joysticks

The inputs of a joystick are numbered apart from its outputs, and the ports of a rack apart from
both, in whatever order they are declared. If all elements can be read, what is left to go wrong is
that two inputs or two outputs of a joystick, or two ports, have one number. The joysticks are
looked at in order, inputs before outputs, and the ports last.
-/
namespace MotionRack

open Attribute (NamesNumber ReadAs Numbers named? withNumbers)

/-! ### Reading whatever the number is -/

namespace InMap

def withNumber (n : UInt8) (m : InMap) : InMap := { m with control := n }

theorem withChild_withNumber (n : UInt8) (m : InMap) (c : Element) :
    (m.withNumber n).withChild c = withNumber n <$> m.withChild c := by
  unfold withChild
  split_ifs
  case neg => rfl
  all_goals
    rw [map_bind]
    rfl

theorem numbers_ofElement : Numbers "control" ofElement InMap.control := by
  apply Attribute.numbers_of_bind (fun n e => e.children.foldlM withChild { control := n })
    withNumber
  · intro next e
    rfl
  · intro n e
    exact foldlM_map_comm (withChild_withNumber n) e.children { control := 0 }
  · intro n m
    rfl

theorem collides_eq (a b : InMap) : collides a b = (a.control == b.control) := rfl

end InMap

namespace OutMap

def Partial.withNumber (n : UInt8) (p : Partial) : Partial := { p with map.control := n }

def withNumber (n : UInt8) (m : OutMap) : OutMap := { m with control := n }

theorem withChild_withNumber (n : UInt8) (p : Partial) (c : Element) :
    withChild (p.withNumber n) c = Partial.withNumber n <$> withChild p c := by
  by_cases hname : c.name = "ColorID"
  · simp only [withChild, hname, String.reduceEq, if_false, if_true]
    show (p.colours.position p.next c >>= _) = _
    rw [map_bind]
    congr 1
    funext position
    split_ifs
    · rfl
    · rw [map_bind]
      rfl
  · unfold withChild
    split_ifs
    case neg => rfl
    all_goals
      rw [map_bind]
      rfl

theorem numbers_ofElement : Numbers "control" ofElement OutMap.control := by
  apply Attribute.numbers_of_bind
    (fun n e => e.children.foldlM withChild { map := { control := n } } >>= fun p =>
      pure { p.map with colours := p.colours.toList }) withNumber
  · intro next e
    rfl
  · intro n e
    have hfold : e.children.foldlM withChild { map := { control := n } } = _ :=
      foldlM_map_comm (withChild_withNumber n) e.children { map := { control := 0 } }
    rw [hfold, map_bind, bind_map_left]
    rfl
  · intro n m
    rfl

theorem collides_eq (a b : OutMap) : collides a b = (a.control == b.control) := rfl

end OutMap

namespace JoystickPort

/-! ### The mappings of a joystick -/

/-- Whether inputs were read from elements, each with its number; `next` is the number of a first
one that names none. -/
def ReadsInputs (next : UInt8) (es : List Element) (maps : List InMap) : Prop :=
  List.Forall₂ (ReadAs "control" InMap.ofElement InMap.control) (withNumbers "control" next es) maps

/-- The same of outputs. -/
def ReadsOutputs (next : UInt8) (es : List Element) (maps : List OutMap) : Prop :=
  List.Forall₂ (ReadAs "control" OutMap.ofElement OutMap.control) (withNumbers "control" next es)
    maps

/-- Whether all mappings of a joystick can be read. -/
structure ReadableMaps (j : Element) : Prop where
  inputs : ∀ c ∈ j.childrenNamed "InMap", ∃ m, InMap.ofElement 0 c = .ok m
  outputs : ∀ c ∈ j.childrenNamed "OutMap", ∃ m, OutMap.ofElement 0 c = .ok m

instance : DecidablePred ReadableMaps := fun j =>
  decidable_of_iff ((∀ c ∈ j.childrenNamed "InMap", ∃ m, InMap.ofElement 0 c = .ok m) ∧
      ∀ c ∈ j.childrenNamed "OutMap", ∃ m, OutMap.ofElement 0 c = .ok m)
    ⟨fun h => ⟨h.1, h.2⟩, fun h => ⟨h.inputs, h.outputs⟩⟩

/-- The numbers that must be different in a joystick: those of its inputs, and those of its
outputs. -/
def mapNumberings (j : Element) : List Numbering :=
  [⟨j.location, .inputControl,
    (withNumbers "control" 0 (j.childrenNamed "InMap")).map Prod.fst⟩,
   ⟨j.location, .outputControl,
    (withNumbers "control" 0 (j.childrenNamed "OutMap")).map Prod.fst⟩]

/-- A mapping is taken whatever was taken before, if it can be read. -/
theorem exists_withControl_iff (s : Controls) (c : Element) :
    (∃ next, withControl s c = .ok next) ↔
      (c.name = "InMap" → ∃ m, InMap.ofElement 0 c = .ok m) ∧
      (c.name = "OutMap" → ∃ m, OutMap.ofElement 0 c = .ok m) := by
  constructor
  · intro ⟨next, h⟩
    rcases withControl_cases h with ⟨hname, m, hm, -⟩ | ⟨hname, m, hm, -⟩ | ⟨hin, hout, -⟩
    · exact ⟨fun _ => InMap.numbers_ofElement.whatever hm 0, fun hout => by simp [hname] at hout⟩
    · exact ⟨fun hin => by simp [hname] at hin, fun _ => OutMap.numbers_ofElement.whatever hm 0⟩
    · exact ⟨fun h => absurd h hin, fun h => absurd h hout⟩
  · intro ⟨hin, hout⟩
    unfold withControl
    split_ifs with hname hname'
    · obtain ⟨m₀, hm₀⟩ := hin hname
      obtain ⟨m, hm⟩ := InMap.numbers_ofElement.whatever hm₀ s.nextIn
      exact ⟨_, bind_eq_ok.mpr ⟨m, hm, rfl⟩⟩
    · obtain ⟨m₀, hm₀⟩ := hout hname'
      obtain ⟨m, hm⟩ := OutMap.numbers_ofElement.whatever hm₀ s.nextOut
      exact ⟨_, bind_eq_ok.mpr ⟨m, hm, rfl⟩⟩
    · exact ⟨s, rfl⟩

theorem exists_controls_iff {s : Controls} {j : Element} :
    (∃ last, j.children.foldlM withControl s = .ok last) ↔ ReadableMaps j := by
  rw [exists_foldlM_iff exists_withControl_iff]
  constructor
  · intro h
    constructor
    · intro c hc
      obtain ⟨hmem, hname⟩ := List.mem_filter.mp hc
      exact (h c hmem).1 (beq_iff_eq.mp hname)
    · intro c hc
      obtain ⟨hmem, hname⟩ := List.mem_filter.mp hc
      exact (h c hmem).2 (beq_iff_eq.mp hname)
  · intro h c hc
    constructor
    · intro hname
      exact h.inputs c (List.mem_filter.mpr ⟨hc, beq_iff_eq.mpr hname⟩)
    · intro hname
      exact h.outputs c (List.mem_filter.mpr ⟨hc, beq_iff_eq.mpr hname⟩)

/-- Inputs and outputs are counted apart, however they stand among each other. -/
theorem reads_of_controls {s last : Controls} {cs : List Element}
    (h : cs.foldlM withControl s = .ok last) :
    ∃ ins outs, last.inMaps = s.inMaps ++ ins ∧ last.outMaps = s.outMaps ++ outs ∧
      ReadsInputs s.nextIn (cs.filter (·.name == "InMap")) ins ∧
      ReadsOutputs s.nextOut (cs.filter (·.name == "OutMap")) outs := by
  induction cs generalizing s with
  | nil =>
    cases h
    exact ⟨[], [], (List.append_nil _).symm, (List.append_nil _).symm, .nil, .nil⟩
  | cons c cs ih =>
    rw [List.foldlM_cons] at h
    obtain ⟨next, hnext, h⟩ := bind_eq_ok.mp h
    obtain ⟨ins, outs, hins, houts, hreadIns, hreadOuts⟩ := ih h
    rcases withControl_cases hnext with ⟨hname, m, hm, rfl⟩ | ⟨hname, m, hm, rfl⟩ | ⟨hin, hout, rfl⟩
    · refine ⟨m :: ins, outs, by rw [hins, List.append_assoc]; rfl, houts, ?_, ?_⟩
      · rw [List.filter_cons_of_pos (by simp [hname]), ReadsInputs, Attribute.withNumbers_cons,
          ← InMap.numbers_ofElement.eq_getD hm]
        refine .cons ?_ hreadIns
        rw [InMap.numbers_ofElement.eq_getD hm]
        exact InMap.numbers_ofElement.readAs hm
      · rw [List.filter_cons_of_neg (by simp [hname])]
        exact hreadOuts
    · refine ⟨ins, m :: outs, hins, by rw [houts, List.append_assoc]; rfl, ?_, ?_⟩
      · rw [List.filter_cons_of_neg (by simp [hname])]
        exact hreadIns
      · rw [List.filter_cons_of_pos (by simp [hname]), ReadsOutputs, Attribute.withNumbers_cons,
          ← OutMap.numbers_ofElement.eq_getD hm]
        refine .cons ?_ hreadOuts
        rw [OutMap.numbers_ofElement.eq_getD hm]
        exact OutMap.numbers_ofElement.readAs hm
    · rw [List.filter_cons_of_neg (by simp [hin]), List.filter_cons_of_neg (by simp [hout])]
      exact ⟨ins, outs, hins, houts, hreadIns, hreadOuts⟩

/-- Reading a joystick whose mappings can be read comes to the check of its numbers. -/
theorem withJoystick_eq {j : Element} (h : ReadableMaps j) :
    ∃ ins outs, ReadsInputs 0 (j.childrenNamed "InMap") ins ∧
      ReadsOutputs 0 (j.childrenNamed "OutMap") outs ∧
      ∀ p : JoystickPort, p.withJoystick j =
        Numbering.checked (mapNumberings j) { p with inMaps := ins, outMaps := outs } := by
  obtain ⟨s, hs⟩ : ∃ s, j.children.foldlM withControl {} = .ok s := exists_controls_iff.mpr h
  obtain ⟨ins, outs, hins, houts, hreadIns, hreadOuts⟩ := reads_of_controls hs
  refine ⟨ins, outs, hreadIns, hreadOuts, fun p => ?_⟩
  rw [List.nil_append] at hins houts
  have hnumbers : mapNumberings j =
      [⟨j.location, .inputControl, s.inMaps.map InMap.control⟩,
       ⟨j.location, .outputControl, s.outMaps.map OutMap.control⟩] := by
    rw [hins, houts, Attribute.map_number_of_forall₂ hreadIns,
      Attribute.map_number_of_forall₂ hreadOuts]
    rfl
  rw [hnumbers, ← hins, ← houts]
  rcases Numbering.unique_by_number InMap.collides_eq s.inMaps with
    ⟨hin, hkept⟩ | ⟨c, hfirst, hrefused⟩
  · rw [Numbering.checked_cons_of_nodup hin]
    rcases Numbering.unique_by_number OutMap.collides_eq s.outMaps with
      ⟨hout, hkept'⟩ | ⟨c, hfirst, hrefused⟩
    · rw [Numbering.checked_cons_of_nodup hout]
      simp only [withJoystick, hs, ok_bind, hkept, pure_bind, hkept']
      rfl
    · rw [Numbering.checked_cons_of_isFirst hfirst]
      simp only [withJoystick, hs, ok_bind, hkept, pure_bind, hrefused]
      rfl
  · rw [Numbering.checked_cons_of_isFirst hfirst]
    simp only [withJoystick, hs, ok_bind, hrefused]
    rfl

/-! ### Ports -/

/-- Whether everything in a port can be read. -/
structure Readable (e : Element) : Prop where
  index : NamesNumber "index" e
  maps : ∀ j ∈ e.childrenNamed "Joystick", ReadableMaps j

instance : DecidablePred Readable := fun e =>
  decidable_of_iff (NamesNumber "index" e ∧ ∀ j ∈ e.childrenNamed "Joystick", ReadableMaps j)
    ⟨fun h => ⟨h.1, h.2⟩, fun h => ⟨h.index, h.maps⟩⟩

/-- The numbers that must be different in a port: those of each of its joysticks, in order. -/
def portNumberings (e : Element) : List Numbering :=
  (e.childrenNamed "Joystick").flatMap mapNumberings

/-- The mappings of a kind that a port has: those of the last of its joysticks. -/
def mappings (kind : String) (e : Element) : List Element :=
  ((e.childrenNamed "Joystick").getLast?.map (·.childrenNamed kind)).getD []

/-- Whether a port is what an element tells that has a number. If the element names a number, it is
this one; and the inputs and outputs are those of its last joystick, each with its number. -/
structure Tells (p : UInt8 × Element) (port : JoystickPort) : Prop where
  index : port.index = p.1
  named : ∀ raw, p.2.attr? "index" = some raw → Numeral.u8? raw = some p.1
  inputs : ReadsInputs 0 (mappings "InMap" p.2) port.inMaps
  outputs : ReadsOutputs 0 (mappings "OutMap" p.2) port.outMaps

/-- Whether a port has the mappings of the last of some joysticks. -/
def HasLast (js : List Element) (p : JoystickPort) : Prop :=
  ReadsInputs 0 ((js.getLast?.map (·.childrenNamed "InMap")).getD []) p.inMaps ∧
    ReadsOutputs 0 ((js.getLast?.map (·.childrenNamed "OutMap")).getD []) p.outMaps

theorem foldlM_withChild_eq {cs : List Element}
    (h : ∀ j ∈ cs.filter (·.name == "Joystick"), ReadableMaps j) (index : UInt8) :
    ∃ q : JoystickPort, q.index = index ∧ HasLast (cs.filter (·.name == "Joystick")) q ∧
      cs.foldlM withChild { index := index } =
        Numbering.checked ((cs.filter (·.name == "Joystick")).flatMap mapNumberings) q := by
  induction cs using List.reverseRecOn with
  | nil => exact ⟨{ index := index }, rfl, ⟨.nil, .nil⟩, rfl⟩
  | append_singleton cs c ih =>
    rw [List.filter_append] at h
    obtain ⟨hbefore, hlast⟩ := List.forall_mem_append.mp h
    obtain ⟨q, hindex, hmaps, hfold⟩ := ih hbefore
    rw [List.filter_append, List.flatMap_append, List.foldlM_append, hfold]
    have hone : ∀ p : JoystickPort, [c].foldlM withChild p = p.withChild c := by
      intro p
      rw [List.foldlM_cons]
      exact bind_pure _
    simp only [hone]
    by_cases hname : c.name = "Joystick"
    · have hj : [c].filter (·.name == "Joystick") = [c] := by simp [hname]
      rw [hj] at hlast
      obtain ⟨ins, outs, hins, houts, hread⟩ := withJoystick_eq (hlast c List.mem_cons_self)
      have hstep : q.withChild c =
          Numbering.checked (mapNumberings c) { q with inMaps := ins, outMaps := outs } := by
        simp only [withChild, hname, String.reduceEq, if_false, if_true]
        exact hread q
      rw [hj, List.flatMap_singleton]
      refine ⟨{ q with inMaps := ins, outMaps := outs }, hindex, ?_,
        Numbering.checked_bind _ (fun p => withChild p c) hstep⟩
      rw [HasLast, List.getLast?_concat]
      exact ⟨hins, houts⟩
    · have hj : [c].filter (·.name == "Joystick") = [] := by simp [hname]
      obtain ⟨name, hstep⟩ : ∃ name, q.withChild c =
          Numbering.checked [] { q with name := name } := by
        simp only [withChild, if_neg hname]
        split_ifs
        · exact ⟨_, rfl⟩
        · exact ⟨_, rfl⟩
      rw [hj, List.append_nil, List.flatMap_nil]
      exact ⟨{ q with name := name }, hindex, hmaps,
        Numbering.checked_bind _ (fun p => withChild p c) hstep⟩

/-- Reading a port in which everything can be read comes to the checks of its joysticks. -/
theorem ofElement_eq {e : Element} (h : Readable e) (next : UInt8) :
    ∃ q, Tells ((named? "index" e).getD next, e) q ∧
      ofElement next e = Numbering.checked (portNumberings e) q := by
  obtain ⟨q, hindex, hmaps, hfold⟩ := foldlM_withChild_eq h.maps ((named? "index" e).getD next)
  refine ⟨q, ⟨hindex, fun raw hraw => h.index.eq_getD next hraw, hmaps.1, hmaps.2⟩, ?_⟩
  rw [ofElement, Attribute.numbered_eq_ok.mpr ⟨h.index, rfl⟩]
  exact hfold

theorem ofElements_eq {es : List Element} (h : ∀ e ∈ es, Readable e) (next : UInt8) :
    ∃ ports, List.Forall₂ Tells (withNumbers "index" next es) ports ∧
      ofElements next es = Numbering.checked (es.flatMap portNumberings) ports := by
  induction es generalizing next with
  | nil => exact ⟨[], .nil, rfl⟩
  | cons e es ih =>
    obtain ⟨hfirst, hrest⟩ := List.forall_mem_cons.mp h
    obtain ⟨q, hq, hread⟩ := ofElement_eq hfirst next
    obtain ⟨ports, hports, hreads⟩ := ih hrest (q.index + 1)
    have htail : ofElements (q.index + 1) es >>= (fun rest => pure (q :: rest)) =
        Numbering.checked (es.flatMap portNumberings) (q :: ports) := by
      have hall := Numbering.checked_bind (es.flatMap portNumberings)
        (fun rest => pure (q :: rest)) (Numbering.checked_nil (q :: ports)).symm
      rwa [List.append_nil, ← hreads] at hall
    refine ⟨q :: ports, ?_, ?_⟩
    · have hindex : q.index = (named? "index" e).getD next := hq.index
      rw [hindex] at hports
      exact .cons hq hports
    · rw [ofElements, hread, List.flatMap_cons]
      exact Numbering.checked_bind _ _ htail

theorem map_index_of_forall₂ {ps : List (UInt8 × Element)} {ports : List JoystickPort}
    (h : List.Forall₂ Tells ps ports) : ports.map index = ps.map Prod.fst :=
  map_eq_of_forall₂ h fun _ _ htells => htells.index

theorem collides_eq (p q : JoystickPort) : collides p q = (p.index == q.index) := rfl

/-- A port that was read is one in which everything can be read. -/
theorem readable_of_ofElement {next : UInt8} {e : Element} {p : JoystickPort}
    (h : ofElement next e = .ok p) : Readable e := by
  obtain ⟨index, hindex, hfold⟩ := bind_eq_ok.mp h
  constructor
  · exact (Attribute.numbered_eq_ok.mp hindex).1
  · intro j hj
    obtain ⟨hmem, hname⟩ := List.mem_filter.mp hj
    obtain ⟨a, b, hstep⟩ := exists_step_of_foldlM hfold hmem
    simp only [withChild, beq_iff_eq.mp hname, String.reduceEq, if_false, if_true] at hstep
    obtain ⟨s, hs, -⟩ := bind_eq_ok.mp hstep
    exact exists_controls_iff.mp ⟨s, hs⟩

theorem readable_of_ofElements {next : UInt8} {es : List Element} {ports : List JoystickPort}
    (h : ofElements next es = .ok ports) : ∀ e ∈ es, Readable e := by
  induction es generalizing next ports with
  | nil => exact List.forall_mem_nil _
  | cons e es ih =>
    obtain ⟨p, hp, h⟩ := bind_eq_ok.mp h
    obtain ⟨rest, hrest, -⟩ := bind_eq_ok.mp h
    exact List.forall_mem_cons.mpr ⟨readable_of_ofElement hp, ih hrest⟩

/-- What a port has is numbered as a joystick of its element is, or there is nothing. -/
theorem Tells.nodup {n : UInt8} {e : Element} {p : JoystickPort} (h : Tells (n, e) p)
    (hnodup : ∀ l ∈ portNumberings e, l.numbers.Nodup) :
    (p.inMaps.map (·.control)).Nodup ∧ (p.outMaps.map (·.control)).Nodup := by
  have hins := Attribute.map_number_of_forall₂ h.inputs
  have houts := Attribute.map_number_of_forall₂ h.outputs
  rw [hins, houts]
  dsimp only [mappings]
  cases hlast : (e.childrenNamed "Joystick").getLast? with
  | none => exact ⟨List.nodup_nil, List.nodup_nil⟩
  | some j =>
    have hj : ∀ l ∈ mapNumberings j, l.numbers.Nodup := by
      intro l hl
      exact hnodup l (List.mem_flatMap.mpr ⟨j, List.mem_of_getLast? hlast, hl⟩)
    exact ⟨hj _ List.mem_cons_self, hj _ (List.mem_cons_of_mem _ List.mem_cons_self)⟩

end JoystickPort

namespace Joysticks

open JoystickPort (Readable Tells portNumberings)

/-- The numbers that must be different in a rack: those of the joysticks of each port, in order, and
then those of the ports. -/
def numberings (e : Element) : List Numbering :=
  (e.childrenNamed "Port").flatMap portNumberings ++
    [⟨e.location, .joystickPort, (withNumbers "index" 0 (e.childrenNamed "Port")).map Prod.fst⟩]

theorem ofElement_eq {e : Element} (h : ∀ p ∈ e.childrenNamed "Port", Readable p) :
    ∃ j : Joysticks, List.Forall₂ Tells (withNumbers "index" 0 (e.childrenNamed "Port")) j.ports ∧
      ofElement e = Numbering.checked (numberings e) j := by
  obtain ⟨ports, hports, hread⟩ := JoystickPort.ofElements_eq h 0
  refine ⟨⟨ports⟩, hports, ?_⟩
  rw [ofElement, hread]
  apply Numbering.checked_bind
  rw [← JoystickPort.map_index_of_forall₂ hports]
  rcases Numbering.unique_by_number JoystickPort.collides_eq ports with
    ⟨hnodup, hkept⟩ | ⟨c, hfirst, hrefused⟩
  · rw [hkept, Numbering.checked_cons_of_nodup hnodup]
    rfl
  · rw [hrefused, Numbering.checked_cons_of_isFirst hfirst]
    rfl

theorem readable_of_ofElement {e : Element} {j : Joysticks} (h : ofElement e = .ok j) :
    ∀ p ∈ e.childrenNamed "Port", Readable p := by
  obtain ⟨ports, hports, -⟩ := bind_eq_ok.mp h
  exact JoystickPort.readable_of_ofElements hports

/-- Every control and every port gets the number that it names, or else the one behind the number of
the one before it, counted modulo 256 from 0 on: the inputs of a joystick, its outputs and the ports
each for themselves, however they stand among each other. The joysticks of a rack are read exactly
if all their elements can be read and in no list a number is repeated. They are then what the
elements tell under these numbers, so there are 256 ports at most, and as many inputs and outputs
on each. If nothing is wrong but that numbers are repeated, the error names the first two equal
numbers of the first list that has some: the lists of the joysticks in order, inputs before outputs,
and then that of the ports. -/
theorem numbers_assigned (e : Element) :
    ((∃ j, ofElement e = .ok j) ↔
      (∀ p ∈ e.childrenNamed "Port", Readable p) ∧ ∀ l ∈ numberings e, l.numbers.Nodup) ∧
    (∀ j, ofElement e = .ok j →
      List.Forall₂ Tells (withNumbers "index" 0 (e.childrenNamed "Port")) j.ports ∧
      (j.ports.map (·.index)).Nodup ∧ j.ports.length ≤ 256 ∧
      ∀ p ∈ j.ports, (p.inMaps.map (·.control)).Nodup ∧ p.inMaps.length ≤ 256 ∧
        (p.outMaps.map (·.control)).Nodup ∧ p.outMaps.length ≤ 256) ∧
    ((∀ p ∈ e.childrenNamed "Port", Readable p) → ∀ fault,
      ofElement e = .error fault ↔ Numbering.FirstClash (numberings e) fault) := by
  refine ⟨?_, fun j h => ?_, fun hreadable fault => ?_⟩
  · constructor
    · intro ⟨j, h⟩
      have hreadable := readable_of_ofElement h
      obtain ⟨told, -, hread⟩ := ofElement_eq hreadable
      rw [hread, Numbering.checked_eq_ok_iff] at h
      exact ⟨hreadable, h.1⟩
    · intro ⟨hreadable, hnodup⟩
      obtain ⟨told, -, hread⟩ := ofElement_eq hreadable
      exact ⟨told, hread.trans (Numbering.checked_eq_ok_iff.mpr ⟨hnodup, rfl⟩)⟩
  · obtain ⟨told, htells, hread⟩ := ofElement_eq (readable_of_ofElement h)
    rw [hread, Numbering.checked_eq_ok_iff] at h
    obtain ⟨hnodup, rfl⟩ := h
    obtain ⟨hports, hown⟩ := List.forall_mem_append.mp hnodup
    have hindexes : (told.ports.map (·.index)).Nodup := by
      rw [JoystickPort.map_index_of_forall₂ htells]
      exact hown _ List.mem_cons_self
    have hmany := length_le_of_nodup_uint8 hindexes
    rw [List.length_map] at hmany
    refine ⟨htells, hindexes, hmany, fun p hp => ?_⟩
    obtain ⟨⟨n, d⟩, hd, htold⟩ := exists_of_mem_forall₂ htells hp
    have hmem : d ∈ e.childrenNamed "Port" := by
      rw [← map_snd_numbered (named? "index") (· + 1) 0 (e.childrenNamed "Port")]
      exact List.mem_map_of_mem hd
    obtain ⟨hins, houts⟩ := htold.nodup fun l hl => hports l (List.mem_flatMap.mpr ⟨d, hmem, hl⟩)
    have hfewIns := length_le_of_nodup_uint8 hins
    have hfewOuts := length_le_of_nodup_uint8 houts
    rw [List.length_map] at hfewIns hfewOuts
    exact ⟨hins, hfewIns, houts, hfewOuts⟩
  · obtain ⟨told, -, hread⟩ := ofElement_eq hreadable
    rw [hread]
    exact Numbering.checked_eq_error_iff

section

open Document (unplaced)

/-- Two ports behind each other at the end of the numbers, and a joystick whose inputs pass it too,
among outputs. -/
def passingJoysticks : Element :=
  unplaced "Joysticks" [] [
    unplaced "Port" [("index", "255")] [
      unplaced "Joystick" [] [
        unplaced "InMap" [("control", "0xFE")] [], unplaced "OutMap" [] [],
        unplaced "InMap" [] [], unplaced "OutMap" [("control", "9")] [],
        unplaced "InMap" [] [], unplaced "OutMap" [] []]],
    unplaced "Port" [] []]

/-- Two ports of one number, the second with two inputs of one number; the first one's joystick has
two outputs of one number. -/
def crowdedJoysticks : Element :=
  unplaced "Joysticks" [] [
    unplaced "Port" [("index", "1")] [
      unplaced "Joystick" [] [
        unplaced "InMap" [] [], unplaced "OutMap" [] [], unplaced "OutMap" [("control", "5")] [],
        unplaced "InMap" [] [], unplaced "OutMap" [("control", "0")] []]],
    unplaced "Port" [("index", "1")] [
      unplaced "Joystick" [] [
        unplaced "InMap" [("control", "3")] [], unplaced "InMap" [("control", "3")] []]]]

theorem numbers_assigned_crowdedJoysticks :
    (∃ j, ofElement passingJoysticks = .ok j ∧ j.ports.map (·.index) = [255, 0] ∧
      j.ports.map (fun p => p.inMaps.map (·.control)) = [[254, 255, 0], []] ∧
      j.ports.map (fun p => p.outMaps.map (·.control)) = [[0, 9, 10], []]) ∧
    (numberings crowdedJoysticks).map (·.numbers) = [[0, 1], [0, 5, 0], [3, 3], [], [1, 1]] ∧
    ofElement crowdedJoysticks = .error (.collision "/Joystick" .outputControl 0 2) := by
  obtain ⟨-, hpassing, -⟩ := numbers_assigned passingJoysticks
  obtain ⟨-, -, hcrowded⟩ := numbers_assigned crowdedJoysticks
  have hnumbers : (numberings crowdedJoysticks).map (·.numbers) =
      [[0, 1], [0, 5, 0], [3, 3], [], [1, 1]] := by decide +kernel
  refine ⟨?_, hnumbers, ?_⟩
  · obtain ⟨j, hj⟩ : ∃ j, ofElement passingJoysticks = .ok j := by decide +kernel
    obtain ⟨htells, -⟩ := hpassing j hj
    refine ⟨j, hj, ?_, ?_, ?_⟩
    · rw [JoystickPort.map_index_of_forall₂ htells]
      decide +kernel
    · rw [map_eq_of_forall₂ htells fun _ _ h => Attribute.map_number_of_forall₂ h.inputs]
      decide +kernel
    · rw [map_eq_of_forall₂ htells fun _ _ h => Attribute.map_number_of_forall₂ h.outputs]
      decide +kernel
  · rw [hcrowded (by decide +kernel)]
    have hfirst : Collision.IsFirst (· == ·) ([0, 5, 0] : List UInt8) ⟨0, 2⟩ :=
      Collision.unique_eq_error_iff.mp (by decide)
    exact ⟨[⟨"/Joystick", .inputControl, [0, 1]⟩], ⟨"/Joystick", .outputControl, [0, 5, 0]⟩, _, _,
      rfl, by decide, hfirst, rfl⟩

end

end Joysticks
end MotionRack
