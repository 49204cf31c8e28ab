import MotionRack.Proofs.Device.Origin
import MotionRack.Proofs.Document.Included
import MotionRack.Proofs.Provision.Wire

/-!
# Frames, wherever they are described

What a rack is told does not depend on where its description was read. So the device behind a card
gets the same frames from a file of its own and from a rack that includes this file.
-/
namespace MotionRack

open Expansion (openFile fileLoader defaultDepth IncludedAt)

namespace RackSystem

theorem toOption_withSection (s : RackSystem) (c : Element) :
    (s.withSection c.bare).toOption = (s.withSection c).toOption := by
  simp only [withSection, Element.name_bare]
  split_ifs <;> simp

theorem toOption_ofElement (e : Element) :
    (ofElement e.bare).toOption = (ofElement e).toOption := by
  simp only [ofElement, Element.children_bare, Element.toOption_foldlM_bare toOption_withSection]

end RackSystem

/-- Readers that do not look at places and origins read the same from elements that are the same
otherwise. -/
theorem sameOutcome_of_bare {α : Type} (read : Element → Except ConfigError α)
    (hread : ∀ e, (read e.bare).toOption = (read e).toOption) {e d : Element}
    (h : e.bare = d.bare) : SameOutcome (read e) (read d) := by
  rw [sameOutcome_iff, ← hread e, h, hread d]

theorem read_eq_ok_of_bare {α : Type} (read : Element → Except ConfigError α)
    (hread : ∀ e, (read e.bare).toOption = (read e).toOption) {e d : Element}
    (h : e.bare = d.bare) {a : α} (ha : read d = .ok a) : read e = .ok a := by
  rw [← toOption_eq_some, ← hread, h, hread, toOption_eq_some]
  exact ha

/-! ### Files of their own -/

/-- The root of a document is taken for itself, if it has the name. -/
theorem StageParameters.rootNamed_eq_ok {name : String} {root e : Element}
    (hname : Element.Query.parse ("/" ++ name) = .absolute [name])
    (h : rootNamed name root = .ok e) : e = root ∧ root.name = name := by
  unfold rootNamed Element.select? at h
  rw [hname, Element.run?] at h
  split at h
  next found hfound =>
    obtain rfl := Except.ok.inj h
    split at hfound
    next hroot => exact ⟨(Option.some.inj hfound).symm, hroot.symm⟩
    next => cases hfound
  next => cases h

namespace CustomConfig

/-- Whether an element describes a device for a slot. -/
inductive DescribedBy (slot : UInt16) (e : Element) : CustomConfig → Prop
  | stage {s : StageParameters} : e.name = StageParameters.elementName →
      StageParameters.ofElement e slot = .ok s → DescribedBy slot e (.stage s)
  | flipper {g : FlipperGroup} : e.name = FlipperGroup.elementName →
      FlipperGroup.ofElement e slot = .ok g → DescribedBy slot e (.flipper g)

/-- Whether a file that is loaded on its own gives a device for a slot. -/
inductive LoadedFrom (read : FileReader) (file : String) (slot : UInt16) : CustomConfig → Prop
  | stage {s : StageParameters} : StageParameters.load read file slot = .ok s →
      LoadedFrom read file slot (.stage s)
  | flipper {g : FlipperGroup} : FlipperGroup.load read file slot = .ok g →
      LoadedFrom read file slot (.flipper g)

theorem LoadedFrom.exists_opened {read : FileReader} {file : String} {slot : UInt16}
    {d : CustomConfig} (h : LoadedFrom read file slot d) :
    ∃ opened, openFile read file = .ok opened ∧ DescribedBy slot opened d := by
  cases h with
  | stage h =>
    obtain ⟨opened, hopened, h⟩ := bind_eq_ok.mp h
    obtain ⟨e, he, hs⟩ := bind_eq_ok.mp h
    obtain ⟨rfl, hname⟩ := StageParameters.rootNamed_eq_ok rfl he
    exact ⟨e, hopened, .stage hname hs⟩
  | flipper h =>
    obtain ⟨opened, hopened, h⟩ := bind_eq_ok.mp h
    obtain ⟨e, he, hg⟩ := bind_eq_ok.mp h
    obtain ⟨rfl, hname⟩ := StageParameters.rootNamed_eq_ok rfl he
    exact ⟨e, hopened, .flipper hname hg⟩

variable {slot : UInt16} {e : Element} {d : CustomConfig}

/-- A description has one child, which describes the device. -/
theorem describedBy_of_ofElement (h : ofElement slot e = .ok d) :
    ∃ inner, e.children = [inner] ∧ DescribedBy slot inner d := by
  unfold ofElement at h
  split at h
  next inner hchildren =>
    refine ⟨inner, hchildren, ?_⟩
    split at h
    next hname =>
      obtain ⟨s, hs, rfl⟩ := map_eq_ok.mp h
      exact .stage hname hs
    next =>
      split at h
      next hname =>
        obtain ⟨g, hg, rfl⟩ := map_eq_ok.mp h
        exact .flipper hname hg
      next => cases h
  next => cases h

namespace DescribedBy

theorem of_bare {e' : Element} (h : DescribedBy slot e' d) (hbare : e.bare = e'.bare) :
    DescribedBy slot e d := by
  have hname : e.name = e'.name := by
    rw [← Element.name_bare e, hbare, Element.name_bare]
  cases h with
  | stage hstage hs =>
    exact .stage (hname.trans hstage) (read_eq_ok_of_bare (StageParameters.ofElement · slot)
      (StageParameters.toOption_ofElement · slot) hbare hs)
  | flipper hflipper hg =>
    exact .flipper (hname.trans hflipper) (read_eq_ok_of_bare (FlipperGroup.ofElement · slot)
      (FlipperGroup.toOption_ofElement · slot) hbare hg)

theorem unique {d' : CustomConfig} (h : DescribedBy slot e d) (h' : DescribedBy slot e d') :
    d = d' := by
  have hnames : StageParameters.elementName ≠ FlipperGroup.elementName := by decide
  cases h with
  | stage hname hs =>
    cases h' with
    | stage _ hs' => rw [Except.ok.inj (hs.symm.trans hs')]
    | flipper hname' _ => exact absurd (hname.symm.trans hname') hnames
  | flipper hname hg =>
    cases h' with
    | stage hname' _ => exact absurd (hname'.symm.trans hname) hnames
    | flipper _ hg' => rw [Except.ok.inj (hg.symm.trans hg')]

end DescribedBy
end CustomConfig

/-! ### Racks -/

/-- Whether the device behind the card of a rank is described in another file than the rack: the
last description of the card is an `Include` of this file, in the file of the rack or in one that
is put there. -/
def TakesDeviceFrom (read : FileReader) (path : String) (rank : Nat) (file : String) : Prop :=
  ∃ document root settings card custom place,
    fileLoader read path = .ok document ∧ openFile read path = .ok root ∧
    (root.childrenNamed "Settings").getLast? = some settings ∧
    (settings.childrenNamed "Card")[rank]? = some card ∧
    (card.childrenNamed "CustomConfig").getLast? = some custom ∧ root.at? place = some custom ∧
    IncludedAt (fileLoader read) defaultDepth defaultDepth document (Path.directory path)
      (place ++ [0]) file

/-- The card of that rank has the device that the file gives for its slot. -/
theorem TakesDeviceFrom.exists_card {read : FileReader} {path file : String} {rank : Nat}
    (h : TakesDeviceFrom read path rank file) {system : RackSystem}
    (hload : RackSystem.load read path = .ok system) :
    ∃ x c, system.settings = some x ∧ x.cards[rank]? = some c ∧ x.Sound ∧
      (x.cards.Pairwise fun c d => c.slot ≠ d.slot) ∧
      ∀ d, CustomConfig.LoadedFrom read file c.slot d → c.custom = some d := by
  obtain ⟨document, root, settings, card, custom, place, hdocument, hroot, hsettings, hcard,
    hcustom, hplace, hincluded⟩ := h
  obtain ⟨root', hroot', hsystem⟩ := bind_eq_ok.mp hload
  obtain rfl : root = root' := Except.ok.inj (hroot.symm.trans hroot')
  -- The card, and the device that its last description was read as.
  obtain ⟨hsection, -, -⟩ := RackSystem.sections_of_ofElement hsystem
  rw [hsettings] at hsection
  obtain ⟨x, hx, hsection⟩ := map_eq_ok.mp hsection
  obtain ⟨hcards, hslots⟩ := Settings.cards_of_ofElement hx
  obtain ⟨number, c, hc, hread⟩ := Card.getElem?_ofElements hcards hcard
  obtain ⟨-, hdevice⟩ := Card.custom_of_ofElement hread
  rw [hcustom] at hdevice
  obtain ⟨d', hd', hdevice⟩ := map_eq_ok.mp hdevice
  obtain ⟨inner, hchildren, hinner⟩ := CustomConfig.describedBy_of_ofElement hd'
  refine ⟨x, c, hsection.symm, hc, Settings.sound_of_ofElement hx, hslots, fun d hd => ?_⟩
  obtain ⟨opened, hopened, hd⟩ := hd.exists_opened
  have hbare : inner.bare = opened.bare := by
    have hat := hincluded.bare_eq hdocument hroot hopened
    rw [Element.at?_append, Element.at?_bare, hplace, Option.map_some, Option.bind_some,
      Element.at?, Element.children_bare, hchildren] at hat
    exact Option.some.inj hat
  rw [← hdevice, hinner.unique (hd.of_bare hbare)]

namespace Provision

/-- The frames of a plan to the slot of a card are those of the device behind it. -/
theorem frames_to_slot {system : RackSystem} {x : Settings} (hsection : system.settings = some x)
    (hsound : x.Sound) (hslots : x.cards.Pairwise fun c d => c.slot ≠ d.slot) {c : Card}
    (hc : c ∈ x.cards) {d : CustomConfig} (hd : c.custom = some d) {o : ProvisionOptions}
    {plans : List StagePlan} (hplan : plan system o = .ok plans) {p : StagePlan} (hp : p ∈ plans)
    (hstage : p.stage = .customConfigs) :
    p.frames.filter (·.destination = slotAddress c.slot) = d.compile o.persist := by
  obtain ⟨-, hcompile⟩ := compile_of_mem_plan hplan hp
  rw [hstage] at hcompile
  obtain ⟨x', hsection', hframes⟩ := StagePlan.compileCustoms_of_compile hcompile
  obtain rfl : x = x' := Option.some.inj (hsection.symm.trans hsection')
  rw [hframes, hsound.filter_compileCustoms hslots hc, Card.frames, hd]
  simp

/-- Frames do not depend on where a description was read. From two elements that are the same but
for places and origins, every reader reads the same, so that the frames are the same too, or
fails on both. If the device behind a card of a rack is described in a file that the rack includes,
and this file can be loaded on its own for the slot of the card, as a stage or as a group of
shutters, then what is loaded is the device of the card, and the frames that a plan of the rack
has for the slot are exactly those of this device. -/
theorem frames_ignore_origin :
    (∀ e d : Element, e.bare = d.bare →
      SameOutcome (RackSystem.ofElement e) (RackSystem.ofElement d) ∧
      (∀ o, SameOutcome (RackSystem.ofElement e >>= fun system => plan system o)
        (RackSystem.ofElement d >>= fun system => plan system o)) ∧
      (∀ slot, SameOutcome (StageParameters.ofElement e slot) (StageParameters.ofElement d slot)) ∧
      (∀ slot, SameOutcome (FlipperGroup.ofElement e slot) (FlipperGroup.ofElement d slot)) ∧
      ∀ index, SameOutcome (JoystickPort.ofJoystick e index) (JoystickPort.ofJoystick d index)) ∧
    ∀ (read : FileReader) (path file : String) (rank : Nat) (system : RackSystem),
      RackSystem.load read path = .ok system → TakesDeviceFrom read path rank file →
      ∃ x c, system.settings = some x ∧ x.cards[rank]? = some c ∧
        ∀ d, CustomConfig.LoadedFrom read file c.slot d → c.custom = some d ∧
          ∀ o plans, plan system o = .ok plans → ∀ p ∈ plans, p.stage = .customConfigs →
            p.frames.filter (·.destination = slotAddress c.slot) = d.compile o.persist := by
  constructor
  · intro e d h
    refine ⟨sameOutcome_of_bare _ RackSystem.toOption_ofElement h, fun o => ?_, fun slot => ?_,
      fun slot => ?_, fun index => ?_⟩
    · refine sameOutcome_of_bare (fun e => RackSystem.ofElement e >>= fun s => plan s o) ?_ h
      intro e
      rw [toOption_bind, toOption_bind, RackSystem.toOption_ofElement]
    · exact sameOutcome_of_bare (StageParameters.ofElement · slot)
        (StageParameters.toOption_ofElement · slot) h
    · exact sameOutcome_of_bare (FlipperGroup.ofElement · slot)
        (FlipperGroup.toOption_ofElement · slot) h
    · exact sameOutcome_of_bare (JoystickPort.ofJoystick · index)
        (JoystickPort.toOption_ofJoystick · index) h
  · intro read path file rank system hload htakes
    obtain ⟨x, c, hsection, hc, hsound, hslots, hdevice⟩ := htakes.exists_card hload
    refine ⟨x, c, hsection, hc, fun d hd => ⟨hdevice d hd, fun o plans hplan p hp hcustoms => ?_⟩⟩
    have hmem : c ∈ x.cards := List.mem_of_getElem? hc
    exact frames_to_slot hsection hsound hslots hmem (hdevice d hd) hplan hp hcustoms

section

open Document (unplaced)
open Expansion (openWith Loader SiteAt)

/-- The text of a rack with one card, behind which is a stage in a file of its own. -/
def splitText : String :=
  "<System><Settings><Card type='5'><CustomConfig><Include href='stage.xml'/>" ++
    "</CustomConfig></Card></Settings></System>"

/-- The text of this file. -/
def stageText : String :=
  "<StageParameters><Store><Deadband value='3'/></Store></StageParameters>"

/-- Both files. -/
def splitFiles : FileReader := fun path =>
  if path = "rack/system.xml" then .ok splitText.toUTF8
  else if path = "rack/stage.xml" then .ok stageText.toUTF8
  else .error .absent

/-- The rack as it is written. -/
def splitRoot : Element :=
  ((unplaced "System" [] [
    unplaced "Settings" [] [
      unplaced "Card" [("type", "5")] [
        unplaced "CustomConfig" [] [
          unplaced "Include" [("href", "stage.xml")] []]]]]).reindex "/System").withSource
    "rack/system.xml"

def splitStage : Element :=
  ((unplaced "StageParameters" [] [
    unplaced "Store" [] [
      unplaced "Deadband" [("value", "3")] []]]).reindex "/StageParameters").withSource
    "rack/stage.xml"

/-- What the files hold. -/
def splitDocuments : Loader := fun path =>
  if path = "rack/system.xml" then .ok splitRoot
  else if path = "rack/stage.xml" then .ok splitStage
  else .error (.io path .absent)

theorem fileLoader_splitFiles : fileLoader splitFiles = splitDocuments := by
  have hroot : (fileLoader splitFiles "rack/system.xml").toOption = some splitRoot := by
    decide +kernel
  have hstage : (fileLoader splitFiles "rack/stage.xml").toOption = some splitStage := by
    decide +kernel
  funext path
  unfold splitDocuments
  split
  next hpath => rw [hpath, toOption_eq_some.mp hroot]
  next hroot =>
    split
    next hpath => rw [hpath, toOption_eq_some.mp hstage]
    next hstage =>
      have hread : splitFiles path = .error .absent := by
        rw [splitFiles, if_neg hroot, if_neg hstage]
      rw [fileLoader, FileReader.text, hread]
      rfl

theorem takesDeviceFrom_split :
    TakesDeviceFrom splitFiles "rack/system.xml" 0 "rack/stage.xml" := by
  have hsite : ∃ s, SiteAt splitRoot [0, 0, 0, 0] s ∧ s.name = "Include" ∧
      s.attr? "href" = some "stage.xml" := by
    refine ⟨_, .deeper rfl ?_ (.deeper rfl ?_ (.deeper rfl ?_ (.child rfl ?_))), rfl, rfl⟩
    all_goals decide
  obtain ⟨s, hsite, hname, hhref⟩ := hsite
  have hresolved : Reference.resolveAll "rack" splitRoot = .ok splitRoot := rfl
  unfold TakesDeviceFrom openFile
  rw [fileLoader_splitFiles]
  exact ⟨splitRoot, _, _, _, _, [0, 0, 0], rfl, rfl, rfl, rfl, rfl, rfl,
    .direct hresolved hsite hname hhref⟩

theorem frames_ignore_origin_split :
    SameOutcome (RackSystem.ofElement (splitRoot.setAttr Expansion.sourceKey "site.xml"))
      (RackSystem.ofElement splitRoot) ∧
    ∃ system s plans, RackSystem.load splitFiles "rack/system.xml" = .ok system ∧
      StageParameters.load splitFiles "rack/stage.xml" 1 = .ok s ∧ s.frames.length = 2 ∧
      plan system {} = .ok plans ∧ plans.map (·.stage) = [.cards, .customConfigs] ∧
      ∀ p ∈ plans, p.stage = .customConfigs →
        p.frames.filter (·.destination = slotAddress 1) = s.compile true := by
  have hloads : ∃ system x c s plans, RackSystem.load splitFiles "rack/system.xml" = .ok system ∧
      system.settings = some x ∧ x.cards[0]? = some c ∧ c.slot = 1 ∧
      StageParameters.load splitFiles "rack/stage.xml" 1 = .ok s ∧ s.frames.length = 2 ∧
      plan system {} = .ok plans ∧ plans.map (·.stage) = [.cards, .customConfigs] := by
    unfold RackSystem.load StageParameters.load openFile
    rw [fileLoader_splitFiles]
    exact ⟨_, _, _, _, _, rfl, rfl, rfl, rfl, rfl, rfl, rfl, rfl⟩
  obtain ⟨system, x, c, s, plans, hload, hsection, hc, hslot, hs, hcount, hplan, hstages⟩ := hloads
  obtain ⟨hreaders, hfiles⟩ := frames_ignore_origin
  obtain ⟨x', c', hsection', hc', hdevice⟩ := hfiles _ _ _ _ system hload takesDeviceFrom_split
  obtain rfl : x = x' := Option.some.inj (hsection.symm.trans hsection')
  obtain rfl : c = c' := Option.some.inj (hc.symm.trans hc')
  rw [hslot] at hdevice
  have hsame := hreaders (splitRoot.setAttr Expansion.sourceKey "site.xml") splitRoot
    (Element.bare_setAttr_sourceKey splitRoot "site.xml")
  exact ⟨hsame.1, system, s, plans, hload, hs, hcount, hplan, hstages,
    (hdevice _ (.stage hs)).2 {} plans hplan⟩

end

end Provision
end MotionRack
