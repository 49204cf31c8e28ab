import Mathlib.Data.List.Nodup
import MotionRack.Proofs.Device.Shutters

/-!
# Channels of the shutters of a group

The channels of a group are not checked against each other. A shutter that names none is counted by
its rank among all shutters, those that name a channel included, so it can get a channel that
another one names. The channels are different exactly if the description keeps them apart, and then
no two frames set the same shutter.
-/
namespace MotionRack

namespace ShutterChannel

/-- A shutter has no shutter frames but those that it has without commits. -/
theorem filter_compile (s : ShutterChannel) (persist : Bool) :
    (s.compile persist).filter (·.command = Command.setShutterParams) = s.frames := by
  have hframes : s.frames.filter (·.command = Command.setShutterParams) = s.frames :=
    List.filter_eq_self.mpr fun f hf => decide_eq_true (target_of_mem_frames hf).1
  have hcommits : (Commit.commitsFor s.frames s.target.1 s.target.2).filter
      (·.command = Command.setShutterParams) = [] := by
    rw [List.filter_eq_nil_iff]
    intro c hc
    obtain ⟨f, _, rfl⟩ := Commit.mem_commitsFor.mp hc
    rw [Frame.command_commit]
    decide
  cases persist with
  | false => exact hframes
  | true =>
    rw [compile, Commit.append, if_pos rfl, List.filter_append, hframes, hcommits,
      List.append_nil]

theorem targets_sublist (s : ShutterChannel) :
    (s.frames.map fun f => (f.destination, f.channel)).Sublist [s.target] := by
  cases hpayload : s.params.bind (·.payload? s.channel) with
  | none =>
    rw [frames, hpayload]
    exact List.nil_sublist _
  | some payload =>
    have hframes : s.frames = [.carrying Command.setShutterParams s.address payload] := by
      rw [frames, hpayload]
    obtain ⟨-, hnode, hchannel⟩ := target_of_mem_frames (hframes ▸ List.mem_singleton_self _)
    rw [hframes, List.map_singleton, hnode, hchannel]
    exact List.Sublist.refl _

end ShutterChannel

theorem uint16_ofNat_eq_iff {i j : Nat} (h : i < j) :
    UInt16.ofNat i = UInt16.ofNat j ↔ 65536 ∣ j - i := by
  rw [← UInt16.toNat_inj, UInt16.toNat_ofNat', UInt16.toNat_ofNat']
  omega

namespace FlipperGroup

/-- Whether a shutter names a channel. -/
def Names (c : Element) (channel : UInt16) : Prop :=
  Attribute.u16? c "channel" = .ok (some channel)

/-- Whether a description keeps the channels of its shutters apart. -/
structure ChannelsApart (cs : List Element) : Prop where
  /-- No two shutters name one channel. -/
  named : ∀ (i j : Nat) (c d : Element) (channel : UInt16), i < j → cs[i]? = some c →
    cs[j]? = some d → Names c channel → ¬ Names d channel
  /-- A shutter whose rank is named as a channel names one itself. -/
  mixed : ∀ (i j : Nat) (c d : Element), cs[i]? = some c → cs[j]? = some d →
    Names c (UInt16.ofNat j) → d.hasAttr "channel" = true
  /-- No two shutters that name none have ranks that are equal modulo 65536. -/
  counted : ∀ (i j : Nat) (c d : Element), i < j → cs[i]? = some c → cs[j]? = some d →
    c.hasAttr "channel" = false → d.hasAttr "channel" = false → ¬ 65536 ∣ j - i

theorem Names.hasAttr {c : Element} {channel : UInt16} (h : Names c channel) :
    c.hasAttr "channel" = true := by
  by_contra hunnamed
  rw [Bool.not_eq_true, ← Attribute.u16?_eq_none, h] at hunnamed
  cases hunnamed

theorem Names.channelAt {c : Element} {channel : UInt16} (h : Names c channel) (rank : Nat) :
    channelAt rank c = channel := by
  rw [FlipperGroup.channelAt, h]
  rfl

theorem channelAt_unnamed {c : Element} (h : c.hasAttr "channel" = false) (rank : Nat) :
    channelAt rank c = UInt16.ofNat rank := by
  rw [channelAt, Attribute.u16?_eq_none.mpr h]
  rfl

theorem Readable.names_or {slot : UInt16} {c : Element} (h : Readable slot c) :
    (∃ channel, Names c channel) ∨ c.hasAttr "channel" = false := by
  obtain ⟨named, hnamed⟩ := h.channel
  cases named with
  | none => exact Or.inr (Attribute.u16?_eq_none.mp hnamed)
  | some channel => exact Or.inl ⟨channel, hnamed⟩

/-- What keeps channels apart is that no two ranks have one channel. -/
theorem channelsApart_iff {slot : UInt16} {cs : List Element} (h : ∀ c ∈ cs, Readable slot c) :
    ChannelsApart cs ↔ ∀ (i j : Nat) (c d : Element), i < j → cs[i]? = some c → cs[j]? = some d →
      channelAt i c ≠ channelAt j d := by
  constructor
  · intro hapart i j c d hij hc hd
    rcases (h c (List.mem_of_getElem? hc)).names_or with ⟨channel, hnames⟩ | hunnamed <;>
      rcases (h d (List.mem_of_getElem? hd)).names_or with ⟨channel', hnames'⟩ | hunnamed'
    · rw [hnames.channelAt, hnames'.channelAt]
      rintro rfl
      exact hapart.named i j c d channel hij hc hd hnames hnames'
    · rw [hnames.channelAt, channelAt_unnamed hunnamed']
      rintro rfl
      exact Bool.false_ne_true (hunnamed'.symm.trans (hapart.mixed i j c d hc hd hnames))
    · rw [channelAt_unnamed hunnamed, hnames'.channelAt]
      rintro rfl
      exact Bool.false_ne_true (hunnamed.symm.trans (hapart.mixed j i d c hd hc hnames'))
    · rw [channelAt_unnamed hunnamed, channelAt_unnamed hunnamed', ne_eq, uint16_ofNat_eq_iff hij]
      exact hapart.counted i j c d hij hc hd hunnamed hunnamed'
  · intro hne
    constructor
    case named =>
      intro i j c d channel hij hc hd hnames hnames'
      exact hne i j c d hij hc hd ((hnames.channelAt i).trans (hnames'.channelAt j).symm)
    case mixed =>
      intro i j c d hc hd hnames
      by_contra hunnamed
      rw [Bool.not_eq_true] at hunnamed
      have hsame : channelAt i c = channelAt j d :=
        (hnames.channelAt i).trans (channelAt_unnamed hunnamed j).symm
      rcases Nat.lt_trichotomy i j with hij | rfl | hji
      · exact hne i j c d hij hc hd hsame
      · -- The shutter itself would name a channel and name none.
        obtain rfl := Option.some.inj (hc.symm.trans hd)
        exact Bool.false_ne_true (hunnamed.symm.trans hnames.hasAttr)
      · exact hne j i d c hji hd hc hsame.symm
    case counted =>
      intro i j c d hij hc hd hunnamed hunnamed' hdvd
      apply hne i j c d hij hc hd
      rw [channelAt_unnamed hunnamed, channelAt_unnamed hunnamed']
      exact (uint16_ofNat_eq_iff hij).mpr hdvd

/-- The shutter frames of a group set no other channels than it has, in order. -/
theorem targets_sublist (g : FlipperGroup) (persist : Bool) :
    (((g.compile persist).filter (·.command = Command.setShutterParams)).map
      fun f => (f.destination, f.channel)).Sublist (g.shutters.map (·.target)) := by
  rw [compile, List.filter_flatMap, List.map_flatMap]
  refine flatMap_sublist_map fun s _ => ?_
  rw [s.filter_compile]
  exact s.targets_sublist

/-- The channels of a group that was read are different exactly if its description keeps them apart:
no two shutters name one channel, no shutter names the rank of one that names none, and no two that
name none have equal ranks modulo 65536. If so, no two frames set the same channel of a slot. -/
theorem channels_distinct_iff {e : Element} {slot : UInt16} {g : FlipperGroup}
    (h : ofElement e slot = .ok g) :
    ((g.shutters.map (·.channel)).Nodup ↔ ChannelsApart (e.childrenNamed "Shutter")) ∧
    (ChannelsApart (e.childrenNamed "Shutter") → ∀ persist,
      (((g.compile persist).filter (·.command = Command.setShutterParams)).map
        fun f => (f.destination, f.channel)).Nodup) := by
  obtain ⟨hreadable, hg⟩ := ofElement_eq_ok.mp h
  have hiff : (g.shutters.map (·.channel)).Nodup ↔
      ChannelsApart (e.childrenNamed "Shutter") := by
    rw [channelsApart_iff hreadable, hg, List.map_map, List.Nodup, List.pairwise_map,
      pairwise_zipIdx_iff]
    rfl
  refine ⟨hiff, fun hapart persist => ?_⟩
  have hchannels : ((g.shutters.map (·.target)).map Prod.snd).Nodup := by
    rw [List.map_map]
    exact hiff.mpr hapart
  exact hchannels.of_map.sublist (targets_sublist g persist)

section

open Document (unplaced)

/-- Three shutters, the second of which names a channel that is no rank. -/
def apartShutters : Element :=
  unplaced "FlipperShutterParameters" []
    [pulsedFor "0.02" [], pulsedFor "0.02" [("channel", "5")], pulsedFor "0.02" []]

theorem channels_distinct_apartShutters :
    ∃ g, ofElement apartShutters 2 = .ok g ∧ g.shutters.map (·.channel) = [0, 5, 2] ∧
      (((g.compile true).filter (·.command = Command.setShutterParams)).map
        fun f => (f.destination, f.channel)).Nodup := by
  obtain ⟨g, hread, hchannels⟩ : ∃ g, ofElement apartShutters 2 = .ok g ∧
      g.shutters.map (·.channel) = [0, 5, 2] := ⟨_, rfl, rfl⟩
  obtain ⟨hiff, hframes⟩ := channels_distinct_iff hread
  have hapart := hiff.mp (by rw [hchannels]; decide)
  exact ⟨g, hread, hchannels, hframes hapart true⟩

/-- Two shutters, the first of which names the rank of the second. -/
def clashingShutters : Element :=
  unplaced "FlipperShutterParameters" []
    [pulsedFor "0.02" [("channel", "1")], pulsedFor "0.02" []]

/-- They are read without an error, and both frames set channel 1 of the slot. -/
theorem channels_clash_clashingShutters :
    ∃ g, ofElement clashingShutters 1 = .ok g ∧ ¬ (g.shutters.map (·.channel)).Nodup ∧
      ((g.compile true).filter (·.command = Command.setShutterParams)).map
        (fun f => (f.destination, f.channel)) = [(.slot 0, 1), (.slot 0, 1)] := by
  obtain ⟨g, hread, hchannels⟩ : ∃ g, ofElement clashingShutters 1 = .ok g ∧
      g.shutters.map (·.channel) = [1, 1] := ⟨_, rfl, rfl⟩
  refine ⟨g, hread, ?_, ?_⟩
  · rw [hchannels]
    decide
  · rw [compile_eq_blocks hread]
    decide +kernel

end

end FlipperGroup
end MotionRack
