import MotionRack.Device.Commit
import MotionRack.Proofs.Octets
import MotionRack.Proofs.Sequence

/-!
# Frames and their commits

A frame with a payload can be built if the payload is one that a frame carries. A commit
always can, so asking for parameters to be kept never stands in the way. Commits stand behind
what they keep, one for every command, and taking them out again leaves the frames as they were.
-/
namespace MotionRack

section

variable (command : CommandId) (node : Address) (payload : Octets)

@[simp] theorem Frame.command_carrying : (carrying command node payload).command = command := rfl

@[simp] theorem Frame.payload_carrying : (carrying command node payload).payload = payload := rfl

end

/-- Whether a frame is one that comes out of the length check. -/
def Frame.Checked (f : Frame) : Prop := Frame.long f.command f.destination f.payload = .ok f

theorem Frame.checked_carrying {command : CommandId} {destination : Address} {payload : Octets}
    (h : payload.length ≤ maxPayload) : (Frame.carrying command destination payload).Checked :=
  if_neg (Nat.not_lt.mpr h)

/-- A frame that comes out of the length check passes it again. -/
theorem Frame.checked_of_long {command : CommandId} {destination : Address} {payload : Octets}
    {f : Frame} (h : Frame.long command destination payload = .ok f) : f.Checked := by
  rw [Frame.long] at h
  split at h
  next => cases h
  next hfits =>
    cases h
    exact Frame.checked_carrying (Nat.not_lt.mp hfits)

/-- A payload of two words is as long as both of them. -/
theorem Frame.checked_words {command : CommandId} {destination : Address} {v w m n : Nat}
    (h : v + w ≤ maxPayload) :
    (Frame.carrying command destination (Octets.ofNat v m ++ Octets.ofNat w n)).Checked := by
  apply Frame.checked_carrying
  rw [List.length_append, Octets.length_ofNat, Octets.length_ofNat]
  exact h

theorem Frame.checked_commit (destination : Address) (channel : UInt16) (command : CommandId) :
    (Frame.commit destination channel command).Checked :=
  Frame.checked_words (by decide)

/-- Commits behind frames that can be built leave it at that. -/
theorem Commit.checked_append {frames : List Frame} (h : ∀ f ∈ frames, f.Checked) (persist : Bool)
    (destination : Address) (channel : UInt16) :
    ∀ f ∈ append persist destination channel frames, f.Checked := by
  unfold append
  cases persist with
  | false => exact h
  | true =>
    refine List.forall_mem_append.mpr ⟨h, ?_⟩
    intro f hf
    obtain ⟨command, _, rfl⟩ := List.mem_map.mp hf
    exact Frame.checked_commit destination channel command

namespace Frame

/-- The channel that a frame is about. A shutter frame names it in its first word; all others are
about channel 0. -/
def channel (f : Frame) : UInt16 :=
  if f.command = Command.setShutterParams then UInt16.ofNat (Octets.toNat (f.payload.take 2))
  else 0

/-- The commit that keeps what a frame sets. -/
def ownCommit (f : Frame) : Frame := .commit f.destination f.channel f.command

/-- Whether a frame has its counterpart: a commit one before it whose parameters it keeps, any
other frame its own commit behind it. -/
def Paired (before : List Frame) (f : Frame) (after : List Frame) : Prop :=
  if f.command = Command.commit then ∃ g ∈ before, g.command ≠ Command.commit ∧ f = g.ownCommit
  else f.ownCommit ∈ after

@[simp] theorem command_commit (node : Address) (channel : UInt16) (command : CommandId) :
    (commit node channel command).command = Command.commit := rfl

theorem commit_inj {node node' : Address} {channel channel' : UInt16}
    {command command' : CommandId} :
    commit node channel command = commit node' channel' command' ↔
      node = node' ∧ channel = channel' ∧ command = command' := by
  constructor
  · intro h
    simp only [commit, carrying, Frame.mk.injEq, Body.long.injEq, true_and] at h
    obtain ⟨hnode, hpayload⟩ := h
    obtain ⟨hchannel, hcommand⟩ := List.append_inj hpayload (by simp)
    exact ⟨hnode, Octets.ofNat_two_inj.mp hchannel, Octets.ofNat_two_inj.mp hcommand⟩
  · rintro ⟨rfl, rfl, rfl⟩
    rfl

theorem Paired.mono (front : List Frame) (before : List Frame) (f : Frame) (after : List Frame)
    (back : List Frame) (h : Paired before f after) :
    Paired (front ++ before) f (after ++ back) := by
  unfold Paired at h ⊢
  split at h
  next hcommit =>
    rw [if_pos hcommit]
    obtain ⟨g, hg, hown⟩ := h
    exact ⟨g, List.mem_append_right front hg, hown⟩
  next hplain =>
    rw [if_neg hplain]
    exact List.mem_append_left back h

end Frame

namespace Commit

/-- Frames without the commits among them. -/
def strip (frames : List Frame) : List Frame := frames.filter fun f => f.command ≠ Command.commit

theorem strip_append (frames others : List Frame) :
    strip (frames ++ others) = strip frames ++ strip others :=
  List.filter_append frames others

theorem strip_flatMap {α : Type} (f : α → List Frame) (xs : List α) :
    strip (xs.flatMap f) = xs.flatMap fun x => strip (f x) :=
  List.filter_flatMap

/-- Frames that are no commits. -/
def Plain (frames : List Frame) : Prop := ∀ f ∈ frames, f.command ≠ Command.commit

section

variable {frames : List Frame} {node : Address} {channel : UInt16}

theorem strip_eq_self (h : Plain frames) : strip frames = frames := by
  simpa [strip, Plain, List.filter_eq_self] using h

theorem plain_strip (frames : List Frame) : Plain (strip frames) := by
  intro f hf
  simpa [strip] using (List.mem_filter.mp hf).2

theorem mem_commitsFor {c : Frame} :
    c ∈ commitsFor frames node channel ↔ ∃ f ∈ frames, c = .commit node channel f.command := by
  simp [commitsFor, eq_comm]

/-- Taking the commits out again leaves the frames. -/
theorem strip_append_commits (h : Plain frames) (persist : Bool) :
    strip (append persist node channel frames) = frames := by
  cases persist with
  | false => exact strip_eq_self h
  | true =>
    have hcommits : strip (commitsFor frames node channel) = [] := by
      rw [strip, List.filter_eq_nil_iff]
      intro c hc
      obtain ⟨f, _, rfl⟩ := mem_commitsFor.mp hc
      simp
    rw [append, if_pos rfl, strip_append, strip_eq_self h, hcommits, List.append_nil]

/-- A commit among frames that are to be kept is one for a command of theirs. -/
theorem mem_append_commits (h : Plain frames) {node' : Address} {channel' : UInt16}
    {command : CommandId}
    (hmem : Frame.commit node' channel' command ∈ append true node channel frames) :
    node' = node ∧ channel' = channel ∧ ∃ f ∈ frames, f.command = command := by
  rw [append, if_pos rfl, List.mem_append, mem_commitsFor] at hmem
  rcases hmem with hmem | ⟨f, hf, hcommit⟩
  · exact absurd rfl (h _ hmem)
  · obtain ⟨rfl, rfl, rfl⟩ := Frame.commit_inj.mp hcommit
    exact ⟨rfl, rfl, f, hf, rfl⟩

/-- No commit is sent twice for the frames of one channel. -/
theorem count_append_le_one (h : Plain frames) {c : Frame} (hc : c.command = Command.commit) :
    (append true node channel frames).count c ≤ 1 := by
  have hframes : c ∉ frames := fun hmem => h c hmem hc
  have hnodup : (commitsFor frames node channel).Nodup := by
    refine List.Pairwise.map _ (fun command command' hne hcommit => ?_) (nodup_eraseDups _)
    exact hne (Frame.commit_inj.mp hcommit).2.2
  rw [append, if_pos rfl, List.count_append, List.count_eq_zero.mpr hframes, Nat.zero_add]
  exact List.nodup_iff_count.mp hnodup c

/-- Frames to one node and channel are paired with the commits behind them. -/
theorem paired_append (h : Plain frames)
    (htarget : ∀ f ∈ frames, f.destination = node ∧ f.channel = channel) :
    Throughout Frame.Paired (append true node channel frames) := by
  have hown : ∀ f ∈ frames, f.ownCommit = .commit node channel f.command := by
    intro f hf
    obtain ⟨hnode, hchannel⟩ := htarget f hf
    rw [Frame.ownCommit, hnode, hchannel]
  rw [append, if_pos rfl]
  apply Throughout.of_append
  · intro before f after hsplit
    have hf : f ∈ frames := by simp [hsplit]
    rw [Frame.Paired, if_neg (h f hf), hown f hf]
    exact List.mem_append_right after (mem_commitsFor.mpr ⟨f, hf, rfl⟩)
  · intro before c after hsplit
    have hc : c ∈ commitsFor frames node channel := by simp [hsplit]
    obtain ⟨f, hf, rfl⟩ := mem_commitsFor.mp hc
    rw [Frame.Paired, if_pos (Frame.command_commit ..)]
    exact ⟨f, List.mem_append_left before hf, h f hf, (hown f hf).symm⟩

end

end Commit

end MotionRack
