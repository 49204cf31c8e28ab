import MotionRack.Link.Bench
import MotionRack.Proofs.Octets
import MotionRack.Session.Exchange

/-!
# Exchanges over a scripted link

On a bench link a transfer is never refused and each wait takes one answer from
the script, so an exchange is decided by one reply slot. A sequence of exchanges
is inverted here into the number of requests it made and the reason it stopped.
Nothing is assumed about the replies or about when a cancel request comes in.
-/
namespace MotionRack

/-- The transfer that a link records for a frame. -/
def Frame.whole (f : Frame) : Transfer := ⟨false, f.encode⟩

namespace Bench

/-- What the wait number `i` from now brings. The script is silent past its end. -/
def reply (b : Bench) (i : Nat) : Option Octets := b.replies[i]?.join

/-- The link after `transfers`, each of which was followed by one wait. -/
def after (b : Bench) (transfers : List Transfer) : Bench :=
  { b with sent := b.sent ++ transfers, replies := b.replies.drop transfers.length }

/-- The link after a transfer that no wait follows. -/
def told (b : Bench) (t : Transfer) : Bench := { b with sent := b.sent ++ [t] }

/-- The link after a restart, which asks the controller for it. No wait follows. -/
def restarted (b : Bench) : Bench :=
  { b.told (Frame.whole ⟨Command.restartProcessor, .motherboard, .host, .short 1 0⟩) with
    restarts := b.restarts + 1 }

@[simp] theorem after_nil (b : Bench) : b.after [] = b := by
  simp [after]

theorem after_after (b : Bench) (ts us : List Transfer) :
    (b.after ts).after us = b.after (ts ++ us) := by
  simp [after, List.drop_drop]

theorem reply_after (b : Bench) (ts : List Transfer) (i : Nat) :
    (b.after ts).reply i = b.reply (ts.length + i) := by
  simp [after, reply, List.getElem?_drop]

/-- Each transfer beside what the wait after it brings. -/
def dialogue (b : Bench) : List Transfer → List (Transfer × Option Octets)
  | [] => []
  | t :: rest => (t, b.reply 0) :: dialogue (b.after [t]) rest

theorem dialogue_append (b : Bench) (ts us : List Transfer) :
    b.dialogue (ts ++ us) = b.dialogue ts ++ (b.after ts).dialogue us := by
  induction ts generalizing b with
  | nil => simp [dialogue]
  | cons t rest ih =>
    rw [List.cons_append, dialogue, ih, after_after, dialogue]
    rfl

theorem map_fst_dialogue (b : Bench) (ts : List Transfer) :
    (b.dialogue ts).map Prod.fst = ts := by
  induction ts generalizing b with
  | nil => rfl
  | cons t rest ih => rw [dialogue, List.map_cons, ih]

theorem dialogue_ne_nil {b : Bench} {ts : List Transfer} (h : ts ≠ []) : b.dialogue ts ≠ [] := by
  intro hnil
  rw [← map_fst_dialogue b ts, hnil] at h
  exact h rfl

/-- What was answered later than the first transfer was sent later. -/
theorem mem_tail_of_mem_dialogue {b : Bench} {ts : List Transfer}
    {exchange : Transfer × Option Octets} (h : exchange ∈ (b.dialogue ts).tail) :
    exchange.1 ∈ ts.tail := by
  rw [← map_fst_dialogue b ts, ← List.map_tail]
  exact List.mem_map_of_mem h

end Bench

namespace Answer

/-- The data bytes of what a wait brought, if it brought a frame. -/
def data? (reply : Option Octets) : Option Octets :=
  reply.bind fun raw => (Frame.decode raw).toOption.map Frame.data

/-- The little-endian word of `width` data bytes from a position on, if they are all there. -/
def word? (width : Nat) (data : Octets) (position : Nat) : Option Nat :=
  if position + width ≤ data.length then
    some (Octets.toNat ((data.drop position).take width))
  else none

theorem byteAt_eq (data : Octets) (position : Nat) :
    byteAt data position =
      (data[position]?).elim (.error (.link (.malformed .replyTooShort))) .ok := by
  rw [byteAt]
  cases data[position]? <;> rfl

theorem expectStatus_eq (position : Nat) (accepted : List UInt8) (meaning : UInt8 → StatusMeaning)
    (step : Nat) (data : Octets) :
    expectStatus position accepted meaning step data =
      (data[position]?).elim (.error (.link (.malformed .replyTooShort))) fun status =>
        if status ∈ accepted then .ok () else .error (.status step status (meaning status)) := by
  rw [expectStatus, byteAt_eq]
  simp only [List.contains_iff_mem]
  cases data[position]? <;> rfl

theorem wordAt_eq {width : Nat} (hwidth : 0 < width) (data : Octets) (position : Nat) :
    wordAt width data position =
      (word? width data position).elim (.error (.link (.malformed .replyTooShort))) .ok := by
  have hlen : ((data.drop position).take width).length = width ↔
      position + width ≤ data.length := by
    rw [List.length_take, List.length_drop]
    omega
  simp only [wordAt, word?, hlen]
  split <;> rfl

/-- What is no frame is malformed, and nothing else is the matter with it. -/
theorem exists_of_decode_error {raw : Octets} {e : LinkError} (h : Frame.decode raw = .error e) :
    ∃ defect, e = .malformed defect := by
  unfold Frame.decode at h
  split at h
  · dsimp only at h
    split at h
    · split at h
      · cases h
      · exact ⟨_, (Except.error.inj h).symm⟩
    · split at h
      · exact ⟨_, (Except.error.inj h).symm⟩
      · split at h
        · exact ⟨_, (Except.error.inj h).symm⟩
        · cases h
  · exact ⟨_, (Except.error.inj h).symm⟩

end Answer

/-- Whether a link can take a request: a fragment lies within its buffer. -/
def Request.Fits : Request → Prop
  | frame _ => True
  | fragment buffer length => length ≤ buffer.length

namespace Exchange

variable {α : Type}

/-- What an exchange makes of the wait that follows its request. -/
def verdict (x : Exchange α) : Option Octets → Except ProgramError α
  | none => .error (.timeout x.step)
  | some raw => Answer.ofBytes raw >>= x.accept

theorem verdict_eq_ok_iff (x : Exchange α) (reply : Option Octets) (a : α) :
    x.verdict reply = .ok a ↔ ∃ data, Answer.data? reply = some data ∧ x.accept data = .ok a := by
  cases reply with
  | none => simp [verdict, Answer.data?]
  | some raw =>
    simp only [verdict, Answer.data?, Answer.ofBytes, Option.bind_some]
    cases Frame.decode raw with
    | error e => simp [Except.toOption, bind, Except.bind]
    | ok f => simp [Except.toOption, bind, Except.bind]

/-- An exchange on a bench link makes one transfer and takes one reply slot. -/
theorem ask_bench (x : Exchange α) (hx : x.request.Fits) (b : Bench) :
    x.ask b = (x.verdict (b.reply 0), b.after [x.request.transfer]) := by
  have hsend : x.request.send b = (.ok (), { b with sent := b.sent ++ [x.request.transfer] }) := by
    cases hr : x.request with
    | frame f => rfl
    | fragment buffer length =>
      rw [hr] at hx
      exact if_pos hx
  rw [ask, hsend]
  rcases hb : b.replies with _ | ⟨reply, rest⟩
  · simp [Channel.receiveWithin, Bench.nextReply, Bench.reply, Bench.after, hb, verdict]
  · cases reply <;>
      simp [Channel.receiveWithin, Bench.nextReply, Bench.reply, Bench.after, hb, verdict]

theorem perform_bench (cancelled : Bench → Bool) (x : Exchange α) (hx : x.request.Fits)
    (b : Bench) :
    x.perform cancelled b =
      if x.interruptible && cancelled b then (.error ⟨x.step, .cancelled x.step⟩, b)
      else ((x.verdict (b.reply 0)).mapError (SessionFailure.mk x.step),
        b.after [x.request.transfer]) := by
  rw [perform, ask_bench x hx]

/-- An exchange that looks at no cancel request is decided by its reply slot. -/
theorem perform_of_ok (cancelled : Bench → Bool) (x : Exchange α) (hx : x.request.Fits)
    (hi : x.interruptible = false) {b : Bench} {a : α} (hv : x.verdict (b.reply 0) = .ok a) :
    x.perform cancelled b = (.ok a, b.after [x.request.transfer]) := by
  rw [perform_bench cancelled x hx, hi, hv]
  rfl

theorem perform_of_error (cancelled : Bench → Bool) (x : Exchange α) (hx : x.request.Fits)
    (hi : x.interruptible = false) {b : Bench} {e : ProgramError}
    (hv : x.verdict (b.reply 0) = .error e) :
    x.perform cancelled b = (.error ⟨x.step, e⟩, b.after [x.request.transfer]) := by
  rw [perform_bench cancelled x hx, hi, hv]
  rfl

/-- An exchange that succeeds made its transfer and accepted the answer to it. -/
theorem perform_eq_ok {cancelled : Bench → Bool} {x : Exchange α} {b mid : Bench} {a : α}
    (h : x.perform cancelled b = (.ok a, mid)) (hx : x.request.Fits) :
    x.verdict (b.reply 0) = .ok a ∧ mid = b.after [x.request.transfer] := by
  rw [perform_bench cancelled x hx] at h
  split at h
  · cases h
  · cases hv : x.verdict (b.reply 0) with
    | error e =>
      rw [hv] at h
      cases h
    | ok a' =>
      rw [hv] at h
      cases h
      exact ⟨rfl, rfl⟩

/-- The same exchange when what its answer says is not needed any more. -/
def discard (x : Exchange α) : Exchange Unit where
  step := x.step
  request := x.request
  interruptible := x.interruptible
  accept data := (x.accept data).map fun _ => ()

theorem verdict_discard (x : Exchange α) (reply : Option Octets) :
    x.discard.verdict reply = (x.verdict reply).map fun _ => () := by
  cases reply with
  | none => rfl
  | some raw =>
    rw [verdict, verdict, discard]
    cases Answer.ofBytes raw <;> rfl

theorem exists_verdict_of_discard {x : Exchange α} {reply : Option Octets}
    (h : x.discard.verdict reply = .ok ()) : ∃ a, x.verdict reply = .ok a := by
  rw [verdict_discard] at h
  cases hv : x.verdict reply with
  | error e => simp [hv, Except.map] at h
  | ok a => exact ⟨a, rfl⟩

theorem perform_discard (cancelled : Bench → Bool) (x : Exchange α) (hx : x.request.Fits)
    (b : Bench) :
    x.discard.perform cancelled b =
      ((x.perform cancelled b).1.map fun _ => (), (x.perform cancelled b).2) := by
  rw [perform_bench cancelled x hx, perform_bench cancelled x.discard hx, verdict_discard,
    show x.discard.interruptible = x.interruptible from rfl]
  by_cases hc : x.interruptible && cancelled b
  · rw [if_pos hc, if_pos hc]
    rfl
  · rw [if_neg hc, if_neg hc]
    cases hv : x.verdict (b.reply 0) <;> rfl

/-! ### Sequences -/

/-- The transfers of a sequence that goes through. -/
def transfers (xs : List (Exchange Unit)) : List Transfer := xs.map fun x => x.request.transfer

/-- Whether the reply slots, taken one by one, satisfy the exchanges. -/
def Accepted (b : Bench) (xs : List (Exchange Unit)) : Prop :=
  ∀ (i : Nat) (x : Exchange Unit), xs[i]? = some x → x.verdict (b.reply i) = .ok ()

theorem accepted_nil (b : Bench) : Accepted b [] := by
  intro i x hx
  simp at hx

theorem accepted_cons {b : Bench} {x : Exchange Unit} {xs : List (Exchange Unit)}
    (hx : x.verdict (b.reply 0) = .ok ()) (hxs : Accepted (b.after [x.request.transfer]) xs) :
    Accepted b (x :: xs) := by
  intro i y hy
  cases i with
  | zero =>
    obtain rfl : x = y := by simpa using hy
    exact hx
  | succ i =>
    have h := hxs i y (by simpa using hy)
    rwa [Bench.reply_after, List.length_singleton, Nat.add_comm] at h

/-- Why a sequence stopped and how many requests it had made by then. Nothing
after the first refused answer and nothing after a cancel request goes out. -/
inductive Ends (cancelled : Bench → Bool) (b : Bench) (xs : List (Exchange Unit)) :
    Except SessionFailure Unit → Nat → Prop
  | completed : Accepted b xs → Ends cancelled b xs (.ok ()) xs.length
  | refused {n : Nat} {x : Exchange Unit} {e : ProgramError} :
      xs[n]? = some x → Accepted b (xs.take n) → x.verdict (b.reply n) = .error e →
      Ends cancelled b xs (.error ⟨x.step, e⟩) (n + 1)
  | interrupted {n : Nat} {x : Exchange Unit} :
      xs[n]? = some x → Accepted b (xs.take n) → x.interruptible = true →
      cancelled (b.after (transfers (xs.take n))) = true →
      Ends cancelled b xs (.error ⟨x.step, .cancelled x.step⟩) n

/-- One accepted exchange ahead of a sequence. -/
theorem Ends.cons {cancelled : Bench → Bool} {b : Bench} {x : Exchange Unit}
    {xs : List (Exchange Unit)} {r : Except SessionFailure Unit} {n : Nat}
    (hx : x.verdict (b.reply 0) = .ok ())
    (h : Ends cancelled (b.after [x.request.transfer]) xs r n) :
    Ends cancelled b (x :: xs) r (n + 1) := by
  cases h with
  | completed hacc => exact .completed (accepted_cons hx hacc)
  | @refused n y e hy hacc hv =>
    refine .refused (by simpa using hy) (accepted_cons hx hacc) ?_
    rwa [Bench.reply_after, List.length_singleton, Nat.add_comm] at hv
  | interrupted hy hacc hi hc =>
    refine .interrupted (by simpa using hy) (accepted_cons hx hacc) hi ?_
    rwa [Bench.after_after] at hc

/-- A sequence that begins with an exchange whose value is not kept goes on where the
exchange itself left the link, or stops with its failure. -/
theorem performAll_of_ok {cancelled : Bench → Bool} {x : Exchange α} {b mid : Bench} {a : α}
    (h : x.perform cancelled b = (.ok a, mid)) (hx : x.request.Fits)
    (xs : List (Exchange Unit)) :
    performAll cancelled (x.discard :: xs) b = performAll cancelled xs mid := by
  rw [performAll, perform_discard cancelled x hx, h]
  rfl

theorem performAll_of_error {cancelled : Bench → Bool} {x : Exchange α} {b mid : Bench}
    {e : SessionFailure} (h : x.perform cancelled b = (.error e, mid)) (hx : x.request.Fits)
    (xs : List (Exchange Unit)) :
    performAll cancelled (x.discard :: xs) b = (.error e, mid) := by
  rw [performAll, perform_discard cancelled x hx, h]
  rfl

theorem performAll_append_of_ok {cancelled : Bench → Bool} {xs : List (Exchange Unit)}
    {b mid : Bench} (h : performAll cancelled xs b = (.ok (), mid)) (ys : List (Exchange Unit)) :
    performAll cancelled (xs ++ ys) b = performAll cancelled ys mid := by
  induction xs generalizing b with
  | nil =>
    obtain rfl : b = mid := (Prod.mk.inj h).2
    rfl
  | cons x xs ih =>
    rw [performAll] at h
    rw [List.cons_append, performAll]
    rcases hp : x.perform cancelled b with ⟨_ | _, b'⟩
    · simp [hp] at h
    · rw [hp] at h
      exact ih h

theorem performAll_append_of_error {cancelled : Bench → Bool} {xs : List (Exchange Unit)}
    {b mid : Bench} {e : SessionFailure} (h : performAll cancelled xs b = (.error e, mid))
    (ys : List (Exchange Unit)) : performAll cancelled (xs ++ ys) b = (.error e, mid) := by
  induction xs generalizing b with
  | nil => cases (Prod.mk.inj h).1
  | cons x xs ih =>
    rw [performAll] at h
    rw [List.cons_append, performAll]
    rcases hp : x.perform cancelled b with ⟨_ | _, b'⟩
    · rw [hp] at h
      exact h
    · rw [hp] at h
      exact ih h

/-- A sequence leaves the link after exactly the requests it made, each with its
wait, whatever the script says and whenever a cancel request comes in. -/
theorem performAll_ends (cancelled : Bench → Bool) (xs : List (Exchange Unit))
    (hfit : ∀ x ∈ xs, x.request.Fits) (b : Bench) :
    ∃ n, Ends cancelled b xs (performAll cancelled xs b).1 n ∧
      (performAll cancelled xs b).2 = b.after (transfers (xs.take n)) := by
  induction xs generalizing b with
  | nil => exact ⟨0, .completed (accepted_nil b), by simp [performAll, transfers]⟩
  | cons x xs ih =>
    obtain ⟨hx, hxs⟩ := List.forall_mem_cons.mp hfit
    rw [performAll, perform_bench cancelled x hx]
    by_cases hc : x.interruptible && cancelled b
    · obtain ⟨hi, hcan⟩ := Bool.and_eq_true_iff.mp hc
      rw [if_pos hc]
      refine ⟨0, .interrupted rfl (accepted_nil b) hi ?_, ?_⟩
      · simpa [transfers] using hcan
      · simp [transfers]
    · rw [if_neg hc]
      cases hv : x.verdict (b.reply 0) with
      | error e => exact ⟨1, .refused rfl (accepted_nil b) hv, rfl⟩
      | ok _ =>
        obtain ⟨n, hn, hb⟩ := ih hxs (b.after [x.request.transfer])
        refine ⟨n + 1, .cons hv hn, ?_⟩
        rw [Bench.after_after] at hb
        exact hb

/-- A sequence that goes through made all its transfers and accepted every answer. -/
theorem performAll_eq_ok {cancelled : Bench → Bool} {xs : List (Exchange Unit)} {b mid : Bench}
    (h : performAll cancelled xs b = (.ok (), mid)) (hfit : ∀ x ∈ xs, x.request.Fits) :
    Accepted b xs ∧ mid = b.after (transfers xs) := by
  obtain ⟨n, hends, hline⟩ := performAll_ends cancelled xs hfit b
  rw [h] at hends hline
  cases hends with
  | completed hacc =>
    rw [List.take_length] at hline
    exact ⟨hacc, hline⟩

/-! ### Sequences without a cancel request -/

section

variable {xs : List (Exchange Unit)} {b : Bench}

theorem accepted_take_iff {n : Nat} :
    Accepted b (xs.take n) ↔
      ∀ i x, i < n → xs[i]? = some x → x.verdict (b.reply i) = .ok () := by
  constructor
  · intro h i x hi hx
    exact h i x (by rw [List.getElem?_take_of_lt hi, hx])
  · intro h i x hx
    rw [List.getElem?_take] at hx
    split at hx
    · next hi => exact h i x hi hx
    · cases hx

/-- There is one first answer that is refused. -/
theorem refused_unique {i n : Nat} {x y : Exchange Unit} {e e' : ProgramError}
    (hx : xs[i]? = some x) (hacc : Accepted b (xs.take i)) (hv : x.verdict (b.reply i) = .error e)
    (hy : xs[n]? = some y) (hacc' : Accepted b (xs.take n))
    (hv' : y.verdict (b.reply n) = .error e') : i = n := by
  rcases Nat.lt_trichotomy i n with hlt | heq | hgt
  · have hok := accepted_take_iff.mp hacc' i x hlt hx
    cases hok.symm.trans hv
  · exact heq
  · have hok := accepted_take_iff.mp hacc n y hgt hy
    cases hok.symm.trans hv'

variable (hfit : ∀ x ∈ xs, x.request.Fits)

include hfit

/-- A sequence goes through exactly if every answer is accepted. -/
theorem performAll_eq_ok_iff :
    (performAll (fun _ => false) xs b).1 = .ok () ↔ Accepted b xs := by
  obtain ⟨n, hends, -⟩ := performAll_ends (fun _ => false) xs hfit b
  generalize (performAll (fun _ => false) xs b).1 = result at hends
  cases hends with
  | completed hacc => exact iff_of_true rfl hacc
  | @refused n x e hx hacc hv =>
    refine iff_of_false nofun fun hall => ?_
    have hok := hall n x hx
    cases hok.symm.trans hv
  | interrupted _ _ _ hc => cases hc

end

end Exchange
end MotionRack
