import MotionRack.Document.Reader
import MotionRack.Proofs.Bus.Frame
import MotionRack.Proofs.Device.Stage
import MotionRack.Proofs.Sequence

/-!
# Saved positions

Positions are saved in the cells of a table. A position that names no cell goes into the one behind
the position before it, so a position may go back to a cell that was written before. The cells are
counted here first; then the frame is filled if every cell lies in the table, and each cell
holds the position that came last. A cursor counts bytes instead, in words that could overflow:
the two ways of counting go together as long as positions are saved, and no word overflows.
-/
namespace MotionRack

namespace Stage

/-! ### Cells -/

/-- The cell that a position names. -/
def namedCell? (e : Element) : Option Int := (e.attr? "index").bind Numeral.i32?

/-- The value of a position. -/
def savedValue? (e : Element) : Option Int := (e.attr? "value").bind Numeral.i32?

/-- Positions with their cells; `next` is the cell of a first one that names none. -/
def withCells (next : Int) (es : List Element) : List (Int × Element) :=
  numbered namedCell? (· + 1) next es

/-- Whether a position can be saved in a cell. -/
structure Storable (cell : Int) (e : Element) : Prop where
  value : ∃ v, savedValue? e = some v
  index : ∀ raw, e.attr? "index" = some raw → ∃ v, Numeral.i32? raw = some v
  first : 1 ≤ cell
  last : cell ≤ cellCount

/-- The last position in a cell. -/
def lastIn? (cell : Int) (ps : List (Int × Element)) : Option Element :=
  ((ps.filter (·.1 = cell)).getLast?).map Prod.snd

/-- What is saved in a cell: the value of the last position there, or 0 if there is none. -/
def savedIn (cell : Int) (ps : List (Int × Element)) : Int :=
  ((lastIn? cell ps).bind savedValue?).getD 0

theorem withCells_cons (next : Int) (e : Element) (es : List Element) :
    withCells next (e :: es) =
      ((namedCell? e).getD next, e) :: withCells ((namedCell? e).getD next + 1) es :=
  rfl

theorem positionCell_eq_ok {next cell : Nat} (hnext : 1 ≤ next) {e : Element} :
    positionCell next e = .ok cell ↔
      (∀ raw, e.attr? "index" = some raw → ∃ v, Numeral.i32? raw = some v) ∧
        1 ≤ cell ∧ (namedCell? e).getD next = cell := by
  unfold positionCell namedCell?
  cases e.attr? "index" with
  | none =>
    simp
    omega
  | some raw =>
    cases hv : Numeral.i32? raw with
    | none => simp [Attribute.orMalformed, hv]
    | some v =>
      have hfound : ((some v).filter (1 ≤ ·)).map Int.toNat = some cell ↔ 1 ≤ cell ∧ v = cell := by
        simp [Option.filter]
        omega
      simp [Attribute.orMalformed_eq_ok, hfound, hv]

theorem value_eq_ok {e : Element} {v : Int} :
    (Attribute.text e "value" >>= fun raw =>
      Attribute.orMalformed e "value" raw (Numeral.i32? raw)) = .ok v ↔ savedValue? e = some v := by
  simp only [bind_eq_ok, Attribute.text_eq_ok, Attribute.orMalformed_eq_ok, savedValue?,
    Option.bind_eq_some_iff]

theorem fillPositions_cons_eq_ok {next : Nat} (hnext : 1 ≤ next) {e : Element} {es : List Element}
    {image payload : Octets} :
    fillPositions next (e :: es) image = .ok payload ↔
      ∃ cell v, (namedCell? e).getD next = (cell : Nat) ∧ Storable cell e ∧ savedValue? e = some v ∧
        fillPositions (cell + 1) es (image.overwrite (cellOffset cell) (Octets.ofInt 4 v)) =
          .ok payload := by
  rw [fillPositions, bind_eq_ok]
  constructor
  · rintro ⟨cell, hcell, h⟩
    obtain ⟨hindex, hfirst, hcell⟩ := (positionCell_eq_ok hnext).mp hcell
    split at h
    next => cases h
    next hlast =>
      obtain ⟨raw, hraw, h⟩ := bind_eq_ok.mp h
      obtain ⟨v, hv, h⟩ := bind_eq_ok.mp h
      have hvalue : savedValue? e = some v :=
        value_eq_ok.mp (bind_eq_ok.mpr ⟨raw, hraw, hv⟩)
      exact ⟨cell, v, hcell, ⟨⟨v, hvalue⟩, hindex, by omega, by omega⟩, hvalue, h⟩
  · rintro ⟨cell, v, hcell, hstorable, hvalue, h⟩
    obtain ⟨raw, hraw, hv⟩ := bind_eq_ok.mp (value_eq_ok.mpr hvalue)
    have hfirst := hstorable.first
    have hlast := hstorable.last
    refine ⟨cell, (positionCell_eq_ok hnext).mpr ⟨hstorable.index, by omega, hcell⟩, ?_⟩
    rw [if_neg (by omega)]
    exact bind_eq_ok.mpr ⟨raw, hraw, bind_eq_ok.mpr ⟨v, hv, h⟩⟩

/-- Positions can be saved exactly if each of them can be saved in its cell. -/
theorem exists_fillPositions_iff {next : Nat} (hnext : 1 ≤ next) {es : List Element}
    {image : Octets} :
    (∃ payload, fillPositions next es image = .ok payload) ↔
      ∀ p ∈ withCells next es, Storable p.1 p.2 := by
  induction es generalizing next image with
  | nil => exact iff_of_true ⟨image, rfl⟩ (List.forall_mem_nil _)
  | cons e es ih =>
    simp only [fillPositions_cons_eq_ok hnext]
    rw [withCells_cons, List.forall_mem_cons]
    constructor
    · rintro ⟨payload, cell, v, hcell, hstorable, -, h⟩
      rw [hcell]
      exact ⟨hstorable, (ih (Nat.le_add_left 1 cell)).mp ⟨payload, h⟩⟩
    · rintro ⟨hstorable, hrest⟩
      -- Cells are any integers; only one that can be written is a place of the table.
      obtain ⟨cell, hcell⟩ : ∃ cell : Nat, (namedCell? e).getD next = cell :=
        Int.eq_ofNat_of_zero_le (Int.le_trans Int.one_nonneg hstorable.first)
      rw [hcell] at hstorable hrest
      obtain ⟨v, hv⟩ := hstorable.value
      obtain ⟨payload, h⟩ := (ih (Nat.le_add_left 1 cell)).mpr hrest
      exact ⟨payload, cell, v, hcell, hstorable, hv, h⟩

theorem lastIn?_cons (cell : Int) (p : Int × Element) (ps : List (Int × Element)) :
    lastIn? cell (p :: ps) =
      (lastIn? cell ps).or (if p.1 = cell then some p.2 else none) := by
  unfold lastIn?
  by_cases h : p.1 = cell
  · rw [List.filter_cons_of_pos (by simpa using h), List.getLast?_cons, if_pos h]
    cases (ps.filter (·.1 = cell)).getLast? <;> rfl
  · rw [List.filter_cons_of_neg (by simpa using h), if_neg h, Option.or_none]

theorem cellOffset_fits {cell : Nat} {e : Element} (h : Storable cell e) {image : Octets}
    (htable : image.length = 42) (v : Int) :
    cellOffset cell + (Octets.ofInt 4 v).length ≤ image.length := by
  have hfirst := h.first
  have hlast := h.last
  rw [Octets.length_ofInt, htable]
  unfold cellOffset
  unfold cellCount at hlast
  omega

/-- Every cell holds the value of the last position there, or what it held before. -/
theorem slice_fillPositions {next : Nat} (hnext : 1 ≤ next) {es : List Element}
    {image payload : Octets} (htable : image.length = 42)
    (h : fillPositions next es image = .ok payload) {cell : Nat} (hfirst : 1 ≤ cell)
    (hlast : cell ≤ cellCount) :
    Octets.slice (cellOffset cell) 4 payload =
      match lastIn? cell (withCells next es) with
      | some e => Octets.ofInt 4 ((savedValue? e).getD 0)
      | none => Octets.slice (cellOffset cell) 4 image := by
  induction es generalizing next image with
  | nil =>
    cases h
    rfl
  | cons e es ih =>
    obtain ⟨own, v, hown, hstorable, hv, h⟩ := (fillPositions_cons_eq_ok hnext).mp h
    have hwidth : (Octets.ofInt 4 v).length = 4 := Octets.length_ofInt 4 v
    have hwrite := cellOffset_fits hstorable htable v
    rw [ih (Nat.le_add_left 1 own) (by rwa [Octets.length_overwrite hwrite]) h, withCells_cons,
      hown, lastIn?_cons, Int.natCast_succ]
    cases lastIn? cell (withCells (own + 1) es) with
    | some later => rfl
    | none =>
      rw [Option.none_or]
      by_cases hsame : own = cell
      · subst hsame
        rw [if_pos rfl]
        dsimp only
        rw [hv, Option.getD_some, Octets.slice_overwrite hwidth hwrite]
      · rw [if_neg (by omega)]
        apply Octets.slice_overwrite_of_apart hwrite
        have hbegin := hstorable.first
        rw [hwidth]
        unfold cellOffset
        omega

/-- Positions leave the number of the slot alone. -/
theorem slice_slot_fillPositions {next : Nat} (hnext : 1 ≤ next) {es : List Element}
    {image payload : Octets} (htable : image.length = 42)
    (h : fillPositions next es image = .ok payload) :
    Octets.slice 0 2 payload = Octets.slice 0 2 image := by
  induction es generalizing next image with
  | nil =>
    cases h
    rfl
  | cons e es ih =>
    obtain ⟨own, v, -, hstorable, -, h⟩ := (fillPositions_cons_eq_ok hnext).mp h
    have hwrite := cellOffset_fits hstorable htable v
    rw [ih (Nat.le_add_left 1 own) (by rwa [Octets.length_overwrite hwrite]) h]
    apply Octets.slice_overwrite_of_apart hwrite
    left
    have hbegin := hstorable.first
    unfold cellOffset
    omega

/-! ### The cursor as a word -/

/-- Why positions cannot be saved: arithmetic on a word of 64 bits overflows, or the description
is at fault. -/
inductive Stop
  | overflow
  | refused (error : ConfigError)

/-- A number as a word of 64 bits. -/
def word (n : Nat) : Except Stop Nat := if n < pow2 64 then .ok n else .error .overflow

/-- Where in the frame a position is saved: in the cell that it names, or else at the cursor. -/
def moved (cursor : Nat) (e : Element) : Except Stop Nat :=
  match e.attr? "index" with
  | none => .ok cursor
  | some raw =>
    match (Numeral.i32? raw).filter (0 ≤ ·) with
    | none => .error (.refused (.malformedValue e.location "index" raw))
    | some v => do
      let place ← word (4 + (← word (v.toNat * 4)))
      if place < 8 then .error (.refused (.malformedValue e.location "index" raw)) else .ok place

/-- Saves positions at a cursor that counts the bytes of the frame. -/
def saveAll : Nat → List Element → Octets → Except Stop Octets
  | _, [], image => .ok image
  | cursor, e :: es, image => do
    let place ← moved cursor e
    let behind ← word (place + 4)
    if 48 < behind then throw (.refused (.shape e.location .positionOutsideTable))
    let raw ← (Attribute.text e "value").mapError .refused
    let v ← (Attribute.orMalformed e "value" raw (Numeral.i32? raw)).mapError .refused
    saveAll behind es (image.overwrite (place - Frame.headerLength) (Octets.ofInt 4 v))

/-- The places of a cell that a number of 32 bits names are far from the end of a word. -/
theorem word_eq_ok {cell n : Nat} (hcell : cell < pow2 31) (hn : n ≤ 4 * cell + 8) :
    word n = .ok n := by
  have hsmall : pow2 31 = 2147483648 := rfl
  have hlarge : pow2 64 = 18446744073709551616 := rfl
  exact if_pos (by omega)

/-- The cell of a position is named, and then by a number of 32 bits, or it is the next one. -/
theorem positionCell_lt {next cell : Nat} {e : Element} (hnext : next < pow2 31)
    (h : positionCell next e = .ok cell) : cell < pow2 31 := by
  unfold positionCell at h
  split at h
  next =>
    cases h
    exact hnext
  next raw _ =>
    obtain ⟨v, hv, rfl⟩ := Option.map_eq_some_iff.mp (Attribute.orMalformed_eq_ok.mp h)
    have hlt := Numeral.i32?_lt (Option.filter_eq_some_iff.mp hv).1
    omega

theorem moved_eq (next : Nat) (e : Element) :
    moved (4 + 4 * next) e = ((positionCell next e).map (4 + 4 * ·)).mapError .refused := by
  unfold moved positionCell
  cases e.attr? "index" with
  | none => rfl
  | some raw =>
    dsimp only
    cases hv : Numeral.i32? raw with
    | none => rfl
    | some v =>
      by_cases hsign : 0 ≤ v
      · have hlt : v.toNat < pow2 31 := (Int.toNat_lt hsign).mpr (Numeral.i32?_lt hv)
        rw [Option.filter_some_pos (by simpa using hsign)]
        dsimp only
        rw [word_eq_ok hlt (by omega)]
        dsimp only [bind, Except.bind]
        rw [word_eq_ok hlt (by omega)]
        dsimp only
        by_cases hfirst : 1 ≤ v
        · rw [if_neg (by omega), Option.filter_some_pos (by simpa using hfirst)]
          simp [Attribute.orMalformed, Except.map, Except.mapError, Nat.mul_comm]
        · rw [if_pos (by omega), Option.filter_some_neg (by simpa using hfirst)]
          rfl
      · rw [Option.filter_some_neg (by simpa using hsign),
          Option.filter_some_neg (by simp; omega)]
        rfl

theorem saveAll_eq {next : Nat} (hnext : next ≤ cellCount + 1) (es : List Element)
    (image : Octets) :
    saveAll (4 + 4 * next) es image = (fillPositions next es image).mapError .refused := by
  -- The cursor stands four bytes a cell behind the header. What is saved was in the table, so the
  -- next cell is at most the one behind its end.
  induction es generalizing next image with
  | nil => rfl
  | cons e es ih =>
    rw [saveAll, fillPositions, moved_eq]
    cases hcell : positionCell next e with
    | error fault => rfl
    | ok cell =>
      have hlt : cell < pow2 31 := positionCell_lt (Nat.lt_of_le_of_lt hnext (by decide)) hcell
      dsimp only [Except.map, Except.mapError, bind, Except.bind]
      rw [word_eq_ok hlt (by omega)]
      dsimp only
      by_cases hlast : cellCount < cell
      · have hend : 48 < 4 + 4 * cell + 4 := by
          unfold cellCount at hlast
          omega
        rw [if_pos hlast, if_pos hend]
        rfl
      · have hend : ¬ 48 < 4 + 4 * cell + 4 := by
          unfold cellCount at hlast
          omega
        have hplace : 4 + 4 * cell - Frame.headerLength = cellOffset cell := by
          unfold Frame.headerLength cellOffset
          omega
        rw [if_neg hlast, if_neg hend, hplace]
        cases Attribute.text e "value" with
        | error fault => rfl
        | ok raw =>
          dsimp only
          cases Attribute.orMalformed e "value" raw (Numeral.i32? raw) with
          | error fault => rfl
          | ok v => exact ih (Nat.add_le_add_right (Nat.not_lt.mp hlast) 1) _

/-! ### The frame -/

theorem exists_positionsFrame_iff {store : Element} {slot : UInt16} :
    (∃ f, positionsFrame store slot = .ok f) ↔
      ∀ p ∈ withCells 1 (store.childrenNamed "Position"), Storable p.1 p.2 := by
  rw [← Nat.cast_one, ← exists_fillPositions_iff (Nat.le_refl 1)]
  unfold positionsFrame
  constructor
  · rintro ⟨f, h⟩
    obtain ⟨payload, hpayload, -⟩ := bind_eq_ok.mp h
    exact ⟨payload, hpayload⟩
  · rintro ⟨payload, hpayload⟩
    exact ⟨_, bind_eq_ok.mpr ⟨payload, hpayload, rfl⟩⟩

theorem slice_blankPayload_cell {cell : Nat} (hfirst : 1 ≤ cell) (hlast : cell ≤ cellCount)
    (slot : UInt16) :
    Octets.slice (cellOffset cell) 4 (blankPayload 42 slot) = Octets.ofInt 4 0 := by
  unfold cellCount at hlast
  apply slice_blankPayload_zero
  · unfold cellOffset
    omega
  · unfold cellOffset
    omega

/-- In a table that was blank every cell holds what is saved there. -/
theorem slice_cell_fillPositions {es : List Element} {slot : UInt16} {payload : Octets}
    (h : fillPositions 1 es (blankPayload 42 slot) = .ok payload) {cell : Nat} (hfirst : 1 ≤ cell)
    (hlast : cell ≤ cellCount) : Octets.slice (cellOffset cell) 4 payload =
      Octets.ofInt 4 (savedIn cell (withCells 1 es)) := by
  have hblank : (blankPayload 42 slot).length = 42 := length_blankPayload (by decide) slot
  rw [slice_fillPositions (Nat.le_refl 1) hblank h hfirst hlast, savedIn, Nat.cast_one]
  cases lastIn? cell (withCells 1 es) with
  | some e => rfl
  | none => exact slice_blankPayload_cell hfirst hlast slot

/-- Each position has a cell: the one that it names, or else the one behind the cell of the position
before it, from 1 on. The frame of the positions of a slot is there exactly if every cell is in the
table and everything that is named is a number of 32 bits. It then holds in each of the ten
cells the value of the last position that has this cell, or 0. A cursor that counts bytes in words
of 64 bits leads to the same bytes and the same errors, and never overflows. -/
theorem positions_follow_cursor {slot : UInt16} (hslot : Address.IsSlotNumber slot)
    (store : Element) :
    ((∃ f, positionsFrame store slot = .ok f) ↔
      ∀ p ∈ withCells 1 (store.childrenNamed "Position"), Storable p.1 p.2) ∧
    (∀ f, positionsFrame store slot = .ok f →
      f.command = Command.setStorePosition ∧
      f.destination = .slot (UInt8.ofNat (slot.toNat - 1)) ∧ f.encode.length = 48 ∧
      Octets.slice Frame.headerLength 2 f.encode = Octets.ofNat 2 slot.toNat ∧
      ∀ cell : Nat, 1 ≤ cell → cell ≤ cellCount → Octets.slice (4 + 4 * cell) 4 f.encode =
        Octets.ofInt 4 (savedIn cell (withCells 1 (store.childrenNamed "Position")))) ∧
    ∀ image, saveAll 8 (store.childrenNamed "Position") image =
      (fillPositions 1 (store.childrenNamed "Position") image).mapError .refused := by
  refine ⟨exists_positionsFrame_iff, fun f h => ?_,
    fun image => saveAll_eq (Nat.le_add_left 1 cellCount) _ image⟩
  obtain ⟨payload, hpayload, h⟩ := bind_eq_ok.mp h
  obtain rfl := pure_eq_ok.mp h
  have hblank : (blankPayload 42 slot).length = 42 := length_blankPayload (by decide) slot
  have hlength := length_fillPositions hpayload (Nat.le_refl 1) hblank
  refine ⟨rfl, slotAddress_eq hslot, ?_, ?_, fun cell hfirst hlast => ?_⟩
  · rw [Frame.length_encode_carrying, hlength]
    rfl
  · rw [← slice_blankPayload 42 slot,
      ← slice_slot_fillPositions (Nat.le_refl 1) hblank hpayload]
    exact Frame.slice_encode_carrying 0 2
  · have hplace : 4 + 4 * cell = Frame.headerLength + cellOffset cell := by
      unfold Frame.headerLength cellOffset
      omega
    rw [hplace, Frame.slice_encode_carrying]
    exact slice_cell_fillPositions hpayload hfirst hlast

section

open Document (unplaced)

/-- Positions that go ahead, go on from there, and go back to a cell. -/
def leapingStore : Element :=
  unplaced "Store" [] [
    unplaced "Position" [("value", "100")] [],
    unplaced "Position" [("value", "-1"), ("index", "5")] [],
    unplaced "Position" [("value", "7")] [],
    unplaced "Position" [("value", "8"), ("index", "5")] []]

/-- Positions that go on behind the end of the table. -/
def overfullStore : Element :=
  unplaced "Store" [] [
    unplaced "Position" [("value", "3"), ("index", "10")] [],
    unplaced "Position" [("value", "4")] []]

theorem positions_follow_cursor_leapingStore :
    (∃ f, positionsFrame leapingStore 2 = .ok f ∧ f.encode.length = 48 ∧
      Octets.slice 6 2 f.encode = [2, 0] ∧ Octets.slice 8 4 f.encode = [100, 0, 0, 0] ∧
      Octets.slice 12 4 f.encode = [0, 0, 0, 0] ∧ Octets.slice 24 4 f.encode = [8, 0, 0, 0] ∧
      Octets.slice 28 4 f.encode = [7, 0, 0, 0]) ∧
    ¬ ∃ f, positionsFrame overfullStore 2 = .ok f := by
  have hslot : Address.IsSlotNumber 2 := by decide
  obtain ⟨-, hcells, -⟩ := positions_follow_cursor hslot leapingStore
  obtain ⟨hrefused, -⟩ := positions_follow_cursor hslot overfullStore
  have hmade : (positionsFrame leapingStore 2).toOption.isSome := by decide +kernel
  constructor
  · obtain ⟨f, hf⟩ := Option.isSome_iff_exists.mp hmade
    obtain ⟨-, -, hlength, hnumber, hcell⟩ := hcells f (toOption_eq_some.mp hf)
    refine ⟨f, toOption_eq_some.mp hf, hlength, hnumber, ?_, ?_, ?_, ?_⟩
    · exact (hcell 1 (by decide) (by decide)).trans (by decide +kernel)
    · exact (hcell 2 (by decide) (by decide)).trans (by decide +kernel)
    · exact (hcell 5 (by decide) (by decide)).trans (by decide +kernel)
    · exact (hcell 6 (by decide) (by decide)).trans (by decide +kernel)
  · rw [hrefused]
    intro h
    have hcells : 11 ∈ (withCells 1 (overfullStore.childrenNamed "Position")).map Prod.fst := by
      decide +kernel
    obtain ⟨p, hp, hcell⟩ := List.mem_map.mp hcells
    exact absurd (hcell ▸ (h p hp).last) (by decide)

end

end Stage
end MotionRack
