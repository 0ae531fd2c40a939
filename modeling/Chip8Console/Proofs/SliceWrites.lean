import Mathlib.Data.Nat.SuccPred
import Mathlib.Order.SuccPred.Archimedean
import Chip8Console.Proofs.InstructionEffects
import Chip8Console.Proofs.SpriteDrawing

/-!
Bytes written to the RAM one after the other. They go to consecutive cells around the top, and of those that
fall into one cell the last one stays. Reading them back, byte by byte or in words, finds them there.
-/
namespace Chip8Console.Memory

private theorem next_add_mod (address : UInt16) (k : Nat) :
    ((address + 1).toNat + k) % size = (address.toNat + (k + 1)) % size := by
  -- addresses wrap in 16 bits and cells in twelve. Counting on from the next address comes to the same cell
  rw [UInt16.toNat_add]
  simp only [size, UInt16.toNat_one]
  omega

variable {address : UInt16} {data : List UInt8}

private theorem writeSlice_last {k : Nat} (within : k < data.length) {place : Fin size}
    (falls : place.val = (address.toNat + k) % size)
    (last : ∀ j, k < j → j < data.length → place.val ≠ (address.toNat + j) % size) (m : Memory) :
    (m.writeSlice address data).bytes.get place = data[k] := by
  induction data generalizing m address k with
  | nil => cases within
  | cons byte rest ih =>
    rw [writeSlice_cons]
    cases k with
    | zero =>
      have spared : ¬ Within (address + 1) rest.length place := by
        rintro ⟨j, hj, again⟩
        apply last (j + 1) (Nat.succ_pos j) (Nat.succ_lt_succ hj)
        rw [again, next_add_mod]
      have here : place = cell address := Fin.ext falls
      rw [writeSlice_outside spared, here]
      exact Vector.getElem_set_self _
    | succ k =>
      apply ih (Nat.lt_of_succ_lt_succ within)
      · rw [next_add_mod]
        exact falls
      · intro j later hj
        rw [next_add_mod]
        exact last (j + 1) (Nat.succ_lt_succ later) (Nat.succ_lt_succ hj)

/-- What fits into the RAM is found there byte by byte. -/
theorem cellByte_writeSlice (fits : data.length ≤ size) {k : Nat} (within : k < data.length) (m : Memory) :
    (m.writeSlice address data).cellByte (address.toNat + k) = data[k] := by
  apply writeSlice_last within rfl
  intro j later hj
  have near : j < k + size := by omega
  simp only [size] at near ⊢
  omega

theorem cellByte_congr {n n' : Nat} (same : n % size = n' % size) (m : Memory) : m.cellByte n = m.cellByte n' := by
  simp only [cellByte, same]

/-- Two contents of the RAM that hold the same byte in each cell are the same. -/
theorem eq_of_cellByte {m m' : Memory} (same : ∀ n < size, m.cellByte n = m'.cellByte n) : m = m' := by
  apply congrArg Memory.mk
  apply Vector.ext
  intro n hn
  have cells := same n hn
  simp only [cellByte, Nat.mod_eq_of_lt hn] at cells
  exact cells

/-- A slice leaves the cells alone that none of its bytes falls into. -/
theorem cellByte_outside {n : Nat} (outside : ∀ k < data.length, n % size ≠ (address.toNat + k) % size)
    (m : Memory) : (m.writeSlice address data).cellByte n = m.cellByte n := by
  apply writeSlice_outside
  rintro ⟨k, hk, falls⟩
  exact outside k hk falls

/-- The places in a slice of `count` bytes from `address` on whose bytes fall into the cell of `reading`. -/
def landings (address : UInt16) (count : Nat) (reading : UInt16) : Set Nat :=
  {k | k < count ∧ address.toNat + k ≡ reading.toNat [MOD size]}

private theorem read_writeSlice_of_isGreatest {reading : UInt16} {k : Nat}
    (last : IsGreatest (landings address data.length reading) k) (m : Memory) :
    data[k]? = some ((m.writeSlice address data).read reading) := by
  obtain ⟨⟨within, falls⟩, greatest⟩ := last
  have here : (cell reading).val = (address.toNat + k) % size := falls.symm
  have found : (m.writeSlice address data).read reading = data[k] := by
    apply writeSlice_last within here
    intro j later hj again
    exact absurd (greatest ⟨hj, again.symm⟩) (Nat.not_le.mpr later)
  rw [found, List.getElem?_eq_getElem within]

private theorem read_writeSlice_of_empty {reading : UInt16}
    (empty : landings address data.length reading = ∅)
    (m : Memory) : (m.writeSlice address data).read reading = m.read reading := by
  apply writeSlice_outside
  rintro ⟨k, within, falls⟩
  have landed : k ∈ landings address data.length reading := ⟨within, falls.symm⟩
  rw [empty] at landed
  exact landed

/-- A slice is written by single writes. Their addresses are counted in 16 bits, like the places of the bytes. -/
theorem writeSlice_eq_foldl (m : Memory) (address : UInt16) (data : List UInt8) :
    m.writeSlice address data =
      data.zipIdx.foldl (fun ram (byte, k) => ram.write (address + UInt16.ofNat k) byte) m := by
  have from_place (n : Nat) : m.writeSlice (address + UInt16.ofNat n) data =
      (data.zipIdx n).foldl (fun ram (byte, k) => ram.write (address + UInt16.ofNat k) byte) m := by
    induction data generalizing m n with
    | nil => rfl
    | cons byte rest ih =>
      have next : address + UInt16.ofNat n + 1 = address + UInt16.ofNat (n + 1) := by
        rw [UInt16.ofNat_add, UInt16.add_assoc]
        rfl
      rw [writeSlice_cons, next, ih, List.zipIdx_cons, List.foldl_cons]
  have first := from_place 0
  rwa [show address + UInt16.ofNat 0 = address from UInt16.add_zero address] at first

private theorem toNat_word (m : Memory) (address : UInt16) :
    (m.word address).toNat = 256 * (m.read address).toNat + (m.read (address + 1)).toNat := by
  have high := (m.read address).toNat_lt
  have room : (m.read address).toUInt16.toNat * 256 < 0x10000 := by
    rw [UInt8.toNat_toUInt16]
    omega
  have low : (m.read (address + 1)).toUInt16.toNat < 256 := (m.read (address + 1)).toNat_lt
  calc (m.word address).toNat =
        (m.read address).toUInt16.toNat * 256 + (m.read (address + 1)).toUInt16.toNat :=
          Instruction.toNat_shiftLeft_or (by decide) room low
    _ = 256 * (m.read address).toNat + (m.read (address + 1)).toNat := by
          rw [UInt8.toNat_toUInt16, UInt8.toNat_toUInt16, Nat.mul_comm]

/-- A slice of any length, written at any address, is single writes one after the other, counted around the
top of the RAM and of all addresses. At every address the last byte is read that falls into its cell, or
what was there before if none does, and a word is two such bytes, high byte first. -/
theorem slice_writes_wrap (m : Memory) (address : UInt16) (data : List UInt8) :
    let written := m.writeSlice address data
    written = data.zipIdx.foldl (fun ram (byte, k) => ram.write (address + UInt16.ofNat k) byte) m ∧
    ∀ reading : UInt16,
      ((∃ k, IsGreatest (landings address data.length reading) k ∧
          data[k]? = some (written.read reading)) ∨
        landings address data.length reading = ∅ ∧ written.read reading = m.read reading) ∧
      (written.word reading).toNat =
        256 * (written.read reading).toNat + (written.read (reading + 1)).toNat := by
  intro written
  refine ⟨m.writeSlice_eq_foldl address data, fun reading => ⟨?_, written.toNat_word reading⟩⟩
  obtain empty | landed := (landings address data.length reading).eq_empty_or_nonempty
  · exact .inr ⟨empty, read_writeSlice_of_empty empty m⟩
  · have bounded : BddAbove (landings address data.length reading) := ⟨data.length, fun _ h => h.1.le⟩
    obtain ⟨k, last⟩ := bounded.exists_isGreatest_of_nonempty landed
    exact .inl ⟨k, last, read_writeSlice_of_isGreatest last m⟩

-- across the top of all addresses, read across the top of the RAM
example : (zeroed.writeSlice 0xFFFF [1, 2]).word 0x0FFF = 0x0102 := by decide +kernel

end Chip8Console.Memory
