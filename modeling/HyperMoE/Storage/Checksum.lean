import HyperMoE.Lib.ShiftRegister
import HyperMoE.Storage.DiskLoader

/-!
# Bursts under the checksum

`ExpertStore::crc32` is a shift register of 32 bits over the bits of the bytes, the lowest bit of
each byte first.

* `bits`             the bits of a byte string, in the order in which the register takes them;
* `toBitVec_crc32`   the checksum is what the register holds at the end, inverted;
* `Burst`            two strings of one length that differ, within 32 consecutive bits;
* `crc32_burst`      they have different checksums;
* `RejectsBursts`    what that means for a store that validates.
-/

namespace HyperMoE.Storage

open Lib

/-- the lowest bit first -/
def bitsOf (byte : UInt8) : List Bool := (List.range 8).map byte.toBitVec.getLsbD

def bits (bytes : List UInt8) : List Bool := bytes.flatMap bitsOf

theorem length_bitsOf (byte : UInt8) : (bitsOf byte).length = 8 := by
  simp [bitsOf]

theorem bitsOf_injective : Function.Injective bitsOf := by
  intro a b h
  refine UInt8.toBitVec_inj.mp (BitVec.eq_of_getLsbD_eq fun i hi => ?_)
  exact List.map_inj_left.mp h i (List.mem_range.mpr hi)

theorem bits_injective {a b : List UInt8} (hlength : a.length = b.length) (h : bits a = bits b) :
    a = b := by
  induction a generalizing b with
  | nil => exact (List.eq_nil_of_length_eq_zero hlength.symm).symm
  | cons x a ih =>
    cases b with
    | nil => cases hlength
    | cons y b =>
      have hlengths : (bitsOf x).length = (bitsOf y).length := by
        rw [length_bitsOf, length_bitsOf]
      have hparts := List.append_inj (show bitsOf x ++ bits a = bitsOf y ++ bits b from h) hlengths
      rw [bitsOf_injective hparts.1, ih (Nat.succ.inj hlength) hparts.2]

theorem length_bits (bytes : List UInt8) : (bits bytes).length = 8 * bytes.length := by
  induction bytes with
  | nil => rfl
  | cons byte bytes ih =>
    show (bitsOf byte ++ bits bytes).length = 8 * (bytes.length + 1)
    rw [List.length_append, length_bitsOf, ih]
    omega

/-! ## the register -/

def polynomial : BitVec 32 := 0xedb88320#32

/-- the mask of the code is the choice that the register makes -/
theorem mask_eq (crc : UInt32) :
    (0xedb88320 &&& (0 - (crc &&& 1))).toBitVec =
      ShiftRegister.when polynomial (crc.toBitVec.getLsbD 0) := by
  have hlow : (crc &&& 1).toBitVec = (BitVec.ofBool (crc.toBitVec.getLsbD 0)).setWidth 32 := by
    rw [UInt32.toBitVec_and]
    exact BitVec.and_one_eq_setWidth_ofBool_getLsbD
  rw [UInt32.toBitVec_and, UInt32.toBitVec_sub, hlow]
  cases crc.toBitVec.getLsbD 0 <;> decide

theorem toBitVec_crcBit (crc : UInt32) :
    (crcBit crc).toBitVec = ShiftRegister.clock polynomial crc.toBitVec := by
  unfold crcBit ShiftRegister.clock
  rw [UInt32.toBitVec_xor, mask_eq, UInt32.toBitVec_shiftRight]
  rfl

theorem toBitVec_iterate_crcBit (n : Nat) (crc : UInt32) :
    (crcBit^[n] crc).toBitVec = (ShiftRegister.clock polynomial)^[n] crc.toBitVec := by
  induction n generalizing crc with
  | zero => rfl
  | succ n ih => rw [Function.iterate_succ_apply, ih, toBitVec_crcBit]; rfl

theorem word_bitsOf (byte : UInt8) :
    ShiftRegister.word 32 (bitsOf byte) = byte.toUInt32.toBitVec := by
  refine BitVec.eq_of_getLsbD_eq fun i hi => ?_
  rw [ShiftRegister.getLsbD_word _ hi, UInt8.toBitVec_toUInt32, BitVec.getLsbD_setWidth]
  by_cases hbyte : i < 8
  · simp [bitsOf, hbyte, hi]
  · have hout : byte.toBitVec.getLsbD i = false := BitVec.getLsbD_of_ge _ _ (Nat.not_lt.mp hbyte)
    simp [bitsOf, hbyte, hout]

theorem toBitVec_crcByte (crc : UInt32) (byte : UInt8) :
    (crcByte crc byte).toBitVec = ShiftRegister.feed polynomial crc.toBitVec (bitsOf byte) := by
  have hfits : (bitsOf byte).length ≤ 32 := by
    rw [length_bitsOf]
    decide
  rw [ShiftRegister.feed_word _ hfits, length_bitsOf, word_bitsOf]
  exact toBitVec_iterate_crcBit 8 _

theorem toBitVec_foldl_crcByte (bytes : List UInt8) (crc : UInt32) :
    (bytes.foldl crcByte crc).toBitVec =
      ShiftRegister.feed polynomial crc.toBitVec (bits bytes) := by
  induction bytes generalizing crc with
  | nil => rfl
  | cons byte bytes ih =>
    show (bytes.foldl crcByte (crcByte crc byte)).toBitVec =
      ShiftRegister.feed polynomial crc.toBitVec (bitsOf byte ++ bits bytes)
    rw [ih, toBitVec_crcByte, ShiftRegister.feed_append]

theorem toBitVec_crc32 (bytes : List UInt8) :
    (crc32 bytes).toBitVec =
      ~~~ ShiftRegister.feed polynomial (BitVec.allOnes 32) (bits bytes) := by
  unfold crc32
  rw [UInt32.toBitVec_not, toBitVec_foldl_crcByte]
  rfl

/-! ## bursts -/

/-- the strings differ, and all the bits that do lie within 32 consecutive ones -/
structure Burst (a b : List UInt8) : Prop where
  length : a.length = b.length
  differ : a ≠ b
  within : ∃ start, ∀ i : Nat, (bits a)[i]? ≠ (bits b)[i]? → start ≤ i ∧ i < start + 32

/-- the usual test vector -/
example : crc32 [0x31, 0x32, 0x33, 0x34, 0x35, 0x36, 0x37, 0x38, 0x39] = 0xcbf43926 := by
  decide +kernel

theorem crc32_burst {a b : List UInt8} (h : Burst a b) : crc32 a ≠ crc32 b := by
  have hlength : (bits a).length = (bits b).length := by
    rw [length_bits, length_bits, h.length]
  have hne : bits a ≠ bits b := fun heq => h.differ (bits_injective h.length heq)
  intro heq
  have hregisters := congrArg UInt32.toBitVec heq
  rw [toBitVec_crc32, toBitVec_crc32] at hregisters
  exact ShiftRegister.feed_ne_of_burst (by decide) _ hlength hne h.within
    (BitVec.not_inj.mp hregisters)

/-- what is stored differs by a burst from a payload that had the checksum of the record -/
def Damaged (s : ExpertStore) (offset size : UInt64) (checksum : UInt32) : Prop :=
  ∃ original, crc32 original = checksum ∧ Burst original (s.data.read ⟨offset.toNat, size.toNat⟩)

/-- a store that validates hands out nothing that a burst has damaged -/
structure RejectsBursts (s : ExpertStore) : Prop where
  mappedExpert : ∀ l e r, s.index.find l e = some r → Damaged s r.offset r.size r.checksum →
    s.mappedExpert l e true = .error ⟨"expert checksum mismatch: data is corrupted"⟩
  mappedProjection : ∀ l e t p, s.index.findProjection l e t = some p →
    Damaged s p.offset p.size p.checksum → s.mappedProjection l e t true =
      .error ⟨"expert projection checksum mismatch: data is corrupted"⟩
  /-- the file may be refused before it is read -/
  readExpert : ∀ answers l e r, s.index.find l e = some r →
    Damaged s r.offset r.size r.checksum → ∃ err, s.readExpert answers l e true = .error err

theorem checked_damaged {s : ExpertStore} {offset size : UInt64} {checksum : UInt32}
    (h : Damaged s offset size checksum) (what : String) (span : Span) :
    ExpertStore.checked (s.data.read ⟨offset.toNat, size.toNat⟩) checksum true what span =
      .error ⟨what⟩ := by
  obtain ⟨original, rfl, hburst⟩ := h
  exact if_pos ⟨rfl, (crc32_burst hburst).symm⟩

theorem rejectsBursts (s : ExpertStore) : RejectsBursts s := by
  refine ⟨fun l e r hr h => ?_, fun l e t p hp h => ?_, fun answers l e r hr h => ?_⟩
  · have hinside := s.record_inside (((indexSound s.index).find l e r).mp hr).1
    unfold ExpertStore.mappedExpert
    simp only [hr, view_of_le hinside]
    exact checked_damaged h _ _
  · have hi := indexSound s.index
    obtain ⟨r, hr, -, hend, -⟩ := hi.projection p ((hi.findProjection l e t p).mp hp).1
    have hinside := s.record_inside ((hi.find _ _ r).mp hr).1
    unfold ExpertStore.mappedProjection
    simp only [hp, view_of_le (Nat.le_trans hend hinside)]
    exact checked_damaged h _ _
  · unfold ExpertStore.readExpert
    simp only [hr, checked_damaged h]
    split
    · exact ⟨_, rfl⟩
    split
    · exact ⟨_, rfl⟩
    split
    · exact ⟨_, rfl⟩
    · exact ⟨_, rfl⟩

theorem bursts_detected :
    (∀ a b, Burst a b → crc32 a ≠ crc32 b) ∧ ∀ s : ExpertStore, RejectsBursts s :=
  ⟨fun _ _ => crc32_burst, rejectsBursts⟩

/-- 32 bits across five bytes -/
theorem burst_across_bytes : Burst [0, 0, 0, 0, 0, 0] [0, 0x80, 1, 0, 0, 0x40] ∧
    crc32 [0, 0, 0, 0, 0, 0] ≠ crc32 [0, 0x80, 1, 0, 0, 0x40] := by
  have hburst : Burst [0, 0, 0, 0, 0, 0] [0, 0x80, 1, 0, 0, 0x40] := by
    have hbits : ∀ i < 48, (bits [0, 0, 0, 0, 0, 0])[i]? ≠ (bits [0, 0x80, 1, 0, 0, 0x40])[i]? →
        15 ≤ i ∧ i < 15 + 32 := by
      decide +kernel
    refine ⟨rfl, by decide, 15, fun i hi => hbits i ?_ hi⟩
    by_contra hge
    rw [List.getElem?_eq_none (Nat.not_lt.mp hge), List.getElem?_eq_none (Nat.not_lt.mp hge)] at hi
    exact hi rfl
  exact ⟨hburst, bursts_detected.1 _ _ hburst⟩

end HyperMoE.Storage
