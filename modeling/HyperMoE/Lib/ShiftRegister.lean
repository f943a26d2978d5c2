import Mathlib.Data.List.Basic
import Mathlib.Logic.Function.Iterate

/-!
# Shift registers with feedback

A register of `w` bits that is shifted down; when the bit that leaves it is set, a polynomial is
added.  One bit of a message is added at the low end before each shift.

* `clock`             one shift; it is linear (`clock_xor`), and injective when the polynomial has
                      its top bit (`clock_injective`);
* `feed`              the bits of a message, one after the other;
* `word`              the register that holds the bits of a message;
* `feed_word`         a message that fits the register may be added at once;
* `feed_xor`          two runs add up to the run of the sum;
* `feed_ne_of_burst`  messages that differ only within `w` consecutive bits leave different
                      registers.
-/

namespace HyperMoE.Lib.ShiftRegister

variable {w : Nat} (poly : BitVec w)

/-- a word that is added or not -/
def when (word : BitVec w) (b : Bool) : BitVec w := if b then word else 0#w

def clock (c : BitVec w) : BitVec w := (c >>> 1) ^^^ when poly (c.getLsbD 0)

def shiftIn (c : BitVec w) (b : Bool) : BitVec w := clock poly (c ^^^ when 1#w b)

def feed (c : BitVec w) (message : List Bool) : BitVec w := message.foldl (shiftIn poly) c

/-- the first bit is the lowest -/
def word (w : Nat) : List Bool → BitVec w
  | [] => 0#w
  | b :: message => when 1#w b ^^^ (word w message <<< 1)

variable {poly}

/-! ## one shift -/

theorem when_xor (a : BitVec w) (b b' : Bool) : when a (xor b b') = when a b ^^^ when a b' := by
  cases b <;> cases b' <;> simp [when]

theorem xor_xor_comm (a b c d : BitVec w) : (a ^^^ b) ^^^ (c ^^^ d) = (a ^^^ c) ^^^ (b ^^^ d) := by
  ac_rfl

theorem clock_zero : clock poly 0#w = 0#w := by simp [clock, when]

theorem clock_xor (c d : BitVec w) : clock poly (c ^^^ d) = clock poly c ^^^ clock poly d := by
  unfold clock
  rw [BitVec.ushiftRight_xor_distrib, BitVec.getLsbD_xor, when_xor, xor_xor_comm]

/-- the top bit after a shift is the bit that left the register -/
theorem msb_clock (hpoly : poly.msb = true) (c : BitVec w) :
    (clock poly c).msb = c.getLsbD 0 := by
  have hw : w ≠ 0 := by
    rintro rfl
    simp [BitVec.msb_eq_getLsbD_last] at hpoly
  have hshift : (c >>> 1).msb = false := by
    simp [BitVec.msb_ushiftRight]
  unfold clock
  rw [BitVec.msb_xor, hshift]
  cases c.getLsbD 0
  · simp [when]
  · simpa [when] using hpoly

theorem eq_zero_of_clock (hpoly : poly.msb = true) {c : BitVec w} (h : clock poly c = 0#w) :
    c = 0#w := by
  have hlow : c.getLsbD 0 = false := by
    rw [← msb_clock hpoly c, h, BitVec.msb_zero]
  have hshift : c >>> 1 = 0#w := by simpa [clock, when, hlow] using h
  refine BitVec.eq_of_getLsbD_eq fun i hi => ?_
  rw [BitVec.getLsbD_zero]
  cases i with
  | zero => exact hlow
  | succ i =>
    have hbit := congrArg (BitVec.getLsbD · i) hshift
    simpa [BitVec.getLsbD_ushiftRight, Nat.add_comm] using hbit

theorem clock_injective (hpoly : poly.msb = true) : Function.Injective (clock poly) := by
  intro c d h
  have hsum : clock poly (c ^^^ d) = 0#w := by rw [clock_xor, h, BitVec.xor_self]
  have hzero := eq_zero_of_clock hpoly hsum
  calc c = (c ^^^ d) ^^^ d := by rw [BitVec.xor_assoc, BitVec.xor_self, BitVec.xor_zero]
    _ = d := by rw [hzero, BitVec.zero_xor]

theorem iterate_clock_zero (n : Nat) : (clock poly)^[n] 0#w = 0#w :=
  Function.iterate_fixed clock_zero n

/-! ## words -/

theorem getLsbD_word (message : List Bool) {i : Nat} (hi : i < w) :
    (word w message).getLsbD i = message.getD i false := by
  induction message generalizing i with
  | nil => simp [word]
  | cons b message ih =>
    unfold word
    rw [BitVec.getLsbD_xor]
    cases i with
    | zero => cases b <;> simp [when, hi]
    | succ i =>
      have hlow : (when 1#w b).getLsbD (i + 1) = false := by cases b <;> simp [when]
      rw [hlow, BitVec.getLsbD_shiftLeft, Nat.add_sub_cancel, ih (Nat.lt_of_succ_lt hi)]
      simp [hi]

/-- a message that fits leaves nothing of itself behind -/
theorem word_ne_zero {message : List Bool} (hfits : message.length ≤ w) (h : true ∈ message) :
    word w message ≠ 0#w := by
  obtain ⟨i, hi, hbit⟩ := List.mem_iff_getElem.mp h
  intro hzero
  have hword := getLsbD_word (w := w) message (i := i) (by omega)
  simp [hzero, hi, hbit] at hword

/-- the word of a shorter message, moved up and down again -/
theorem clock_word_shift {message : List Bool} (hfits : message.length < w) :
    clock poly (word w message <<< 1) = word w message := by
  have hlow : (word w message <<< 1).getLsbD 0 = false := by simp
  unfold clock
  rw [hlow]
  show _ ^^^ 0#w = _
  rw [BitVec.xor_zero]
  refine BitVec.eq_of_getLsbD_eq fun i hi => ?_
  rw [BitVec.getLsbD_ushiftRight, BitVec.getLsbD_shiftLeft]
  by_cases htop : 1 + i < w
  · simp [htop]
  · have hout : message.length ≤ i := by omega
    rw [getLsbD_word message hi]
    simp [htop, hout]

/-! ## messages -/

theorem feed_append (c : BitVec w) (a b : List Bool) :
    feed poly c (a ++ b) = feed poly (feed poly c a) b := List.foldl_append

theorem feed_word (c : BitVec w) {message : List Bool} (hfits : message.length ≤ w) :
    feed poly c message = (clock poly)^[message.length] (c ^^^ word w message) := by
  induction message generalizing c with
  | nil => simp [feed, word]
  | cons b message ih =>
    have hlt : message.length < w := hfits
    calc feed poly c (b :: message)
        = feed poly (shiftIn poly c b) message := rfl
      _ = (clock poly)^[message.length] (shiftIn poly c b ^^^ word w message) := ih _ (Nat.le_of_lt hlt)
      _ = (clock poly)^[message.length] (clock poly (c ^^^ word w (b :: message))) := by
          rw [word, ← BitVec.xor_assoc, clock_xor _ (word w message <<< 1), clock_word_shift hlt]
          rfl

/-- nothing is added: the register is only shifted -/
theorem feed_of_clear (c : BitVec w) {message : List Bool} (h : true ∉ message) :
    feed poly c message = (clock poly)^[message.length] c := by
  induction message generalizing c with
  | nil => rfl
  | cons b message ih =>
    obtain ⟨hb, hmessage⟩ := not_or.mp (mt List.mem_cons.mpr h)
    obtain rfl : b = false := by simpa using hb
    have hshift : shiftIn poly c false = clock poly c := congrArg (clock poly) BitVec.xor_zero
    show feed poly (shiftIn poly c false) message = (clock poly)^[message.length] (clock poly c)
    rw [hshift, ih _ hmessage]

theorem feed_xor (c d : BitVec w) {a b : List Bool} (h : a.length = b.length) :
    feed poly (c ^^^ d) (List.zipWith xor a b) = feed poly c a ^^^ feed poly d b := by
  induction a generalizing b c d with
  | nil =>
    obtain rfl := List.eq_nil_of_length_eq_zero h.symm
    rfl
  | cons x a ih =>
    cases b with
    | nil => cases h
    | cons y b =>
      have hshift : shiftIn poly (c ^^^ d) (xor x y) = shiftIn poly c x ^^^ shiftIn poly d y := by
        unfold shiftIn
        rw [when_xor, xor_xor_comm, clock_xor]
      show feed poly (shiftIn poly (c ^^^ d) (xor x y)) (List.zipWith xor a b) = _
      rw [hshift, ih _ _ (Nat.succ.inj h)]
      rfl

/-! ## bursts -/

/-- a message whose set bits lie within one register's length does not go unnoticed -/
theorem feed_ne_zero (hpoly : poly.msb = true) {message : List Bool} (start : Nat)
    (hset : true ∈ message)
    (hburst : ∀ i, message[i]? = some true → start ≤ i ∧ i < start + w) :
    feed poly 0#w message ≠ 0#w := by
  have hsplit : message =
      message.take start ++ ((message.drop start).take w ++ (message.drop start).drop w) := by
    rw [List.take_append_drop, List.take_append_drop]
  have hbefore : true ∉ message.take start := by
    intro h
    obtain ⟨i, hi⟩ := List.mem_iff_getElem?.mp h
    rw [List.getElem?_take] at hi
    split at hi
    next hlt => exact absurd (hburst i hi).1 (Nat.not_le.mpr hlt)
    · cases hi
  have hafter : true ∉ (message.drop start).drop w := by
    intro h
    obtain ⟨i, hi⟩ := List.mem_iff_getElem?.mp h
    rw [List.drop_drop, List.getElem?_drop] at hi
    have := (hburst _ hi).2
    omega
  have hinside : true ∈ (message.drop start).take w := by
    rw [hsplit, List.mem_append, List.mem_append] at hset
    exact (hset.resolve_left hbefore).resolve_right hafter
  have hfits : ((message.drop start).take w).length ≤ w := List.length_take_le _ _
  intro hzero
  rw [hsplit, feed_append, feed_of_clear _ hbefore, iterate_clock_zero, feed_append,
    feed_of_clear _ hafter, feed_word _ hfits, BitVec.zero_xor,
    ← Function.iterate_add_apply] at hzero
  exact word_ne_zero hfits hinside
    ((clock_injective hpoly).iterate _ (hzero.trans (iterate_clock_zero _).symm))

theorem feed_ne_of_burst (hpoly : poly.msb = true) (c : BitVec w) {a b : List Bool}
    (hlength : a.length = b.length) (hne : a ≠ b)
    (hburst : ∃ start, ∀ i : Nat, a[i]? ≠ b[i]? → start ≤ i ∧ i < start + w) :
    feed poly c a ≠ feed poly c b := by
  obtain ⟨start, hburst⟩ := hburst
  have hbit : ∀ i : Nat, (List.zipWith xor a b)[i]? = some true ↔ a[i]? ≠ b[i]? := by
    intro i
    rw [List.getElem?_zipWith]
    by_cases hi : i < a.length
    · have hi' : i < b.length := hlength ▸ hi
      rw [List.getElem?_eq_getElem hi, List.getElem?_eq_getElem hi']
      cases a[i] <;> cases b[i] <;> simp
    · have hi' : ¬ i < b.length := hlength ▸ hi
      rw [List.getElem?_eq_none (Nat.not_lt.mp hi), List.getElem?_eq_none (Nat.not_lt.mp hi')]
      simp
  have hset : true ∈ List.zipWith xor a b := by
    by_contra hclear
    refine hne (List.ext_getElem? fun i => ?_)
    by_contra hdiffer
    exact hclear (List.mem_of_getElem? ((hbit i).mpr hdiffer))
  intro heq
  refine feed_ne_zero hpoly start hset ?_ ?_
  · exact fun i hi => hburst i ((hbit i).mp hi)
  · have hsum : feed poly (c ^^^ c) (List.zipWith xor a b) = feed poly c a ^^^ feed poly c b :=
      feed_xor c c hlength
    rwa [heq, BitVec.xor_self, BitVec.xor_self] at hsum

end HyperMoE.Lib.ShiftRegister
