import HyperMoE.Lib.Watched

/-!
# Byte streams, read field by field

A reader and a writer of a binary format are usually two lists of fields, written down apart.

* `Stream`, `Reader`          the bytes still to be read, and code that reads them;
* `littleEndian`, `writeLittleEndian`   words as bytes, the lowest first;
* `Reads P x w e`             `x` reads back what `w` wrote of any value in `P`, answers for nothing
                              else, and where the bytes run out it throws `e`;
* `Reads.pure`, `bind`, `many`   readers in sequence.
-/

namespace HyperMoE.Lib

open Fallible

variable {ε α β : Type}

/-- what is left to read, and whether the arithmetic so far was exact -/
structure Stream where
  rest : List UInt8
  exact : Bool := true

abbrev Reader (ε : Type) : Type → Type := Fallible ε Stream

/-- arithmetic on what has been read -/
def watch (x : Watched ε α) : Reader ε α :=
  zoom Stream.exact (fun exact s => { s with exact := exact }) x

/-- `input.read(bytes, n); if (!input) throw e;` -/
def take (n : Nat) (e : ε) : Reader ε (List UInt8) := do
  let s ← read
  throwIf (s.rest.length < n) e
  updateGet fun s => (s.rest.take n, { s with rest := s.rest.drop n })

/-- `n` values, one after the other -/
def readMany (x : Reader ε α) : Nat → Reader ε (List α)
  | 0 => pure []
  | n + 1 => do
    let a ← x
    let as ← readMany x n
    return a :: as

/-! ## little endian words -/

/-- `value |= bytes[i] << (8 * i)` -/
def littleEndian : List UInt8 → Nat
  | [] => 0
  | b :: bytes => b.toNat ||| littleEndian bytes <<< 8

/-- `bytes[i] = (value >> (8 * i)) & 0xff` -/
def writeLittleEndian : Nat → Nat → List UInt8
  | 0, _ => []
  | n + 1, value => UInt8.ofNat value :: writeLittleEndian n (value >>> 8)

def readU32 (e : ε) : Reader ε UInt32 := do
  let bytes ← take 4 e
  return UInt32.ofNat (littleEndian bytes)

def readU64 (e : ε) : Reader ε UInt64 := do
  let bytes ← take 8 e
  return UInt64.ofNat (littleEndian bytes)

def writeU32 (value : UInt32) : List UInt8 := writeLittleEndian 4 value.toNat

def writeU64 (value : UInt64) : List UInt8 := writeLittleEndian 8 value.toNat

@[simp] theorem length_writeLittleEndian (n value : Nat) :
    (writeLittleEndian n value).length = n := by
  induction n generalizing value with
  | zero => rfl
  | succ n ih => exact congrArg (· + 1) (ih _)

@[simp] theorem length_writeU32 (value : UInt32) : (writeU32 value).length = 4 :=
  length_writeLittleEndian ..

@[simp] theorem length_writeU64 (value : UInt64) : (writeU64 value).length = 8 :=
  length_writeLittleEndian ..

theorem or_shiftLeft_eight (b : UInt8) (n : Nat) : b.toNat ||| n <<< 8 = b.toNat + 256 * n := by
  have h : b.toNat < 2 ^ 8 := UInt8.toNat_lt b
  rw [Nat.or_comm, ← Nat.shiftLeft_add_eq_or_of_lt h, Nat.shiftLeft_eq]
  omega

theorem littleEndian_lt (bytes : List UInt8) : littleEndian bytes < 256 ^ bytes.length := by
  induction bytes with
  | nil => exact Nat.one_pos
  | cons b bytes ih =>
    have hb : b.toNat < 256 := UInt8.toNat_lt b
    show b.toNat ||| _ < _
    rw [or_shiftLeft_eight, List.length_cons, Nat.pow_succ]
    omega

theorem littleEndian_write {n value : Nat} (h : value < 256 ^ n) :
    littleEndian (writeLittleEndian n value) = value := by
  induction n generalizing value with
  | zero =>
    have h0 : value = 0 := Nat.lt_one_iff.mp h
    exact h0.symm
  | succ n ih =>
    have hq : value >>> 8 < 256 ^ n := by
      rw [Nat.shiftRight_eq_div_pow]
      exact Nat.div_lt_of_lt_mul (by rw [Nat.pow_succ] at h; omega)
    show (UInt8.ofNat value).toNat ||| _ = _
    rw [or_shiftLeft_eight, ih hq, Nat.shiftRight_eq_div_pow]
    show value % 256 + 256 * (value / 256) = value
    exact Nat.mod_add_div ..

theorem write_littleEndian (bytes : List UInt8) :
    writeLittleEndian bytes.length (littleEndian bytes) = bytes := by
  induction bytes with
  | nil => rfl
  | cons b bytes ih =>
    have hb : b.toNat < 256 := UInt8.toNat_lt b
    show UInt8.ofNat (b.toNat ||| _) :: writeLittleEndian _ ((b.toNat ||| _) >>> 8) = _
    rw [or_shiftLeft_eight, Nat.shiftRight_eq_div_pow]
    have hq : (b.toNat + 256 * littleEndian bytes) / 2 ^ 8 = littleEndian bytes := by omega
    have hr : UInt8.ofNat (b.toNat + 256 * littleEndian bytes) = b := by
      apply UInt8.toNat_inj.mp
      show (b.toNat + 256 * littleEndian bytes) % 256 = b.toNat
      omega
    rw [hq, hr, ih]

/-! ## readers against writers -/

structure Reads (P : α → Prop) (x : Reader ε α) (w : α → List UInt8) (e : ε) : Prop where
  complete : ∀ a rest exact, P a → x.exec ⟨w a ++ rest, exact⟩ = (.ok a, ⟨rest, exact⟩)
  sound : ∀ s, wp x (fun r s' => s'.exact = s.exact ∧ match r with
    | .ok a => P a ∧ s.rest = w a ++ s'.rest
    | .error e' => e' = e) s

namespace Reads

variable {P : α → Prop} {x : Reader ε α} {w : α → List UInt8} {e : ε}

/-- a reader, cut at what it says -/
theorem wp (h : Reads P x w e) {s : Stream} {Q : Except ε α → Stream → Prop}
    (hok : ∀ a rest, P a → s.rest = w a ++ rest → Q (.ok a) ⟨rest, s.exact⟩)
    (herror : ∀ rest, Q (.error e) ⟨rest, s.exact⟩) : Fallible.wp x Q s := by
  refine wp_mono (h.sound s) fun r s' hr => ?_
  obtain ⟨rest, exact⟩ := s'
  obtain ⟨rfl, hr⟩ := hr
  cases r with
  | ok a => exact hok a rest hr.1 hr.2
  | error e' =>
    obtain rfl := hr
    exact herror rest

/-- a stream that starts with a written value -/
theorem wp_append (h : Reads P x w e) {a : α} (ha : P a) {rest : List UInt8} {exact : Bool}
    {Q : Except ε α → Stream → Prop} (hQ : Q (.ok a) ⟨rest, exact⟩) :
    Fallible.wp x Q ⟨w a ++ rest, exact⟩ := by
  unfold Fallible.wp
  rw [h.complete a rest exact ha]
  exact hQ

theorem congr {w' : α → List UInt8} (h : Reads P x w e) (hw : ∀ a, w a = w' a) :
    Reads P x w' e := (funext hw : w = w') ▸ h

/-- everything has been read -/
protected theorem pure {a : α} (h : ∀ b, P b ↔ b = a) :
    Reads P (pure a : Reader ε α) (fun _ => []) e where
  complete b rest exact hb := by
    rw [(h b).mp hb]
    rfl
  sound s := ⟨rfl, (h a).mpr rfl, rfl⟩

/-- `p` is the part of the value that `x` reads; the rest goes on with it -/
protected theorem bind {P : β → Prop} {A : α → Prop} {x : Reader ε α} {f : α → Reader ε β}
    {wx : α → List UInt8} {wf : β → List UInt8} (p : β → α) (hx : Reads A x wx e)
    (hA : ∀ b, P b → A (p b)) (hf : ∀ a, A a → Reads (fun b => P b ∧ p b = a) (f a) wf e) :
    Reads P (x >>= f) (fun b => wx (p b) ++ wf b) e where
  complete b rest exact hb := by
    rw [exec_bind, List.append_assoc, hx.complete (p b) _ exact (hA b hb)]
    exact (hf (p b) (hA b hb)).complete b rest exact ⟨hb, rfl⟩
  sound s := by
    rw [wp_bind]
    refine hx.wp (fun a rest ha hs => ?_) fun rest => ⟨rfl, rfl⟩
    refine (hf a ha).wp (fun b rest' hb hs' => ?_) fun rest' => ⟨rfl, rfl⟩
    obtain ⟨hb, rfl⟩ := hb
    refine ⟨rfl, hb, ?_⟩
    rw [hs, List.append_assoc]
    exact congrArg _ hs'

protected theorem take (n : Nat) (e : ε) :
    Reads (fun bytes => bytes.length = n) (take n e) (fun bytes => bytes) e where
  complete bytes rest exact hn := by
    subst hn
    show (take bytes.length e).exec _ = _
    unfold Lib.take
    rw [exec_bind]
    show (throwIf _ e >>= _ : Reader ε _).exec _ = _
    rw [exec_bind]
    have hlen : ¬ (bytes ++ rest).length < bytes.length := by simp
    unfold throwIf
    rw [if_neg hlen]
    show (Except.ok ((bytes ++ rest).take bytes.length),
      (⟨(bytes ++ rest).drop bytes.length, exact⟩ : Stream)) = _
    rw [List.take_left, List.drop_left]
  sound s := by
    show Fallible.wp (read >>= _) _ s
    rw [wp_bind, wp_read]
    show Fallible.wp (_ >>= _) _ s
    rw [wp_bind, wp_throwIf]
    split
    · exact ⟨rfl, rfl⟩
    next hlen =>
    refine ⟨rfl, ?_, (List.take_append_drop ..).symm⟩
    exact List.length_take_of_le (Nat.not_lt.mp hlen)

/-- a value that stands for its bytes -/
theorem ofBytes {n : Nat} {decode : List UInt8 → α} {encode : α → List UInt8}
    (hlen : ∀ a, (encode a).length = n) (hdecode : ∀ a, decode (encode a) = a)
    (hencode : ∀ bytes, bytes.length = n → encode (decode bytes) = bytes) :
    Reads (fun _ => True) (Lib.take n e >>= fun bytes => (pure (decode bytes) : Reader ε α))
      encode e where
  complete a rest exact _ := by
    rw [exec_bind, (Reads.take n e).complete _ _ _ (hlen a)]
    show (Except.ok (decode (encode a)), _) = _
    rw [hdecode]
  sound s := by
    rw [wp_bind]
    refine (Reads.take n e).wp (fun bytes rest hn hs => ?_) fun rest => ⟨rfl, rfl⟩
    refine ⟨rfl, trivial, ?_⟩
    rw [hencode bytes hn]
    exact hs

theorem u32 (e : ε) : Reads (fun _ => True) (readU32 e) writeU32 e := by
  refine ofBytes length_writeU32 (fun a => ?_) fun bytes hn => ?_
  · show UInt32.ofNat (littleEndian (writeLittleEndian 4 a.toNat)) = a
    rw [littleEndian_write (UInt32.toNat_lt a)]
    exact UInt32.ofNat_toNat
  · have hlt : littleEndian bytes < 2 ^ 32 := by
      have h := littleEndian_lt bytes
      rw [hn] at h
      exact h
    show writeLittleEndian 4 (UInt32.ofNat (littleEndian bytes)).toNat = bytes
    rw [UInt32.toNat_ofNat_of_lt' hlt, ← hn]
    exact write_littleEndian bytes

theorem u64 (e : ε) : Reads (fun _ => True) (readU64 e) writeU64 e := by
  refine ofBytes length_writeU64 (fun a => ?_) fun bytes hn => ?_
  · show UInt64.ofNat (littleEndian (writeLittleEndian 8 a.toNat)) = a
    rw [littleEndian_write (UInt64.toNat_lt a)]
    exact UInt64.ofNat_toNat
  · have hlt : littleEndian bytes < 2 ^ 64 := by
      have h := littleEndian_lt bytes
      rw [hn] at h
      exact h
    show writeLittleEndian 8 (UInt64.ofNat (littleEndian bytes)).toNat = bytes
    rw [UInt64.toNat_ofNat_of_lt' hlt, ← hn]
    exact write_littleEndian bytes

theorem many (h : Reads (fun _ => True) x w e) (n : Nat) :
    Reads (fun as => as.length = n) (readMany x n) (fun as => as.flatMap w) e := by
  induction n with
  | zero =>
    refine ⟨fun as rest exact hn => ?_, fun s => ⟨rfl, rfl, rfl⟩⟩
    obtain rfl := List.length_eq_zero_iff.mp hn
    rfl
  | succ n ih =>
    constructor
    · intro as rest exact hn
      cases as with
      | nil => cases hn
      | cons a as =>
        show (x >>= fun a => readMany x n >>= fun as => pure (a :: as)).exec _ = _
        rw [exec_bind, List.flatMap_cons, List.append_assoc, h.complete a _ exact trivial]
        show (readMany x n >>= fun as => pure (a :: as)).exec _ = _
        rw [exec_bind, ih.complete as rest exact (Nat.succ.inj hn)]
        rfl
    · intro s
      show Fallible.wp (x >>= fun a => readMany x n >>= fun as => pure (a :: as)) _ s
      rw [wp_bind]
      refine h.wp (fun a rest _ hs => ?_) fun rest => ⟨rfl, rfl⟩
      show Fallible.wp (readMany x n >>= fun as => pure (a :: as)) _ _
      rw [wp_bind]
      refine ih.wp (fun as rest' hn hs' => ?_) fun rest' => ⟨rfl, rfl⟩
      refine ⟨rfl, congrArg (· + 1) hn, ?_⟩
      rw [hs, List.flatMap_cons, List.append_assoc]
      exact congrArg _ hs'

end Reads

end HyperMoE.Lib
