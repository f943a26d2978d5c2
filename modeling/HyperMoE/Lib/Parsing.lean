import Mathlib.Algebra.Group.Nat.Defs
import Mathlib.Data.List.TakeWhile
import HyperMoE.Lib.Fallible

/-!
# Hand-written parsers over bytes

A parser walks over a text with a position.  What is left of the text is part of its state, so that
a read at the position is either guarded or an explicit fault.

* `Input`, `Parser`    where a parser stands; a parser throws, reads past the end or runs out of fuel;
* `peek`, `next`       reads at the position, without a guard;
* `Derives G x s`      `x` run from `s` takes a prefix that `G` relates to its value, or throws;
* `Takes x raw a rest`   `x` run on `raw ++ rest` takes `raw`, answers `a` and leaves `rest`.
-/

namespace HyperMoE.Lib

open Fallible

/-- a text is the list of its bytes -/
abbrev Text := List UInt8

instance : LawfulBEq Text := inferInstance

/-- the bytes of a text of ASCII characters -/
def ascii (s : String) : Text := s.toList.map fun c => UInt8.ofNat c.toNat

structure Input where
  position : Nat
  rest : Text

inductive ParseError (ε : Type) where
  | thrown (e : ε)
  | pastEnd
  | outOfFuel
  deriving DecidableEq, Repr

def ParseError.IsThrown {ε : Type} : ParseError ε → Prop
  | thrown _ => True
  | _ => False

abbrev Parser (ε : Type) : Type → Type := Fallible (ParseError ε) Input

namespace Parsing

variable {ε α β : Type}

/-- `text[position]` -/
def peek : Parser ε UInt8 := do
  let s ← read
  orThrow s.rest.head? .pastEnd

/-- `++position` -/
def advance : Parser ε Unit := update fun s => ⟨s.position + 1, s.rest.tail⟩

/-- `text[position++]` -/
def next : Parser ε UInt8 := do
  let b ← peek
  advance
  return b

/-- `while (position < size && p(text[position])) ++position;` -/
def skipWhile (p : UInt8 → Bool) : Parser ε Unit := update fun s =>
  ⟨s.position + (s.rest.takeWhile p).length, s.rest.dropWhile p⟩

/-! ## what a parser takes -/

/-- every outcome is a derivation in `G` of what was taken, or an exception -/
def Derives (G : Text → α → Prop) (x : Parser ε α) (s : Input) : Prop :=
  wp x (fun r s' => match r with
    | .ok a => ∃ raw, s.rest = raw ++ s'.rest ∧ s'.position = s.position + raw.length ∧ G raw a
    | .error e => e.IsThrown) s

/-- the parser takes exactly `raw` -/
def Takes (x : Parser ε α) (raw : Text) (a : α) (rest : Text) : Prop :=
  ∀ position, x.exec ⟨position, raw ++ rest⟩ = (.ok a, ⟨position + raw.length, rest⟩)

variable {G : Text → α → Prop} {x : Parser ε α} {s : Input}

theorem Derives.mono {G' : Text → α → Prop} (h : Derives G x s)
    (hG : ∀ raw a rest, s.rest = raw ++ rest → G raw a → G' raw a) : Derives G' x s := by
  refine wp_mono h fun r s' hr => ?_
  cases r with
  | error e => exact hr
  | ok a =>
    obtain ⟨raw, hs, hp, ha⟩ := hr
    exact ⟨raw, hs, hp, hG raw a _ hs ha⟩

protected theorem Derives.pure {a : α} (h : G [] a) : Derives G (pure a : Parser ε α) s :=
  ⟨[], rfl, rfl, h⟩

protected theorem Derives.throw (e : ε) : Derives G (throw (.thrown e) : Parser ε α) s := trivial

theorem Derives.bind {H : Text → β → Prop} {f : α → Parser ε β} (h : Derives G x s)
    (hf : ∀ raw a s', s.rest = raw ++ s'.rest → s'.position = s.position + raw.length → G raw a →
      Derives (fun raw' b => H (raw ++ raw') b) (f a) s') : Derives H (x >>= f) s := by
  refine wp_seq h (fun a s' ha => ?_) fun e s' he => he
  obtain ⟨raw, hs, hp, ha⟩ := ha
  refine wp_mono (hf raw a s' hs hp ha) fun r s'' hr => ?_
  cases r with
  | error e => exact hr
  | ok b =>
    obtain ⟨raw', hs', hp', hb⟩ := hr
    refine ⟨raw ++ raw', by rw [hs, hs', List.append_assoc], ?_, hb⟩
    rw [hp', hp, List.length_append, Nat.add_assoc]

/-- code that looks at the state and takes nothing -/
theorem Derives.read {f : Input → Parser ε β} {H : Text → β → Prop} (h : Derives H (f s) s) :
    Derives H (Fallible.read >>= f) s := h

theorem Derives.ite {c : Prop} [Decidable c] {x y : Parser ε α} (hx : c → Derives G x s)
    (hy : ¬ c → Derives G y s) : Derives G (if c then x else y) s := by
  split
  · next h => exact hx h
  · next h => exact hy h

protected theorem Takes.pure (a : α) (rest : Text) : Takes (pure a : Parser ε α) [] a rest :=
  fun _ => rfl

theorem Takes.bind {f : α → Parser ε β} {raw raw' rest : Text} {a : α} {b : β}
    (h : Takes x raw a (raw' ++ rest)) (hf : Takes (f a) raw' b rest) :
    Takes (x >>= f) (raw ++ raw') b rest := by
  intro position
  rw [exec_bind, List.append_assoc, h position, List.length_append, ← Nat.add_assoc]
  exact hf (position + raw.length)

theorem Takes.exec_bind {raw rest : Text} {a : α} (h : Takes x raw a rest) (f : α → Parser ε β)
    (position : Nat) : (x >>= f).exec ⟨position, raw ++ rest⟩ =
      (f a).exec ⟨position + raw.length, rest⟩ := by
  rw [Fallible.exec_bind, h position]

/-- the second part takes nothing -/
theorem Takes.bind_nil {f : α → Parser ε β} {raw rest : Text} {a : α} {b : β}
    (h : Takes x raw a rest) (hf : Takes (f a) [] b rest) : Takes (x >>= f) raw b rest := by
  have h' := h.bind hf
  rwa [List.append_nil] at h'

/-- code that looks at what is left and takes nothing -/
theorem Takes.read {f : Input → Parser ε β} {raw rest : Text} {b : β}
    (h : ∀ position, Takes (f ⟨position, raw ++ rest⟩) raw b rest) :
    Takes (Fallible.read >>= f) raw b rest := fun position => h position position

theorem Takes.ite {c : Prop} [Decidable c] {x y : Parser ε α} {raw rest : Text} {a : α}
    (hx : c → Takes x raw a rest) (hy : ¬ c → Takes y raw a rest) :
    Takes (if c then x else y) raw a rest := by
  split
  · next h => exact hx h
  · next h => exact hy h

/-! ## the primitives -/

theorem derives_next (hs : s.rest ≠ []) :
    Derives (fun raw b => raw = [b]) (next : Parser ε UInt8) s := by
  obtain ⟨position, rest⟩ := s
  cases rest with
  | nil => exact absurd rfl hs
  | cons b rest => exact ⟨[b], rfl, rfl, rfl⟩

theorem takes_next (b : UInt8) (rest : Text) : Takes (next : Parser ε UInt8) [b] b rest :=
  fun _ => rfl

/-- a guarded look at the next byte -/
theorem Derives.peek {H : Text → β → Prop} {f : UInt8 → Parser ε β} (hs : s.rest ≠ [])
    (h : ∀ b rest, s.rest = b :: rest → Derives H (f b) s) :
    Derives H (Parsing.peek >>= f) s := by
  obtain ⟨position, rest⟩ := s
  cases rest with
  | nil => exact absurd rfl hs
  | cons b rest => exact h b rest rfl

theorem Takes.peek {f : UInt8 → Parser ε β} {b : UInt8} {raw rest : Text} {v : β}
    (h : Takes (f b) (b :: raw) v rest) : Takes (Parsing.peek >>= f) (b :: raw) v rest := h

theorem derives_advance {b : UInt8} {rest : Text} (hs : s.rest = b :: rest) :
    Derives (fun raw _ => raw = [b]) (advance : Parser ε Unit) s := by
  refine ⟨[b], ?_, rfl, rfl⟩
  show s.rest = [b] ++ s.rest.tail
  rw [hs]
  rfl

theorem takes_advance (b : UInt8) (rest : Text) : Takes (advance : Parser ε Unit) [b] () rest :=
  fun _ => rfl

/-- `position += n;` -/
def drop (n : Nat) : Parser ε Unit := update fun s => ⟨s.position + n, s.rest.drop n⟩

theorem derives_drop {raw : Text} {n : Nat} (hs : s.rest.take n = raw) (hlen : raw.length = n) :
    Derives (fun raw' _ => raw' = raw) (drop n : Parser ε Unit) s :=
  ⟨raw, by rw [← hs]; exact (List.take_append_drop ..).symm, by rw [hlen]; rfl, rfl⟩

theorem takes_drop (raw rest : Text) : Takes (drop raw.length : Parser ε Unit) raw () rest := by
  intro position
  show (Except.ok (), (⟨position + raw.length, (raw ++ rest).drop raw.length⟩ : Input)) = _
  rw [List.drop_left]

theorem derives_skipWhile (p : UInt8 → Bool) :
    Derives (fun raw _ => ∀ b ∈ raw, p b = true) (skipWhile p : Parser ε Unit) s :=
  ⟨s.rest.takeWhile p, (List.takeWhile_append_dropWhile ..).symm, rfl,
    fun _ hb => List.mem_takeWhile_imp hb⟩

theorem derives_skipWhile_cons {p : UInt8 → Bool} {b : UInt8} {rest : Text} (hs : s.rest = b :: rest)
    (hb : p b = true) :
    Derives (fun raw _ => ∃ raw', raw = b :: raw' ∧ ∀ c ∈ raw', p c = true)
      (skipWhile p : Parser ε Unit) s := by
  refine ⟨s.rest.takeWhile p, (List.takeWhile_append_dropWhile ..).symm, rfl, rest.takeWhile p, ?_,
    fun _ hc => List.mem_takeWhile_imp hc⟩
  rw [hs, List.takeWhile_cons_of_pos hb]

/-- the text does not go on with a byte of the class -/
def Stops (p : UInt8 → Bool) (rest : Text) : Prop := ∀ b ∈ rest.head?, p b = false

theorem takeWhile_append {p : UInt8 → Bool} {raw rest : Text} (hraw : ∀ b ∈ raw, p b = true)
    (hrest : Stops p rest) : (raw ++ rest).takeWhile p = raw := by
  rw [List.takeWhile_append_of_pos hraw]
  cases rest with
  | nil => exact List.append_nil _
  | cons b rest => rw [List.takeWhile_cons_of_neg (by simp [hrest b rfl]), List.append_nil]

theorem dropWhile_append {p : UInt8 → Bool} {raw rest : Text} (hraw : ∀ b ∈ raw, p b = true)
    (hrest : Stops p rest) : (raw ++ rest).dropWhile p = rest := by
  rw [List.dropWhile_append_of_pos hraw]
  cases rest with
  | nil => rfl
  | cons b rest => exact List.dropWhile_cons_of_neg (by simp [hrest b rfl])

theorem takes_skipWhile {p : UInt8 → Bool} {raw rest : Text} (hraw : ∀ b ∈ raw, p b = true)
    (hrest : Stops p rest) : Takes (skipWhile p : Parser ε Unit) raw () rest := by
  intro position
  show (Except.ok (), (⟨position + ((raw ++ rest).takeWhile p).length,
    (raw ++ rest).dropWhile p⟩ : Input)) = _
  rw [takeWhile_append hraw hrest, dropWhile_append hraw hrest]

end Parsing

end HyperMoE.Lib
