import Mathlib.Data.List.Forall2
import Mathlib.Data.List.Basic

/-!
# Code without state

Code that returns or throws and changes nothing, as values of `Except`.

* `throwIf`             `if (c) throw e;`
* `collect f`          a loop that collects an answer for every element;
* `bind_eq_ok`, `collect_eq_ok`   when the whole returns, in terms of its parts;
* `foldlM_collect`      a loop that collects answers and folds them at once, taken apart.
-/

namespace HyperMoE.Lib.Outcome

variable {ε α β γ : Type}

def throwIf (c : Prop) [Decidable c] (e : ε) : Except ε Unit := if c then throw e else pure ()

/-- `for (a : as) answers.push_back(f(a));` -/
def collect (f : α → Except ε β) : List α → Except ε (List β)
  | [] => pure []
  | a :: as => do
    let b ← f a
    let bs ← collect f as
    return b :: bs

theorem bind_eq_ok {x : Except ε α} {f : α → Except ε β} {b : β} :
    (x >>= f) = .ok b ↔ ∃ a, x = .ok a ∧ f a = .ok b := by
  cases x with
  | error e =>
    constructor
    · intro h
      exact nomatch h
    · rintro ⟨a, ha, _⟩
      exact nomatch ha
  | ok a =>
    constructor
    · intro h
      exact ⟨a, rfl, h⟩
    · rintro ⟨a', ha, h⟩
      obtain rfl := Except.ok.inj ha
      exact h

theorem map_eq_ok {x : Except ε α} {f : α → β} {b : β} :
    x.map f = .ok b ↔ ∃ a, x = .ok a ∧ f a = b := by
  cases x with
  | error e =>
    constructor
    · intro h
      exact nomatch h
    · rintro ⟨a, ha, _⟩
      exact nomatch ha
  | ok a =>
    constructor
    · intro h
      exact ⟨a, rfl, Except.ok.inj h⟩
    · rintro ⟨a', ha, rfl⟩
      obtain rfl := Except.ok.inj ha
      rfl

theorem mapError_eq_ok {ε' : Type} {x : Except ε α} {f : ε → ε'} {a : α} :
    x.mapError f = .ok a ↔ x = .ok a := by
  cases x with
  | error e =>
    constructor
    · intro h
      exact nomatch h
    · intro h
      exact nomatch h
  | ok b =>
    constructor
    · intro h
      exact congrArg Except.ok (Except.ok.inj h)
    · intro h
      exact congrArg Except.ok (Except.ok.inj h)

@[simp] theorem throwIf_eq_ok {c : Prop} [Decidable c] {e : ε} {u : Unit} :
    throwIf c e = .ok u ↔ ¬ c := by
  unfold throwIf
  split
  · next h => exact ⟨fun h' => (nomatch h'), fun h' => absurd h h'⟩
  · next h => exact ⟨fun _ => h, fun _ => rfl⟩

theorem throwIf_bind_eq_ok {c : Prop} [Decidable c] {e : ε} {f : Unit → Except ε β} {b : β} :
    (throwIf c e >>= f) = .ok b ↔ ¬ c ∧ f () = .ok b := by
  rw [bind_eq_ok]
  constructor
  · rintro ⟨u, hu, h⟩
    exact ⟨throwIf_eq_ok.mp hu, h⟩
  · rintro ⟨hc, h⟩
    exact ⟨(), throwIf_eq_ok.mpr hc, h⟩

theorem throwIf_bind_of_not {c : Prop} [Decidable c] {e : ε} {f : Unit → Except ε β} (h : ¬ c) :
    (throwIf c e >>= f) = f () := by
  rw [throwIf, if_neg h]
  rfl

/-- a part that answers `a`, if it returns at all -/
theorem bind_known {x : Except ε α} {f : α → Except ε β} {b : β} {a : α} {P : Prop}
    (h : ∀ a', x = .ok a' ↔ P ∧ a' = a) : (x >>= f) = .ok b ↔ P ∧ f a = .ok b := by
  rw [bind_eq_ok]
  constructor
  · rintro ⟨a', ha', hb⟩
    obtain ⟨hP, rfl⟩ := (h a').mp ha'
    exact ⟨hP, hb⟩
  · rintro ⟨hP, hb⟩
    exact ⟨a, (h a).mpr ⟨hP, rfl⟩, hb⟩

theorem pure_eq_ok {a b : α} : (pure a : Except ε α) = .ok b ↔ a = b :=
  ⟨fun h => Except.ok.inj h, fun h => congrArg Except.ok h⟩

theorem collect_eq_ok {f : α → Except ε β} {as : List α} {bs : List β} :
    collect f as = .ok bs ↔ List.Forall₂ (fun a b => f a = .ok b) as bs := by
  induction as generalizing bs with
  | nil =>
    rw [List.forall₂_nil_left_iff]
    exact pure_eq_ok.trans eq_comm
  | cons a as ih =>
    rw [List.forall₂_cons_left_iff, collect, bind_eq_ok]
    constructor
    · rintro ⟨b, hb, h⟩
      obtain ⟨bs', hbs, h'⟩ := bind_eq_ok.mp h
      exact ⟨b, bs', hb, ih.mp hbs, (pure_eq_ok.mp h').symm⟩
    · rintro ⟨b, bs', hb, hbs, rfl⟩
      exact ⟨b, hb, bind_eq_ok.mpr ⟨bs', ih.mpr hbs, rfl⟩⟩

/-- parts that answer `g`, if they return at all -/
theorem collect_known {f : α → Except ε β} {g : α → β} {P : α → Prop} {as : List α} {bs : List β}
    (h : ∀ a b, f a = .ok b ↔ P a ∧ b = g a) :
    collect f as = .ok bs ↔ (∀ a ∈ as, P a) ∧ bs = as.map g := by
  induction as generalizing bs with
  | nil =>
    rw [collect, pure_eq_ok, List.map_nil, @eq_comm _ bs]
    exact ⟨fun h => ⟨fun a ha => (nomatch ha), h⟩, fun h => h.2⟩
  | cons a as ih =>
    rw [collect, bind_known (h a), bind_known (fun bs' => ih), pure_eq_ok, List.forall_mem_cons,
      List.map_cons, @eq_comm _ bs, and_assoc]

theorem exists_collect {f : α → Except ε β} {as : List α} (h : ∀ a ∈ as, ∃ b, f a = .ok b) :
    ∃ bs, collect f as = .ok bs := by
  induction as with
  | nil => exact ⟨[], rfl⟩
  | cons a as ih =>
    obtain ⟨b, hb⟩ := h a List.mem_cons_self
    obtain ⟨bs, hbs⟩ := ih fun a' ha' => h a' (List.mem_cons_of_mem _ ha')
    refine ⟨b :: bs, ?_⟩
    rw [collect, hb, hbs]
    rfl

theorem exists_of_mem_collect {f : α → Except ε β} {as : List α} {bs : List β} {b : β}
    (h : collect f as = .ok bs) (hb : b ∈ bs) : ∃ a ∈ as, f a = .ok b := by
  have hall := collect_eq_ok.mp h
  clear h
  induction hall with
  | nil => exact nomatch hb
  | @cons a b' as bs hhead _ ih =>
    cases List.mem_cons.mp hb with
    | inl heq => exact ⟨a, List.mem_cons_self, heq ▸ hhead⟩
    | inr hrest => exact (ih hrest).imp fun _ h => ⟨List.mem_cons_of_mem _ h.1, h.2⟩

/-- `collect` as a function of the places -/
theorem collect_range_eq_ok {f : Nat → Except ε β} {n : Nat} {bs : List β} :
    collect f (List.range n) = .ok bs ↔
      bs.length = n ∧ ∀ i (h : i < bs.length), f i = .ok bs[i] := by
  rw [collect_eq_ok, List.forall₂_iff_get]
  constructor
  · rintro ⟨hlength, h⟩
    refine ⟨by rw [← hlength, List.length_range], fun i hi => ?_⟩
    simpa using h i (hlength.symm ▸ hi) hi
  · rintro ⟨hlength, h⟩
    refine ⟨by rw [hlength, List.length_range], fun i _ hi => ?_⟩
    simpa using h i hi

theorem foldlM_congr {f g : β → α → Except ε β} {as : List α} (h : ∀ a ∈ as, ∀ b, f b a = g b a)
    (b : β) : as.foldlM f b = as.foldlM g b := by
  induction as generalizing b with
  | nil => rfl
  | cons a as ih =>
    have hrest := fun b' => ih (fun a' ha => h a' (List.mem_cons_of_mem _ ha)) b'
    rw [List.foldlM_cons, List.foldlM_cons, h a List.mem_cons_self]
    exact congrArg (g b a >>= ·) (funext hrest)

/-- a loop that pushes every answer and folds it into `c` -/
theorem foldlM_collect (f : α → Except ε β) (h : γ → α → β → γ) (as : List α) (bs : List β)
    (c : γ) :
    as.foldlM (fun (s : List β × γ) a => do
      let b ← f a
      return (s.1 ++ [b], h s.2 a b)) (bs, c) = (do
      let bs' ← collect f as
      return (bs ++ bs', (as.zip bs').foldl (fun c p => h c p.1 p.2) c)) := by
  induction as generalizing bs c with
  | nil =>
    show (pure (bs, c) : Except ε _) = pure (bs ++ [], c)
    rw [List.append_nil]
  | cons a as ih =>
    rw [List.foldlM_cons, collect]
    cases f a with
    | error e => rfl
    | ok b =>
      show List.foldlM _ (bs ++ [b], h c a b) as = _
      rw [ih]
      cases collect f as with
      | error e => rfl
      | ok bs' =>
        show (pure ((bs ++ [b]) ++ bs', _) : Except ε _) = pure (bs ++ b :: bs', _)
        rw [List.append_assoc]
        rfl

end HyperMoE.Lib.Outcome
