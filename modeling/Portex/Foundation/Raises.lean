import Mathlib.Tactic.Common

/-!
# Computations that raise only their own errors

Of a computation that fails with an exception one asks which exceptions those may be. What a
sequence of steps raises is what its steps raise, each on the result of the one before.

## Main definitions

* `RaisesOnly own r`: the exceptions of `r` are of the kind `own`

## Main results

* `raisesOnly_bind_iff`: the exceptions of a sequence
-/

namespace Foundation

universe u v

variable {ε : Type u} {α β : Type v}

/-- Where the computation raises, it raises an error of that kind. -/
def RaisesOnly (own : ε → Prop) (r : Except ε α) : Prop := ∀ error, r = .error error → own error

variable {own : ε → Prop} {r : Except ε α} {f : α → Except ε β} {a : α} {error : ε}

@[simp] theorem raisesOnly_ok : RaisesOnly own (.ok a : Except ε α) := nofun

@[simp] theorem raisesOnly_pure : RaisesOnly own (pure a : Except ε α) := nofun

@[simp] theorem raisesOnly_error_iff : RaisesOnly own (.error error : Except ε α) ↔ own error := by
  constructor
  · intro h
    exact h error rfl
  · intro h error' heq
    obtain rfl := Except.error.inj heq
    exact h

@[simp] theorem raisesOnly_throw_iff :
    RaisesOnly own (throw error : Except ε α) ↔ own error := raisesOnly_error_iff

/-- **Sequences**: each step raises only its own errors, on the result of the one before. -/
theorem raisesOnly_bind_iff :
    RaisesOnly own (r >>= f) ↔ RaisesOnly own r ∧ ∀ a, r = .ok a → RaisesOnly own (f a) := by
  cases r with
  | error error =>
    have hbind : (.error error >>= f : Except ε β) = .error error := rfl
    rw [hbind, raisesOnly_error_iff, raisesOnly_error_iff]
    exact ⟨fun h => ⟨h, nofun⟩, fun h => h.1⟩
  | ok a =>
    constructor
    · intro h
      refine ⟨nofun, fun b hb => ?_⟩
      obtain rfl := Except.ok.inj hb
      exact h
    · intro h
      exact h.2 a rfl

theorem raisesOnly_map_iff {g : α → β} : RaisesOnly own (r.map g) ↔ RaisesOnly own r := by
  cases r with
  | error error => exact (raisesOnly_error_iff).trans raisesOnly_error_iff.symm
  | ok a => exact iff_of_true nofun nofun

end Foundation
