import Mathlib.Data.List.Basic

/-! # Strings and errors

A string is a sequence of bytes with no encoding attached, so that keys built by
concatenation keep every byte that went into them. An error is a cause under the
texts it was wrapped in, outermost first.
-/

namespace DMS

abbrev GoString := List UInt8

instance GoString.lawfulBEq : LawfulBEq GoString := inferInstance

def ascii (text : String) : GoString := text.toList.map fun c => UInt8.ofNat c.toNat

/-- A string as `%s` puts it into the text of an error, byte by byte. -/
def printed (s : GoString) : String := String.ofList (s.map fun b => Char.ofNat b.toNat)

/-- `context` holds the texts of the `fmt.Errorf("text: %w", err)` layers over the
sentinel or library error `cause`. -/
structure GoError (κ : Type) where
  context : List String
  cause : κ
deriving DecidableEq, Repr

namespace GoError

variable {κ : Type}

def new (cause : κ) : GoError κ := ⟨[], cause⟩

def wrap (text : String) (e : GoError κ) : GoError κ := { e with context := text :: e.context }

def lift {κ' : Type} (f : κ → κ') (e : GoError κ) : GoError κ' := ⟨e.context, f e.cause⟩

end GoError

namespace Outcome

variable {ε α β : Type}

variable {x : Except ε α}

theorem ite_error_eq_ok {c} [Decidable c] {e a} :
    (if c then .error e else x) = .ok a ↔ ¬ c ∧ x = .ok a := by
  split <;> next h => simp [h]

theorem bind_eq_ok {f} {b : β} : x.bind f = .ok b ↔ ∃ a, x = .ok a ∧ f a = .ok b := by
  cases x <;> simp [Except.bind]

theorem map_eq_ok {f} {b : β} : x.map f = .ok b ↔ ∃ a, x = .ok a ∧ f a = b := by
  cases x <;> simp [Except.map]

theorem map_eq_error {f : α → β} {e : ε} : x.map f = .error e ↔ x = .error e := by
  cases x <;> simp [Except.map]

theorem mapError_eq_ok {ε' : Type} {f : ε → ε'} {a : α} : x.mapError f = .ok a ↔ x = .ok a := by
  cases x <;> simp [Except.mapError]

theorem isOk_iff : x.isOk = true ↔ ∃ a, x = .ok a := by
  cases x <;> simp [Except.isOk, Except.toBool]

end Outcome

end DMS
