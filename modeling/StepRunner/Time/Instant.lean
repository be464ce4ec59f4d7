namespace StepRunner

/-- A moment on the clock that file systems keep: nanoseconds since 1970, without leap seconds. -/
structure Instant where
  nanoseconds : Int
deriving DecidableEq, Repr, Inhabited

namespace Instant

/-- The nanoseconds of a second. -/
def perSecond : Nat := 1000000000

/-- The moment `nanos` nanoseconds after `seconds` seconds. -/
def ofParts (seconds : Int) (nanos : Nat) : Instant := ⟨seconds * perSecond + nanos⟩

/-- The whole seconds up to the moment. -/
def seconds (t : Instant) : Int := t.nanoseconds / perSecond

/-- The nanoseconds past the whole seconds. -/
def subsecond (t : Instant) : Nat := (t.nanoseconds % perSecond).toNat

instance : LE Instant := ⟨fun a b => a.nanoseconds ≤ b.nanoseconds⟩
instance : LT Instant := ⟨fun a b => a.nanoseconds < b.nanoseconds⟩

instance (a b : Instant) : Decidable (a ≤ b) := inferInstanceAs (Decidable (a.nanoseconds ≤ b.nanoseconds))
instance (a b : Instant) : Decidable (a < b) := inferInstanceAs (Decidable (a.nanoseconds < b.nanoseconds))

theorem le_refl (a : Instant) : a ≤ a := Int.le_refl a.nanoseconds

theorem le_trans {a b c : Instant} (hab : a ≤ b) (hbc : b ≤ c) : a ≤ c := Int.le_trans hab hbc

end Instant

end StepRunner
