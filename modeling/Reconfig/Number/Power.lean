/-
Powers of whole numbers.

An algebraic library brings powers of its own. They are the same numbers, but a bound on the
length of a word is to be one term, whatever else a module builds on.
-/
namespace Reconfig
namespace Number

/-- A power of numerals is a natural number, unless another type is asked for. -/
@[default_instance 30000]
instance (priority := high) natPower : Pow Nat Nat := instPowNat

@[default_instance 20000]
instance (priority := high) intPower : Pow Int Nat := instPowNat

end Number
end Reconfig
