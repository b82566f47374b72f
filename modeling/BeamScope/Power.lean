/-!
# Powers

Powers of natural numbers and integers are the built-in ones in every module, whatever other powers
a module knows. So a bound such as `2 ^ 63` is one term throughout.
-/

namespace BeamScope

@[default_instance 20000]
instance (priority := 2000) builtinPow {α : Type} [NatPow α] : Pow α Nat := instPowNat

end BeamScope
