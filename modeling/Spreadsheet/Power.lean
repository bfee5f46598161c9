/-!
# Powers

Natural powers of numbers are those of their own type, also where a monoid would provide them.
-/

attribute [instance (2000), default_instance 20000] instPowNat
