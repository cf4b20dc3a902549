/-!
# Powers

A power of a natural number or an integer is the one of the core library, also in a module
that imports another library with powers of its own.
-/

attribute [instance(20000), default_instance 20000] instPowNat
