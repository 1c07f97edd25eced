/-!
# Powers — powers of numbers are those of the core library

Libraries of algebra give powers of numbers a second instance.  The one of the core library is
preferred, so that a definition means the same whatever else is imported.
-/

attribute [instance (high)] instPowNat
attribute [default_instance 20000] instPowNat
