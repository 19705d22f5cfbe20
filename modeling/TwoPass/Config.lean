/-!
The configuration: the size of the memory that a program has to fit in, and its name in a memory
image.
-/

namespace TwoPass

structure Config where
  memoryWords : Nat := 256
  memoryName : String := "memory"
deriving DecidableEq

end TwoPass
