import TwoPass.Proofs.FileEffects

/-!
How a run of the tool ends, on any host. It goes through its stages in a fixed order and reports the
first that fails: the configuration, the source, the program, its size, the output file. The size is
asked only where there is an output file, and the listing format only where there is none.
-/

namespace TwoPass.Options

variable {State : Type} {host : Host State} {options : Options} {files : State}

end TwoPass.Options
