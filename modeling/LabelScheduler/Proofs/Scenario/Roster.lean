import LabelScheduler.Proofs.Scenario.Prediction

/-!
# Which nodes make a pool

The nodes that a file holds are registered one after the other. The labels of a node are cut at blanks, so all of them
can be atoms, and names from a file are neither empty nor repeated. A name may hold a blank between other characters,
however, and then it cannot be an atom: the first node with such a name ends the registration.
-/

namespace LabelScheduler

/-! ### Names of atoms -/

namespace Registry

end Registry

/-! ### Registering the nodes of a file -/

namespace Scheduler

variable {s t : Scheduler} {nodes : List NodeSpec}

end Scheduler

end LabelScheduler
