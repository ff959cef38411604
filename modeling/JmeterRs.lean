import JmeterRs.Controllers.NextLoop
import JmeterRs.Controllers.Uniform
import JmeterRs.Logic.Invariant
import JmeterRs.Logic.Agree
import JmeterRs.Scope.Law
import JmeterRs.Scope.Visit
import JmeterRs.Coordination.Fifo
import JmeterRs.Coordination.Wake
import JmeterRs.Execution.Receipt
import JmeterRs.Execution.Survive
import JmeterRs.Execution.Undo
import JmeterRs.Coordination.Refused
import JmeterRs.Results.Timing
import JmeterRs.Router.Complete
import JmeterRs.Remote.Redelivery
import JmeterRs.Remote.Settlement
import JmeterRs.Remote.Samples
import JmeterRs.Remote.Statistical
import JmeterRs.Pool.Expiry
