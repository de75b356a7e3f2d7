import Embargo.Instance
import Embargo.Rehearsal.Scenario
import Embargo.Wire
import Embargo.Proofs.Simulation
import Embargo.Proofs.Standing
import Embargo.Proofs.Suspension
import Embargo.Proofs.Progress
import Embargo.Proofs.Attendance
import Embargo.Proofs.Discipline
import Embargo.Proofs.Members
import Embargo.Proofs.Evaluations
import Embargo.Proofs.Recovery
import Embargo.Proofs.Moves
import Embargo.Proofs.Reception
import Embargo.Proofs.Handoff
import Embargo.Proofs.Assignments
import Embargo.Proofs.Bookkeeping
import Embargo.Proofs.Halting
import Embargo.Proofs.Aftermath
import Embargo.Proofs.Retelling
import Embargo.Proofs.Reentry
import Embargo.Proofs.Questions
import Embargo.Proofs.Portrait
import Embargo.Proofs.Solitude
import Embargo.Proofs.Independence
import Embargo.Proofs.Completion
import Embargo.Proofs.Routes
import Embargo.Proofs.Attempts
import Embargo.Proofs.Vigil
import Embargo.Proofs.Names
import Embargo.Proofs.Repose
import Embargo.Proofs.Rebalances
import Embargo.Proofs.Foresight
import Embargo.Proofs.Settings
import Embargo.Proofs.Wording
import Embargo.Proofs.RoundTrip
import Embargo.Proofs.Durations
import Embargo.Proofs.Deadline
