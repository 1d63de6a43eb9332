import StepChain.Address.Encoding
import StepChain.Attempts
import StepChain.Bare
import StepChain.Logging
import StepChain.Scripted.Dialect
import StepChain.Scripted.Planned
import StepChain.Step.Describe
import StepChain.Proofs.Order.Precedence
import StepChain.Proofs.Order.DepthFirst
import StepChain.Proofs.Order.Acyclic
import StepChain.Proofs.Evaluation.Recording
import StepChain.Proofs.Evaluation.Nesting
import StepChain.Proofs.Evaluation.CallSequence
import StepChain.Proofs.Evaluation.Brackets
import StepChain.Proofs.Evaluation.LoopOnce
import StepChain.Proofs.Evaluation.PostHooks
import StepChain.Proofs.Evaluation.FailureIdentity
import StepChain.Proofs.Evaluation.DecidingScripts
import StepChain.Proofs.Evaluation.NestedRetries
import StepChain.Proofs.Compatibility
import StepChain.Proofs.Inheritance
import StepChain.Proofs.Description.Assembly
import StepChain.Proofs.Description.Entries
import StepChain.Proofs.Description.Acceptance
import StepChain.Proofs.Description.Rejection
import StepChain.Proofs.Description.Counting
import StepChain.Proofs.Description.KeyOrder
import StepChain.Proofs.Description.NamedSteps
import StepChain.Proofs.Reading.Recorded
import StepChain.Proofs.Reading.Lists
import StepChain.Proofs.Order.LeastCycle
import StepChain.Proofs.Order.Recursive
import StepChain.Proofs.Order.TieBreak
import StepChain.Proofs.Order.Unrelated
import StepChain.Proofs.Order.Restated
import StepChain.Proofs.Addresses
import StepChain.Proofs.Reading.Positions
import StepChain.Proofs.Description.Origins
import StepChain.Proofs.Description.Splitting
import StepChain.Proofs.Reading.Builtins
import StepChain.Proofs.Reading.ErrorPlaces
import StepChain.Proofs.Description.BareNames
import StepChain.Proofs.Evaluation.Places
import StepChain.Proofs.Registrations
import StepChain.Proofs.Description.Places
import StepChain.Proofs.Reading.Inlining
