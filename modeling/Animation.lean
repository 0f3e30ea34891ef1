import Animation.Json.Codec
import Animation.Session.Run
import Animation.Proofs.Script.Running
import Animation.Proofs.Stage.Handles
import Animation.Proofs.Stage.Moves
import Animation.Proofs.Stage.Ties
import Animation.Proofs.Script.Passing
import Animation.Proofs.Script.Services
import Animation.Proofs.Stage.Reachable
import Animation.Proofs.Binary.Rounding
import Animation.Proofs.Timeline.Frames
import Animation.Proofs.Stage.Bindings
import Animation.Proofs.Stage.InOrder
import Animation.Proofs.Behaviours.Path
import Animation.Proofs.Behaviours.Scene
import Animation.Proofs.Observers.Mutation
import Animation.Proofs.Observers.Told
import Animation.Proofs.Observers.Mirror
import Animation.Proofs.Behaviours.Playing
import Animation.Proofs.Behaviours.Journey
import Animation.Proofs.Behaviours.Samples
import Animation.Proofs.Observers.Delivery
import Animation.Proofs.Timeline.Turns
import Animation.Proofs.Playback.Players
import Animation.Proofs.Playback.Tasks
import Animation.Proofs.Playback.Diary
import Animation.Proofs.Playback.Heeding
import Animation.Proofs.Playback.Starting
import Animation.Proofs.Playback.Performing
import Animation.Proofs.Playback.Accounts
import Animation.Proofs.Behaviours.Roster
import Animation.Proofs.Script.Pact
import Animation.Proofs.Timeline.Mirror
import Animation.Proofs.Playback.Segments
import Animation.Proofs.Playback.Following
import Animation.Proofs.Playback.Engaging
import Animation.Proofs.Playback.Resuming
import Animation.Proofs.Binary.Scaling
import Animation.Proofs.Fixed.Conversion
import Animation.Proofs.Fixed.Encoding
import Animation.Proofs.Fixed.Arithmetic
import Animation.Proofs.Behaviours.Blame
import Animation.Proofs.Behaviours.InRange
import Animation.Proofs.Script.Stirring
import Animation.Proofs.Tasks.Vigil
import Animation.Proofs.Tasks.Fairness
import Animation.Proofs.Tasks.Schedule
import Animation.Proofs.Tasks.NoneLeft
import Animation.Proofs.Custody.Balance
import Animation.Proofs.Custody.Settled
import Animation.Proofs.Custody.Settling
import Animation.Proofs.Custody.Freed
import Animation.Proofs.Timeline.Skipping
import Animation.Proofs.Timeline.Overflow
import Animation.Proofs.Playback.OutsideRuntime
import Animation.Proofs.Timeline.Setup
import Animation.Proofs.Playback.FrameByFrame
import Animation.Proofs.Playback.GoingRound
import Animation.Proofs.Playback.Lasting
import Animation.Proofs.Fixed.Interpolation
import Animation.Proofs.Behaviours.Acceptance
import Animation.Proofs.Observers.Refusal
import Animation.Proofs.Observers.Lens
import Animation.Proofs.Script.Conduct
import Animation.Proofs.Behaviours.Bystanders
import Animation.Proofs.Playback.Loyalty
import Animation.Proofs.Playback.FanOut
import Animation.Proofs.Behaviours.Fading
import Animation.Proofs.Script.Regime
import Animation.Proofs.Observers.Enrolment
import Animation.Proofs.Script.Trace
import Animation.Proofs.Observers.Dispatch
import Animation.Proofs.Observers.Handling
import Animation.Proofs.Behaviours.Asking
import Animation.Proofs.Json.Rereading
import Animation.Proofs.Json.Untagged
import Animation.Proofs.Timeline.Jumping
import Animation.Proofs.Observers.Coalescing
import Animation.Proofs.Locks.Agreement
import Animation.Proofs.Locks.Lenders
