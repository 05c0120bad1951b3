import GameGrammar.CommandLine.Arguments
import GameGrammar.CommandLine.Execution
import GameGrammar.Completion.Dialogue
import GameGrammar.Completion.Engine
import GameGrammar.Completion.Generate
import GameGrammar.Completion.Selection
import GameGrammar.Decimal.Binary
import GameGrammar.Decimal.Fixed
import GameGrammar.Decimal.Shortest
import GameGrammar.Digest.Blake
import GameGrammar.Funnel.Engine
import GameGrammar.Funnel.Report
import GameGrammar.Funnel.Restriction
import GameGrammar.Funnel.Run
import GameGrammar.Funnel.Verdict
import GameGrammar.Grammar.Audit
import GameGrammar.Grammar.Basic
import GameGrammar.Grammar.Build
import GameGrammar.Grammar.Resolve
import GameGrammar.Listing.Argument
import GameGrammar.Listing.Fault
import GameGrammar.Listing.Reader
import GameGrammar.Listing.Token
import GameGrammar.Main
import GameGrammar.Policy.Basic
import GameGrammar.Policy.Fixed
import GameGrammar.Policy.Odds
import GameGrammar.Policy.Random
import GameGrammar.Proofs.CommandLine.Arguments
import GameGrammar.Proofs.CommandLine.Stream
import GameGrammar.Proofs.Completion.Derivation
import GameGrammar.Proofs.Completion.Earliest
import GameGrammar.Proofs.Completion.Exclusion
import GameGrammar.Proofs.Completion.Generation
import GameGrammar.Proofs.Completion.History
import GameGrammar.Proofs.Completion.IdleBounds
import GameGrammar.Proofs.Completion.Legible
import GameGrammar.Proofs.Completion.Lockstep
import GameGrammar.Proofs.Completion.Nesting
import GameGrammar.Proofs.Completion.OneLine
import GameGrammar.Proofs.Completion.Outcome
import GameGrammar.Proofs.Completion.Outline
import GameGrammar.Proofs.Completion.Progress
import GameGrammar.Proofs.Completion.Questions
import GameGrammar.Proofs.Completion.Reach
import GameGrammar.Proofs.Completion.Replay
import GameGrammar.Proofs.Completion.Selection
import GameGrammar.Proofs.Completion.Shallower
import GameGrammar.Proofs.Completion.Sketch
import GameGrammar.Proofs.Completion.Visits
import GameGrammar.Proofs.Completion.Writing
import GameGrammar.Proofs.Decimal.Characters
import GameGrammar.Proofs.Funnel.Accounting
import GameGrammar.Proofs.Funnel.Course
import GameGrammar.Proofs.Funnel.Drivers
import GameGrammar.Proofs.Funnel.Keeping
import GameGrammar.Proofs.Funnel.Noninterference
import GameGrammar.Proofs.Funnel.Observation
import GameGrammar.Proofs.Funnel.Playability
import GameGrammar.Proofs.Funnel.Proposal
import GameGrammar.Proofs.Funnel.RestrictionSets
import GameGrammar.Proofs.Funnel.Sequence
import GameGrammar.Proofs.Funnel.TextGate
import GameGrammar.Proofs.Funnel.Trail
import GameGrammar.Proofs.Grammar.Audit
import GameGrammar.Proofs.Grammar.Build
import GameGrammar.Proofs.Grammar.Groups
import GameGrammar.Proofs.Grammar.OwnName
import GameGrammar.Proofs.Grammar.Resolve
import GameGrammar.Proofs.Listing.Argument
import GameGrammar.Proofs.Listing.Extent
import GameGrammar.Proofs.Listing.Item
import GameGrammar.Proofs.Listing.Joining
import GameGrammar.Proofs.Listing.Layout
import GameGrammar.Proofs.Listing.Loading
import GameGrammar.Proofs.Listing.Locality
import GameGrammar.Proofs.Listing.Named
import GameGrammar.Proofs.Listing.Nesting
import GameGrammar.Proofs.Listing.Normal
import GameGrammar.Proofs.Listing.Printing
import GameGrammar.Proofs.Listing.RoundTrip
import GameGrammar.Proofs.Policy.Drawing
import GameGrammar.Proofs.Policy.Panics
import GameGrammar.Proofs.Slot.Filling
import GameGrammar.Proofs.Slot.Idempotence
import GameGrammar.Proofs.Slot.Identity
import GameGrammar.Proofs.Slot.Lookback
import GameGrammar.Proofs.Slot.OneLine
import GameGrammar.Proofs.Slot.OpenForms
import GameGrammar.Proofs.Slot.Passage
import GameGrammar.Proofs.Slot.Simultaneous
import GameGrammar.Proofs.Slot.Value
import GameGrammar.Proofs.Snapshot.Codec
import GameGrammar.Proofs.Snapshot.Damage
import GameGrammar.Proofs.Snapshot.Refusal
import GameGrammar.Proofs.Snapshot.Restored
import GameGrammar.Proofs.Snapshot.RoundTrip
import GameGrammar.Proofs.Store.Paths
import GameGrammar.Proofs.Store.Saving
import GameGrammar.Proofs.Store.Ways
import GameGrammar.Proofs.Text.Brackets
import GameGrammar.Proofs.Text.Case
import GameGrammar.Proofs.Text.Characters
import GameGrammar.Random.Source
import GameGrammar.Random.Uniform
import GameGrammar.Slot.Fill
import GameGrammar.Slot.Namer
import GameGrammar.Slot.Pool
import GameGrammar.Snapshot.Basic
import GameGrammar.Snapshot.Codec
import GameGrammar.Snapshot.Payload
import GameGrammar.Store.Disk
import GameGrammar.Store.Save
import GameGrammar.Text.Case
import GameGrammar.Text.Class
import GameGrammar.Word.Mixing
