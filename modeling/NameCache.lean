import NameCache.Text.Utf8
import NameCache.Text.Ranges
import NameCache.Text.Property.Extending
import NameCache.Text.Property.Unassigned
import NameCache.Text.Property
import NameCache.Text.Quoted
import NameCache.Text.Record
import NameCache.Digest
import NameCache.Entry
import NameCache.Fault
import NameCache.Step
import NameCache.Entry.Create
import NameCache.Directory.Side
import NameCache.Log
import NameCache.Entry.Custody
import NameCache.Settings.Basic
import NameCache.Settings.Reading
import NameCache.SlotLists
import NameCache.Table
import NameCache.Shelf
import NameCache.Pool
import NameCache.Tally
import NameCache.Directory.Basic
import NameCache.Directory.Update
import NameCache.Directory.Lookup
import NameCache.Directory.Action
import NameCache.Log.Text
import NameCache.World.Basic
import NameCache.World.Management
import NameCache.World.Text
import NameCache.Session.Command
import NameCache.Session.Run
import NameCache.Session.PoolCommand
import NameCache.Proofs.Digest
import NameCache.Proofs.Step
import NameCache.Proofs.Loops
import NameCache.Proofs.Log
import NameCache.Proofs.Machine
import NameCache.Proofs.SlotLists
import NameCache.Proofs.SlotLists.Sequences
import NameCache.Proofs.Entries
import NameCache.Proofs.Table
import NameCache.Proofs.Scanning
import NameCache.Proofs.Rows
import NameCache.Proofs.Pool
import NameCache.Proofs.Directory.Standing
import NameCache.Proofs.Directory.Ledger
import NameCache.Proofs.Directory.Upkeep
import NameCache.Proofs.Directory.Confirming
import NameCache.Proofs.Directory.Soundness
import NameCache.Proofs.Directory.Destroying
import NameCache.Proofs.Directory.Operations
import NameCache.Proofs.Directory.Draining
import NameCache.Proofs.Directory.Acting
import NameCache.Proofs.Directory.Deeds
import NameCache.Proofs.Directory.Effects
import NameCache.Proofs.Directory.Insertions
import NameCache.Proofs.Directory.Brackets
import NameCache.Proofs.Directory.Recency
import NameCache.Proofs.Places
import NameCache.Proofs.Directory.Finding
import NameCache.Proofs.Directory.Walking
import NameCache.Proofs.World.Hosting
import NameCache.Proofs.World.Quiet
import NameCache.Proofs.Session.Hushed
import NameCache.Proofs.Session.History
import NameCache.Proofs.Session.Passage
import NameCache.Proofs.Session.Courses
import NameCache.Proofs.Session.Answers
import NameCache.Proofs.Session.Fates
import NameCache.Proofs.Session.Membership
import NameCache.Proofs.Session.Placement
import NameCache.Proofs.Session.Generations
import NameCache.Proofs.Session.Lookups
import NameCache.Proofs.Session.Refusals
import NameCache.Proofs.Directory.Rescanning
import NameCache.Proofs.Session.Rescans
import NameCache.Proofs.Directory.Keys
import NameCache.Proofs.Session.Dealings
import NameCache.Proofs.Session.References
import NameCache.Proofs.Directory.Mirroring
import NameCache.Proofs.Directory.Alone
import NameCache.Proofs.Session.Independence
import NameCache.Proofs.Directory.Stamps
import NameCache.Proofs.Session.Validity
import NameCache.Proofs.Directory.Counters
import NameCache.Proofs.Directory.Demoting
import NameCache.Proofs.Session.Walks
import NameCache.Proofs.Directory.Shape
import NameCache.Proofs.Directory.Work
import NameCache.Proofs.Session.Frames
import NameCache.Proofs.Settings.Sizes
import NameCache.Proofs.Settings.Reading
import NameCache.Proofs.Text.Utf8
import NameCache.Proofs.Settings.Environment
import NameCache.Proofs.Session.Geometry
import NameCache.Proofs.World.Census
import NameCache.Proofs.Session.Counts
import NameCache.Proofs.Directory.Idling
import NameCache.Proofs.Session.Idling
import NameCache.Proofs.Directory.Emptying
import NameCache.Proofs.Session.Pools
import NameCache.Proofs.Session.Emptying
import NameCache.Proofs.Session.Duplicates
import NameCache.Proofs.Session.Overlooking
import NameCache.Proofs.Session.Lifetimes
import NameCache.Proofs.Session.Endings
