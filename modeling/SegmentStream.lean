import SegmentStream.Attribute.Json
import SegmentStream.Config.Json
import SegmentStream.Crc32
import SegmentStream.Recorder.Basic
import SegmentStream.Telemetry.Snapshot
import SegmentStream.Telemetry.Varint
import SegmentStream.Proofs.Outcome
import SegmentStream.Proofs.Storage.View
import SegmentStream.Proofs.Storage.Calls
import SegmentStream.Proofs.Target.Contents
import SegmentStream.Proofs.Target.Calls
import SegmentStream.Proofs.Header.Updates
import SegmentStream.Proofs.Recorder.Transcript
import SegmentStream.Proofs.Recorder.Script
import SegmentStream.Proofs.Recorder.Writing
import SegmentStream.Proofs.Recorder.Batch
import SegmentStream.Proofs.Recorder.Session
import SegmentStream.Proofs.Recorder.Start
import SegmentStream.Proofs.Recorder.Stream
import SegmentStream.Proofs.Recorder.Batching
import SegmentStream.Proofs.Recorder.Retry
import SegmentStream.Proofs.Header.Reading
import SegmentStream.Proofs.Attribute.Listing
import SegmentStream.Proofs.Attribute.Reading
import SegmentStream.Proofs.Target.Reading
import SegmentStream.Proofs.Recorder.Reading
import SegmentStream.Proofs.Recorder.Reference
import SegmentStream.Proofs.Recorder.Segmentation
import SegmentStream.Proofs.Recorder.Ledger
import SegmentStream.Proofs.Recorder.Rotating
import SegmentStream.Proofs.Recorder.Describing
import SegmentStream.Proofs.Recorder.Enduring
import SegmentStream.Proofs.Recorder.Resuming
import SegmentStream.Proofs.Recorder.Routing
import SegmentStream.Proofs.Recorder.Hearing
import SegmentStream.Proofs.Recorder.Timing
import SegmentStream.Proofs.Beside
import SegmentStream.Proofs.Storage.Mirrors
import SegmentStream.Proofs.Target.Mirrors
import SegmentStream.Proofs.Recorder.Replies
import SegmentStream.Proofs.Recorder.Counting
import SegmentStream.Proofs.Recorder.Mirrors
import SegmentStream.Proofs.Recorder.Images
import SegmentStream.Proofs.Recorder.Opening
import SegmentStream.Proofs.Recorder.Likeness
import SegmentStream.Proofs.Recorder.Portraits
import SegmentStream.Proofs.Recorder.Moves
import SegmentStream.Proofs.Recorder.Tally
import SegmentStream.Proofs.Recorder.Installed
import SegmentStream.Proofs.Recorder.Serving
import SegmentStream.Proofs.Recorder.Accounts
import SegmentStream.Proofs.Recorder.Files
import SegmentStream.Proofs.Binary64
import SegmentStream.Proofs.Header.Limits
import SegmentStream.Proofs.Recorder.Legible
import SegmentStream.Proofs.Recorder.Recasting
import SegmentStream.Proofs.Recorder.Layouts
import SegmentStream.Proofs.Target.Rewriting
import SegmentStream.Proofs.Recorder.Gaps
import SegmentStream.Proofs.Crc32
import SegmentStream.Proofs.Header.Accepting
import SegmentStream.Proofs.Recorder.Evolving
import SegmentStream.Proofs.Recorder.Loop
import SegmentStream.Proofs.Recorder.Fitting
import SegmentStream.Proofs.Recorder.Amending
import SegmentStream.Proofs.Recorder.Anywhere
import SegmentStream.Proofs.Json.Grammar
import SegmentStream.Proofs.Json.Parser
import SegmentStream.Proofs.Json.Acceptance
import SegmentStream.Proofs.Json.Printer
import SegmentStream.Proofs.Json.Numerals
import SegmentStream.Proofs.Config.Json
import SegmentStream.Proofs.Attribute.Measuring
import SegmentStream.Proofs.Header.Replaying
import SegmentStream.Proofs.Telemetry.Varint
import SegmentStream.Proofs.Storage.Cursors
