import AnchorScan.CommandLine.Machine
import AnchorScan.Json.Anchor
import AnchorScan.Main
import AnchorScan.Proofs.Layout
import AnchorScan.Proofs.Buffers
import AnchorScan.Proofs.Expectation
import AnchorScan.Proofs.Sweep
import AnchorScan.Proofs.Progress
import AnchorScan.Proofs.Preparation
import AnchorScan.Proofs.Streaming
import AnchorScan.Proofs.Chunking
import AnchorScan.Proofs.Reading
import AnchorScan.Proofs.Delivery
import AnchorScan.Proofs.CallingOff
import AnchorScan.Proofs.Refusals
import AnchorScan.Proofs.Representation
import AnchorScan.Proofs.Guards
import AnchorScan.Proofs.GuardedRun
import AnchorScan.Proofs.History
import AnchorScan.Proofs.LineText
import AnchorScan.Proofs.FileText
import AnchorScan.Proofs.Writing
import AnchorScan.Proofs.LoadedFile
import AnchorScan.Proofs.Prospects
import AnchorScan.Proofs.DeclaredSize
import AnchorScan.Proofs.Registration
import AnchorScan.Proofs.JsonText
import AnchorScan.Proofs.JsonDocument
import AnchorScan.Proofs.JsonRecords
import AnchorScan.Proofs.Jobs
import AnchorScan.Proofs.Batches
import AnchorScan.Proofs.SideBySide
import AnchorScan.Proofs.PatternSplit
import AnchorScan.Proofs.EarlyEnd
import AnchorScan.Proofs.RefusedLoading
import AnchorScan.Proofs.LineByLine
import AnchorScan.Proofs.Spelling
import AnchorScan.Proofs.LogLines
import AnchorScan.Proofs.Transcript
import AnchorScan.Proofs.Warnings
import AnchorScan.Proofs.SettingsFile
import AnchorScan.Proofs.ReportLines
import AnchorScan.Proofs.Colors
import AnchorScan.Proofs.SizeReading
import AnchorScan.Proofs.DurationReading
import AnchorScan.Proofs.Tiling
